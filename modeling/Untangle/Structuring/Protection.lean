import Untangle.Structuring.Error

namespace Untangle

-- Rows of one range that share a handler. A row that catches everything makes the whole clause do so.
structure CatchGroup where
  handler : BlockId
  types : List String
  catchAll : Bool
deriving DecidableEq

structure TryRegion where
  first : BlockId
  past : BlockId
  clauses : List CatchGroup
deriving DecidableEq

namespace CatchGroup

def start (handler : BlockId) : CatchGroup := ⟨handler,[],false⟩

def add (group : CatchGroup) : Option String → CatchGroup
  | none => {group with catchAll:=true}
  | some type => if type ∈ group.types then group else {group with types:=group.types ++ [type]}

def caught (group : CatchGroup) : List String := if group.catchAll then [] else group.types

end CatchGroup

namespace TryRegion

-- Adds a row to the clauses of its range. Rows of one handler merge only while adjacent.
def addClause (row : ProtectedRange) : List CatchGroup → Except StructureError (List CatchGroup)
  | [] => .ok [(CatchGroup.start row.handler).add row.caught]
  | [last] =>
    if last.handler = row.handler then .ok [last.add row.caught]
    else .ok [last,(CatchGroup.start row.handler).add row.caught]
  | group :: rest =>
    if group.handler = row.handler then .error (.interleavedHandlers row.handler)
    else (addClause row rest).map (group :: ·)

def addRow (row : ProtectedRange) : List TryRegion → Except StructureError (List TryRegion)
  | [] => (addClause row []).map fun clauses => [⟨row.first,row.past,clauses⟩]
  | region :: rest =>
    if region.first = row.first ∧ region.past = row.past then
      (addClause row region.clauses).map fun clauses => {region with clauses} :: rest
    else (addRow row rest).map (region :: ·)

def overlaps (left right : TryRegion) : Bool := left.first < right.past && right.first < left.past

def nests (left right : TryRegion) : Bool :=
  (left.first ≤ right.first && right.past ≤ left.past) ||
    (right.first ≤ left.first && left.past ≤ right.past)

-- The later start of the first two regions that overlap without nesting.
def crossing? : List TryRegion → Option BlockId
  | [] => none
  | outer :: rest =>
    match rest.find? fun inner => outer.overlaps inner && !outer.nests inner with
    | some inner => some (max inner.first outer.first)
    | none => crossing? rest

def group (table : List ProtectedRange) : Except StructureError (List TryRegion) := do
  let regions ← table.foldlM (fun regions row => addRow row regions) []
  match crossing? regions with
  | some block => .error (.overlappingHandlers block)
  | none => .ok regions

def blocks (region : TryRegion) : List BlockId :=
  (List.range region.past).filter (region.first ≤ ·)

def handlers (region : TryRegion) : List BlockId := region.clauses.map (·.handler)

end TryRegion
end Untangle
