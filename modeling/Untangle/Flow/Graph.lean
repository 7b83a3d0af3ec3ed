import Untangle.Tree.Statement

namespace Untangle

abbrev BlockId := Nat

def blockLabel (block : BlockId) : String := "bb" ++ toString block

inductive Terminator where
  | goto (target : BlockId)
  | branch (condition : Condition) (thenTarget elseTarget : BlockId)
  -- Several cases may share a target.
  | switch (discriminant : Expr) (cases : List (Int32 × BlockId)) (default : BlockId)
  | ret (value : Option Expr)
  | throw (exception : Expr)

namespace Terminator

def successors : Terminator → List BlockId
  | goto target => [target]
  | branch _ thenTarget elseTarget => [thenTarget,elseTarget]
  | switch _ cases default => cases.map (·.2) ++ [default]
  | ret _ => []
  | throw _ => []

def isExit : Terminator → Bool
  | ret _ => true
  | throw _ => true
  | _ => false

def caseLabels : Terminator → List Int32
  | switch _ cases _ => cases.map (·.1)
  | _ => []

end Terminator

structure BasicBlock where
  statements : Block
  terminator : Terminator

-- One row of the exception table: the blocks from `first` up to but not including `past` are
-- protected. No caught class means every class.
structure ProtectedRange where
  first : BlockId
  past : BlockId
  handler : BlockId
  caught : Option String
deriving DecidableEq

def ProtectedRange.covers (row : ProtectedRange) (block : BlockId) : Bool :=
  row.first ≤ block && block < row.past

inductive FlowError where
  | emptyGraph
  | targetOutOfRange (block target : BlockId)
  | duplicateCase (block : BlockId) (label : Int32)
  | invalidRange (index : Nat) (first past : BlockId)
  | handlerInsideRange (index : Nat) (handler : BlockId)
  | irreducible (block : BlockId)
  | ambiguousLoop (header : BlockId)
deriving DecidableEq

def FlowError.message : FlowError → String
  | emptyGraph => "block graph has no blocks"
  | targetOutOfRange block target =>
    blockLabel block ++ " jumps to " ++ blockLabel target ++ ", which does not exist"
  | duplicateCase block label =>
    "switch in " ++ blockLabel block ++ " lists case " ++ toString label.toInt ++ " twice"
  | invalidRange index first past =>
    "exception table entry " ++ toString index ++ " has an invalid range " ++ blockLabel first ++ ".." ++
      blockLabel past
  | handlerInsideRange index handler =>
    "exception table entry " ++ toString index ++ " has handler " ++ blockLabel handler ++
      " inside its own range"
  | irreducible block => "irreducible control flow entering " ++ blockLabel block
  | ambiguousLoop header =>
    "loop at " ++ blockLabel header ++ " overlaps another loop without nesting"

def repeated? [DecidableEq α] (seen : List α) : List α → Option α
  | [] => none
  | item :: rest => if item ∈ seen then some item else repeated? (item :: seen) rest

-- Faults of one block: a jump out of the graph is reported before a case that is listed twice.
def BasicBlock.fault? (block : BasicBlock) (size : Nat) (id : BlockId) : Option FlowError :=
  match block.terminator.successors.find? (size ≤ ·) with
  | some target => some (.targetOutOfRange id target)
  | none => (repeated? [] block.terminator.caseLabels).map (.duplicateCase id)

def ProtectedRange.fault? (row : ProtectedRange) (size index : Nat) : Option FlowError :=
  if row.past ≤ row.first ∨ size < row.past then some (.invalidRange index row.first row.past)
  else if size ≤ row.handler then some (.targetOutOfRange row.first row.handler)
  else if row.covers row.handler then some (.handlerInsideRange index row.handler)
  else none

def firstFault (blocks : List BasicBlock) (table : List ProtectedRange) : Option FlowError :=
  if blocks.isEmpty then some .emptyGraph else
  (blocks.zipIdx.findSome? fun (block,id) => block.fault? blocks.length id).or
    (table.zipIdx.findSome? fun (row,index) => row.fault? blocks.length index)

structure BlockGraph where
  blocks : List BasicBlock
  table : List ProtectedRange
  sound : firstFault blocks table = none

namespace BlockGraph

def make (blocks : List BasicBlock) (table : List ProtectedRange) : Except FlowError BlockGraph :=
  match sound : firstFault blocks table with
  | some fault => .error fault
  | none => .ok ⟨blocks,table,sound⟩

def size (graph : BlockGraph) : Nat := graph.blocks.length
def entry (_ : BlockGraph) : BlockId := 0
def ids (graph : BlockGraph) : List BlockId := List.range graph.size

-- A block outside the graph reads as an empty one that returns.
def terminator (graph : BlockGraph) (id : BlockId) : Terminator :=
  match graph.blocks[id]? with
  | some block => block.terminator
  | none => .ret none

def statements (graph : BlockGraph) (id : BlockId) : Block :=
  match graph.blocks[id]? with
  | some block => block.statements
  | none => []

def successors (graph : BlockGraph) (id : BlockId) : List BlockId := (graph.terminator id).successors

def predecessors (graph : BlockGraph) (id : BlockId) : List BlockId :=
  graph.ids.filter fun source => id ∈ graph.successors source

def exits (graph : BlockGraph) : List BlockId := graph.ids.filter fun id => (graph.terminator id).isExit

def handlerEntries (graph : BlockGraph) : List BlockId :=
  graph.table.foldl (fun entries row => if row.handler ∈ entries then entries else entries ++ [row.handler]) []

-- Where control may start along normal edges: the entry and every handler.
def roots (graph : BlockGraph) : List BlockId := graph.entry :: graph.handlerEntries

def handlersOf (graph : BlockGraph) (id : BlockId) : List BlockId :=
  (graph.table.filter (·.covers id)).map (·.handler)

end BlockGraph
end Untangle
