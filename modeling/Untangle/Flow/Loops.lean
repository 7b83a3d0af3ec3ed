import Untangle.Flow.Dominance

namespace Untangle

structure NaturalLoop where
  header : BlockId
  latches : List BlockId
  body : List BlockId
deriving DecidableEq

namespace NaturalLoop

def contains (loop : NaturalLoop) (id : BlockId) : Bool := id ∈ loop.body

-- Blocks outside that a body block branches to, in block order.
def exits (loop : NaturalLoop) (graph : BlockGraph) : List BlockId :=
  graph.ids.filter fun id => id ∉ loop.body && loop.body.any fun source => id ∈ graph.successors source

def shared (left right : NaturalLoop) : Nat := (left.body.filter (· ∈ right.body)).length

def nests (left right : NaturalLoop) : Bool :=
  let both := left.shared right
  both == 0 || both == left.body.length || both == right.body.length

end NaturalLoop

abbrev LoopForest := List NaturalLoop

namespace LoopForest

def retreating (graph : BlockGraph) (order : List BlockId) : List (BlockId × BlockId) :=
  graph.ids.flatMap fun source =>
    match BlockGraph.position? order source with
    | none => []
    | some here =>
      ((graph.successors source).filter fun target =>
        match BlockGraph.position? order target with
        | none => false
        | some there => there ≤ here).map fun target => (source,target)

-- The header, and every ordered block that reaches a latch without going through the header.
def bodyOf (graph : BlockGraph) (order : List BlockId) (header : BlockId) (latches : List BlockId) :
    List BlockId :=
  let back (id : BlockId) : List BlockId := (graph.predecessors id).filter (· ∈ order)
  let found := reach graph.size back latches [header]
  graph.ids.filter (· ∈ found)

def loopAt? (graph : BlockGraph) (order : List BlockId) (edges : List (BlockId × BlockId))
    (header : BlockId) : Option NaturalLoop :=
  match graph.ids.filter fun source => (source,header) ∈ edges with
  | [] => none
  | latches => some ⟨header,latches,bodyOf graph order header latches⟩

def overlap? : List NaturalLoop → Option BlockId
  | [] => none
  | outer :: rest =>
    match rest.find? fun inner => !outer.nests inner with
    | some inner => some inner.header
    | none => overlap? rest

-- A retreating edge that is no back edge means a second way into a cycle.
def compute (graph : BlockGraph) (doms : Dominance) (order : List BlockId) : Except FlowError LoopForest :=
  let edges := retreating graph order
  match edges.find? fun (source,target) => !doms.dominates target source with
  | some (_,target) => .error (.irreducible target)
  | none =>
    let loops := graph.ids.filterMap (loopAt? graph order edges)
    match overlap? loops with
    | some header => .error (.ambiguousLoop header)
    | none => .ok loops

def get? (forest : LoopForest) (header : BlockId) : Option NaturalLoop := forest.find? (·.header == header)
def isHeader (forest : LoopForest) (id : BlockId) : Bool := forest.any (·.header == id)

-- The loop with the smallest body around a block; the first of several.
def innermost? (forest : LoopForest) (id : BlockId) : Option NaturalLoop :=
  (forest.filter (·.contains id)).foldl (fun best loop =>
    match best with
    | none => some loop
    | some smallest => if loop.body.length < smallest.body.length then some loop else best) none

end LoopForest
end Untangle
