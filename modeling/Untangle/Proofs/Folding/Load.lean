import Untangle.Proofs.Folding.Spending

namespace Untangle
open Rebuild

def Head.counts : Head → Bool
  | .branch _ _ => true
  | .not => true
  | .numberCompare => true
  | .freeCall _ _ => true
  | .boundCall _ _ => true
  | _ => false

def Node.load (node : Node) : Nat := node.walk.countP (·.head.counts)
def Block.load (block : Block) : Nat := (Block.walk block).countP (·.head.counts)

def loads (nodes : List Node) : Nat := (nodes.map Node.load).sum

@[simp] theorem loads_nil : loads [] = 0 := rfl
@[simp] theorem loads_cons {node : Node} {rest : List Node} : loads (node :: rest) = node.load + loads rest := by
  simp [loads]
@[simp] theorem loads_append {first second : List Node} : loads (first ++ second) = loads first + loads second := by
  simp [loads]

def Node.charge (node : Node) : Nat := if node.head.counts then 1 else 0

theorem Node.load_children (node : Node) : node.load = node.charge + loads node.children := by
  unfold load charge loads
  rw [node.walk_children,List.countP_cons,List.countP_flatMap,Nat.add_comm]
  rfl

theorem Block.load_loads (block : Block) : block.load = loads (block.map .ofStatement) := by
  unfold load loads Block.walk
  rw [List.countP_flatMap,List.map_map]
  rfl

theorem Block.load_sum (block : Block) : block.load = (block.map fun statement => (Node.ofStatement statement).load).sum := by
  rw [load_loads,loads,List.map_map]
  rfl

@[simp] theorem Block.load_cons {statement : Statement} {rest : Block} :
    Block.load (statement :: rest) = (Node.ofStatement statement).load + Block.load rest := by
  simp only [Block.load_loads,List.map_cons,loads_cons]
@[simp] theorem Block.load_nil : Block.load [] = 0 := rfl

theorem Node.charge_filled (node : Node) (parts : List Node) (blocks : List Block) :
    ((node.withParts parts).withBlocks blocks).charge = node.charge := by
  unfold charge
  cases node with
  | ofExpr expr =>
    change (if (expr.kind.withChildren parts).head.counts then 1 else 0) = _
    rw [expr.kind.head_withChildren]
    rfl
  | ofCondition condition =>
    change (if (condition.withChildren parts).head.counts then 1 else 0) = _
    rw [condition.head_withChildren]
    rfl
  | ofStatement statement =>
    have blocks (statement : Statement) : (statement.withBlocks blocks).head.counts = statement.head.counts := by
      unfold Statement.withBlocks
      split <;> rfl
    have parts : (statement.withParts parts).head.counts = statement.head.counts := by
      unfold Statement.withParts
      split <;> rfl
    change (if ((statement.withParts _).withBlocks _).head.counts then 1 else 0) = _
    rw [blocks,parts]
    rfl

theorem loads_blocks (blocks : List Block) :
    loads (blocks.flatMap fun block => block.map .ofStatement) = (blocks.map Block.load).sum := by
  induction blocks with
  | nil => rfl
  | cons block rest ih => simp [ih,Block.load_loads]

theorem Node.load_filled {node : Node} {parts : List Node} {blocks : List Block} (fits : Fits node.parts parts)
    (long : blocks.length = node.blocks.length) : ((node.withParts parts).withBlocks blocks).load =
      node.charge + (loads parts + (blocks.map Block.load).sum) := by
  rw [load_children,charge_filled,children_filled fits long,loads_append,loads_blocks]

theorem Node.load_parts (node : Node) :
    node.load = node.charge + (loads node.parts + (node.blocks.map Block.load).sum) := by
  rw [load_children,children_split,loads_append,loads_blocks]

end Untangle
