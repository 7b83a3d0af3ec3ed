import Untangle.Tree.Node

namespace Untangle

theorem visit_behind (pending : List Node) (visited : Array Node) :
    (visit pending visited).toList = visited.toList ++ (visit pending #[]).toList := by
  match pending with
  | [] => simp [visit]
  | node :: rest =>
    rw [visit,visit,visit_behind (node.children ++ rest) (visited.push node),
      visit_behind (node.children ++ rest) (Array.push #[] node)]
    simp
termination_by weight pending
decreasing_by
  all_goals
    rw [weight_append,weight_cons]
    have := weight_children node
    omega

theorem visit_step (node : Node) (rest : List Node) :
    (visit (node :: rest) #[]).toList = node :: (visit (node.children ++ rest) #[]).toList := by
  rw [visit,visit_behind]
  simp

theorem visit_append (first second : List Node) :
    (visit (first ++ second) #[]).toList = (visit first #[]).toList ++ (visit second #[]).toList := by
  match first with
  | [] => simp [visit]
  | node :: rest =>
    rw [List.cons_append,visit_step,visit_step,← List.append_assoc,visit_append (node.children ++ rest) second]
    simp
termination_by weight first
decreasing_by
  rw [weight_append,weight_cons]
  have := weight_children node
  omega

theorem visit_walks (pending : List Node) : (visit pending #[]).toList = pending.flatMap Node.walk := by
  induction pending with
  | nil => simp [visit]
  | cons node rest ih =>
    have apart : node :: rest = [node] ++ rest := rfl
    rw [apart,visit_append,ih]
    rfl

theorem Node.walk_children (node : Node) : node.walk = node :: node.children.flatMap Node.walk := by
  have step := visit_step node []
  rw [List.append_nil,visit_walks node.children] at step
  exact step

theorem weight_member {node : Node} {nodes : List Node} (member : node ∈ nodes) : node.weight ≤ weight nodes := by
  induction nodes with
  | nil => cases member
  | cons other rest ih =>
    rw [weight_cons]
    cases member with
    | head => omega
    | tail _ later =>
      have := ih later
      omega

theorem Node.below {motive : Node → Prop}
    (step : ∀ node, (∀ child ∈ node.children, motive child) → motive node) (node : Node) : motive node :=
  step node fun child member =>
    have : child.weight < node.weight := Nat.lt_of_le_of_lt (weight_member member) (weight_children node)
    Node.below step child
termination_by node.weight

def Node.upward (node : Node) : List Node :=
  (node.children.attach.flatMap fun ⟨child,_⟩ => child.upward) ++ [node]
termination_by node.weight
decreasing_by exact Nat.lt_of_le_of_lt (weight_member ‹_›) (weight_children node)

def Block.upward (block : Block) : List Node := block.flatMap fun statement => (Node.ofStatement statement).upward

theorem Node.upward_children (node : Node) : node.upward = node.children.flatMap upward ++ [node] := by
  rw [upward]
  exact congrArg (· ++ [node]) ((List.flatMap_subtype fun _ _ => rfl).trans (by rw [List.unattach_attach]))

def Node.Throughout (holds : Node → Prop) (node : Node) : Prop := ∀ inner ∈ node.walk, holds inner

def Block.Throughout (holds : Node → Prop) (block : Block) : Prop := ∀ inner ∈ Block.walk block, holds inner

variable {holds : Node → Prop}

theorem Node.throughout_children {node : Node} :
    node.Throughout holds ↔ holds node ∧ ∀ child ∈ node.children, child.Throughout holds := by
  unfold Node.Throughout
  rw [node.walk_children]
  simp only [List.mem_cons,List.mem_flatMap,forall_eq_or_imp,forall_exists_index,and_imp]
  exact and_congr_right fun _ => ⟨fun all child member inner below => all inner child member below,
    fun all inner child member below => all child member inner below⟩

theorem Block.throughout_statements {block : Block} :
    block.Throughout holds ↔ ∀ statement ∈ block, (Node.ofStatement statement).Throughout holds := by
  unfold Block.Throughout Node.Throughout Block.walk
  simp only [List.mem_flatMap,forall_exists_index,and_imp]
  exact ⟨fun all statement member inner below => all inner statement member below,
    fun all inner statement member below => all statement member inner below⟩

@[simp] theorem Block.throughout_nil : Block.Throughout holds [] := Block.throughout_statements.mpr (by simp)
@[simp] theorem Block.throughout_cons {statement : Statement} {rest : Block} : Block.Throughout holds (statement :: rest) ↔
    (Node.ofStatement statement).Throughout holds ∧ Block.Throughout holds rest := by
  simp only [Block.throughout_statements,List.forall_mem_cons]

end Untangle
