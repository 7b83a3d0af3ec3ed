import Untangle.Proofs.Folding.Saving

namespace Untangle
open Rebuild

def Statement.Quiet (settings : FoldingSettings) (statement : Statement) : Prop :=
  (settings.ternaries = true → statement.conditionalAssignment? = none) ∧
    (settings.nestedConditions = true → statement.nestedBranch? = none)

def Node.Quiet (settings : FoldingSettings) : Node → Prop
  | ofExpr expr => settings.stringConcat = true → expr.builderChain? = none
  | ofCondition condition => (settings.nestedConditions = true → condition.doubleNegation? = none) ∧
      (settings.comparators = true → condition.signTest? = none)
  | ofStatement statement => ∀ block ∈ statement.childBlocks, ∀ inner ∈ block, inner.Quiet settings

def Node.Settled (settings : FoldingSettings) (node : Node) : Prop := node.Throughout (Node.Quiet settings)

def Block.Settled (settings : FoldingSettings) (block : Block) : Prop :=
  (∀ statement ∈ block, statement.Quiet settings) ∧ block.Throughout (Node.Quiet settings)

section
variable {settings : FoldingSettings}

theorem foldExpr_spends (expr : Expr) : Spends (settings.foldExpr expr) (Node.ofExpr expr).load
    (fun new => (Node.ofExpr new).load) fun new => new = expr ∧ (Node.ofExpr expr).Quiet settings := by
  have folds : Spends (countedChecked (·.kind.check) expr expr.builderChain?) (Node.ofExpr expr).load
      (fun new => (Node.ofExpr new).load) fun new => new = expr ∧ expr.builderChain? = none :=
    spends_countedChecked fun next found => Expr.builderChain_saves found
  exact spends_optional folds

theorem foldCondition_spends (condition : Condition) : Spends (settings.foldCondition condition)
    (Node.ofCondition condition).load (fun new => (Node.ofCondition new).load)
    fun new => new = condition ∧ (Node.ofCondition condition).Quiet settings := by
  rw [FoldingSettings.foldCondition_steps]
  have first : Spends (counted condition condition.doubleNegation?) (Node.ofCondition condition).load
      (fun new => (Node.ofCondition new).load) fun new => new = condition ∧ condition.doubleNegation? = none :=
    spends_counted fun next found => Condition.doubleNegation_saves found
  have second (single : Condition) : Spends (countedChecked Condition.check single single.signTest?)
      (Node.ofCondition single).load (fun new => (Node.ofCondition new).load)
      fun new => new = single ∧ single.signTest? = none :=
    spends_countedChecked fun next found => Condition.signTest_saves found
  refine spends_bind (spends_optional first) (yields_any _) fun single _ => ?_
  refine (spends_optional (second single)).weaken (fun _ => Nat.le_refl _) ?_
  rintro new ⟨rfl,plain⟩ ⟨rfl,bare⟩
  exact ⟨rfl,bare,plain⟩

theorem foldStatement_spends (statement : Statement) : Spends (settings.foldStatement statement)
    (Node.ofStatement statement).load (fun new => (Node.ofStatement new).load)
    fun new => new = statement ∧ statement.Quiet settings := by
  rw [FoldingSettings.foldStatement_steps]
  have first : Spends (counted statement statement.conditionalAssignment?) (Node.ofStatement statement).load
      (fun new => (Node.ofStatement new).load) fun new => new = statement ∧ statement.conditionalAssignment? = none :=
    spends_counted fun next found => Statement.conditionalAssignment_saves found
  have second (chosen : Statement) : Spends (counted chosen chosen.nestedBranch?) (Node.ofStatement chosen).load
      (fun new => (Node.ofStatement new).load) fun new => new = chosen ∧ chosen.nestedBranch? = none :=
    spends_counted fun next found => Statement.nestedBranch_saves found
  refine spends_bind (spends_optional first) (yields_any _) fun chosen _ => ?_
  refine (spends_optional (second chosen)).weaken (fun _ => Nat.le_refl _) ?_
  rintro new ⟨rfl,single⟩ ⟨rfl,plain⟩
  exact ⟨rfl,plain,single⟩

theorem blockHook_spends (block : Block) : Spends (settings.hooks.block block) block.load Block.load
    fun new => new = block ∧ ∀ statement ∈ block, statement.Quiet settings := by
  have each := spends_mapM fun statement (_ : statement ∈ block) => @foldStatement_spends settings statement
  simp only [← Block.load_sum] at each
  exact each

theorem nodeHook_spends (node : Node) : Spends (settings.hooks.node node) node.load Node.load
    fun new => new = node ∧ ((∀ statement, node ≠ .ofStatement statement) → node.Quiet settings) := by
  cases node with
  | ofExpr expr =>
    refine spends_map.mpr ((foldExpr_spends expr).weaken (fun _ => Nat.le_refl _) ?_)
    rintro new ⟨rfl,quiet⟩
    exact ⟨rfl,fun _ => quiet⟩
  | ofCondition condition =>
    refine spends_map.mpr ((foldCondition_spends condition).weaken (fun _ => Nat.le_refl _) ?_)
    rintro new ⟨rfl,quiet⟩
    exact ⟨rfl,fun _ => quiet⟩
  | ofStatement statement => exact spends_pure (Nat.le_refl _) ⟨rfl,fun no => absurd rfl (no statement)⟩

theorem Block.rebuild_spends {block : Block}
    (each : ∀ statement ∈ block, Spends ((Node.ofStatement statement).rebuild settings.hooks)
      (Node.ofStatement statement).load Node.load
      fun new => new = .ofStatement statement ∧ (Node.ofStatement statement).Settled settings) :
    Spends (block.rebuild settings.hooks) block.load Block.load fun new => new = block ∧ block.Settled settings := by
  have one (statement : Statement) (member : statement ∈ block) : Spends (statement.rebuild settings.hooks)
      (Node.ofStatement statement).load (fun new => (Node.ofStatement new).load)
      fun new => new = statement ∧ (Node.ofStatement statement).Settled settings :=
    (spends_map.mp (each statement member)).weaken (fun _ => Nat.le_refl _)
      fun _ kept => ⟨Node.ofStatement.inj kept.1,kept.2⟩
  have statements := spends_mapM one
  simp only [← Block.load_sum] at statements
  rw [block.rebuild_step]
  refine spends_bind statements (yields_any _) fun news _ => ?_
  refine (blockHook_spends news).weaken (fun _ => Nat.le_refl _) ?_
  rintro new ⟨rfl,quiet⟩ ⟨rfl,settled⟩
  exact ⟨rfl,quiet,Block.throughout_statements.mpr settled⟩

theorem Node.settled_parts {node : Node} (quiet : (∀ statement, node ≠ .ofStatement statement) → node.Quiet settings)
    (parts : ∀ part ∈ node.parts, part.Settled settings) (blocks : ∀ block ∈ node.blocks, block.Settled settings) :
    node.Settled settings := by
  refine throughout_parts.mpr ⟨?_,parts,fun block held => (blocks block held).2⟩
  cases node with
  | ofStatement statement => exact fun block held => (blocks block held).1
  | _ => exact quiet (by simp)

theorem Node.rebuild_spends (node : Node) : Spends (node.rebuild settings.hooks) node.load Node.load
    fun new => new = node ∧ node.Settled settings := by
  induction node using Node.below with
  | step node below =>
    have parts := spends_mapM fun child member => below child (part_child member)
    have blocks := spends_mapM fun block (held : block ∈ node.blocks) =>
      Block.rebuild_spends fun statement member => below _ (inner_child held member)
    rw [node.rebuild_step,node.load_parts,Nat.add_comm]
    refine spends_bind ((parts.beside (node.blocks.map Block.load).sum).beside node.charge)
      (yields_mapM fun child _ => child.rebuild_sort) fun news sorts => ?_
    have fits := fits_forall₂ sorts
    have held : Spends (recheck (node.withParts news).demand ()) (loads news + (node.blocks.map Block.load).sum + node.charge)
        (fun _ => loads news + (node.blocks.map Block.load).sum + node.charge) fun _ => True :=
      spends_recheck (Nat.le_refl _) trivial
    refine spends_bind held (yields_any _) fun _ _ => ?_
    have regroup (more : Nat) : loads news + more + node.charge = more + (loads news + node.charge) := by omega
    rw [regroup]
    refine spends_bind (blocks.beside (loads news + node.charge)) (yields_length _) fun bodies long => ?_
    have last := @nodeHook_spends settings ((node.withParts news).withBlocks bodies)
    rw [Node.load_filled fits long,Nat.add_comm,regroup] at last
    refine last.weaken (fun _ => Nat.le_refl _) ?_
    rintro new ⟨rfl,quiet⟩ ⟨rfl,inside⟩ _ ⟨rfl,here⟩
    rw [node.withParts_self,node.withBlocks_self] at quiet ⊢
    exact ⟨rfl,Node.settled_parts quiet here inside⟩

end
end Untangle
