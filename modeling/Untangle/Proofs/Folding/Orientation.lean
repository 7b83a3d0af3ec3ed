import Mathlib
import Untangle.Proofs.Equality.Same
import Untangle.Proofs.Folding.Rules
import Untangle.Proofs.Rebuilding.Places
import Untangle.Proofs.Softening.Nodes

namespace Untangle
open Rebuild

-- A test of a three-way comparison against zero, and the same test read from the other side.
inductive Node.Turned : Node → Node → Prop where
  | test {zero : Literal} (op : CompareOp) (low high : Expr) (note note' : Option Ty) : zero.isZero = true →
    Turned (.ofCondition (.compare op ⟨.numberCompare low high,note⟩ ⟨.literal zero,note'⟩))
      (.ofCondition (.compare op.flip ⟨.literal zero,note'⟩ ⟨.numberCompare low high,note⟩))

-- Bodies that differ only in the way round of such tests, however many of them, wherever they stand and in
-- whatever they are nested.
def Block.Reworded : Block → Block → Prop := Relation.EqvGen (Block.Inside Node.Turned)

theorem Node.Turned.sort (old new : Node) (turned : Node.Turned old new) : new.sort = old.sort := by
  cases turned
  rfl

theorem Condition.check_flip (op : CompareOp) (left right : Expr) :
    (compare op.flip right left).check = .ok () ↔ (compare op left right).check = .ok () := by
  have same : op.flip.isEquality = op.isEquality := by cases op <;> rfl
  simp only [check,same]
  rw [Ty.agrees_comm]
  split
  · split
    · simp only [expectBoth_ok,expect_ok]
      exact and_comm
    · simp
  · simp only [expectBoth_ok,expect_ok]
    exact and_comm

section
variable {settings : FoldingSettings}

theorem FoldingSettings.foldCondition_turned (comparators : settings.comparators = true) {zero : Literal}
    (holds : zero.isZero = true) (op : CompareOp) (low high : Expr) (note note' : Option Ty) :
    settings.foldCondition (.compare op.flip ⟨.literal zero,note'⟩ ⟨.numberCompare low high,note⟩) =
      settings.foldCondition (.compare op ⟨.numberCompare low high,note⟩ ⟨.literal zero,note'⟩) := by
  have single (condition : Condition) (none : condition.doubleNegation? = none) :
      settings.foldCondition condition = countedChecked Condition.check condition condition.signTest? := by
    rw [foldCondition_steps,none,comparators]
    cases settings.nestedConditions <;> rfl
  rw [single _ rfl,single _ rfl]
  simp only [Condition.signTest?,holds,if_true,op.flip_flip]
  rfl

theorem FoldingSettings.foldExpr_none {expr : Expr} (none : expr.builderChain? = none) :
    settings.foldExpr expr = pure expr := by
  rw [foldExpr,none]
  cases settings.stringConcat <;> rfl

theorem rebuild_literal (value : Literal) (note : Option Ty) :
    Expr.rebuild settings.hooks ⟨.literal value,note⟩ = pure ⟨.literal value,note⟩ :=
  settings.foldExpr_none rfl

theorem rebuild_numberCompare (low high : Expr) (note : Option Ty) :
    Expr.rebuild settings.hooks ⟨.numberCompare low high,note⟩ = (do
      let low ← low.rebuild settings.hooks
      let high ← high.rebuild settings.hooks
      recheck (ExprKind.numberCompare low high).check ⟨.numberCompare low high,note⟩) := by
  have kept (low high : Expr) : settings.hooks.expr ⟨.numberCompare low high,note⟩ =
      pure ⟨.numberCompare low high,note⟩ := settings.foldExpr_none rfl
  rw [Expr.rebuild,ExprKind.rebuild,bind_assoc]
  refine congrArg _ (funext fun low => ?_)
  rw [bind_assoc]
  refine congrArg _ (funext fun high => ?_)
  rw [recheck_bind,kept,← recheck_bind,bind_pure]

theorem turned_agree (comparators : settings.comparators = true) (old new : Node) (turned : Node.Turned old new) :
    settings.hooks.Agree old new := by
  obtain ⟨op,low,high,note,note',holds⟩ := turned
  refine (map_alike_iff fun _ _ => Node.ofCondition.inj).mpr ?_
  rw [Condition.rebuild,Condition.rebuild,rebuild_literal,rebuild_numberCompare]
  simp only [bind_assoc,pure_bind]
  refine bind_alike rfl fun low => bind_alike rfl fun high => ?_
  simp only [recheck_bind]
  refine bind_alike rfl fun _ => ?_
  refine bind_alike (recheck_alike (Condition.check_flip _ _ _) ()) fun _ => ?_
  exact congrArg outcome (FoldingSettings.foldCondition_turned comparators holds op low high note note')

-- What folding finds without a word does not depend on what it would fall back to.
theorem foldFrom_fallback (unfolded other : Block) (left passed : Nat) (events : List Event) (current : Block)
    (quiet : (foldFrom settings unfolded left passed events current).diagnostics = []) :
    foldFrom settings other left passed events current = foldFrom settings unfolded left passed events current := by
  induction left generalizing passed events current with
  | zero => cases quiet
  | succ left ih =>
    unfold foldFrom at quiet ⊢
    dsimp only at quiet ⊢
    split at quiet
    · cases quiet
    · rfl
    · exact ih _ _ _ quiet

theorem foldFrom_alike {old new : Block} (agree : settings.hooks.AgreeOn old new)
    (left : Nat) (events : List Event) (quiet : (foldFrom settings old (left + 1) 0 events old).diagnostics = []) :
    foldFrom settings new (left + 1) 0 events new = foldFrom settings old (left + 1) 0 events old := by
  rcases run : Rebuild.from 0 (Block.rebuild settings.hooks old) with ⟨cause | next,folds⟩
  · simp only [foldFrom,run] at quiet
    cases quiet
  · have run' := outcome_some.mp ((congrFun agree 0).trans (outcome_some.mpr run))
    cases folds with
    | zero => simp only [foldFrom,run,run']
    | succ folds =>
      simp only [foldFrom,run,run'] at quiet ⊢
      exact foldFrom_fallback old new left _ _ next quiet

end

-- Folding does not depend on the way round that three-way comparisons are tested against zero: where it goes
-- through for one body it goes through for the other, in as many passes, and to the same tree.
theorem fold_turns {settings : FoldingSettings} (enabled : settings.enabled = true)
    (comparators : settings.comparators = true) {old new : Block} (reworded : Block.Reworded old new)
    (quiet : (old.fold settings).diagnostics = []) :
    (new.fold settings).diagnostics = [] ∧ (new.fold settings).passes = (old.fold settings).passes ∧
      (new.fold settings).body = (old.fold settings).body ∧
      Block.same (old.fold settings).body (new.fold settings).body = true := by
  have run (block : Block) : block.fold settings = foldFrom settings block (max settings.iterationCap 1) 0 [] block :=
    if_pos enabled
  obtain ⟨left,positive⟩ : ∃ left, max settings.iterationCap 1 = left + 1 := ⟨max settings.iterationCap 1 - 1,by omega⟩
  have same : new.fold settings = old.fold settings := by
    rw [run,positive] at quiet
    rw [run,run,positive]
    have agree : settings.hooks.AgreeOn old new :=
      Block.rebuild_exchanged Node.Turned.sort (turned_agree comparators) reworded
    exact foldFrom_alike agree left [] quiet
  rw [same]
  exact ⟨quiet,rfl,rfl,Block.same_equivalence.refl _⟩

namespace Turning

def x : Local := ⟨0,some "x",.long⟩
def y : Local := ⟨2,some "y",.long⟩
def rows : Local := ⟨4,some "rows",.array .int⟩

def sign : Expr := .plain (.numberCompare (.var x) (.var y))
def greater : Condition := .compare .gt sign (.literal (.int 0))
def turned : Condition := .compare .lt (.literal (.int 0)) sign

-- The test picks the place that an assignment writes, under two negations that are dropped in the same pass.
def target (test : Condition) : Expr :=
  .plain (.element (.var rows) (.plain (.ternary (.not (.not test)) (.literal (.int 1)) (.literal (.int 2)))))
def writing (test : Condition) : Statement := .assign (target test) (.literal (.int 7))
def body (test : Condition) : Block := [.whileLoop 0 (.constant true) [writing test]]

def folded : Block :=
  [.whileLoop 0 (.constant true)
    [.assign (.plain (.element (.var rows)
        (.plain (.ternary (.compare .gt (.var y) (.var x)) (.literal (.int 1)) (.literal (.int 2))))))
      (.literal (.int 7))]]

end Turning

theorem Turning.reworded : Block.Reworded (body greater) (body turned) := by
  have test : Node.Inside Node.Turned (.ofCondition greater) (.ofCondition turned) :=
    .here (.test .gt (.var x) (.var y) none none rfl)
  have single : Node.Inside Node.Turned (.ofCondition (.not greater)) (.ofCondition (.not turned)) :=
    @Node.Inside.part _ (.ofCondition (.not greater)) _ _ [] [] rfl test
  have double : Node.Inside Node.Turned (.ofCondition (.not (.not greater))) (.ofCondition (.not (.not turned))) :=
    @Node.Inside.part _ (.ofCondition (.not (.not greater))) _ _ [] [] rfl single
  have chosen := @Node.Inside.part _
    (.ofExpr (.plain (.ternary (.not (.not greater)) (.literal (.int 1)) (.literal (.int 2))))) _ _ []
    [.ofExpr (.literal (.int 1)),.ofExpr (.literal (.int 2))] rfl double
  have place := @Node.Inside.part _ (.ofExpr (target greater)) _ _ [.ofExpr (.var rows)] [] rfl chosen
  have written := @Node.Inside.part _ (.ofStatement (writing greater)) _ _ [] [.ofExpr (.literal (.int 7))] rfl place
  have loop := @Node.Inside.inner _ (.ofStatement (.whileLoop 0 (.constant true) [writing greater])) _ _ [] [] [] [] rfl
    written
  exact .rel _ _ (.at [] [] loop)

theorem turning_folds : FoldingSettings.default.enabled = true ∧ FoldingSettings.default.comparators = true ∧
    Block.Reworded (Turning.body Turning.greater) (Turning.body Turning.turned) ∧
    ((Turning.body Turning.turned).fold .default).diagnostics = [] ∧
    ((Turning.body Turning.turned).fold .default).passes = 2 ∧
    ((Turning.body Turning.turned).fold .default).body = Turning.folded := by
  have quiet : ((Turning.body Turning.greater).fold .default).diagnostics = [] := by cbv
  have passes : ((Turning.body Turning.greater).fold .default).passes = 2 := by cbv
  have folded : ((Turning.body Turning.greater).fold .default).body = Turning.folded := by cbv
  obtain ⟨quiet',passes',folded',_⟩ := fold_turns rfl rfl Turning.reworded quiet
  exact ⟨rfl,rfl,Turning.reworded,quiet',passes'.trans passes,folded'.trans folded⟩

end Untangle
