import Untangle.Proofs.Rebuilding.Steps

namespace Untangle
open Rebuild

theorem Condition.doubleNegation_some {condition folded : Condition} :
    condition.doubleNegation? = some folded ↔ condition = .not (.not folded) := by
  unfold doubleNegation?
  split
  · rename_i inner
    simp
  · rename_i other
    simp only [reduceCtorEq,false_iff]
    exact fun same => other folded same

theorem Condition.signTest_some {condition folded : Condition} (found : condition.signTest? = some folded) :
    ∃ op low high zero note note', zero.isZero = true ∧
      ((condition = .compare op ⟨.numberCompare low high,note⟩ ⟨.literal zero,note'⟩ ∧
          folded = .compare op high low) ∨
        (condition = .compare op ⟨.literal zero,note⟩ ⟨.numberCompare low high,note'⟩ ∧
          folded = .compare op.flip high low)) := by
  unfold signTest? at found
  split at found
  · rename_i op left right
    obtain ⟨leftKind,leftNote⟩ := left
    obtain ⟨rightKind,rightNote⟩ := right
    dsimp only at found
    split at found
    · rename_i low high zero
      obtain ⟨holds,same⟩ := Option.ite_none_right_eq_some.mp found
      exact ⟨op,low,high,zero,_,_,holds,Or.inl ⟨rfl,(Option.some.inj same).symm⟩⟩
    · rename_i zero low high
      obtain ⟨holds,same⟩ := Option.ite_none_right_eq_some.mp found
      exact ⟨op,low,high,zero,_,_,holds,Or.inr ⟨rfl,(Option.some.inj same).symm⟩⟩
    · cases found
  · cases found

theorem ConstructorRef.seed_sublist {constructor : ConstructorRef} {args seed : List Expr}
    (found : constructor.seed? args = some seed) : seed.Sublist args := by
  unfold seed? at found
  split at found
  · cases found
  · split at found <;> cases found <;> simp

-- A chain of appends on a new builder, with the parts that come later and all of them together.
inductive Expr.Collects : Expr → List Expr → List Expr → Prop where
  | append {receiver arg : Expr} {method : MethodRef} {note : Option Ty} {later parts : List Expr}
    (appends : method.isBuilderCall "append" = true) (earlier : Collects receiver (arg :: later) parts) :
    Collects ⟨.boundCall .virtual receiver method [arg],note⟩ later parts
  | start {constructor : ConstructorRef} {args seed : List Expr} {note : Option Ty} {later : List Expr}
    (seeds : constructor.seed? args = some seed) : Collects ⟨.new constructor args,note⟩ later (seed ++ later)

theorem Expr.builderParts_some {expr : Expr} {later parts : List Expr} :
    expr.builderParts? later = some parts ↔ expr.Collects later parts := by
  constructor
  · intro found
    induction later, expr using Expr.builderParts?.induct with
    | case1 later receiver method arg note appends ih =>
      rw [builderParts?,if_pos appends] at found
      exact .append appends (ih found)
    | case2 later receiver method arg note other =>
      rw [builderParts?,if_neg other] at found
      cases found
    | case3 later constructor args note =>
      rw [builderParts?] at found
      obtain ⟨seed,seeds,rfl⟩ := Option.map_eq_some_iff.mp found
      exact .start seeds
    | case4 expr later call new =>
      rw [builderParts?] at found
      · cases found
      · exact call
      · exact new
  · intro collected
    induction collected with
    | append appends _ ih => rw [builderParts?,if_pos appends,ih]
    | start seeds => rw [builderParts?,seeds,Option.map_some]

theorem Expr.builderChain_some {expr folded : Expr} (found : expr.builderChain? = some folded) :
    ∃ receiver method note parts, expr = ⟨.boundCall .virtual receiver method [],note⟩ ∧
      method.isBuilderCall "toString" = true ∧ receiver.Collects [] parts ∧
      folded = .plain (.concat (leadWithText parts)) := by
  obtain ⟨kind,note⟩ := expr
  unfold builderChain? at found
  split at found
  · rename_i receiver method called
    obtain rfl := called
    obtain ⟨reads,found⟩ := Option.ite_none_right_eq_some.mp found
    obtain ⟨parts,collected,rfl⟩ := Option.map_eq_some_iff.mp found
    exact ⟨receiver,method,note,parts,rfl,reads,builderParts_some.mp collected,rfl⟩
  · cases found

theorem Statement.nestedBranch_some {statement folded : Statement} (found : statement.nestedBranch? = some folded) :
    ∃ outer inner body, statement = .branch outer [.branch inner body none] none ∧
      folded = .branch (outer.and inner) body none := by
  unfold nestedBranch? at found
  split at found
  · rename_i outer inner body
    exact ⟨outer,inner,body,rfl,(Option.some.inj found).symm⟩
  · cases found

theorem Statement.conditionalAssignment_some {statement folded : Statement}
    (found : statement.conditionalAssignment? = some folded) :
    ∃ condition target thenValue other elseValue,
      statement = .branch condition [.assign target thenValue] (some [.assign other elseValue]) ∧
      target.same other = true ∧ (ExprKind.ternary condition thenValue elseValue).check = .ok () ∧
      folded = .assign target (.plain (.ternary condition thenValue elseValue)) ∧ folded.check = .ok () := by
  unfold conditionalAssignment? at found
  split at found
  · rename_i condition target thenValue other elseValue
    obtain ⟨same,found⟩ := Option.ite_none_right_eq_some.mp found
    dsimp only at found
    split at found
    · rename_i chosen merged
      cases found
      exact ⟨condition,target,thenValue,other,elseValue,rfl,same,chosen,rfl,merged⟩
    · cases found
  · cases found

namespace FoldingSettings

theorem foldCondition_steps (settings : FoldingSettings) (condition : Condition) : settings.foldCondition condition =
    ((if settings.nestedConditions then counted condition condition.doubleNegation? else pure condition) >>=
      fun single => if settings.comparators then countedChecked Condition.check single single.signTest?
        else pure single) := by
  unfold foldCondition
  cases settings.nestedConditions <;> rfl

theorem foldStatement_steps (settings : FoldingSettings) (statement : Statement) : settings.foldStatement statement =
    ((if settings.ternaries then counted statement statement.conditionalAssignment? else pure statement) >>=
      fun chosen => if settings.nestedConditions then counted chosen chosen.nestedBranch? else pure chosen) := by
  unfold foldStatement
  cases settings.ternaries <;> rfl

end FoldingSettings

theorem yields_counted {node : α} {found : Option α} {good : α → Prop} (here : good node)
    (folded : ∀ next, found = some next → good next) : Yields (counted node found) good := by
  unfold counted
  split
  · exact yields_pure here
  · rename_i next
    exact yields_after fun _ => yields_pure (folded next rfl)

theorem yields_countedChecked {check : α → Except ConstraintError Unit} {node : α} {found : Option α}
    {good : α → Prop} (here : good node) (folded : ∀ next, found = some next → check next = .ok () → good next) :
    Yields (countedChecked check node found) good := by
  unfold countedChecked
  split
  · exact yields_pure here
  · rename_i next
    rw [recheck_bind]
    exact yields_bind yields_held fun _ held => yields_after fun _ => yields_pure (folded next rfl held)

theorem yields_optional {σ : Type} {enabled : Bool} {pass : Rebuild σ α} {node : α} {good : α → Prop}
    (here : good node) (applied : Yields pass good) : Yields (if enabled then pass else pure node) good := by
  split
  · exact applied
  · exact yields_pure here

end Untangle
