import Untangle.Proofs.Running.Following
import Untangle.Structuring.Constructs

namespace Untangle
namespace Meaning
variable {σ : Type u} {ν : Type v}

mutual
theorem holds_negate (meaning : Meaning σ ν) (store : σ) :
    (condition : Condition) → meaning.holds store condition.negate = !meaning.holds store condition
  | .compare op left right => by
    simp only [Condition.negate,holds]
    exact meaning.complements op left right store
  | .test value inverted => by
    simp only [Condition.negate,holds]
    cases meaning.tests value store <;> cases inverted <;> rfl
  | .conj parts => by
    simp only [Condition.negate,holds]
    exact someHolds_negate meaning store parts
  | .disj parts => by
    simp only [Condition.negate,holds]
    exact allHold_negate meaning store parts
  | .not inner => by simp only [Condition.negate,holds,Bool.not_not]
  | .constant value => by simp only [Condition.negate,holds]
theorem someHolds_negate (meaning : Meaning σ ν) (store : σ) :
    (parts : List Condition) →
      meaning.someHolds store (Condition.negateEach parts) = !meaning.allHold store parts
  | [] => by simp only [Condition.negateEach,someHolds,allHold,Bool.not_true]
  | part :: rest => by
    simp only [Condition.negateEach,someHolds,allHold,Bool.not_and,holds_negate meaning store part,
      someHolds_negate meaning store rest]
theorem allHold_negate (meaning : Meaning σ ν) (store : σ) :
    (parts : List Condition) →
      meaning.allHold store (Condition.negateEach parts) = !meaning.someHolds store parts
  | [] => by simp only [Condition.negateEach,someHolds,allHold,Bool.not_false]
  | part :: rest => by
    simp only [Condition.negateEach,someHolds,allHold,Bool.not_or,holds_negate meaning store part,
      allHold_negate meaning store rest]
end

variable {meaning : Meaning σ ν} {store : σ} {flow : Flow σ ν}

theorem runs_plain (plain : ∀ statement ∈ block, statement.isPlain = true) :
    meaning.Runs block store flow ↔ flow = .normal (meaning.effects block store) := by
  induction block generalizing store with
  | nil => exact runs_nil
  | cons statement rest ih =>
    rw [runs_cons]
    have first := plain statement List.mem_cons_self
    simp only [executes_plain first,exists_eq_left]
    exact ih fun other member => plain other (List.mem_cons_of_mem _ member)

theorem runs_branchForm : meaning.Runs (branchForm condition thenBlock elseBlock openEnded) store flow ↔
    meaning.Runs (if meaning.holds store condition then thenBlock else elseBlock) store flow := by
  have lone {block : Block} (jump : isLoneJump block = true) {next : Block} {store : σ} {flow : Flow σ ν} :
      (∃ middle, meaning.Runs block store middle ∧ After (meaning.Runs next) middle flow) ↔
        meaning.Runs block store flow := by
    have stays {middle : Flow σ ν} (ran : meaning.Runs block store middle) :
        ∀ last, middle ≠ .normal last := by
      unfold isLoneJump at jump
      split at jump
      · rename_i statement
        rintro last rfl
        cases statement with
        | jump brk =>
          have same := executes_jump.mp (runs_single.mp ran)
          cases kind : brk.kind <;> simp [kind] at same
        | ret value => cases executes_ret.mp (runs_single.mp ran)
        | throw exception => cases executes_throw.mp (runs_single.mp ran)
        | _ => simp [Statement.isTerminal] at jump
      · cases jump
    constructor
    · rintro ⟨middle,ran,rest⟩
      have apart := stays ran
      cases middle with
      | normal last => exact absurd rfl (apart last)
      | _ => cases rest; exact ran
    · intro ran
      have apart := stays ran
      refine ⟨flow,ran,?_⟩
      cases flow with
      | normal last => exact absurd rfl (apart last)
      | _ => rfl
  unfold branchForm
  split
  · rename_i absent
    obtain rfl := List.isEmpty_iff.mp absent
    rw [runs_single,executes_branch]
    rfl
  · split
    · rename_i absent
      obtain rfl := List.isEmpty_iff.mp absent
      rw [runs_single,executes_branch,holds_negate]
      cases meaning.holds store condition <;> rfl
    · split
      · rename_i hoisted
        rw [runs_cons]
        simp only [executes_branch]
        cases meaning.holds store condition with
        | true => exact lone (Bool.and_eq_true_iff.mp hoisted).2
        | false =>
          simp only [Bool.false_eq_true,if_false,Option.getD_none,runs_nil,exists_eq_left]
          rfl
      · split
        · rename_i hoisted
          rw [runs_cons]
          simp only [executes_branch,holds_negate]
          cases meaning.holds store condition with
          | true =>
            simp only [Bool.not_true,Bool.false_eq_true,if_false,if_true,Option.getD_none,runs_nil,exists_eq_left]
            rfl
          | false => exact lone (Bool.and_eq_true_iff.mp hoisted).2
        · rw [runs_single,executes_branch]
          rfl

end Meaning

namespace Follows
open Meaning
variable {σ : Type u} {ν : Type v} {graph : BlockGraph} {meaning : Meaning σ ν}
  {continued : BreakableId → Prop} {contexts : List Context} {stop : Option BlockId} {code : Block}
  {start : σ → Point σ ν} {least : Nat} {block : BlockId}

theorem afterStatements (plain : ∀ statement ∈ graph.statements block, statement.isPlain = true)
    (follows : Follows graph meaning continued contexts stop least code
      fun store => meaning.goes store (graph.terminator block)) :
    Follows graph meaning continued contexts stop (least + 1) (graph.statements block ++ code)
      (Point.before block) where
  sound store flow ran := by
    obtain ⟨middle,ranFirst,ranRest⟩ := runs_append.mp ran
    cases (runs_plain plain).mp ranFirst
    obtain ⟨steps,point,enough,reached,leads⟩ := follows.sound _ flow ranRest
    exact ⟨steps + 1,point,Nat.add_le_add_right enough 1,reached,leads⟩
  total store outcome ended := by
    have reached : (graph.step meaning)^[1] (.before block store) =
        meaning.goes (meaning.effects (graph.statements block) store) (graph.terminator block) := rfl
    obtain ⟨flow,ran⟩ := follows.total _ outcome (ended.after reached)
    exact ⟨flow,runs_append.mpr ⟨_,(runs_plain plain).mpr rfl,ran⟩⟩

theorem ret (value : Option Expr) : Follows graph meaning continued contexts stop 0 [.ret value]
    fun store => meaning.goes store (.ret value) where
  sound store flow ran := by
    cases executes_ret.mp (runs_single.mp ran)
    exact ⟨0,_,Nat.le_refl _,rfl,.ends⟩
  total store _ _ := ⟨_,runs_single.mpr (executes_ret.mpr rfl)⟩

theorem throw (exception : Expr) : Follows graph meaning continued contexts stop 0 [.throw exception]
    fun store => meaning.goes store (.throw exception) where
  sound store flow ran := by
    cases executes_throw.mp (runs_single.mp ran)
    exact ⟨0,_,Nat.le_refl _,rfl,.ends⟩
  total store _ _ := ⟨_,runs_single.mpr (executes_throw.mpr rfl)⟩

theorem branch {thenTarget elseTarget : BlockId}
    (thenFollows : Follows graph meaning continued contexts stop 0 thenBlock (Point.before thenTarget))
    (elseFollows : Follows graph meaning continued contexts stop 0 elseBlock (Point.before elseTarget)) :
    Follows graph meaning continued contexts stop 0 (branchForm condition thenBlock elseBlock openEnded)
      fun store => meaning.goes store (.branch condition thenTarget elseTarget) where
  sound store flow ran := by
    rw [runs_branchForm] at ran
    simp only [goes]
    split at ran
    · rename_i holds
      rw [if_pos holds]
      exact thenFollows.sound store flow ran
    · rename_i fails
      rw [if_neg fails]
      exact elseFollows.sound store flow ran
  total store outcome ended := by
    simp only [runs_branchForm]
    simp only [goes] at ended
    split
    · rename_i holds
      rw [if_pos holds] at ended
      exact thenFollows.total store outcome ended
    · rename_i fails
      rw [if_neg fails] at ended
      exact elseFollows.total store outcome ended

end Follows
end Untangle
