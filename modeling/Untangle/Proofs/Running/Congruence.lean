import Mathlib.Data.List.Forall2
import Untangle.Proofs.Rebuilding.Parts
import Untangle.Proofs.Running.Rounds

namespace Untangle
namespace Meaning
variable {σ : Type u} {ν : Type v} {meaning : Meaning σ ν} {id : BreakableId}

def Caught (meaning : Meaning σ ν) (catches : List CatchClause) (middle flow : Flow σ ν) : Prop :=
  match middle with
  | .ends (.threw store exception) =>
    match catches.find? (·.matches (meaning.isInstance exception)) with
    | some clause => meaning.Runs clause.body store flow
    | none => flow = middle
  | _ => flow = middle

theorem executes_tryCatch {body : Block} {catches : List CatchClause} :
    meaning.Executes (.tryCatch body catches) store flow ↔
      ∃ middle, meaning.Runs body store middle ∧ meaning.Caught catches middle flow := by
  rw [executes_succ]
  unfold exec
  constructor
  · rintro ⟨fuel,ran⟩
    obtain ⟨middle,first,second⟩ := Option.bind_eq_some_iff.mp ran
    refine ⟨middle,⟨fuel,first⟩,?_⟩
    cases middle with
    | ends outcome =>
      cases outcome with
      | returned last value => exact (Option.some.inj second).symm
      | threw last exception =>
        cases found : catches.find? (·.matches (meaning.isInstance exception)) with
        | none =>
          simp only [found] at second
          simp only [Caught,found]
          exact (Option.some.inj second).symm
        | some clause =>
          simp only [found] at second
          simp only [Caught,found]
          exact ⟨fuel,second⟩
    | _ => exact (Option.some.inj second).symm
  · rintro ⟨middle,⟨fuel,first⟩,caught⟩
    cases middle with
    | ends outcome =>
      cases outcome with
      | returned last value => exact ⟨fuel,Option.bind_eq_some_iff.mpr ⟨_,first,congrArg some caught.symm⟩⟩
      | threw last exception =>
        cases found : catches.find? (·.matches (meaning.isInstance exception)) with
        | none =>
          simp only [Caught,found] at caught
          refine ⟨fuel,Option.bind_eq_some_iff.mpr ⟨_,first,?_⟩⟩
          simp only [found,caught]
        | some clause =>
          simp only [Caught,found] at caught
          obtain ⟨more,second⟩ := caught
          refine ⟨max fuel more,Option.bind_eq_some_iff.mpr ⟨_,run_mono (Nat.le_max_left fuel more) first,?_⟩⟩
          simp only [found]
          exact run_mono (Nat.le_max_right fuel more) second
    | _ => exact ⟨fuel,Option.bind_eq_some_iff.mpr ⟨_,first,congrArg some caught.symm⟩⟩

theorem runs_cons_congr {statement statement' : Statement} {rest rest' : Block}
    (first : meaning.Executes statement' = meaning.Executes statement)
    (second : meaning.Runs rest' = meaning.Runs rest) :
    meaning.Runs (statement' :: rest') = meaning.Runs (statement :: rest) := by
  funext store flow
  rw [eq_iff_iff,runs_cons,runs_cons,first,second]

theorem runs_append_congr {first first' second second' : Block} (here : meaning.Runs first' = meaning.Runs first)
    (later : meaning.Runs second' = meaning.Runs second) :
    meaning.Runs (first' ++ second') = meaning.Runs (first ++ second) := by
  funext store flow
  rw [eq_iff_iff,runs_append,runs_append,here,later]

theorem runs_congr {old new : Block}
    (each : List.Forall₂ (fun old new => meaning.Executes new = meaning.Executes old) old new) :
    meaning.Runs new = meaning.Runs old := by
  induction each with
  | nil => rfl
  | cons here _ ih => exact runs_cons_congr here ih

theorem testedRound_congr {condition condition' : Condition} {update update' : Option Statement} {body body' : Block}
    (tests : ∀ store, meaning.holds store condition' = meaning.holds store condition)
    (updates : meaning.Runs update'.toList = meaning.Runs update.toList)
    (bodies : meaning.Runs body' = meaning.Runs body) :
    meaning.TestedRound id condition' update' body' = meaning.TestedRound id condition update body := by
  funext store result
  rw [eq_iff_iff,testedRound_iff,testedRound_iff,tests,updates,bodies]

theorem repeatedRound_congr {condition condition' : Condition} {body body' : Block}
    (tests : ∀ store, meaning.holds store condition' = meaning.holds store condition)
    (bodies : meaning.Runs body' = meaning.Runs body) :
    meaning.RepeatedRound id condition' body' = meaning.RepeatedRound id condition body := by
  funext store result
  simp only [repeatedRound_iff,tests,bodies]

theorem executes_branch_congr {condition condition' : Condition} {thenBlock thenBlock' : Block}
    {elseBlock elseBlock' : Option Block}
    (tests : ∀ store, meaning.holds store condition' = meaning.holds store condition)
    (first : meaning.Runs thenBlock' = meaning.Runs thenBlock)
    (second : meaning.Runs (elseBlock'.getD []) = meaning.Runs (elseBlock.getD [])) :
    meaning.Executes (.branch condition' thenBlock' elseBlock') =
      meaning.Executes (.branch condition thenBlock elseBlock) := by
  funext store flow
  rw [eq_iff_iff,executes_branch,executes_branch,tests]
  split
  · rw [first]
  · rw [second]

theorem executes_while_congr {condition condition' : Condition} {body body' : Block}
    (tests : ∀ store, meaning.holds store condition' = meaning.holds store condition)
    (bodies : meaning.Runs body' = meaning.Runs body) :
    meaning.Executes (.whileLoop id condition' body') = meaning.Executes (.whileLoop id condition body) := by
  funext store flow
  rw [eq_iff_iff,executes_while,executes_while,testedRound_congr tests rfl bodies]

theorem executes_doWhile_congr {condition condition' : Condition} {body body' : Block}
    (tests : ∀ store, meaning.holds store condition' = meaning.holds store condition)
    (bodies : meaning.Runs body' = meaning.Runs body) :
    meaning.Executes (.doWhile id condition' body') = meaning.Executes (.doWhile id condition body) := by
  funext store flow
  rw [eq_iff_iff,executes_doWhile,executes_doWhile,repeatedRound_congr tests bodies]

theorem executes_for_congr {start start' update update' : Option Statement} {condition condition' : Condition}
    {body body' : Block} (starts : Option.Rel (fun old new => meaning.Executes new = meaning.Executes old) start start')
    (tests : ∀ store, meaning.holds store condition' = meaning.holds store condition)
    (updates : meaning.Runs update'.toList = meaning.Runs update.toList)
    (bodies : meaning.Runs body' = meaning.Runs body) :
    meaning.Executes (.forLoop id start' condition' update' body') =
      meaning.Executes (.forLoop id start condition update body) := by
  have loops : meaning.Executes (.forLoop id none condition' update' body') =
      meaning.Executes (.forLoop id none condition update body) := by
    funext store flow
    rw [eq_iff_iff,executes_for,executes_for,testedRound_congr tests updates bodies]
  cases starts with
  | none => exact loops
  | some first =>
    funext store flow
    rw [eq_iff_iff,executes_forStart,executes_forStart,runs_cons_congr first (runs_cons_congr loops rfl)]

def SameArms (meaning : Meaning σ ν) : List SwitchArm → List SwitchArm → Prop :=
  List.Forall₂ fun old new => new.labels = old.labels ∧ meaning.Runs new.body = meaning.Runs old.body

theorem sameArms_dropped {arms arms' : List SwitchArm} (skips : SwitchArm → Bool)
    (labelled : ∀ arm arm' : SwitchArm, arm'.labels = arm.labels → skips arm' = skips arm)
    (same : meaning.SameArms arms arms') : meaning.SameArms (arms.dropWhile skips) (arms'.dropWhile skips) := by
  induction same with
  | nil => exact .nil
  | @cons arm arm' rest rest' here later ih =>
    rw [List.dropWhile_cons,List.dropWhile_cons,labelled arm arm' here.1]
    split
    · exact ih
    · exact .cons here later

theorem sameArms_selected {arms arms' : List SwitchArm} (same : meaning.SameArms arms arms') (value : Int32) :
    meaning.SameArms (SwitchArm.select arms value) (SwitchArm.select arms' value) := by
  have listed := sameArms_dropped (value ∉ ·.labels) (fun arm arm' labels => by rw [labels]) same
  have default := sameArms_dropped (!·.isDefault) (fun arm arm' labels => by simp only [SwitchArm.isDefault,labels])
    same
  unfold SwitchArm.select
  generalize arms.dropWhile (value ∉ ·.labels) = found at listed ⊢
  generalize arms'.dropWhile (value ∉ ·.labels) = found' at listed ⊢
  cases listed with
  | nil => exact default
  | cons here later => exact .cons here later

theorem runs_arms {arms arms' : List SwitchArm} (same : meaning.SameArms arms arms') :
    meaning.Runs (arms'.flatMap (·.body)) = meaning.Runs (arms.flatMap (·.body)) := by
  induction same with
  | nil => rfl
  | cons here _ ih => exact runs_append_congr here.2 ih

theorem executes_switch_congr {discriminant discriminant' : Expr} {arms arms' : List SwitchArm}
    (selects : ∀ store, meaning.selects discriminant' store = meaning.selects discriminant store)
    (same : meaning.SameArms arms arms') :
    meaning.Executes (.switch id discriminant' arms') = meaning.Executes (.switch id discriminant arms) := by
  funext store flow
  rw [eq_iff_iff,executes_switch,executes_switch,selects,runs_arms (sameArms_selected same _)]

def SameCatches (meaning : Meaning σ ν) : List CatchClause → List CatchClause → Prop :=
  List.Forall₂ fun old new => new.types = old.types ∧ meaning.Runs new.body = meaning.Runs old.body

theorem executes_tryCatch_congr {body body' : Block} {catches catches' : List CatchClause}
    (bodies : meaning.Runs body' = meaning.Runs body) (same : meaning.SameCatches catches catches') :
    meaning.Executes (.tryCatch body' catches') = meaning.Executes (.tryCatch body catches) := by
  have caught : meaning.Caught catches' = meaning.Caught catches := by
    funext middle flow
    unfold Caught
    split
    · rename_i store exception
      induction same with
      | nil => rfl
      | @cons clause clause' rest rest' here _ ih =>
        have matched : clause'.matches = clause.matches := by
          funext isInstance
          simp only [CatchClause.matches,here.1]
        rw [List.find?_cons,List.find?_cons,matched]
        cases clause.matches (meaning.isInstance exception) with
        | true => simp only [here.2]
        | false => exact ih
    · rfl
  funext store flow
  rw [eq_iff_iff,executes_tryCatch,executes_tryCatch,bodies,caught]

section
variable {β : Type w} {rel : α → α → Prop}

theorem forall₂_put {put : α → β → α} {read : α → β} {same : β → β → Prop} {items : List α} {news : List β}
    (puts : ∀ item new, same (read item) new → rel item (put item new))
    (each : List.Forall₂ same (items.map read) news) : List.Forall₂ rel items (items.zipWith put news) := by
  induction items generalizing news with
  | nil => exact .nil
  | cons item rest ih =>
    cases each with
    | cons here later => exact .cons (puts item _ here) (ih later)

end

theorem executes_withBlocks {statement : Statement} {blocks : List Block}
    (same : List.Forall₂ (fun old new => meaning.Runs new = meaning.Runs old) statement.childBlocks blocks) :
    meaning.Executes (statement.withBlocks blocks) = meaning.Executes statement := by
  cases statement with
  | branch condition thenBlock elseBlock =>
    cases elseBlock with
    | none =>
      obtain _ | ⟨first,⟨⟩⟩ := same
      exact executes_branch_congr (fun _ => rfl) first rfl
    | some elseBlock =>
      obtain _ | ⟨first,_ | ⟨second,⟨⟩⟩⟩ := same
      exact executes_branch_congr (fun _ => rfl) first second
  | whileLoop id condition body =>
    obtain _ | ⟨inside,⟨⟩⟩ := same
    exact executes_while_congr (fun _ => rfl) inside
  | doWhile id condition body =>
    obtain _ | ⟨inside,⟨⟩⟩ := same
    exact executes_doWhile_congr (fun _ => rfl) inside
  | forLoop id start condition update body =>
    obtain _ | ⟨inside,⟨⟩⟩ := same
    refine executes_for_congr ?_ (fun _ => rfl) rfl inside
    cases start with
    | none => exact .none
    | some start => exact .some rfl
  | switch id discriminant arms =>
    exact executes_switch_congr (fun _ => rfl) (forall₂_put (fun _ _ => .intro rfl) same)
  | tryCatch body catches =>
    obtain _ | ⟨inside,others⟩ := same
    exact executes_tryCatch_congr inside (forall₂_put (fun _ _ => .intro rfl) others)
  | _ =>
    cases same
    rfl

end Meaning
end Untangle
