import Untangle.Proofs.Descent.Agreement
import Untangle.Proofs.Pairing.Emitters
import Untangle.Proofs.Protection.Regions

namespace Untangle
open Emission

def Emission.of (run : Progress → Except StructureError α × Progress) : Emission α := run

theorem Emission.from_of (run : Progress → Except StructureError α × Progress) : (Emission.of run).from = run := rfl

namespace Survey

def advance (survey : Survey) (emit : Emitter) : Emitter := fun scope block stop out => do
  let (out,next) ← survey.emitBlock emit scope block stop out
  sequence emit scope next stop out

def outcome (survey : Survey) (scope : Scope) (block : BlockId) (stop : Option BlockId) (out : Block)
    (before : Progress) : Except StructureError Block × Progress :=
  (survey.advance (fun scope block stop out => Emission.of fun middle =>
    if _less : survey.outstanding middle < survey.outstanding before then survey.outcome scope block stop out middle
    else (.error (.structuredTwice block),middle)) scope block stop out).from before
termination_by survey.outstanding before

def emission (survey : Survey) : Emitter := fun scope block stop out => .of (survey.outcome scope block stop out)

end Survey

def Emitter.below (survey : Survey) (bound : Nat) (emit : Emitter) : Emitter := fun scope block stop out =>
  .of fun before =>
    if survey.outstanding before < bound then (emit scope block stop out).from before
    else (.error (.structuredTwice block),before)

namespace Survey
variable {survey : Survey} {one two : Emitter} {bound : Nat} {scope : Scope} {block : BlockId} {stop : Option BlockId}
  {out : Block} {before : Progress}

theorem emission_below (scope : Scope) (block : BlockId) (stop : Option BlockId) (out : Block) (before : Progress) :
    (survey.emission scope block stop out).from before =
      (survey.advance (survey.emission.below survey (survey.outstanding before)) scope block stop out).from before := by
  unfold emission
  rw [from_of,outcome]
  rfl

theorem emitFrom_advance (survey : Survey) (fuel : Nat) :
    survey.emitFrom (fuel + 1) = survey.advance (survey.emitFrom fuel) := rfl

theorem handled_of_make {graph : BlockGraph} {settings : StructuringSettings}
    (made : Survey.make graph settings = .ok survey) : survey.Handled := by
  obtain ⟨rfl,_,_,_,_,tries⟩ := make_ok made
  intro range member clause listed
  obtain ⟨row,known,_,same⟩ := (TryRegion.groups_of_group tries).handlers range member clause listed
  exact same ▸ (BlockGraph.handler_inside known).handled

theorem emitBlock_spent {emit : Emitter} (inside : block < survey.graph.size) (spent : survey.outstanding before = 0) :
    (survey.emitBlock emit scope block stop out).from before = (.error (.structuredTwice block),before) := by
  have opened : survey.pendingTry? before.opened block = none := by
    cases pending : survey.pendingTry? before.opened block with
    | none => rfl
    | some found =>
      obtain ⟨known,_,fresh⟩ := pendingTry_some pending
      exact absurd (outstanding_opened known fresh) (by omega)
  have entered : (LoopForest.get? survey.loops block).filter (fun _ => decide (block ∉ before.entered)) = none := by
    rw [Option.filter_eq_none_iff]
    intro loop found unentered
    obtain ⟨member,rfl⟩ := LoopForest.get_some found
    exact absurd (outstanding_entered member (of_decide_eq_true unentered)) (by omega)
  have taken : block ∈ before.taken := Decidable.byContradiction fun fresh =>
    absurd (outstanding_taken inside fresh) (by omega)
  unfold emitBlock
  rw [from_get]
  dsimp only
  rw [opened,Option.filter_none]
  dsimp only
  rw [entered]
  exact take_taken taken _

theorem advance_alike (agree : one.Agree survey bound two) (handled : survey.Handled) (within : scope.Within survey)
    (inside : block < survey.graph.size) (stop : Option BlockId) (out : Block)
    (enough : survey.outstanding before ≤ bound) :
    Alike before (fun _ after => before.Later after) (survey.advance one scope block stop out)
      (survey.advance two scope block stop out) := by
  refine alike_bind (emitBlock_alike agree within handled inside enough) ?_
  rintro ⟨out,next⟩ middle lessens
  refine (sequence_agree agree within lessens.leads middle (Nat.lt_of_lt_of_le lessens.less enough)).mono ?_
  exact fun _ after ⟨onward,_⟩ => lessens.later.trans onward

theorem emitFrom_agree (handled : survey.Handled) (fuel : Nat) :
    (survey.emitFrom fuel).Agree survey (fuel + 1) survey.emission := by
  induction fuel with
  | zero =>
    intro scope block stop out within inside before less
    have failed : (survey.emission scope block stop out).from before = (.error (.structuredTwice block),before) := by
      rw [emission_below]
      unfold advance
      rw [Emission.from_bind,emitBlock_spent inside (by omega)]
    refine ⟨failed.symm,fun result after gives => ?_⟩
    cases gives
  | succ fuel ih =>
    intro scope block stop out within inside before less
    have agree : (survey.emitFrom fuel).Agree survey (survey.outstanding before)
        (survey.emission.below survey (survey.outstanding before)) := by
      intro scope block stop out within inside middle lower
      have alike := ih scope block stop out within inside middle (by omega)
      refine ⟨alike.same.trans ?_,alike.gives⟩
      unfold Emitter.below
      rw [from_of,if_pos lower]
    have alike := advance_alike agree handled within inside stop out (Nat.le_refl _)
    rw [emitFrom_advance]
    exact ⟨alike.same.trans (emission_below ..).symm,fun result after gives => ⟨alike.gives result after gives,trivial⟩⟩

theorem emission_agree (handled : survey.Handled) (bound : Nat) :
    survey.emission.Agree survey bound survey.emission := by
  intro scope block stop out within inside before less
  have alike := emitFrom_agree handled bound scope block stop out within inside before (Nat.lt_succ_of_lt less)
  exact ⟨rfl,fun result after gives => alike.gives result after (alike.same.trans gives)⟩

theorem emission_advance (handled : survey.Handled) (within : scope.Within survey) (inside : block < survey.graph.size)
    (stop : Option BlockId) (out : Block) (before : Progress) :
    (survey.emission scope block stop out).from before =
      (survey.advance survey.emission scope block stop out).from before := by
  have less : survey.outstanding before < survey.outstanding before + 1 := Nat.lt_succ_self _
  have first := emitFrom_agree handled (survey.outstanding before + 1) scope block stop out within inside before
    (Nat.lt_succ_of_lt less)
  have next := advance_alike (emitFrom_agree handled (survey.outstanding before)) handled within inside stop out
    (Nat.le_of_lt less)
  exact first.same.symm.trans next.same

theorem emission_unique (handled : survey.Handled) {other : Emitter}
    (advances : ∀ scope block stop out before, scope.Within survey → block < survey.graph.size →
      (other scope block stop out).from before = (survey.advance other scope block stop out).from before) (bound : Nat) :
    survey.emission.Agree survey bound other := by
  induction bound with
  | zero => exact fun _ _ _ _ _ _ _ less => absurd less (Nat.not_lt_zero _)
  | succ bound ih =>
    intro scope block stop out within inside before less
    have step := advance_alike ih handled within inside stop out (Nat.le_of_lt_succ less)
    have start := emission_advance handled within inside stop out before
    refine ⟨(start.trans step.same).trans (advances scope block stop out before within inside).symm,?_⟩
    exact fun result after gives => ⟨step.gives result after (start.symm.trans gives),trivial⟩

theorem outstanding_beginning (survey : Survey) : survey.outstanding survey.beginning = survey.fuel := by
  unfold outstanding remaining beginning Progress.start unseen fuel
  simp
  omega

structure Terminates (survey : Survey) : Prop where
  -- A step asks for nothing that has not less outstanding than the step itself.
  descends : ∀ (one two : Emitter) scope block stop out before, scope.Within survey → block < survey.graph.size →
    one.Agree survey (survey.outstanding before) two →
    (survey.advance one scope block stop out).from before = (survey.advance two scope block stop out).from before
  -- A block that does not fail leaves less outstanding than there was.
  lessens : ∀ scope block stop out before onward after, scope.Within survey → block < survey.graph.size →
    Gives (survey.emitBlock survey.emission scope block stop out) before onward after →
    survey.outstanding after < survey.outstanding before
  -- So the steps of the recursion are those of one emitter and no other.
  advances : ∀ scope block stop out before, scope.Within survey → block < survey.graph.size →
    (survey.emission scope block stop out).from before =
      (survey.advance survey.emission scope block stop out).from before
  unique : ∀ other : Emitter, (∀ scope block stop out before, scope.Within survey → block < survey.graph.size →
      (other scope block stop out).from before = (survey.advance other scope block stop out).from before) →
    ∀ scope block stop out before, scope.Within survey → block < survey.graph.size →
      (other scope block stop out).from before = (survey.emission scope block stop out).from before
  -- Fuel for what is outstanding cuts nothing off.
  fuelled : ∀ fuel scope block stop out before, scope.Within survey → block < survey.graph.size →
    survey.outstanding before ≤ fuel →
    (survey.emitFrom fuel scope block stop out).from before = (survey.emission scope block stop out).from before

-- Structuring ends on every graph, and comes to what it would come to without fuel.
theorem structuring_terminates {graph : BlockGraph} {settings : StructuringSettings}
    (made : Survey.make graph settings = .ok survey) :
    survey.Terminates ∧ survey.outstanding survey.beginning = survey.fuel ∧
      survey.emitAll.from survey.beginning =
        (survey.emission ⟨survey.graph.ids.filter survey.isLive,[]⟩ survey.graph.entry none []).from survey.beginning := by
  have handled := handled_of_make made
  have fuelled (fuel : Nat) (scope : Scope) (block : BlockId) (stop : Option BlockId) (out : Block) (before : Progress)
      (within : scope.Within survey) (inside : block < survey.graph.size) (enough : survey.outstanding before ≤ fuel) :=
    (emitFrom_agree handled fuel scope block stop out within inside before (Nat.lt_succ_of_le enough)).same
  refine ⟨⟨?_,?_,?_,?_,fuelled⟩,outstanding_beginning survey,?_⟩
  · intro one two scope block stop out before within inside agree
    exact (advance_alike agree handled within inside stop out (Nat.le_refl _)).same
  · intro scope block stop out before onward after within inside gives
    exact ((emitBlock_alike (emission_agree handled _) within handled inside (Nat.le_refl _)).gives onward after gives).less
  · exact fun scope block stop out before within inside => emission_advance handled within inside stop out before
  · intro other advances scope block stop out before within inside
    exact (emission_unique handled advances _ scope block stop out within inside before (Nat.lt_succ_self _)).same.symm
  · have within : Scope.Within ⟨survey.graph.ids.filter survey.isLive,[]⟩ survey := fun block member =>
      BlockGraph.mem_ids.mp (List.mem_filter.mp member).1
    exact fuelled _ _ _ _ _ _ within survey.graph.entry_inside (Nat.le_of_eq (outstanding_beginning survey))

-- The loop goes around the protected block, and both begin there: its header is gone through three times.
def revisiting : BlockGraph :=
  ⟨[⟨[.increment ⟨0,none,.int⟩ 1],.goto 1⟩,⟨[.increment ⟨0,none,.int⟩ 2],.branch (.constant true) 0 2⟩,⟨[],.ret none⟩,
    ⟨[.increment ⟨0,none,.int⟩ 3],.ret none⟩],[⟨0,1,3,none⟩],by decide⟩

def revisited : Survey :=
  ⟨revisiting,.default,revisiting.dominance,revisiting.postDominance,revisiting.order,revisiting.live,
    [⟨0,[1],[0,1]⟩],[⟨0,1,[⟨3,[],true⟩]⟩]⟩

def revisitedTree : Block :=
  [.doWhile 0 (.constant true) [.tryCatch [.increment ⟨0,none,.int⟩ 1] [⟨[],[.increment ⟨0,none,.int⟩ 3,.ret none]⟩],
    .increment ⟨0,none,.int⟩ 2],.ret none]

theorem revisiting_made : Survey.make revisiting .default = .ok revisited := by cbv

theorem revisiting_emitted : (revisited.emitAll.from revisited.beginning).1 = .ok revisitedTree := by cbv

theorem revisiting_terminates : Survey.make revisiting .default = .ok revisited ∧
    revisited.outstanding revisited.beginning = 6 ∧
    ((revisited.emission ⟨[0,1,2,3],[]⟩ 0 none []).from revisited.beginning).1 = .ok revisitedTree := by
  obtain ⟨_,outstanding,emitted⟩ := structuring_terminates revisiting_made
  have live : revisited.graph.ids.filter revisited.isLive = [0,1,2,3] := by cbv
  rw [live] at emitted
  exact ⟨revisiting_made,outstanding,(congrArg Prod.fst emitted).symm.trans revisiting_emitted⟩

end Survey
end Untangle
