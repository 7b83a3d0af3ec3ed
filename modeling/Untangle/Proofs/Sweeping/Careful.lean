import Untangle.Proofs.Pairing.Together
import Untangle.Proofs.Sweeping.Failures

namespace Untangle
open Emission

-- An emitter that refuses to start where it is not known to go well. A run from such a place never meets a
-- refusal, so that all that is emitted on the way starts like this too.
open Classical in
noncomputable def Emitter.careful (emit : Emitter) (survey : Survey) (fuel : Nat) : Emitter :=
  fun scope block stop out => do
    let progress ← get
    if Starts survey fuel scope block stop progress then emit scope block stop out else throw (.structuredTwice block)

noncomputable def Survey.carefulFrom (survey : Survey) (fuel : Nat) : Emitter :=
  (survey.emitFrom fuel).careful survey fuel

-- The first emission does what the second does, or refuses.
def Emission.Below (one two : Emission α) : Prop := ∀ before, one.from before = two.from before ∨
  ∃ block after, one.from before = (.error (.structuredTwice block),after)

def Emitter.Below (one two : Emitter) : Prop := ∀ scope block stop out, (one scope block stop out).Below (two scope block stop out)

variable {survey : Survey} {emit one two : Emitter} {scope : Scope} {stop next : Option BlockId} {before middle after : Progress}
  {block source target : BlockId} {out out' result : Block} {fuel : Nat} {loop : NaturalLoop} {region : List BlockId}

theorem careful_gives : Gives (emit.careful survey fuel scope block stop out) before result after ↔
    Starts survey fuel scope block stop before ∧ Gives (emit scope block stop out) before result after := by
  unfold Emitter.careful
  rw [gives_get]
  split
  · rename_i starts
    exact (and_iff_right starts).symm
  · rename_i refused
    exact ⟨fun gives => absurd gives gives_throw,fun both => absurd both.1 refused⟩

theorem careful_safe (safe : emit.Safe survey fuel) : (emit.careful survey fuel).Safe survey fuel := by
  intro scope block stop out before starts
  unfold Emitter.careful
  rw [ends_get,if_pos starts]
  exact safe scope block stop out before starts

theorem careful_tracks (tracks : emit.Tracks) : (emit.careful survey fuel).Tracks :=
  fun scope block stop out before out' after gives => tracks scope block stop out before out' after (careful_gives.mp gives).2

namespace Emission

theorem below_refl (emission : Emission α) : emission.Below emission := fun _ => Or.inl rfl

theorem below_get {rest rest' : Progress → Emission α} (next : ∀ progress, (rest progress).Below (rest' progress)) :
    (get >>= rest).Below (get >>= rest') := fun before => next before before

theorem below_bind {first first' : Emission α} {rest rest' : α → Emission β} (start : first.Below first')
    (next : ∀ value, (rest value).Below (rest' value)) : (first >>= rest).Below (first' >>= rest') := by
  intro before
  rw [from_bind,from_bind]
  rcases start before with same | ⟨block,after,refused⟩
  · rw [same]
    rcases first'.from before with ⟨cause | value,middle⟩
    · exact Or.inl rfl
    · exact next value middle
  · rw [refused]
    exact Or.inr ⟨block,after,rfl⟩

theorem below_after {first : Emission α} {rest rest' : α → Emission β} (next : ∀ value, (rest value).Below (rest' value)) :
    (first >>= rest).Below (first >>= rest') := below_bind (below_refl first) next

-- What is known to fail for an admitted cause only does not refuse.
theorem Below.gives {one two : Emission α} {done : α → Progress → Prop} {result : α} (below : one.Below two)
    (ends : Ends one before done survey.graph.Admits) (gives : Gives two before result after) :
    Gives one before result after ∧ done result after := by
  rcases below before with same | ⟨block,last,refused⟩
  · have known : Gives one before result after := same.trans gives
    exact ⟨known,ends.holds known⟩
  · unfold Ends at ends
    rw [show StateT.run (ExceptT.run one) before = _ from refused] at ends
    exact ends.elim

end Emission

theorem careful_below : (emit.careful survey fuel).Below emit := by
  intro scope block stop out before
  unfold Emitter.careful
  rw [from_get]
  split
  · exact Or.inl rfl
  · exact Or.inr ⟨block,before,rfl⟩

section Below
variable (below : one.Below two)
include below

theorem sequence_below : (Emission.sequence one scope next stop out).Below (Emission.sequence two scope next stop out) := by
  unfold Emission.sequence
  cases next with
  | none => exact below_refl _
  | some block =>
    dsimp only
    split
    · exact below_refl _
    · exact below _ _ _ _

theorem arm_below : (arm one scope source target stop).Below (arm two scope source target stop) :=
  below_after fun _ => sequence_below below

namespace Survey

theorem emitBranch_below {condition : Condition} {thenTarget elseTarget : BlockId} :
    (survey.emitBranch one scope block condition thenTarget elseTarget stop out).Below
      (survey.emitBranch two scope block condition thenTarget elseTarget stop out) := by
  refine below_get fun progress => below_after fun _ => ?_
  refine below_bind (arm_below below) fun thenBlock => ?_
  exact below_bind (arm_below below) fun elseBlock => below_refl _

theorem emitArms_below (arms : List PendingArm) :
    (emitArms one scope block stop arms).Below (emitArms two scope block stop arms) := by
  induction arms with
  | nil => exact below_refl _
  | cons current rest ih =>
    cases rest with
    | nil => exact below_bind (arm_below below) fun body => below_refl _
    | cons next rest =>
      refine below_bind (arm_below below) fun body => ?_
      exact below_bind ih fun arms => below_refl _

theorem emitSwitch_below {discriminant : Expr} {cases : List (Int32 × BlockId)} {default : BlockId} :
    (survey.emitSwitch one scope block discriminant cases default stop out).Below
      (survey.emitSwitch two scope block discriminant cases default stop out) := by
  refine below_get fun progress => below_after fun _ => below_after fun id => ?_
  exact below_bind (emitArms_below below _) fun built => below_refl _

theorem emitPreTested_below {condition : Condition} {bodyEntry exit : BlockId} :
    (survey.emitPreTested one scope loop region condition bodyEntry exit out).Below
      (survey.emitPreTested two scope loop region condition bodyEntry exit out) := by
  refine below_after fun _ => below_after fun id => ?_
  exact below_bind (arm_below below) fun body => below_refl _

theorem emitPostTested_below {condition : Condition} {latch exit : BlockId} :
    (survey.emitPostTested one scope loop region latch condition exit).Below
      (survey.emitPostTested two scope loop region latch condition exit) := by
  refine below_after fun id => ?_
  dsimp only
  split
  · exact below_refl _
  · exact below_bind (below _ _ _ _) fun body => below_refl _

theorem emitEndless_below {exit : Option BlockId} :
    (emitEndless one scope loop region exit).Below (emitEndless two scope loop region exit) := by
  refine below_after fun id => ?_
  exact below_bind (below _ _ _ _) fun body => below_refl _

theorem emitLoop_below : (survey.emitLoop one scope loop stop out).Below (survey.emitLoop two scope loop stop out) := by
  refine below_after fun _ => below_get fun progress => below_after fun _ => ?_
  split
  · exact below_bind (emitPreTested_below below) fun built => below_refl _
  · exact below_bind (show (survey.emitPostTested one _ _ _ _ _ _).Below _ from emitPostTested_below below)
      fun statement => below_refl _
  · exact below_bind (show (emitEndless one _ _ _ _).Below _ from emitEndless_below below) fun statement => below_refl _

theorem emitPlain_below : (survey.emitPlain one scope block stop out).Below (survey.emitPlain two scope block stop out) := by
  refine below_after fun _ => ?_
  dsimp only
  split
  · exact below_refl _
  · exact emitBranch_below below
  · exact emitSwitch_below below
  · exact below_refl _
  · exact below_refl _

theorem emitBlock_below (unguarded : survey.tries = []) :
    (survey.emitBlock one scope block stop out).Below (survey.emitBlock two scope block stop out) := by
  refine below_get fun progress => ?_
  dsimp only
  split
  · rename_i range index found
    have pending := (Option.filter_eq_some_iff.mp found).1
    simp [pendingTry?,unguarded,latestBy] at pending
  · split
    · exact emitLoop_below below
    · exact emitPlain_below below

end Survey
end Below

namespace Survey

theorem carefulFrom_safe (sound : survey.Unguarded) (fuel : Nat) : (survey.carefulFrom fuel).Safe survey fuel :=
  careful_safe (emitFrom_safe sound fuel)

theorem carefulFrom_tracks (sound : survey.Unguarded) (fuel : Nat) : (survey.carefulFrom fuel).Tracks :=
  careful_tracks (emitFrom_tracks sound.plain fuel)

theorem carefulFrom_zero (gives : Gives (survey.carefulFrom 0 scope block stop out) before result after) : False :=
  emitFrom_zero (careful_gives.mp gives).2

theorem carefulFrom_gives (sound : survey.Unguarded)
    (gives : Gives (survey.carefulFrom fuel scope block stop out) before result after) :
    Starts survey fuel scope block stop before ∧ block ∈ after.taken ∧
      Sweeps survey.graph (Leaves scope stop) (fun other => other ≠ block ∧ scope.isJumpTarget other = true) before after ∧
      scope.Known after.registry := by
  have starts := (careful_gives.mp gives).1
  exact ⟨starts,(carefulFrom_safe sound fuel _ _ _ _ _ starts).holds gives⟩

theorem carefulFrom_succ (sound : survey.Unguarded)
    (gives : Gives (survey.carefulFrom (fuel + 1) scope block stop out) before result after) :
    Starts survey (fuel + 1) scope block stop before ∧ ∃ out' next middle,
      Gives (survey.emitBlock (survey.carefulFrom fuel) scope block stop out) before (out',next) middle ∧
      Continues survey scope stop (fun other => other ≠ block ∧ scope.isJumpTarget other = true) before (out',next) middle ∧
      Gives (sequence (survey.carefulFrom fuel) scope next stop out') middle result after := by
  obtain ⟨starts,gives⟩ := careful_gives.mp gives
  obtain ⟨out',next,middle,emitted,rest⟩ := emitFrom_succ gives
  obtain ⟨emitted,here,continues⟩ := (emitBlock_below careful_below sound.tries).gives
    (emitBlock_ends sound (carefulFrom_safe sound fuel) (carefulFrom_tracks sound fuel) starts) emitted
  refine ⟨starts,out',next,middle,emitted,continues,?_⟩
  unfold Emission.sequence at rest ⊢
  cases next with
  | none => exact rest
  | some target =>
    dsimp only at rest ⊢
    split at rest
    · rename_i stops
      rw [if_pos stops]
      exact rest
    · rename_i goes
      rw [if_neg goes]
      exact careful_gives.mpr ⟨next_starts continues starts here rfl,rest⟩

end Survey
end Untangle
