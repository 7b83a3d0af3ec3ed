import Untangle.Proofs.Emission.Ending

namespace Untangle

def StructureError.foreseen : StructureError → Bool
  | .irreducible _ => true
  | .ambiguousLoop _ => true
  | .interleavedHandlers _ => true
  | .graph _ => true
  | _ => false

abbrev Emission.Unforeseen (emission : Emission α) : Prop :=
  Excused (fun cause => cause.foreseen = false) emission

def Emitter.Unforeseen (emit : Emitter) : Prop :=
  ∀ scope block stop out, Emission.Unforeseen (emit scope block stop out)

namespace Emission
variable {scope : Scope} {source target block : BlockId} {stop merge : Option BlockId} {out : Block} {emit : Emitter}

theorem log_unforeseen (event : Event) : Unforeseen (log event) := excused_modify

theorem take_unforeseen (block : BlockId) : Unforeseen (take block) := by
  refine excused_get fun before => ?_
  split
  · exact excused_throw rfl
  · exact excused_set

theorem declare_unforeseen (kind : BreakableKind) : Unforeseen (declare kind) := by
  unfold declare
  exact excused_get fun before => excused_bind excused_set fun _ => excused_pure

theorem markFor_unforeseen (id : BreakableId) (header : BlockId) : Unforeseen (markFor id header) := by
  refine excused_get fun before => ?_
  split
  · exact excused_throw rfl
  · exact excused_set

theorem jump_unforeseen (source : BlockId) (resolved : ResolvedJump) (out : Block) :
    Unforeseen (jump source resolved out) := by
  refine excused_get fun before => ?_
  dsimp only
  split
  · exact excused_throw rfl
  · exact excused_bind excused_set fun _ => excused_bind (log_unforeseen _) fun _ => excused_pure

theorem flowTo_unforeseen (scope : Scope) (source target : BlockId) (stop : Option BlockId) (out : Block) :
    Unforeseen (flowTo scope source target stop out) := by
  unfold flowTo
  split
  · exact excused_pure
  · split
    · exact excused_bind (jump_unforeseen _ _ _) fun _ => excused_pure
    · refine excused_get fun before => ?_
      split
      · exact excused_pure
      · exact excused_throw rfl

theorem follow_unforeseen (scope : Scope) (source : BlockId) (merge stop : Option BlockId) (out : Block) :
    Unforeseen (follow scope source merge stop out) := by
  unfold follow
  cases merge with
  | none => exact excused_pure
  | some target => exact flowTo_unforeseen _ _ _ _ _

theorem checkConstruct_unforeseen (settings : StructuringSettings) (scope : Scope) (statement : Statement) :
    Unforeseen (checkConstruct settings scope statement) := by
  refine excused_get fun before => ?_
  split
  · split
    · exact excused_throw rfl
    · exact excused_pure
  · exact excused_pure

theorem demand_unforeseen (block : BlockId) (statement : Statement) : Unforeseen (demand block statement) := by
  unfold demand
  split
  · exact excused_throw rfl
  · exact excused_pure

theorem sequence_unforeseen (known : emit.Unforeseen) (scope : Scope) (first stop : Option BlockId) (out : Block) :
    Unforeseen (sequence emit scope first stop out) := by
  unfold Emission.sequence
  cases first with
  | none => exact excused_pure
  | some block =>
    dsimp only
    split
    · exact excused_pure
    · exact known _ _ _ _

theorem arm_unforeseen (known : emit.Unforeseen) (scope : Scope) (source target : BlockId) (stop : Option BlockId) :
    Unforeseen (arm emit scope source target stop) := by
  unfold arm
  exact excused_bind (flowTo_unforeseen _ _ _ _ _) fun _ => sequence_unforeseen known _ _ _ _

end Emission

namespace Survey
open Emission
variable {survey : Survey} {emit : Emitter} {default : BlockId}

theorem emitBranch_unforeseen (known : emit.Unforeseen) :
    Unforeseen (survey.emitBranch emit scope block condition thenTarget elseTarget stop out) := by
  unfold emitBranch
  refine excused_get fun before => excused_bind (log_unforeseen _) fun _ => ?_
  refine excused_bind (arm_unforeseen known _ _ _ _) fun _ => excused_bind (arm_unforeseen known _ _ _ _) fun _ => ?_
  exact follow_unforeseen _ _ _ _ _

theorem emitArms_unforeseen (known : emit.Unforeseen) (arms : List PendingArm) :
    Unforeseen (emitArms emit scope block stop arms) := by
  fun_induction emitArms emit scope block stop arms with
  | case1 => exact excused_pure
  | case2 last => exact excused_bind (arm_unforeseen known _ _ _ _) fun _ => excused_pure
  | case3 current next rest ih =>
    exact excused_bind (arm_unforeseen known _ _ _ _) fun _ => excused_bind ih fun _ => excused_pure

theorem emitSwitch_unforeseen (known : emit.Unforeseen) :
    Unforeseen (survey.emitSwitch emit scope block discriminant cases default stop out) := by
  unfold emitSwitch
  refine excused_get fun before => excused_bind (log_unforeseen _) fun _ => ?_
  refine excused_bind (declare_unforeseen _) fun _ => excused_bind (emitArms_unforeseen known _) fun _ => ?_
  refine excused_bind (demand_unforeseen _ _) fun _ => excused_bind (checkConstruct_unforeseen _ _ _) fun _ => ?_
  exact follow_unforeseen _ _ _ _ _

theorem emitPreTested_unforeseen (known : emit.Unforeseen) :
    Unforeseen (survey.emitPreTested emit scope loop region condition bodyEntry exit out) := by
  unfold emitPreTested
  refine excused_bind (take_unforeseen _) fun _ => excused_bind (declare_unforeseen _) fun _ => ?_
  refine excused_bind (arm_unforeseen known _ _ _ _) fun _ => ?_
  split
  · refine excused_bind (take_unforeseen _) fun _ => ?_
    dsimp only
    split <;> exact excused_bind (markFor_unforeseen _ _) fun _ => excused_pure
  · refine excused_get fun before => ?_
    dsimp only
    split
    · exact excused_bind (markFor_unforeseen _ _) fun _ => excused_pure
    · exact excused_pure

theorem emitPostTested_unforeseen (known : emit.Unforeseen) :
    Unforeseen (survey.emitPostTested emit scope loop region latch condition exit) := by
  unfold emitPostTested
  refine excused_bind (declare_unforeseen _) fun _ => ?_
  split
  · exact excused_bind excused_pure fun _ => excused_bind (take_unforeseen _) fun _ => excused_pure
  · exact excused_bind (known _ _ _ _) fun _ => excused_bind (take_unforeseen _) fun _ => excused_pure

theorem emitEndless_unforeseen (known : emit.Unforeseen) :
    Unforeseen (emitEndless emit scope loop region exit) := by
  unfold emitEndless
  exact excused_bind (declare_unforeseen _) fun _ => excused_bind (known _ _ _ _) fun _ => excused_pure

theorem emitLoop_unforeseen (known : emit.Unforeseen) :
    Unforeseen (survey.emitLoop emit scope loop stop out) := by
  unfold emitLoop
  refine excused_bind excused_modify fun _ => excused_get fun before => excused_bind (log_unforeseen _) fun _ => ?_
  have closing (shape : LoopShape) (built : Statement × Block) : Unforeseen (do
      checkConstruct survey.settings scope built.1
      follow scope loop.header shape.exit? stop (built.2 ++ [built.1])) :=
    excused_bind (checkConstruct_unforeseen _ _ _) fun _ => follow_unforeseen _ _ _ _ _
  split
  · exact excused_bind (emitPreTested_unforeseen known) fun _ => closing _ _
  · exact excused_bind (emitPostTested_unforeseen known) fun _ => excused_bind excused_pure fun _ => closing _ _
  · exact excused_bind (emitEndless_unforeseen known) fun _ => excused_bind excused_pure fun _ => closing _ _

theorem emitCatches_unforeseen (known : emit.Unforeseen) (clauses : List CatchGroup) :
    Unforeseen (emitCatches emit scope stop clauses) := by
  induction clauses with
  | nil => exact excused_pure
  | cons clause rest ih =>
    unfold emitCatches
    refine excused_get fun before => ?_
    split
    · exact excused_bind (excused_throw rfl) fun _ => excused_bind (sequence_unforeseen known _ _ _ _) fun _ =>
        excused_bind ih fun _ => excused_pure
    · exact excused_bind (sequence_unforeseen known _ _ _ _) fun _ => excused_bind ih fun _ => excused_pure

theorem emitTry_unforeseen (known : emit.Unforeseen) :
    Unforeseen (survey.emitTry emit scope range index stop out) := by
  unfold emitTry
  refine excused_bind excused_modify fun _ => excused_bind (log_unforeseen _) fun _ => ?_
  refine excused_bind (sequence_unforeseen known _ _ _ _) fun _ => ?_
  exact excused_bind (emitCatches_unforeseen known _) fun _ => follow_unforeseen _ _ _ _ _

theorem emitPlain_unforeseen (known : emit.Unforeseen) :
    Unforeseen (survey.emitPlain emit scope block stop out) := by
  unfold emitPlain
  refine excused_bind (take_unforeseen _) fun _ => ?_
  cases survey.graph.terminator block with
  | goto target => exact flowTo_unforeseen _ _ _ _ _
  | branch condition thenTarget elseTarget => exact emitBranch_unforeseen known
  | switch discriminant cases default => exact emitSwitch_unforeseen known
  | ret value => exact excused_pure
  | throw exception => exact excused_bind (demand_unforeseen _ _) fun _ => excused_pure

theorem emitBlock_unforeseen (known : emit.Unforeseen) :
    Unforeseen (survey.emitBlock emit scope block stop out) := by
  unfold emitBlock
  refine excused_get fun before => ?_
  dsimp only
  split
  · exact emitTry_unforeseen known
  · split
    · exact emitLoop_unforeseen known
    · exact emitPlain_unforeseen known

theorem emitFrom_unforeseen (survey : Survey) (fuel : Nat) : (survey.emitFrom fuel).Unforeseen := by
  induction fuel with
  | zero => exact fun _ _ _ _ => excused_throw rfl
  | succ fuel ih =>
    intro scope block stop out
    unfold emitFrom
    exact excused_bind (emitBlock_unforeseen ih) fun _ => sequence_unforeseen ih _ _ _ _

theorem complete_unforeseen {survey : Survey} {cause : StructureError}
    (failed : survey.complete progress emitted = .error cause) : cause.foreseen = false := by
  unfold complete at failed
  split at failed
  · cases failed
    rfl
  · dsimp only at failed
    split at failed
    · cases checked : validateBreaks (withoutTrailingReturn emitted) progress.registry with
      | error fault =>
        rw [checked] at failed
        cases failed
        rfl
      | ok _ =>
        rw [checked] at failed
        cases failed
    · cases failed

theorem structured_unforeseen {survey : Survey} {cause : StructureError}
    (failed : survey.structured.1 = .error cause) : cause.foreseen = false := by
  have ends := emitFrom_unforeseen survey survey.fuel ⟨survey.graph.ids.filter survey.isLive,[]⟩
    survey.graph.entry none [] {Progress.start with events:=survey.dropped.map .droppedBlock}
  obtain unforeseen | ⟨_,_,_,_,_,unfinished⟩ := structured_fails ends failed
  · exact unforeseen
  · exact complete_unforeseen unfinished

end Survey
end Untangle
