import Untangle.Proofs.Pairing.Trees

namespace Untangle

structure Progress.Twin (equal : Prop) (one two : Progress) : Prop where
  taken : one.taken = two.taken
  entered : one.entered = two.entered
  opened : one.opened = two.opened
  events : one.events = two.events
  registry : Registry.Twin equal one.registry two.registry

def Emission.from (emission : Emission α) (before : Progress) : Except StructureError α × Progress :=
  StateT.run (ExceptT.run emission) before

structure Emission.Together (equal : Prop) (related : α → β → Prop) (one : Emission α) (two : Emission β)
    (before before' : Progress) : Prop where
  outcome : Tally related (one.from before).1 (two.from before').1
  progress : Progress.Twin equal (one.from before).2 (two.from before').2
  keeps : before.registry.Keeps (one.from before).2.registry

namespace Emission
variable {equal : Prop} {related : α → β → Prop} {other : α' → β' → Prop} {before before' : Progress}

theorem together_pure {value : α} {value' : β} (results : related value value')
    (twin : Progress.Twin equal before before') :
    Together equal related (pure value) (pure value') before before' :=
  ⟨results,twin,Registry.keeps_refl _⟩

theorem together_throw (cause : StructureError) (twin : Progress.Twin equal before before') :
    Together equal related (throw cause) (throw cause) before before' :=
  ⟨rfl,twin,Registry.keeps_refl _⟩

theorem from_bind (first : Emission α) (rest : α → Emission β) (before : Progress) :
    (first >>= rest).from before = match first.from before with
      | (.ok value,middle) => (rest value).from middle
      | (.error cause,middle) => (.error cause,middle) := by
  unfold Emission.from
  rw [ExceptT.run_bind,StateT.run_bind]
  change (match StateT.run (ExceptT.run first) before with
    | (outcome,middle) => _) = _
  rcases StateT.run (ExceptT.run first) before with ⟨cause | value,middle⟩ <;> rfl

theorem from_get {rest : Progress → Emission α} : (get >>= rest).from before = (rest before).from before := rfl

theorem together_bind {one : Emission α} {two : Emission β} {rest : α → Emission α'} {rest' : β → Emission β'}
    (first : Together equal related one two before before')
    (next : ∀ value value' middle middle', related value value' → Progress.Twin equal middle middle' →
      before.registry.Keeps middle.registry → Together equal other (rest value) (rest' value') middle middle') :
    Together equal other (one >>= rest) (two >>= rest') before before' := by
  obtain ⟨outcome,progress,keeps⟩ := first
  rcases ran : one.from before with ⟨cause | value,middle⟩ <;>
    rcases ran' : two.from before' with ⟨cause' | value',middle'⟩ <;>
    rw [ran,ran'] at outcome progress <;> rw [ran] at keeps
  · refine ⟨?_,?_,?_⟩ <;> simp only [from_bind,ran,ran']
    · exact outcome
    · exact progress
    · exact keeps
  · exact outcome.elim
  · exact outcome.elim
  · obtain ⟨outcome',progress',keeps'⟩ := next value value' middle middle' outcome progress keeps
    refine ⟨?_,?_,?_⟩ <;> simp only [from_bind,ran,ran']
    · exact outcome'
    · exact progress'
    · exact Registry.keeps_trans keeps keeps'

theorem together_get {rest : Progress → Emission α} {rest' : Progress → Emission β}
    (next : Together equal related (rest before) (rest' before') before before') :
    Together equal related (get >>= rest) (get >>= rest') before before' :=
  ⟨next.outcome,next.progress,next.keeps⟩

theorem together_modify {change change' : Progress → Progress}
    (twin : Progress.Twin equal (change before) (change' before'))
    (keeps : before.registry.Keeps (change before).registry) :
    Together equal (fun _ _ => True) (modify change) (modify change') before before' :=
  ⟨trivial,twin,keeps⟩

theorem together_set {value value' : Progress} (twin : Progress.Twin equal value value')
    (keeps : before.registry.Keeps value.registry) :
    Together equal (fun _ _ => True) (set value) (set value') before before' :=
  ⟨trivial,twin,keeps⟩

theorem together_left {one : Emission α} {two : Emission β'} {rest : α → Emission α'} {value : α}
    {middle : Progress} (ran : one.from before = (.ok value,middle)) (keeps : before.registry.Keeps middle.registry)
    (next : Together equal other (rest value) two middle before') :
    Together equal other (one >>= rest) two before before' := by
  obtain ⟨outcome,progress,keeps'⟩ := next
  refine ⟨?_,?_,?_⟩ <;> simp only [from_bind,ran]
  · exact outcome
  · exact progress
  · exact Registry.keeps_trans keeps keeps'

variable (twin : Progress.Twin equal before before')
include twin

theorem log_together (event : Event) : Together equal (fun _ _ => True) (log event) (log event) before before' :=
  together_modify ⟨twin.taken,twin.entered,twin.opened,by rw [twin.events],twin.registry⟩ (Registry.keeps_refl _)

theorem enter_together (header : BlockId) :
    Together equal (fun _ _ => True) (enter header) (enter header) before before' :=
  together_modify ⟨twin.taken,by rw [twin.entered],twin.opened,twin.events,twin.registry⟩ (Registry.keeps_refl _)

theorem openRange_together (index : Nat) :
    Together equal (fun _ _ => True) (openRange index) (openRange index) before before' :=
  together_modify ⟨twin.taken,twin.entered,by rw [twin.opened],twin.events,twin.registry⟩ (Registry.keeps_refl _)

theorem take_together (block : BlockId) :
    Together equal (fun _ _ => True) (take block) (take block) before before' := by
  refine together_get ?_
  rw [← twin.taken]
  split
  · exact together_throw _ twin
  · exact together_set ⟨by rw [twin.taken],twin.entered,twin.opened,twin.events,twin.registry⟩
      (Registry.keeps_refl _)

theorem together_declare {kind : BreakableKind} {rest : BreakableId → Emission α'}
    {rest' : BreakableId → Emission β'}
    (next : ∀ id middle middle', (kind.TestsFirst → middle.registry.TestsFirst id) →
      Progress.Twin equal middle middle' → Together equal other (rest id) (rest' id) middle middle') :
    Together equal other (declare kind >>= rest) (declare kind >>= rest') before before' := by
  obtain ⟨same,declared⟩ := twin.registry.declare kind
  have tests (loops : kind.TestsFirst) :
      (before.registry.declare kind).2.TestsFirst (before.registry.declare kind).1 :=
    ⟨kind,by simp [Registry.kind?,Registry.declare],loops⟩
  have further : Together equal other (rest (before.registry.declare kind).1) (rest' (before.registry.declare kind).1)
      {before with registry:=(before.registry.declare kind).2}
      {before' with registry:=(before'.registry.declare kind).2} :=
    next _ _ _ tests ⟨twin.taken,twin.entered,twin.opened,twin.events,declared⟩
  obtain ⟨outcome,progress,keeps⟩ := further
  have ran : (declare kind).from before = (.ok (before.registry.declare kind).1,
      {before with registry:=(before.registry.declare kind).2}) := rfl
  have ran' : (declare kind).from before' = (.ok (before.registry.declare kind).1,
      {before' with registry:=(before'.registry.declare kind).2}) := by
    rw [same]
    rfl
  refine ⟨?_,?_,?_⟩ <;> simp only [from_bind,ran,ran']
  · exact outcome
  · exact progress
  · exact Registry.keeps_trans (Registry.declare_keeps _ kind) keeps

theorem markFor_together (id : BreakableId) (header : BlockId) :
    Together equal (fun _ _ => True) (markFor id header) (markFor id header) before before' := by
  refine together_get ?_
  have marked := twin.registry.setKind id
  rcases done : before.registry.setKind id .forLoop with cause | changed <;>
    rcases done' : before'.registry.setKind id .forLoop with cause' | changed' <;> rw [done,done'] at marked
  · cases marked
    exact together_throw _ twin
  · exact marked.elim
  · exact marked.elim
  · exact together_set ⟨twin.taken,twin.entered,twin.opened,twin.events,marked⟩ (Registry.setKind_keeps done)

theorem markFor_left {id : BreakableId} (header : BlockId) (free : ¬equal) (tests : before.registry.TestsFirst id) :
    ∃ middle, (markFor id header).from before = (.ok (),middle) ∧ Progress.Twin equal middle before' ∧
      before.registry.Keeps middle.registry := by
  obtain ⟨changed,done,marked⟩ := twin.registry.setKind_left free tests
  refine ⟨{before with registry:=changed},?_,⟨twin.taken,twin.entered,twin.opened,twin.events,marked⟩,
    Registry.setKind_keeps done⟩
  have known : Emission.from (get : Emission Progress) before = (.ok before,before) := rfl
  unfold markFor
  rw [from_bind,known]
  dsimp only
  rw [done]
  rfl

theorem jump_together {out out' : Block} (source : BlockId) (resolved : ResolvedJump) (outs : Twin equal out out') :
    Together equal (Twin equal) (jump source resolved out) (jump source resolved out') before before' := by
  refine together_get ?_
  obtain ⟨same,handed⟩ := twin.registry.newBreak resolved.kind
  have registers := handed.register resolved.context.id (before'.registry.newBreak resolved.kind).1
  dsimp only
  rw [same]
  rcases done : (before.registry.newBreak resolved.kind).2.register resolved.context.id
      (before'.registry.newBreak resolved.kind).1 with cause | ⟨changed,brk⟩ <;>
    rcases done' : (before'.registry.newBreak resolved.kind).2.register resolved.context.id
      (before'.registry.newBreak resolved.kind).1 with cause' | ⟨changed',brk'⟩ <;> rw [done,done'] at registers
  · cases registers
    exact together_throw _ twin
  · exact registers.elim
  · exact registers.elim
  · obtain ⟨linked,same⟩ := registers
    cases same
    have keeps : (before.registry.newBreak resolved.kind).2.Keeps changed := Registry.register_keeps done
    refine together_bind (together_set ⟨twin.taken,twin.entered,twin.opened,twin.events,linked⟩ keeps) ?_
    intro _ _ middle middle' _ twin _
    refine together_bind (log_together twin _) fun _ _ later later' _ twin _ => ?_
    exact together_pure (outs.append (Twin.refl _ _)) twin

end Emission

structure Onward.Twin (equal : Prop) (shared : BlockId → Prop) (one two : Onward) : Prop where
  out : Untangle.Twin equal one.1 two.1
  next : one.2 = two.2
  shares : ∀ target, one.2 = some target → shared target

def Emitter.Twin (equal : Prop) (shared : BlockId → Prop) (one two : Emitter) : Prop :=
  ∀ (scope : Scope) (block : BlockId) (stop : Option BlockId) (out out' : Block) (before before' : Progress),
    (∀ target ∈ scope.region, shared target) → shared block → Untangle.Twin equal out out' →
    Progress.Twin equal before before' →
    Emission.Together equal (Untangle.Twin equal) (one scope block stop out) (two scope block stop out') before before'

namespace Emission
variable {shared : BlockId → Prop} {scope : Scope} {out out' : Block} {emit emit' : Emitter} {stop : Option BlockId}
  (within : ∀ target ∈ scope.region, shared target)

theorem together_onward (outs : Twin equal out out') (twin : Progress.Twin equal before before') :
    Together equal (Onward.Twin equal shared) (pure (out,none)) (pure (out',none)) before before' :=
  together_pure ⟨outs,rfl,fun _ impossible => nomatch impossible⟩ twin

include within

theorem flowTo_together (source target : BlockId) (stop : Option BlockId) (outs : Twin equal out out')
    (twin : Progress.Twin equal before before') :
    Together equal (Onward.Twin equal shared) (flowTo scope source target stop out)
      (flowTo scope source target stop out') before before' := by
  unfold flowTo
  split
  · exact together_onward outs twin
  split
  · rename_i resolved _
    exact together_bind (jump_together twin source resolved outs) fun _ _ _ _ outs twin _ =>
      together_onward outs twin
  · refine together_get ?_
    rw [← twin.taken]
    split
    · rename_i inside
      refine together_pure ⟨outs,rfl,fun next same => ?_⟩ twin
      cases same
      exact within target (of_decide_eq_true inside.1)
    · exact together_throw _ twin

theorem follow_together (source : BlockId) (merge stop : Option BlockId) (outs : Twin equal out out')
    (twin : Progress.Twin equal before before') :
    Together equal (Onward.Twin equal shared) (follow scope source merge stop out)
      (follow scope source merge stop out') before before' := by
  unfold follow
  cases merge with
  | none => exact together_onward outs twin
  | some target => exact flowTo_together within source target stop outs twin

theorem sequence_together {first : Option BlockId} (emits : Emitter.Twin equal shared emit emit')
    (shares : ∀ block, first = some block → shared block) (outs : Twin equal out out')
    (twin : Progress.Twin equal before before') :
    Together equal (Twin equal) (sequence emit scope first stop out) (sequence emit' scope first stop out')
      before before' := by
  unfold Emission.sequence
  cases first with
  | none => exact together_pure outs twin
  | some block =>
    dsimp only
    split
    · exact together_pure outs twin
    · exact emits scope block stop out out' before before' within (shares block rfl) outs twin

theorem arm_together (emits : Emitter.Twin equal shared emit emit') (source target : BlockId) (stop : Option BlockId)
    (twin : Progress.Twin equal before before') :
    Together equal (Twin equal) (arm emit scope source target stop) (arm emit' scope source target stop)
      before before' := by
  unfold arm
  refine together_bind (flowTo_together within source target stop (.refl _ _) twin) ?_
  rintro ⟨body,first⟩ ⟨body',first'⟩ middle middle' ⟨bodies,same,shares⟩ twin _
  cases same
  exact sequence_together within emits shares bodies twin

omit within

theorem checkConstruct_together {settings settings' : StructuringSettings} {statement statement' : Statement}
    (same : settings.validateBreaks = settings'.validateBreaks) (breaks : statement.SameBreaks statement')
    (twin : Progress.Twin equal before before') :
    Together equal (fun _ _ => True) (checkConstruct settings scope statement)
      (checkConstruct settings' scope statement') before before' := by
  unfold checkConstruct
  refine together_get ?_
  rw [same,Twin.validateConstruct_eq breaks twin.registry]
  split
  · split
    · exact together_throw _ twin
    · exact together_pure trivial twin
  · exact together_pure trivial twin

theorem demand_together {statement statement' : Statement} (block : BlockId)
    (same : statement.check = statement'.check) (trees : Twin equal [statement] [statement'])
    (twin : Progress.Twin equal before before') :
    Together equal (fun built built' => Twin equal [built] [built']) (demand block statement)
      (demand block statement') before before' := by
  unfold demand
  rw [same]
  split
  · exact together_throw _ twin
  · exact together_pure trees twin

end Emission
end Untangle
