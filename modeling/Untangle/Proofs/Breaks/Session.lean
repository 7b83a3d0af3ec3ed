import Untangle.Proofs.Breaks.Consistency

namespace Untangle

-- A registry and the one handle of every break that it handed out, in the order of their ids.
structure Session where
  registry : Registry
  handles : List Break

inductive Session.Action where
  | declare (kind : BreakableKind)
  | newBreak (kind : BreakKind)
  | register (handle : Nat) (target : BreakableId)
  | retarget (handle : Nat) (target : BreakableId)
  | unregister (handle : Nat)
  | setKind (target : BreakableId) (kind : BreakableKind)

namespace Session
variable {session : Session} {brk changed : Break} {handle : Nat} {target : BreakableId}

def start : Session := ⟨.empty,[]⟩

-- Works on a break through its handle. Where nobody holds such a handle, nothing happens.
def operate (session : Session) (handle : Nat)
    (operation : Break → Except RegistryError (Registry × Break)) : Option RegistryError × Session :=
  match session.handles[handle]? with
  | none => (none,session)
  | some brk =>
    match operation brk with
    | .error cause => (some cause,session)
    | .ok (registry,changed) => (none,⟨registry,session.handles.set handle changed⟩)

def step (session : Session) : Action → Option RegistryError × Session
  | .declare kind => (none,{session with registry:=(session.registry.declare kind).2})
  | .newBreak kind =>
    let (brk,registry) := session.registry.newBreak kind
    (none,⟨registry,session.handles ++ [brk]⟩)
  | .register handle target => session.operate handle (session.registry.register target)
  | .retarget handle target => session.operate handle (session.registry.retarget · target)
  | .unregister handle => session.operate handle fun brk => .ok (session.registry.unregister brk).2
  | .setKind target kind =>
    match session.registry.setKind target kind with
    | .error cause => (some cause,session)
    | .ok registry => (none,{session with registry})

def run (session : Session) (actions : List Action) : Session :=
  actions.foldl (fun session action => (session.step action).2) session

structure Agrees (session : Session) : Prop where
  consistent : session.registry.Consistent
  ids : session.handles.map (·.id) = List.range session.registry.kinds.length
  kinds : session.handles.map (·.kind) = session.registry.kinds
  recorded : ∀ brk ∈ session.handles, session.registry.targetOf? brk.id = brk.target

theorem map_set_same {items : List α} {old new : α} {f : α → β} (at_ : items[n]? = some old)
    (same : f new = f old) : (items.set n new).map f = items.map f := by
  refine List.ext_getElem? fun i => ?_
  rw [List.getElem?_map,List.getElem?_map,List.getElem?_set]
  by_cases own : n = i
  · subst own
    rw [if_pos rfl,if_pos (List.getElem?_eq_some_iff.mp at_).1,at_]
    exact congrArg some same
  · rw [if_neg own]

namespace Agrees

theorem held (agrees : session.Agrees) (at_ : session.handles[handle]? = some brk) : brk.id = handle := by
  have same : (session.handles.map (·.id))[handle]? = some brk.id := by
    rw [List.getElem?_map,at_]
    rfl
  rw [agrees.ids,List.getElem?_range] at same
  · exact (Option.some.inj same).symm
  · rw [← agrees.kinds,List.length_map]
    exact (List.getElem?_eq_some_iff.mp at_).1

theorem holds {id : BreakId} (agrees : session.Agrees) (known : id < session.registry.kinds.length) :
    ∃ brk, session.handles[id]? = some brk := by
  rw [← agrees.kinds,List.length_map] at known
  exact ⟨_,List.getElem?_eq_getElem known⟩

theorem labelled (agrees : session.Agrees) (at_ : session.handles[handle]? = some brk) :
    session.registry.kinds[brk.id]? = some brk.kind := by
  rw [agrees.held at_,← agrees.kinds,List.getElem?_map,at_]
  rfl

theorem continued (agrees : session.Agrees) : session.registry.hasContinue target = true ↔
    ∃ brk ∈ session.handles, brk.kind = .continue ∧ brk.target = some target := by
  rw [Registry.hasContinue_iff]
  constructor
  · rintro ⟨id,listed,continues⟩
    have recorded := (agrees.consistent.listed id target).mp listed
    obtain ⟨brk,at_⟩ := agrees.holds (agrees.consistent.known id target recorded)
    obtain rfl := agrees.held at_
    have member := List.mem_of_getElem? at_
    exact ⟨brk,member,Option.some.inj ((agrees.labelled at_).symm.trans continues),
      (agrees.recorded brk member).symm.trans recorded⟩
  · rintro ⟨brk,member,continues,aims⟩
    obtain ⟨handle,at_⟩ := List.mem_iff_getElem?.mp member
    have recorded := (agrees.recorded brk member).trans aims
    exact ⟨brk.id,(agrees.consistent.listed brk.id target).mpr recorded,continues ▸ agrees.labelled at_⟩

theorem start : start.Agrees := ⟨Registry.consistent_empty,rfl,rfl,by simp [Session.start]⟩

theorem declare (agrees : session.Agrees) (kind : BreakableKind) :
    Agrees {session with registry:=(session.registry.declare kind).2} :=
  ⟨Registry.consistent_declare kind agrees.consistent,agrees.ids,agrees.kinds,agrees.recorded⟩

theorem newBreak (agrees : session.Agrees) (kind : BreakKind) :
    Agrees ⟨(session.registry.newBreak kind).2,session.handles ++ [(session.registry.newBreak kind).1]⟩ := by
  refine ⟨Registry.consistent_newBreak kind agrees.consistent,?_,?_,?_⟩
  · simp [Registry.newBreak,agrees.ids,List.range_succ]
  · simp [Registry.newBreak,agrees.kinds]
  · intro brk member
    rcases List.mem_append.mp member with old | new
    · exact agrees.recorded brk old
    · cases List.mem_singleton.mp new
      -- An id that was not handed out yet is not recorded.
      cases known : session.registry.targetOf? session.registry.kinds.length with
      | none => exact known
      | some target => exact absurd (agrees.consistent.known _ _ known) (Nat.lt_irrefl _)

theorem setKind {registry : Registry} (agrees : session.Agrees)
    (done : session.registry.setKind target kind = .ok registry) : Agrees {session with registry} := by
  have consistent := Registry.consistent_setKind agrees.consistent done
  unfold Registry.setKind at done
  split at done
  · cases done
  · split at done
    · cases done
    · cases done
      exact ⟨consistent,agrees.ids,agrees.kinds,agrees.recorded⟩

theorem moved {registry : Registry} (agrees : session.Agrees) (at_ : session.handles[handle]? = some brk)
    (moves : session.registry.Moves brk registry changed) :
    Agrees ⟨registry,session.handles.set handle changed⟩ := by
  refine ⟨moves.consistent,?_,?_,?_⟩
  · rw [map_set_same at_ moves.id,moves.kinds,agrees.ids]
  · rw [map_set_same at_ moves.kind,moves.kinds,agrees.kinds]
  · intro other member
    obtain ⟨position,found⟩ := List.mem_iff_getElem?.mp member
    rw [moves.targets]
    by_cases own : handle = position
    · subst own
      rw [List.getElem?_set_self (List.getElem?_eq_some_iff.mp at_).1] at found
      cases found
      rw [if_pos moves.id]
    · rw [List.getElem?_set_ne own] at found
      have apart : other.id ≠ brk.id := by
        rw [agrees.held found,agrees.held at_]
        exact fun same => own same.symm
      rw [if_neg apart]
      exact agrees.recorded other (List.mem_of_getElem? found)

theorem operate {operation : Break → Except RegistryError (Registry × Break)} (agrees : session.Agrees)
    (moves : ∀ brk registry changed, session.handles[handle]? = some brk →
      operation brk = .ok (registry,changed) → session.registry.Moves brk registry changed) :
    (session.operate handle operation).2.Agrees := by
  unfold Session.operate
  split
  · exact agrees
  · rename_i brk at_
    split
    · exact agrees
    · rename_i registry changed done
      exact agrees.moved at_ (moves brk registry changed at_ done)

theorem step (agrees : session.Agrees) (action : Action) : (session.step action).2.Agrees := by
  cases action with
  | declare kind => exact agrees.declare kind
  | newBreak kind => exact agrees.newBreak kind
  | register handle target =>
    refine agrees.operate fun brk registry changed at_ done => ?_
    have recorded := agrees.recorded brk (List.mem_of_getElem? at_)
    exact Registry.moves_register agrees.consistent (agrees.labelled at_) recorded done
  | retarget handle target =>
    refine agrees.operate fun brk registry changed at_ done => ?_
    have recorded := agrees.recorded brk (List.mem_of_getElem? at_)
    exact Registry.moves_retarget agrees.consistent (agrees.labelled at_) recorded done
  | unregister handle =>
    refine agrees.operate fun brk registry changed at_ done => ?_
    have recorded := agrees.recorded brk (List.mem_of_getElem? at_)
    cases done
    exact Registry.moves_unlink agrees.consistent recorded
  | setKind target kind =>
    unfold Session.step
    dsimp only
    split
    · exact agrees
    · rename_i registry done
      exact agrees.setKind done

theorem run (agrees : session.Agrees) (actions : List Action) : (session.run actions).Agrees := by
  induction actions generalizing session with
  | nil => exact agrees
  | cons action rest ih => exact ih (agrees.step action)

end Agrees

-- A break that has another target is not registered, and a loop that is continued does not become a switch.
def Refuses (session : Session) : Action → Prop
  | .declare _ => False
  | .newBreak _ => False
  | .register handle target => ∃ brk, session.handles[handle]? = some brk ∧
      (session.registry.Bars brk target ∨ ∃ current, brk.target = some current ∧ current ≠ target)
  | .retarget handle target => ∃ brk, session.handles[handle]? = some brk ∧ session.registry.Bars brk target
  | .unregister _ => False
  | .setKind target kind => session.registry.kind? target = none ∨
      kind = .switch ∧ ∃ brk ∈ session.handles, brk.kind = .continue ∧ brk.target = some target

theorem operate_refuses {operation : Break → Except RegistryError (Registry × Break)} :
    (session.operate handle operation).1.isSome ↔
      ∃ brk, session.handles[handle]? = some brk ∧ ∃ cause, operation brk = .error cause := by
  unfold operate
  cases session.handles[handle]? with
  | none => simp
  | some brk => cases done : operation brk <;> simp [done]

theorem failed_operate {operation : Break → Except RegistryError (Registry × Break)}
    (failed : (session.operate handle operation).1.isSome) : (session.operate handle operation).2 = session := by
  unfold operate at failed ⊢
  split
  · rfl
  · rename_i brk at_
    rw [at_] at failed
    dsimp only at failed
    split at failed
    · simp [*]
    · cases failed

theorem failed_step (session : Session) (action : Action) (failed : (session.step action).1.isSome) :
    (session.step action).2 = session := by
  cases action with
  | declare kind => cases failed
  | newBreak kind => cases failed
  | register handle target => exact failed_operate failed
  | retarget handle target => exact failed_operate failed
  | unregister handle => exact failed_operate failed
  | setKind target kind =>
    unfold step at failed ⊢
    dsimp only at failed ⊢
    split
    · rfl
    · rename_i registry done
      rw [done] at failed
      cases failed

theorem step_refuses (agrees : session.Agrees) (action : Action) :
    (session.step action).1.isSome ↔ session.Refuses action := by
  cases action with
  | declare kind => simp [step,Refuses]
  | newBreak kind => simp [step,Refuses]
  | register handle target =>
    refine operate_refuses.trans (exists_congr fun brk => and_congr_right fun _ => ?_)
    unfold Registry.register
    rcases session.registry.checkTarget_cases brk target with ⟨barred,cause,checked⟩ | ⟨free,checked⟩
    · simp [checked,barred]
    · cases at_ : brk.target with
      | none => simp [checked,free]
      | some current => by_cases same : current = target <;> simp [checked,free,same]
  | retarget handle target =>
    refine operate_refuses.trans (exists_congr fun brk => and_congr_right fun _ => ?_)
    unfold Registry.retarget
    rcases session.registry.checkTarget_cases brk target with ⟨barred,cause,checked⟩ | ⟨free,checked⟩
    · simp [checked,barred]
    · simp [checked,free]
  | unregister handle => exact operate_refuses.trans (by simp [Refuses])
  | setKind target kind =>
    have fails : (session.step (.setKind target kind)).1.isSome ↔
        ∃ cause, session.registry.setKind target kind = .error cause := by
      cases done : session.registry.setKind target kind <;> simp [step,done]
    exact fails.trans (Registry.setKind_fails.trans (or_congr_right (and_congr_right fun _ => agrees.continued)))

end Session

-- Whatever is done with a registry, what it records of a break, what the break says itself and what the
-- breakables list are the same, each break is listed once at most, no continue targets a switch, and no id
-- is handed out twice. An action fails for the reasons above only, and a failed one changes nothing.
theorem registry_stays_consistent (actions : List Session.Action) :
    (∀ id target,
      ((Session.start.run actions).registry.targetOf? id = some target ↔
        ∃ brk ∈ (Session.start.run actions).handles, brk.id = id ∧ brk.target = some target) ∧
      ((Session.start.run actions).registry.targetOf? id = some target ↔
        id ∈ (Session.start.run actions).registry.breaks target) ∧
      (id ∈ (Session.start.run actions).registry.breaks target →
        ((Session.start.run actions).registry.breaks target).count id = 1 ∧
        ∀ other, id ∈ (Session.start.run actions).registry.breaks other → other = target)) ∧
    (∀ brk ∈ (Session.start.run actions).handles, ∀ target, brk.kind = .continue → brk.target = some target →
      (Session.start.run actions).registry.kind? target ≠ some .switch) ∧
    ((Session.start.run actions).handles.map (·.id)).Nodup ∧
    ∀ action, (((Session.start.run actions).step action).1.isSome ↔ (Session.start.run actions).Refuses action) ∧
      (((Session.start.run actions).step action).1.isSome →
        ((Session.start.run actions).step action).2 = Session.start.run actions) := by
  have agrees := Session.Agrees.start.run actions
  generalize Session.start.run actions = session at agrees
  refine ⟨fun id target => ⟨?_,(agrees.consistent.listed id target).symm,fun listed => ⟨?_,?_⟩⟩,?_,?_,?_⟩
  · constructor
    · intro recorded
      obtain ⟨brk,at_⟩ := agrees.holds (agrees.consistent.known id target recorded)
      obtain rfl := agrees.held at_
      have member := List.mem_of_getElem? at_
      exact ⟨brk,member,rfl,(agrees.recorded brk member).symm.trans recorded⟩
    · rintro ⟨brk,member,rfl,aims⟩
      exact (agrees.recorded brk member).trans aims
  · exact List.count_eq_one_of_mem (agrees.consistent.once target) listed
  · intro other also
    have one := (agrees.consistent.listed id target).mp listed
    have two := (agrees.consistent.listed id other).mp also
    exact Option.some.inj (two.symm.trans one)
  · intro brk member target continues aims
    obtain ⟨handle,at_⟩ := List.mem_iff_getElem?.mp member
    have recorded := (agrees.recorded brk member).trans aims
    exact agrees.consistent.loops brk.id target recorded (continues ▸ agrees.labelled at_)
  · rw [agrees.ids]
    exact List.nodup_range
  · intro action
    exact ⟨session.step_refuses agrees action,session.failed_step action⟩

end Untangle
