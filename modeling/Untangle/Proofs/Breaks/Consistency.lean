import Mathlib.Data.List.Nodup
import Untangle.Proofs.Breaks.Growth
import Untangle.Proofs.Breaks.Tracking

namespace Untangle

namespace Registry
variable {registry changed : Registry} {brk moved : Break} {id : BreakId} {target other : BreakableId}
  {kind : BreakableKind}

theorem lookup_row (id known : BreakId) (target : BreakableId) (rest : List (BreakId × BreakableId)) :
    ((known,target) :: rest).lookup id = if id = known then some target else rest.lookup id := by
  rw [List.lookup_cons]
  by_cases same : id = known
  · simp [same]
  · rw [beq_false_of_ne same,if_neg same]

theorem lookup_forget (gone id : BreakId) (targets : List (BreakId × BreakableId)) :
    (targets.filter (·.1 ≠ gone)).lookup id = if id = gone then none else targets.lookup id := by
  induction targets with
  | nil => simp
  | cons row rest ih =>
    obtain ⟨known,target⟩ := row
    rw [List.filter_cons,lookup_row]
    by_cases own : known = gone
    · rw [if_neg (by simpa using own),ih,own]
      split <;> rfl
    · rw [if_pos (by simpa using own),lookup_row,ih]
      by_cases same : id = known
      · rw [if_pos same,if_neg (same ▸ own),if_pos same]
      · rw [if_neg same,if_neg same]

theorem breaks_modifyEntry {change : BreakableEntry → BreakableEntry} (other : BreakableId) :
    (registry.modifyEntry target change).breaks other =
      if target = other then (registry.breakables[other]?.map fun entry => (change entry).breaks).getD []
      else registry.breaks other := by
  unfold breaks modifyEntry
  rw [List.getElem?_modify]
  by_cases same : target = other
  · cases registry.breakables[other]? <;> simp [same]
  · cases registry.breakables[other]? <;> simp [same]

theorem kind_modifyBreaks (change : List BreakId → List BreakId) (other : BreakableId) :
    (registry.modifyEntry target fun entry => {entry with breaks:=change entry.breaks}).kind? other =
      registry.kind? other := by
  unfold kind? modifyEntry
  rw [List.getElem?_modify]
  by_cases same : target = other
  · cases registry.breakables[other]? <;> simp [same]
  · cases registry.breakables[other]? <;> simp [same]

theorem breaks_declare (registry : Registry) (kind : BreakableKind) (id : BreakableId) :
    (registry.declare kind).2.breaks id = registry.breaks id := by
  unfold breaks declare
  by_cases inside : id < registry.breakables.length
  · simp [List.getElem?_append_left inside]
  · have outside := Nat.not_lt.mp inside
    rw [List.getElem?_append_right outside,List.getElem?_eq_none outside]
    cases id - registry.breakables.length <;> rfl

theorem targetOf_link (registry : Registry) (target : BreakableId) (brk : Break) (id : BreakId) :
    (registry.link target brk).1.targetOf? id = if id = brk.id then some target else registry.targetOf? id := by
  change ((brk.id,target) :: registry.targets.filter (·.1 ≠ brk.id)).lookup id = _
  rw [lookup_row,lookup_forget]
  by_cases same : id = brk.id <;> simp [same,targetOf?]

theorem breaks_link (known : registry.kind? target = some kind) (other : BreakableId) :
    (registry.link target brk).1.breaks other =
      if target = other then registry.breaks other ++ [brk.id] else registry.breaks other := by
  obtain ⟨entry,at_,_⟩ := Option.map_eq_some_iff.mp known
  refine (breaks_modifyEntry other).trans ?_
  by_cases same : target = other
  · subst same
    simp [breaks,at_]
  · simp [same]

theorem kind_link (registry : Registry) (target other : BreakableId) (brk : Break) :
    (registry.link target brk).1.kind? other = registry.kind? other :=
  kind_modifyBreaks (· ++ [brk.id]) other

theorem targetOf_unlink (registry : Registry) (brk : Break) (id : BreakId) :
    (registry.unlink brk).2.1.targetOf? id = if id = brk.id then none else registry.targetOf? id := by
  have same : (registry.unlink brk).2.1.targets = registry.targets.filter (·.1 ≠ brk.id) := by
    unfold unlink
    cases brk.target.or (registry.targetOf? brk.id) <;> rfl
  unfold targetOf?
  rw [same,lookup_forget]

theorem breaks_unlink (registry : Registry) (brk : Break) (other : BreakableId) :
    (registry.unlink brk).2.1.breaks other =
      if brk.target.or (registry.targetOf? brk.id) = some other then
        (registry.breaks other).filter (· ≠ brk.id)
      else registry.breaks other := by
  unfold unlink
  cases previous : brk.target.or (registry.targetOf? brk.id) with
  | none => simp [breaks]
  | some target =>
    refine (breaks_modifyEntry other).trans ?_
    by_cases same : target = other
    · subst same
      cases at_ : registry.breakables[target]? <;> simp [breaks,at_]
    · simp [same,breaks]

theorem kind_unlink (registry : Registry) (brk : Break) (other : BreakableId) :
    (registry.unlink brk).2.1.kind? other = registry.kind? other := by
  unfold unlink
  cases brk.target.or (registry.targetOf? brk.id) with
  | none => rfl
  | some target => exact kind_modifyBreaks (·.filter (· ≠ brk.id)) other

theorem kinds_unlink (registry : Registry) (brk : Break) : (registry.unlink brk).2.1.kinds = registry.kinds := by
  unfold unlink
  cases brk.target.or (registry.targetOf? brk.id) <;> rfl

theorem checkTarget_ok : registry.checkTarget target brk = .ok () ↔
    ∃ kind, registry.kind? target = some kind ∧ (brk.kind = .continue → kind ≠ .switch) := by
  unfold checkTarget
  cases registry.kind? target with
  | none => simp
  | some kind => cases kind <;> simp [BreakableKind.isLoop]

def Bars (registry : Registry) (brk : Break) (target : BreakableId) : Prop :=
  registry.kind? target = none ∨ brk.kind = .continue ∧ registry.kind? target = some .switch

theorem checkTarget_cases (registry : Registry) (brk : Break) (target : BreakableId) :
    registry.Bars brk target ∧ (∃ cause, registry.checkTarget target brk = .error cause) ∨
      ¬registry.Bars brk target ∧ registry.checkTarget target brk = .ok () := by
  unfold Bars checkTarget
  cases registry.kind? target with
  | none => simp
  | some kind => by_cases continues : brk.kind = .continue <;> cases kind <;> simp [continues,BreakableKind.isLoop]

theorem setKind_fails : (∃ cause, registry.setKind target kind = .error cause) ↔
    registry.kind? target = none ∨ kind = .switch ∧ registry.hasContinue target = true := by
  unfold setKind kind?
  cases registry.breakables[target]? with
  | none => simp
  | some entry =>
    by_cases held : registry.hasContinue target = true <;> cases kind <;> simp [held,BreakableKind.isLoop]

-- Both directions of the relation agree: a breakable lists just the breaks that are recorded on it, each
-- of them once. Only breaks that were handed out are recorded, and no continue on a switch.
structure Consistent (registry : Registry) : Prop where
  known : ∀ id target, registry.targetOf? id = some target → id < registry.kinds.length
  listed : ∀ id target, id ∈ registry.breaks target ↔ registry.targetOf? id = some target
  once : ∀ target, (registry.breaks target).Nodup
  loops : ∀ id target, registry.targetOf? id = some target → registry.kinds[id]? = some .continue →
    registry.kind? target ≠ some .switch

theorem consistent_empty : Consistent empty :=
  ⟨by simp [targetOf?,empty],by simp [breaks,targetOf?,empty],by simp [breaks,empty],by simp [targetOf?,empty]⟩

theorem consistent_declare (kind : BreakableKind) (consistent : registry.Consistent) :
    (registry.declare kind).2.Consistent := by
  refine ⟨consistent.known,?_,?_,?_⟩
  · intro id target
    rw [breaks_declare]
    exact consistent.listed id target
  · intro target
    rw [breaks_declare]
    exact consistent.once target
  · intro id target recorded continues
    -- What a break is recorded on was declared before.
    have listed := (consistent.listed id target).mpr recorded
    have inside : target < registry.breakables.length := by
      by_contra outside
      rw [breaks_fresh (Nat.not_lt.mp outside)] at listed
      cases listed
    have same : (registry.declare kind).2.kind? target = registry.kind? target := by
      unfold kind? declare
      rw [List.getElem?_append_left inside]
    rw [same]
    exact consistent.loops id target recorded continues

theorem consistent_newBreak (kind : BreakKind) (consistent : registry.Consistent) :
    (registry.newBreak kind).2.Consistent := by
  refine ⟨?_,consistent.listed,consistent.once,?_⟩
  · intro id target recorded
    have inside := consistent.known id target recorded
    simp only [newBreak,List.length_append]
    exact Nat.lt_add_right _ inside
  · intro id target recorded continues
    have inside := consistent.known id target recorded
    have same : (registry.newBreak kind).2.kinds[id]? = registry.kinds[id]? := List.getElem?_append_left inside
    rw [same] at continues
    exact consistent.loops id target recorded continues

theorem consistent_setKind (consistent : registry.Consistent)
    (done : registry.setKind target kind = .ok changed) : changed.Consistent := by
  unfold setKind at done
  cases at_ : registry.breakables[target]? with
  | none => simp [at_] at done
  | some entry =>
    simp only [at_] at done
    split at done
    · cases done
    · rename_i allowed
      cases done
      have same (other : BreakableId) :
          (registry.modifyEntry target fun entry => {entry with kind}).breaks other = registry.breaks other := by
        rw [breaks_modifyEntry]
        by_cases own : target = other
        · subst own
          simp [breaks,at_]
        · simp [own]
      refine ⟨consistent.known,?_,?_,?_⟩
      · intro id other
        rw [same]
        exact consistent.listed id other
      · intro other
        rw [same]
        exact consistent.once other
      · intro id other recorded continues switches
        by_cases own : target = other
        · subst own
          have kind : kind = .switch := by simpa [kind?,modifyEntry,at_] using switches
          have held : registry.hasContinue target = true :=
            hasContinue_iff.mpr ⟨id,(consistent.listed id target).mpr recorded,continues⟩
          simp [kind,held,BreakableKind.isLoop] at allowed
        · refine consistent.loops id other recorded continues ?_
          simpa [kind?,modifyEntry,own] using switches

structure Moves (before : Registry) (brk : Break) (after : Registry) (changed : Break) : Prop where
  id : changed.id = brk.id
  kind : changed.kind = brk.kind
  kinds : after.kinds = before.kinds
  targets : ∀ id, after.targetOf? id = if id = brk.id then changed.target else before.targetOf? id
  consistent : after.Consistent

theorem moves_refl (consistent : registry.Consistent) (recorded : registry.targetOf? brk.id = brk.target) :
    registry.Moves brk registry brk := by
  refine ⟨rfl,rfl,rfl,?_,consistent⟩
  intro id
  by_cases own : id = brk.id
  · rw [if_pos own,own,recorded]
  · rw [if_neg own]

theorem Moves.trans {before middle after : Registry} {freed : Break} (first : before.Moves brk middle freed)
    (second : middle.Moves freed after moved) : before.Moves brk after moved := by
  refine ⟨second.id.trans first.id,second.kind.trans first.kind,second.kinds.trans first.kinds,?_,second.consistent⟩
  intro id
  rw [second.targets,first.targets,first.id]
  split <;> rfl

theorem moves_link (consistent : registry.Consistent) (labelled : registry.kinds[brk.id]? = some brk.kind)
    (free : registry.targetOf? brk.id = none) (allowed : registry.checkTarget target brk = .ok ()) :
    registry.Moves brk (registry.link target brk).1 (registry.link target brk).2 := by
  obtain ⟨kind,declared,needs⟩ := checkTarget_ok.mp allowed
  have unlisted (other : BreakableId) : brk.id ∉ registry.breaks other := by
    intro listed
    rw [consistent.listed,free] at listed
    cases listed
  refine ⟨rfl,rfl,rfl,registry.targetOf_link target brk,?_,?_,?_,?_⟩
  · intro id other recorded
    rw [targetOf_link] at recorded
    split at recorded
    · rename_i own
      exact own ▸ (List.getElem?_eq_some_iff.mp labelled).1
    · exact consistent.known id other recorded
  · intro id other
    rw [breaks_link declared,targetOf_link]
    by_cases own : id = brk.id
    · subst own
      by_cases same : target = other <;> simp [same,unlisted]
    · by_cases same : target = other <;> simp [same,own,consistent.listed]
  · intro other
    rw [breaks_link declared]
    split
    · refine List.nodup_append.mpr ⟨consistent.once other,List.nodup_singleton _,?_⟩
      rintro id listed own member rfl
      exact unlisted other (List.mem_singleton.mp member ▸ listed)
    · exact consistent.once other
  · intro id other recorded continues
    rw [kind_link]
    rw [targetOf_link] at recorded
    split at recorded
    · rename_i own
      cases recorded
      have continues : brk.kind = .continue := Option.some.inj (labelled.symm.trans (own ▸ continues))
      rw [declared]
      exact fun switches => needs continues (Option.some.inj switches)
    · exact consistent.loops id other recorded continues

theorem moves_unlink (consistent : registry.Consistent) (recorded : registry.targetOf? brk.id = brk.target) :
    registry.Moves brk (registry.unlink brk).2.1 (registry.unlink brk).2.2 := by
  have previous : brk.target.or (registry.targetOf? brk.id) = registry.targetOf? brk.id := by
    rw [recorded,Option.or_self]
  have listed (id : BreakId) (target : BreakableId) : id ∈ (registry.unlink brk).2.1.breaks target ↔
      id ≠ brk.id ∧ registry.targetOf? id = some target := by
    rw [breaks_unlink,previous]
    split
    · simp [and_comm,consistent.listed]
    · rename_i elsewhere
      rw [consistent.listed]
      refine ⟨fun member => ⟨?_,member⟩,And.right⟩
      rintro rfl
      exact elsewhere member
  refine ⟨rfl,rfl,kinds_unlink _ _,targetOf_unlink _ _,?_,?_,?_,?_⟩
  · intro id target known
    rw [targetOf_unlink] at known
    split at known
    · cases known
    · rw [kinds_unlink]
      exact consistent.known id target known
  · intro id target
    rw [listed,targetOf_unlink]
    by_cases own : id = brk.id <;> simp [own]
  · intro target
    rw [breaks_unlink]
    split
    · exact (consistent.once target).filter _
    · exact consistent.once target
  · intro id target known continues
    rw [targetOf_unlink] at known
    rw [kinds_unlink] at continues
    rw [kind_unlink]
    split at known
    · cases known
    · exact consistent.loops id target known continues

theorem moves_register (consistent : registry.Consistent) (labelled : registry.kinds[brk.id]? = some brk.kind)
    (recorded : registry.targetOf? brk.id = brk.target)
    (done : registry.register target brk = .ok (changed,moved)) : registry.Moves brk changed moved := by
  unfold register at done
  split at done
  · cases done
  · rename_i allowed
    split at done
    · rename_i free
      cases done
      exact moves_link consistent labelled (recorded.trans free) allowed
    · split at done
      · cases done
        exact moves_refl consistent recorded
      · cases done

-- The break is free in between, so that its new target may list it.
theorem moves_retarget (consistent : registry.Consistent) (labelled : registry.kinds[brk.id]? = some brk.kind)
    (recorded : registry.targetOf? brk.id = brk.target)
    (done : registry.retarget brk target = .ok (changed,moved)) : registry.Moves brk changed moved := by
  unfold retarget at done
  split at done
  · cases done
  · rename_i allowed
    cases done
    have freed := moves_unlink consistent recorded
    have still : (registry.unlink brk).2.1.checkTarget target (registry.unlink brk).2.2 = .ok () := by
      obtain ⟨kind,declared,needs⟩ := checkTarget_ok.mp allowed
      exact checkTarget_ok.mpr ⟨kind,(kind_unlink _ _ _).trans declared,needs⟩
    have labelled : (registry.unlink brk).2.1.kinds[(registry.unlink brk).2.2.id]? =
        some (registry.unlink brk).2.2.kind := by
      rw [freed.kinds,freed.id,freed.kind,labelled]
    have free : (registry.unlink brk).2.1.targetOf? (registry.unlink brk).2.2.id = none := by
      rw [freed.targets,if_pos freed.id]
      rfl
    exact freed.trans (moves_link freed.consistent labelled free still)

end Registry
end Untangle
