import Untangle.Breaks.Registry

namespace Untangle
namespace Registry
variable {registry changed : Registry} {id : BreakableId}

structure Extends (before after : Registry) : Prop where
  longer : before.breakables.length ≤ after.breakables.length
  continues : ∀ id, before.hasContinue id = true → after.hasContinue id = true
  repeats : ∀ id < before.breakables.length, after.kind? id = some .doWhile ↔ before.kind? id = some .doWhile

theorem extends_refl (registry : Registry) : Extends registry registry :=
  ⟨Nat.le_refl _,fun _ known => known,fun _ _ => Iff.rfl⟩

theorem extends_trans {first second third : Registry} (one : Extends first second)
    (two : Extends second third) : Extends first third :=
  ⟨Nat.le_trans one.longer two.longer,fun id known => two.continues id (one.continues id known),
    fun id inside => (two.repeats id (Nat.lt_of_lt_of_le inside one.longer)).trans (one.repeats id inside)⟩

theorem hasContinue_iff : registry.hasContinue id = true ↔
    ∃ brk ∈ registry.breaks id, registry.kinds[brk]? = some .continue := by
  simp [hasContinue]

theorem declare_extends (registry : Registry) (kind : BreakableKind) :
    Extends registry (registry.declare kind).2 := by
  refine ⟨by simp [declare],?_,fun id inside => ?_⟩
  · intro id known
    obtain ⟨brk,listed,continues⟩ := hasContinue_iff.mp known
    refine hasContinue_iff.mpr ⟨brk,?_,continues⟩
    unfold breaks at listed ⊢
    split at listed
    · rename_i entry at_
      have inside := (List.getElem?_eq_some_iff.mp at_).1
      simpa [declare,List.getElem?_append_left inside,at_] using listed
    · cases listed
  · unfold kind? declare
    rw [List.getElem?_append_left inside]

theorem setKind_extends (done : registry.setKind id kind = .ok changed) (apart : kind ≠ .doWhile)
    (other : registry.kind? id ≠ some .doWhile) : Extends registry changed := by
  unfold setKind at done
  split at done
  · cases done
  · split at done
    · cases done
    · cases done
      refine ⟨by simp [modifyEntry],?_,fun own inside => ?_⟩
      · intro other known
        obtain ⟨brk,listed,continues⟩ := hasContinue_iff.mp known
        refine hasContinue_iff.mpr ⟨brk,?_,continues⟩
        unfold breaks at listed ⊢
        simp only [modifyEntry,List.getElem?_modify]
        cases at_ : registry.breakables[other]? with
        | none => simp [at_] at listed
        | some entry =>
          rw [at_] at listed
          by_cases same : id = other <;> simpa [same] using listed
      · unfold kind? at other ⊢
        simp only [modifyEntry,List.getElem?_modify]
        by_cases same : id = own
        · subst same
          simp [List.getElem?_eq_getElem inside,apart] at other ⊢
          exact other
        · simp [same]

theorem register_new {brk : Break}
    (done : (registry.newBreak kind).2.register id (registry.newBreak kind).1 = .ok (changed,brk)) :
    Extends registry changed ∧ brk.target = some id ∧ brk.kind = kind ∧
      (kind = .continue → changed.hasContinue id = true) := by
  unfold register at done
  split at done
  · cases done
  · rename_i allowed
    cases done
    have known : ∃ entry, registry.breakables[id]? = some entry := by
      unfold checkTarget kind? at allowed
      cases at_ : registry.breakables[id]? with
      | none => simp [newBreak,at_] at allowed
      | some entry => exact ⟨entry,rfl⟩
    obtain ⟨entry,at_⟩ := known
    refine ⟨⟨by simp [modifyEntry,newBreak],?_,fun other _ => ?_⟩,rfl,rfl,?_⟩
    · intro other known
      obtain ⟨old,listed,continues⟩ := hasContinue_iff.mp known
      have inside := (List.getElem?_eq_some_iff.mp continues).1
      refine hasContinue_iff.mpr ⟨old,?_,
        by simpa [link,newBreak,modifyEntry,List.getElem?_append_left inside] using continues⟩
      unfold breaks at listed ⊢
      simp only [newBreak,modifyEntry,List.getElem?_modify]
      cases found : registry.breakables[other]? with
      | none => simp [found] at listed
      | some entry =>
        rw [found] at listed
        by_cases same : id = other
        · simpa [same] using Or.inl listed
        · simpa [same] using listed
    · unfold kind?
      simp only [newBreak,modifyEntry,List.getElem?_modify]
      cases registry.breakables[other]? with
      | none => rfl
      | some found => by_cases same : id = other <;> simp [same]
    · rintro rfl
      refine hasContinue_iff.mpr ⟨registry.kinds.length,?_,by simp [newBreak,modifyEntry]⟩
      simp [breaks,newBreak,modifyEntry,at_]

end Registry
end Untangle
