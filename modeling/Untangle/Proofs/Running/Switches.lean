import Untangle.Proofs.Running.Forms

namespace Untangle

-- Arms next to the pending ones they were built from. From each of them on, the bodies run one into
-- the next as the graph does from its entry.
inductive Chained (graph : BlockGraph) (meaning : Meaning σ ν) (continued : BreakableId → Prop)
    (contexts : List Context) (stop : Option BlockId) : List PendingArm → List SwitchArm → Prop where
  | nil : Chained graph meaning continued contexts stop [] []
  | cons : arm.labels = pending.emitted →
      Follows graph meaning continued contexts stop 0 ((arm :: arms).flatMap (·.body))
        (Point.before pending.entry) →
      Chained graph meaning continued contexts stop pendings arms →
      Chained graph meaning continued contexts stop (pending :: pendings) (arm :: arms)

variable {σ : Type u} {ν : Type v} {graph : BlockGraph} {meaning : Meaning σ ν}
  {continued : BreakableId → Prop} {contexts : List Context} {context : Context} {stop : Option BlockId}

namespace Chained

theorem dropped (chained : Chained graph meaning continued contexts stop pendings arms)
    (skip : List Int32 → Bool) :
    (arms.dropWhile (skip ·.labels) = [] ∧ ∀ pending ∈ pendings, skip pending.emitted = true) ∨
      ∃ pending ∈ pendings, skip pending.emitted = false ∧ ∃ arm rest,
        arms.dropWhile (skip ·.labels) = arm :: rest ∧
        Follows graph meaning continued contexts stop 0 ((arm :: rest).flatMap (·.body))
          (Point.before pending.entry) := by
  induction chained with
  | nil => exact Or.inl ⟨rfl,by simp⟩
  | cons labels follows tail ih =>
    rename_i arm arms pendings pending
    by_cases skipped : skip pending.emitted = true
    · rw [List.dropWhile_cons_of_pos (by rw [labels]; exact skipped)]
      rcases ih with ⟨none,all⟩ | ⟨found,member,kept,rest⟩
      · exact Or.inl ⟨none,by simpa [skipped] using all⟩
      · exact Or.inr ⟨found,List.mem_cons_of_mem _ member,kept,rest⟩
    · rw [List.dropWhile_cons_of_neg (by rw [labels]; exact skipped)]
      exact Or.inr ⟨pending,List.mem_cons_self,Bool.eq_false_iff.mpr skipped,arm,arms,rfl,follows⟩

theorem selected (chained : Chained graph meaning continued contexts stop pendings arms) (value : Int32) :
    (SwitchArm.select arms value = [] ∧
        ∀ pending ∈ pendings, value ∉ pending.emitted ∧ pending.emitted ≠ []) ∨
      ∃ pending ∈ pendings,
        (value ∈ pending.emitted ∨
          (pending.emitted = [] ∧ ∀ other ∈ pendings, value ∉ other.emitted)) ∧
        Follows graph meaning continued contexts stop 0 ((SwitchArm.select arms value).flatMap (·.body))
          (Point.before pending.entry) := by
  unfold SwitchArm.select
  rcases chained.dropped (fun labels => decide (value ∉ labels)) with
    ⟨none,unlisted⟩ | ⟨pending,member,listed,arm,rest,found,follows⟩
  · rw [none]
    have unlisted : ∀ pending ∈ pendings, value ∉ pending.emitted := by simpa using unlisted
    rcases chained.dropped (fun labels => !labels.isEmpty) with
      ⟨none,labelled⟩ | ⟨pending,member,plain,arm,rest,found,follows⟩
    · refine Or.inl ⟨none,fun pending member => ⟨unlisted pending member,?_⟩⟩
      have some := labelled pending member
      intro empty
      simp [empty] at some
    · refine Or.inr ⟨pending,member,Or.inr ⟨by simpa using plain,unlisted⟩,?_⟩
      have same : arms.dropWhile (!·.isDefault) = arm :: rest := found
      rw [same]
      exact follows
  · rw [found]
    exact Or.inr ⟨pending,member,Or.inl (by simpa using listed),follows⟩

end Chained

namespace Follows
open Meaning

theorem switch {merge : Option BlockId} {id : BreakableId} {default : BlockId}
    (fresh : ∀ outer ∈ contexts, outer.id ≠ id)
    (chained : Chained graph meaning continued (⟨id,.switch,merge,none⟩ :: contexts) (merge.or stop)
      pendings arms)
    (found : ∀ value, ∀ pending ∈ pendings, (value ∈ pending.emitted ∨
      (pending.emitted = [] ∧ ∀ other ∈ pendings, value ∉ other.emitted)) →
      pending.entry = (cases.lookup value).getD default)
    (missed : ∀ value, (∀ pending ∈ pendings, value ∉ pending.emitted ∧ pending.emitted ≠ []) →
      merge = some ((cases.lookup value).getD default)) :
    Follows graph meaning continued contexts (merge.or stop) 0 [.switch id discriminant arms]
      fun store => meaning.goes store (.switch discriminant cases default) where
  sound store flow ran := by
    obtain ⟨middle,within,rfl⟩ := executes_switch.mp (runs_single.mp ran)
    rcases chained.selected (meaning.selects discriminant store) with
      ⟨none,unlisted⟩ | ⟨pending,member,chosen,follows⟩
    · rw [none] at within
      cases runs_nil.mp within
      exact ⟨0,_,Nat.le_refl _,rfl,.falls (by rw [missed _ unlisted]; rfl)⟩
    · obtain ⟨steps,point,enough,reached,leads⟩ := follows.sound store middle within
      refine ⟨steps,point,enough,?_,leads.leaving rfl fresh⟩
      simpa only [goes,← found _ pending member chosen] using reached
  total store outcome ended := by
    rcases chained.selected (meaning.selects discriminant store) with
      ⟨none,_⟩ | ⟨pending,member,chosen,follows⟩
    · exact ⟨_,runs_single.mpr (executes_switch.mpr ⟨_,by rw [none]; exact runs_nil.mpr rfl,rfl⟩)⟩
    · simp only [goes,← found _ pending member chosen] at ended
      obtain ⟨middle,ran⟩ := follows.total store outcome ended
      exact ⟨_,runs_single.mpr (executes_switch.mpr ⟨middle,ran,rfl⟩)⟩

end Follows
end Untangle
