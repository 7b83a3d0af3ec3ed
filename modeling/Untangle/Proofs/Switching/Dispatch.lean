import Untangle.Proofs.Flow.Reach
import Untangle.Structuring.Arms

namespace Untangle
namespace PendingArm
variable {cases : List (Int32 × BlockId)} {default : BlockId} {merge : Option BlockId}
  {arms : List PendingArm} {label : Int32} {target : BlockId} {exits : Bool}

theorem mem_addCase (member : arm ∈ addCase label target exits arms) :
    arm ∈ arms ∨ (arm.entry = target ∧ arm.isDefault = false ∧ arm.labels = [label]) ∨
      ∃ old ∈ arms, old.entry = target ∧ arm = {old with labels:=old.labels ++ [label]} := by
  induction arms with
  | nil =>
    cases List.mem_singleton.mp member
    exact Or.inr (Or.inl ⟨rfl,rfl,rfl⟩)
  | cons first rest ih =>
    unfold addCase at member
    split at member
    · rename_i same
      rcases List.mem_cons.mp member with rfl | member
      · exact Or.inr (Or.inr ⟨first,List.mem_cons_self,same,rfl⟩)
      · exact Or.inl (List.mem_cons_of_mem _ member)
    · rcases List.mem_cons.mp member with rfl | member
      · exact Or.inl List.mem_cons_self
      · rcases ih member with old | fresh | ⟨old,known,rest⟩
        · exact Or.inl (List.mem_cons_of_mem _ old)
        · exact Or.inr (Or.inl fresh)
        · exact Or.inr (Or.inr ⟨old,List.mem_cons_of_mem _ known,rest⟩)

theorem addCase_lists : ∃ arm ∈ addCase label target exits arms, arm.entry = target ∧ label ∈ arm.labels := by
  induction arms with
  | nil => exact ⟨_,List.mem_singleton.mpr rfl,rfl,List.mem_singleton.mpr rfl⟩
  | cons first rest ih =>
    unfold addCase
    split
    · rename_i same
      exact ⟨_,List.mem_cons_self,same,by simp⟩
    · obtain ⟨arm,member,found⟩ := ih
      exact ⟨arm,List.mem_cons_of_mem _ member,found⟩

theorem addCase_keeps (label : Int32) (target : BlockId) (exits : Bool) (member : arm ∈ arms) :
    ∃ later ∈ addCase label target exits arms, later.entry = arm.entry ∧ arm.labels ⊆ later.labels := by
  induction arms with
  | nil => cases member
  | cons first rest ih =>
    unfold addCase
    rcases List.mem_cons.mp member with rfl | member
    · split
      · exact ⟨_,List.mem_cons_self,rfl,by simp⟩
      · exact ⟨_,List.mem_cons_self,rfl,fun _ known => known⟩
    · split
      · exact ⟨arm,List.mem_cons_of_mem _ member,rfl,fun _ known => known⟩
      · obtain ⟨later,found,kept⟩ := ih member
        exact ⟨later,List.mem_cons_of_mem _ found,kept⟩

theorem mem_addDefault (member : arm ∈ addDefault target arms) :
    arm ∈ arms ∨ (arm.entry = target ∧ arm.isDefault = true ∧
      (arm.labels = [] ∨ ∃ old ∈ arms, old.entry = target ∧ arm.labels = old.labels)) := by
  induction arms with
  | nil =>
    cases List.mem_singleton.mp member
    exact Or.inr ⟨rfl,rfl,Or.inl rfl⟩
  | cons first rest ih =>
    unfold addDefault at member
    split at member
    · rename_i same
      rcases List.mem_cons.mp member with rfl | member
      · exact Or.inr ⟨same,rfl,Or.inr ⟨first,List.mem_cons_self,same,rfl⟩⟩
      · exact Or.inl (List.mem_cons_of_mem _ member)
    · rcases List.mem_cons.mp member with rfl | member
      · exact Or.inl List.mem_cons_self
      · rcases ih member with old | ⟨entry,marked,empty | ⟨old,known,same⟩⟩
        · exact Or.inl (List.mem_cons_of_mem _ old)
        · exact Or.inr ⟨entry,marked,Or.inl empty⟩
        · exact Or.inr ⟨entry,marked,Or.inr ⟨old,List.mem_cons_of_mem _ known,same⟩⟩

theorem addDefault_marks : ∃ arm ∈ addDefault target arms, arm.isDefault = true := by
  induction arms with
  | nil => exact ⟨_,List.mem_singleton.mpr rfl,rfl⟩
  | cons first rest ih =>
    unfold addDefault
    split
    · exact ⟨_,List.mem_cons_self,rfl⟩
    · obtain ⟨arm,member,marked⟩ := ih
      exact ⟨arm,List.mem_cons_of_mem _ member,marked⟩

theorem addDefault_keeps (target : BlockId) (member : arm ∈ arms) :
    ∃ later ∈ addDefault target arms, later.entry = arm.entry ∧ later.labels = arm.labels := by
  induction arms with
  | nil => cases member
  | cons first rest ih =>
    unfold addDefault
    rcases List.mem_cons.mp member with rfl | member
    · split <;> exact ⟨_,List.mem_cons_self,rfl,rfl⟩
    · split
      · exact ⟨arm,List.mem_cons_of_mem _ member,rfl,rfl⟩
      · obtain ⟨later,found,kept⟩ := ih member
        exact ⟨later,List.mem_cons_of_mem _ found,kept⟩

-- Arms for cases: each holds labels that lead to its entry, and of the cases only those that go to the
-- end along with the default may be missing.
structure Sorted (cases : List (Int32 × BlockId)) (merge : Option BlockId) (default : BlockId)
    (arms : List PendingArm) : Prop where
  listed : ∀ arm ∈ arms, ∀ label ∈ arm.labels, (label,arm.entry) ∈ cases
  covered : ∀ label target, (label,target) ∈ cases →
    (merge = some target ∧ merge = some default) ∨ ∃ arm ∈ arms, arm.entry = target ∧ label ∈ arm.labels
  marked : ∀ arm ∈ arms, arm.isDefault = true → arm.entry = default ∧ merge ≠ some default
  labelled : ∀ arm ∈ arms, arm.isDefault = false → arm.labels ≠ []

theorem sorted_cases (done rest : List (Int32 × BlockId)) (sorted : Sorted done merge default arms)
    (plain : ∀ arm ∈ arms, arm.isDefault = false) :
    let last := rest.foldl (fun arms (label,target) =>
      let exits := merge == some target
      if exits && (merge == some default) then arms else addCase label target exits arms) arms
    Sorted (done ++ rest) merge default last ∧ ∀ arm ∈ last, arm.isDefault = false := by
  induction rest generalizing done arms with
  | nil => exact ⟨by simpa using sorted,plain⟩
  | cons row rest ih =>
    obtain ⟨label,target⟩ := row
    have again : done ++ (label,target) :: rest = done ++ [(label,target)] ++ rest := by simp
    simp only [List.foldl_cons]
    rw [again]
    split
    · rename_i both
      simp only [Bool.and_eq_true,beq_iff_eq] at both
      refine ih _ ⟨?_,?_,sorted.marked,sorted.labelled⟩ plain
      · intro arm member label known
        exact List.mem_append_left _ (sorted.listed arm member label known)
      · intro label target member
        rcases List.mem_append.mp member with old | new
        · exact sorted.covered label target old
        · cases List.mem_singleton.mp new
          exact Or.inl both
    · have plain' : ∀ arm ∈ addCase label target (merge == some target) arms, arm.isDefault = false := by
        intro arm member
        rcases mem_addCase member with old | ⟨_,fresh,_⟩ | ⟨old,known,_,rfl⟩
        · exact plain arm old
        · exact fresh
        · exact plain old known
      refine ih _ ⟨?_,?_,?_,?_⟩ plain'
      · intro arm member known listed
        rcases mem_addCase member with old | ⟨rfl,_,labels⟩ | ⟨old,earlier,rfl,rfl⟩
        · exact List.mem_append_left _ (sorted.listed arm old known listed)
        · rw [labels] at listed
          cases List.mem_singleton.mp listed
          simp
        · rcases List.mem_append.mp listed with listed | listed
          · exact List.mem_append_left _ (sorted.listed old earlier known listed)
          · cases List.mem_singleton.mp listed
            simp
      · intro known reached member
        rcases List.mem_append.mp member with old | new
        · rcases sorted.covered known reached old with direct | ⟨arm,earlier,rfl,listed⟩
          · exact Or.inl direct
          · obtain ⟨later,found,entry,kept⟩ := addCase_keeps label target (merge == some target) earlier
            exact Or.inr ⟨later,found,entry,kept listed⟩
        · cases List.mem_singleton.mp new
          exact Or.inr addCase_lists
      · intro arm member marked
        rw [plain' arm member] at marked
        cases marked
      · intro arm member _
        rcases mem_addCase member with old | ⟨_,_,labels⟩ | ⟨old,_,_,rfl⟩
        · exact sorted.labelled arm old (plain arm old)
        · simp [labels]
        · simp

theorem sorted_group (cases : List (Int32 × BlockId)) (default : BlockId) (merge : Option BlockId) :
    Sorted cases merge default (group cases default merge) ∧
      (merge ≠ some default → ∃ arm ∈ group cases default merge, arm.isDefault = true) := by
  unfold group
  dsimp only
  have empty : Sorted [] merge default [] := ⟨by simp,by simp,by simp,by simp⟩
  obtain ⟨sorted,plain⟩ := sorted_cases [] cases empty (by simp)
  simp only [List.nil_append] at sorted
  generalize cases.foldl _ _ = arms at sorted plain ⊢
  split
  · rename_i direct
    exact ⟨sorted,fun apart => absurd (eq_of_beq direct) apart⟩
  · rename_i apart
    have apart : merge ≠ some default := fun same => apart (beq_iff_eq.mpr same)
    refine ⟨⟨?_,?_,?_,?_⟩,fun _ => addDefault_marks⟩
    · intro arm member label listed
      rcases mem_addDefault member with old | ⟨entry,_,empty | ⟨old,known,same,labels⟩⟩
      · exact sorted.listed arm old label listed
      · simp [empty] at listed
      · rw [labels] at listed
        rw [entry,← same]
        exact sorted.listed old known label listed
    · intro label target member
      rcases sorted.covered label target member with direct | ⟨arm,member,entry,listed⟩
      · exact Or.inl direct
      · obtain ⟨later,found,same,labels⟩ := addDefault_keeps default member
        exact Or.inr ⟨later,found,same.trans entry,labels ▸ listed⟩
    · intro arm member marked
      rcases mem_addDefault member with old | ⟨entry,_,_⟩
      · rw [plain arm old] at marked
        cases marked
      · exact ⟨entry,apart⟩
    · intro arm member unmarked
      rcases mem_addDefault member with old | ⟨_,marked,_⟩
      · exact sorted.labelled arm old (plain arm old)
      · rw [marked] at unmarked
        cases unmarked

theorem group_entry {cases : List (Int32 × BlockId)} {default : BlockId} {merge : Option BlockId}
    {arm : PendingArm} (member : arm ∈ group cases default merge) : arm.entry ∈ cases.map (·.2) ++ [default] := by
  have sorted := (sorted_group cases default merge).1
  cases shape : arm.isDefault with
  | true => simp [(sorted.marked arm member shape).1]
  | false =>
    obtain ⟨label,listed⟩ := List.exists_mem_of_ne_nil _ (sorted.labelled arm member shape)
    exact List.mem_append_left _ (List.mem_map.mpr ⟨_,sorted.listed arm member label listed,rfl⟩)

theorem ordered_entry {graph : BlockGraph} {block : BlockId} {discriminant : Expr} {cases : List (Int32 × BlockId)}
    {default : BlockId} {merge : Option BlockId} {order : List Nat} {arm : PendingArm}
    (at_ : graph.terminator block = .switch discriminant cases default)
    (member : arm ∈ order.filterMap ((group cases default merge)[·]?)) : arm.entry ∈ graph.successors block := by
  obtain ⟨index,_,listed⟩ := List.mem_filterMap.mp member
  rw [BlockGraph.successors_switch at_]
  exact group_entry (List.mem_of_getElem? listed)

theorem group_reaches {cases : List (Int32 × BlockId)} {default target : BlockId} (merge : Option BlockId)
    (listed : target ∈ cases.map (·.2) ++ [default]) :
    merge = some target ∨ ∃ arm ∈ group cases default merge, arm.entry = target := by
  obtain ⟨sorted,defaulted⟩ := sorted_group cases default merge
  rcases List.mem_append.mp listed with case_ | last
  · obtain ⟨⟨label,_⟩,row,rfl⟩ := List.mem_map.mp case_
    rcases sorted.covered label _ row with ⟨ends,_⟩ | ⟨arm,member,starts,_⟩
    · exact Or.inl ends
    · exact Or.inr ⟨arm,member,starts⟩
  · rw [List.mem_singleton.mp last]
    by_cases ends : merge = some default
    · exact Or.inl ends
    · obtain ⟨arm,member,shape⟩ := defaulted ends
      exact Or.inr ⟨arm,member,(sorted.marked arm member shape).1⟩

theorem group_dispatches (distinct : (cases.map (·.1)).Nodup) (value : Int32) :
    (∀ arm ∈ group cases default merge,
      (value ∈ arm.emitted ∨
        (arm.emitted = [] ∧ ∀ other ∈ group cases default merge, value ∉ other.emitted)) →
      arm.entry = (cases.lookup value).getD default) ∧
    ((∀ arm ∈ group cases default merge, value ∉ arm.emitted ∧ arm.emitted ≠ []) →
      merge = some ((cases.lookup value).getD default)) := by
  obtain ⟨sorted,hasDefault⟩ := sorted_group cases default merge
  generalize group cases default merge = arms at sorted hasDefault ⊢
  have lookup (target : BlockId) (member : (value,target) ∈ cases) : cases.lookup value = some target := by
    clear sorted
    induction cases with
    | nil => cases member
    | cons row rest ih =>
      obtain ⟨label,first⟩ := row
      rw [List.map_cons,List.nodup_cons] at distinct
      rcases List.mem_cons.mp member with same | member
      · cases same
        exact List.lookup_cons_self
      · have apart : (value == label) = false :=
          beq_eq_false_iff_ne.mpr fun same => distinct.1 (same ▸ List.mem_map.mpr ⟨_,member,rfl⟩)
        rw [List.lookup_cons,apart]
        exact ih distinct.2 member
  have found (target : BlockId) (at_ : cases.lookup value = some target) : (value,target) ∈ cases := by
    obtain ⟨before,after,rfl,_⟩ := List.lookup_eq_some_iff.mp at_
    simp
  constructor
  · rintro arm member (listed | ⟨empty,unlisted⟩)
    · unfold emitted at listed
      split at listed
      · cases listed
      · rw [lookup _ (sorted.listed arm member value listed)]
        rfl
    · have marked : arm.isDefault = true := by
        cases marked : arm.isDefault with
        | true => rfl
        | false => exact absurd (by simpa [emitted,marked] using empty) (sorted.labelled arm member marked)
      obtain ⟨entry,apart⟩ := sorted.marked arm member marked
      cases at_ : cases.lookup value with
      | none => exact entry
      | some target =>
        rcases sorted.covered value target (found target at_) with direct | ⟨other,known,rfl,listed⟩
        · exact absurd direct.2 apart
        · have merged : other.isDefault = true := by
            cases merged : other.isDefault with
            | true => rfl
            | false => exact absurd (by simpa [emitted,merged] using listed) (unlisted other known)
          exact entry.trans (sorted.marked other known merged).1.symm
  · intro missed
    have direct : merge = some default := Decidable.byContradiction fun apart => by
      obtain ⟨arm,member,marked⟩ := hasDefault apart
      exact (missed arm member).2 (by simp [emitted,marked])
    cases at_ : cases.lookup value with
    | none => exact direct
    | some target =>
      rcases sorted.covered value target (found target at_) with ⟨same,_⟩ | ⟨arm,member,_,listed⟩
      · exact same
      · have unmarked : arm.isDefault = false := by
          cases marked : arm.isDefault with
          | true => exact absurd direct (sorted.marked arm member marked).2
          | false => rfl
        exact absurd (by simpa [emitted,unmarked] using listed) (missed arm member).1

end PendingArm
end Untangle
