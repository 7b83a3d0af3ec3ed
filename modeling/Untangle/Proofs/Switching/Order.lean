import Untangle.Structuring.Arms

namespace Untangle
namespace ArmLinks
variable {links : ArmLinks} {count source target : Nat} {placed : List Nat}

structure Sound (links : ArmLinks) (count : Nat) : Prop where
  inside : ∀ link ∈ links, link.1 < count ∧ link.2 < count
  forward : ∀ link ∈ links, links.next? link.1 = some link.2
  backward : ∀ link ∈ links, links.previous? link.2 = some link.1

theorem next_mem (next : links.next? source = some target) : (source,target) ∈ links := by
  unfold next? at next
  obtain ⟨link,found,rfl⟩ := Option.map_eq_some_iff.mp next
  have first := List.find?_some found
  obtain rfl : link.1 = source := by simpa using first
  exact List.mem_of_find?_eq_some found

theorem previous_mem (previous : links.previous? target = some source) : (source,target) ∈ links := by
  unfold previous? at previous
  obtain ⟨link,found,rfl⟩ := Option.map_eq_some_iff.mp previous
  have second := List.find?_some found
  obtain rfl : link.2 = target := by simpa using second
  exact List.mem_of_find?_eq_some found

theorem sound_nil : Sound [] count := ⟨by simp,by simp,by simp⟩

theorem sound_claim {arms : List PendingArm} (sound : Sound links arms.length) (inside : target < arms.length) :
    Sound (claim dominates arms links target from_) arms.length := by
  unfold claim
  dsimp only
  split
  · rename_i arm index found absent
    have kept := List.find?_some found
    have placed := List.mem_of_find?_eq_some found
    simp only [Bool.and_eq_true,Option.isNone_iff_eq_none] at kept
    have fresh : links.next? index = none := kept.1.2
    have within : index < arms.length :=
      (List.getElem?_eq_some_iff.mp (List.mem_zipIdx_iff_getElem?.mp placed)).1
    refine ⟨?_,?_,?_⟩
    · intro link member
      rcases List.mem_append.mp member with old | new
      · exact sound.inside link old
      · cases List.mem_singleton.mp new
        exact ⟨within,inside⟩
    · intro link member
      rcases List.mem_append.mp member with old | new
      · have same := sound.forward link old
        unfold next? at same ⊢
        obtain ⟨other,first,eq⟩ := Option.map_eq_some_iff.mp same
        rw [List.find?_append,first]
        exact congrArg some eq
      · cases List.mem_singleton.mp new
        unfold next? at fresh ⊢
        rw [List.find?_append,Option.map_eq_none_iff.mp fresh]
        simp
    · intro link member
      rcases List.mem_append.mp member with old | new
      · have same := sound.backward link old
        unfold previous? at same ⊢
        obtain ⟨other,first,eq⟩ := Option.map_eq_some_iff.mp same
        rw [List.find?_append,first]
        exact congrArg some eq
      · cases List.mem_singleton.mp new
        unfold previous? at absent ⊢
        rw [List.find?_append,Option.map_eq_none_iff.mp absent]
        simp
  · exact sound

theorem sound_compute (graph : BlockGraph) (dominates : BlockId → BlockId → Bool) (block : BlockId)
    (arms : List PendingArm) : Sound (compute graph dominates block arms) arms.length := by
  unfold compute
  refine List.foldlRecOn (motive := fun links => Sound links arms.length) arms.zipIdx _ sound_nil ?_
  rintro links sound ⟨arm,target⟩ member
  dsimp only
  split
  · exact sound
  · have inside : target < arms.length :=
      (List.getElem?_eq_some_iff.mp (List.mem_zipIdx_iff_getElem?.mp member)).1
    exact List.foldlRecOn (motive := fun links => Sound links arms.length) _ _ sound
      fun _ sound _ _ => sound_claim sound inside

def ClosedBut (links : ArmLinks) (pending : Option Nat) (placed : List Nat) : Prop :=
  ∀ arm ∈ placed, ∀ next, links.next? arm = some next → next ∈ placed ∨ pending = some next

theorem closed_follow (sound : Sound links count) (arm : Nat) (inside : arm < count)
    (closed : ClosedBut links (some arm) placed) :
    ClosedBut links none (links.follow count placed arm) ∧ arm ∈ links.follow count placed arm ∧
      ∀ old ∈ placed, old ∈ links.follow count placed arm := by
  fun_induction follow count links placed arm with
  | case1 placed arm fresh ended =>
    refine ⟨?_,List.mem_cons_self,fun _ => List.mem_cons_of_mem _⟩
    intro old member next runs
    rcases List.mem_cons.mp member with rfl | member
    · rw [ended] at runs
      cases runs
    · rcases closed old member next runs with member | same
      · exact Or.inl (List.mem_cons_of_mem _ member)
      · cases same
        exact Or.inl List.mem_cons_self
  | case2 placed arm fresh next runs ih =>
    have within := (sound.inside _ (next_mem runs)).2
    obtain ⟨closed,_,kept⟩ := ih within (by
      intro old member next' runs'
      rcases List.mem_cons.mp member with rfl | member
      · exact Or.inr (runs.symm.trans runs')
      · rcases closed old member next' runs' with member | same
        · exact Or.inl (List.mem_cons_of_mem _ member)
        · cases same
          exact Or.inl List.mem_cons_self)
    exact ⟨closed,kept _ List.mem_cons_self,fun old member => kept old (List.mem_cons_of_mem _ member)⟩
  | case3 placed arm stale =>
    have member : arm ∈ placed := Decidable.byContradiction fun absent => stale ⟨inside,absent⟩
    refine ⟨?_,member,fun _ member => member⟩
    intro old known next runs
    rcases closed old known next runs with known | same
    · exact Or.inl known
    · cases same
      exact Or.inl member

theorem head_reaches (sound : Sound links count) (inside : target < count) (steps : Nat)
    (closed : ClosedBut links none result) :
    head links placed target steps < count ∧
      (head links placed target steps ∈ result → target ∈ result) := by
  induction steps generalizing target with
  | zero => exact ⟨inside,fun member => member⟩
  | succ steps ih =>
    unfold head
    split
    · exact ⟨inside,fun member => member⟩
    · rename_i before previous
      split
      · exact ⟨inside,fun member => member⟩
      · have linked := previous_mem previous
        obtain ⟨within,reaches⟩ := ih (sound.inside _ linked).1
        refine ⟨within,fun member => ?_⟩
        rcases closed before (reaches member) target (sound.forward _ linked) with member | impossible
        · exact member
        · cases impossible

end ArmLinks

open ArmLinks in
theorem mem_armOrder {arms : List PendingArm} {index : Nat} (inside : index < arms.length) :
    index ∈ armOrder graph dominates block arms := by
  unfold armOrder
  dsimp only
  have sound := sound_compute graph dominates block arms
  generalize compute graph dominates block arms = links at sound ⊢
  have all (starts : List Nat) (within : ∀ start ∈ starts, start < arms.length) (placed : List Nat)
      (closed : ClosedBut links none placed) (wanted : index ∈ starts ∨ index ∈ placed) :
      index ∈ starts.foldl (fun placed start =>
        if start ∈ placed then placed
        else links.follow arms.length placed (links.head placed start (arms.length + 1))) placed := by
    induction starts generalizing placed with
    | nil => simpa using wanted
    | cons start starts ih =>
      have rest : ∀ start ∈ starts, start < arms.length := fun start member =>
        within start (List.mem_cons_of_mem _ member)
      have here := within start List.mem_cons_self
      simp only [List.foldl_cons]
      split
      · rename_i known
        refine ih rest placed closed ?_
        rcases wanted with wanted | wanted
        · rcases List.mem_cons.mp wanted with rfl | wanted
          · exact Or.inr known
          · exact Or.inl wanted
        · exact Or.inr wanted
      · have first : links.head placed start (arms.length + 1) < arms.length :=
          (head_reaches sound here _ closed).1
        have open_ : ClosedBut links (some (links.head placed start (arms.length + 1))) placed :=
          fun arm member next runs => Or.inl ((closed arm member next runs).resolve_right (by simp))
        obtain ⟨closed',headed,kept⟩ := closed_follow sound _ first open_
        refine ih rest _ closed' ?_
        rcases wanted with wanted | wanted
        · rcases List.mem_cons.mp wanted with rfl | wanted
          · exact Or.inr ((head_reaches sound here _ closed').2 headed)
          · exact Or.inl wanted
        · exact Or.inr (kept _ wanted)
  exact List.mem_reverse.mpr (all (List.range arms.length) (by simp) [] (by simp [ClosedBut])
    (Or.inl (List.mem_range.mpr inside)))

end Untangle
