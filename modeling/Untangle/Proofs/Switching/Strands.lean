import Mathlib.Data.List.Chain
import Untangle.Proofs.Flow.Dominators
import Untangle.Proofs.Switching.Labels

namespace Untangle
open Relation

namespace ArmLinks
variable {links : ArmLinks} {count arm start source target before steps : Nat} {placed old group : List Nat}

def Runs (links : ArmLinks) (source target : Nat) : Prop := links.next? source = some target

theorem Runs.mem (runs : links.Runs source target) : (source,target) ∈ links := next_mem runs

theorem runs_iff_previous (sound : Sound links count) :
    links.Runs source target ↔ links.previous? target = some source :=
  ⟨fun runs => sound.backward _ runs.mem,fun previous => sound.forward _ (previous_mem previous)⟩

theorem Runs.same_target {other : Nat} (one : links.Runs source target) (two : links.Runs source other) :
    target = other :=
  Option.some.inj (one.symm.trans two)

theorem Runs.same_source {other : Nat} (sound : Sound links count) (one : links.Runs source target)
    (two : links.Runs other target) : source = other :=
  Option.some.inj (((runs_iff_previous sound).mp one).symm.trans ((runs_iff_previous sound).mp two))

-- Arms that run into one another, one by one, and the last of them into none or into the first again.
structure Strand (links : ArmLinks) (group : List Nat) : Prop where
  filled : group ≠ []
  linked : group.IsChain links.Runs
  ends : ∀ source target, group.getLast? = some source → links.Runs source target → group.head? = some target

theorem Strand.behind (strand : Strand links group) (member : source ∈ group) (runs : links.Runs source target) :
    [source,target] <:+: group ∨ group.getLast? = some source ∧ group.head? = some target := by
  obtain ⟨front,rest,rfl⟩ := List.append_of_mem member
  cases rest with
  | nil =>
    have last : (front ++ [source]).getLast? = some source := by simp
    exact Or.inr ⟨last,strand.ends source target last runs⟩
  | cons next rest =>
    have follows : links.Runs source next := (List.isChain_append_cons_cons.mp strand.linked).2.1
    cases runs.same_target follows
    exact Or.inl ⟨front,rest,by simp⟩

theorem Strand.ahead (strand : Strand links group) (member : target ∈ group) (later : group.head? ≠ some target) :
    ∃ source ∈ group, links.Runs source target := by
  obtain ⟨front,rest,rfl⟩ := List.append_of_mem member
  rcases List.eq_nil_or_concat' front with rfl | ⟨front,source,rfl⟩
  · exact absurd rfl later
  · rw [List.append_assoc,List.singleton_append] at strand
    exact ⟨source,by simp,(List.isChain_append_cons_cons.mp strand.linked).2.1⟩

def Backed (links : ArmLinks) (placed : List Nat) : Prop :=
  ∀ arm ∈ placed, ∀ before, links.Runs before arm → before ∈ placed

theorem linked_grown {front : List Nat} {last : Nat} (linked : (front ++ [last]).IsChain links.Runs)
    (runs : links.Runs last arm) : (front ++ [last] ++ [arm]).IsChain links.Runs := by
  rw [List.append_assoc,List.singleton_append]
  exact List.isChain_append_cons_cons.mpr ⟨linked,runs,List.isChain_singleton _⟩

theorem closes_at_head (sound : Sound links count) {front : List Nat} {last : Nat}
    (linked : (front ++ [last]).IsChain links.Runs) (once : (front ++ [last]).Nodup) (runs : links.Runs last arm)
    (member : arm ∈ front ++ [last]) : (front ++ [last]).head? = some arm := by
  obtain ⟨before,behind,same⟩ := List.append_of_mem member
  have final : last ∈ arm :: behind := by
    have whole : (before ++ arm :: behind).getLast? = some last := by rw [← same]; simp
    rw [List.getLast?_append_of_ne_nil _ (List.cons_ne_nil _ _)] at whole
    exact List.mem_of_getLast? whole
  rw [same] at linked once ⊢
  rcases List.eq_nil_or_concat' before with rfl | ⟨earlier,source,rfl⟩
  · rfl
  · rw [List.append_assoc,List.singleton_append] at linked
    have follows : links.Runs source arm := (List.isChain_append_cons_cons.mp linked).2.1
    cases runs.same_source sound follows
    exact absurd rfl ((List.nodup_append.mp once).2.2 last (by simp) last final)

theorem follow_behind (sound : Sound links count) (backed : Backed links old) (front : List Nat) (last : Nat)
    (linked : (front ++ [last]).IsChain links.Runs) (once : (front ++ [last]).Nodup)
    (apart : ∀ arm ∈ front ++ [last], arm ∉ old) (runs : links.Runs last arm) :
    ∃ group, Strand links group ∧ group.head? = (front ++ [last]).head? ∧
      links.follow count ((front ++ [last]).reverse ++ old) arm = group.reverse ++ old := by
  generalize same : (front ++ [last]).reverse ++ old = placed
  fun_induction follow count links placed arm generalizing front last with
  | case1 placed arm fresh ended =>
    refine ⟨front ++ [last] ++ [arm],⟨by simp,linked_grown linked runs,?_⟩,by simp [List.head?_append],
      by simp [← same]⟩
    intro source target final further
    rw [List.getLast?_append_of_ne_nil _ (List.cons_ne_nil _ _)] at final
    cases final
    cases ended.symm.trans further
  | case2 placed arm fresh next further ih =>
    subst same
    obtain ⟨recent,early⟩ : arm ∉ front ++ [last] ∧ arm ∉ old := by
      simpa only [List.mem_append,List.mem_reverse,not_or] using fresh.2
    have grownOnce : (front ++ [last] ++ [arm]).Nodup := by
      rw [List.nodup_middle,List.append_nil]
      exact List.nodup_cons.mpr ⟨recent,once⟩
    have grownApart : ∀ known ∈ front ++ [last] ++ [arm], known ∉ old := by
      intro known member
      rcases List.mem_append.mp member with member | new
      · exact apart known member
      · exact List.mem_singleton.mp new ▸ early
    obtain ⟨group,strand,head,follows⟩ :=
      ih (front ++ [last]) arm (linked_grown linked runs) grownOnce grownApart further (by simp)
    exact ⟨group,strand,by simpa [List.head?_append] using head,follows⟩
  | case3 placed arm stale =>
    subst same
    have inside : arm < count := (sound.inside _ runs.mem).2
    have member : arm ∈ (front ++ [last]).reverse ++ old := by
      by_contra missing
      exact stale ⟨inside,missing⟩
    rcases List.mem_append.mp member with recent | earlier
    · refine ⟨front ++ [last],⟨by simp,linked,?_⟩,rfl,rfl⟩
      intro source target final further
      rw [List.getLast?_concat] at final
      cases final
      cases runs.same_target further
      exact closes_at_head sound linked once runs (List.mem_reverse.mp recent)
    · exact absurd (backed arm earlier last runs) (apart last (by simp))

theorem follow_strand (sound : Sound links count) (backed : Backed links old) (inside : arm < count)
    (fresh : arm ∉ old) :
    ∃ group, Strand links group ∧ group.head? = some arm ∧ links.follow count old arm = group.reverse ++ old := by
  rw [follow,dif_pos ⟨inside,fresh⟩]
  split
  · rename_i ended
    refine ⟨[arm],⟨by simp,List.isChain_singleton _,?_⟩,rfl,rfl⟩
    intro source target final further
    cases final
    cases ended.symm.trans further
  · rename_i next further
    have apart : ∀ known ∈ [arm], known ∉ old := fun known member => List.mem_singleton.mp member ▸ fresh
    exact follow_behind sound backed [] arm (List.isChain_singleton _) (List.nodup_singleton _) apart further

theorem cycle_back (sound : Sound links count) (cycle : TransGen links.Runs arm arm) (runs : links.Runs before arm) :
    TransGen links.Runs before before := by
  obtain ⟨last,walk,closing⟩ := TransGen.tail'_iff.mp cycle
  cases closing.same_source sound runs
  exact .head' runs walk

theorem head_cycle (sound : Sound links count) (cycle : TransGen links.Runs arm arm) :
    TransGen links.Runs (links.head placed arm steps) (links.head placed arm steps) := by
  induction steps generalizing arm with
  | zero => exact cycle
  | succ steps ih =>
    unfold head
    split
    · exact cycle
    · rename_i before previous
      split
      · exact cycle
      · exact ih (cycle_back sound cycle ((runs_iff_previous sound).mpr previous))

theorem head_fresh (fresh : arm ∉ placed) : links.head placed arm steps ∉ placed := by
  induction steps generalizing arm with
  | zero => exact fresh
  | succ steps ih =>
    unfold head
    split
    · exact fresh
    · split
      · exact fresh
      · rename_i missing
        exact ih missing

theorem head_stops (sound : Sound links count) (seen : List Nat) (once : seen.Nodup)
    (within : ∀ arm ∈ seen, arm < count) (onward : ∀ later ∈ seen, ReflTransGen links.Runs arm later)
    (enough : count < seen.length + steps) (runs : links.Runs before (links.head placed arm steps)) :
    before ∈ placed ∨ TransGen links.Runs (links.head placed arm steps) (links.head placed arm steps) := by
  induction steps generalizing arm seen with
  | zero =>
    have few := length_within once within
    omega
  | succ steps ih =>
    unfold head at runs ⊢
    split at runs
    · rename_i none
      cases none.symm.trans ((runs_iff_previous sound).mp runs)
    · rename_i earlier previous
      have link : links.Runs earlier arm := (runs_iff_previous sound).mpr previous
      split at runs
      · rename_i known
        cases runs.same_source sound link
        exact Or.inl known
      · rename_i missing
        rw [if_neg missing]
        by_cases again : earlier ∈ seen
        · exact Or.inr (head_cycle sound (.head' link (onward earlier again)))
        · refine ih (earlier :: seen) (List.nodup_cons.mpr ⟨again,once⟩) ?_ ?_ ?_ runs
          · exact List.forall_mem_cons.mpr ⟨(sound.inside _ link.mem).1,within⟩
          · refine List.forall_mem_cons.mpr ⟨.refl,fun later member => ?_⟩
            exact .head link (onward later member)
          · rw [List.length_cons]
            omega

-- What is placed consists of whole strands, one behind the other.
structure Arranged (links : ArmLinks) (placed : List Nat) : Prop where
  onward : ClosedBut links none placed
  backed : Backed links placed
  strands : ∃ groups : List (List Nat), placed.reverse = groups.flatten ∧ ∀ group ∈ groups, Strand links group

theorem arranged_nil : Arranged links [] := ⟨by simp [ClosedBut],by simp [Backed],[],rfl,by simp⟩

theorem ClosedBut.walk (closed : ClosedBut links none placed) (walk : ReflTransGen links.Runs source target)
    (member : source ∈ placed) : target ∈ placed := by
  induction walk with
  | refl => exact member
  | tail _ last ih => exact (closed _ ih _ last).resolve_right (by simp)

theorem backed_strand (sound : Sound links count) (backed : Backed links old) (strand : Strand links group)
    (head : group.head? = some arm) (onward : ClosedBut links none (group.reverse ++ old))
    (stops : ∀ before, links.Runs before arm → before ∈ old ∨ TransGen links.Runs arm arm) :
    Backed links (group.reverse ++ old) := by
  intro known member before runs
  rcases List.mem_append.mp member with recent | early
  · by_cases same : known = arm
    · subst same
      rcases stops before runs with early | cycle
      · exact List.mem_append_right _ early
      · obtain ⟨last,walk,closing⟩ := TransGen.tail'_iff.mp cycle
        cases closing.same_source sound runs
        exact onward.walk walk member
    · have later : group.head? ≠ some known := fun first => same (Option.some.inj (first.symm.trans head))
      obtain ⟨source,listed,link⟩ := strand.ahead (List.mem_reverse.mp recent) later
      cases link.same_source sound runs
      exact List.mem_append_left _ (List.mem_reverse.mpr listed)
  · exact List.mem_append_right _ (backed known early before runs)

theorem arranged_place (sound : Sound links count) (arranged : Arranged links placed) (inside : start < count)
    (fresh : start ∉ placed) :
    Arranged links (links.follow count placed (links.head placed start (count + 1))) := by
  have first : links.head placed start (count + 1) < count :=
    (head_reaches sound inside _ arranged.onward).1
  have new : links.head placed start (count + 1) ∉ placed := head_fresh fresh
  have stops (before : Nat) (runs : links.Runs before (links.head placed start (count + 1))) :=
    head_stops sound [] List.nodup_nil (by simp) (by simp) (by simp) runs
  generalize links.head placed start (count + 1) = arm at first new stops
  have open_ : ClosedBut links (some arm) placed := fun known member next runs =>
    Or.inl ((arranged.onward known member next runs).resolve_right (by simp))
  obtain ⟨onward,_,_⟩ := closed_follow sound arm first open_
  obtain ⟨group,strand,head,follows⟩ := follow_strand sound arranged.backed first new
  rw [follows] at onward ⊢
  refine ⟨onward,backed_strand sound arranged.backed strand head onward stops,?_⟩
  obtain ⟨groups,same,strands⟩ := arranged.strands
  refine ⟨groups ++ [group],by simp [same],?_⟩
  intro other member
  rcases List.mem_append.mp member with old | last
  · exact strands other old
  · exact List.mem_singleton.mp last ▸ strand

end ArmLinks

open ArmLinks in
theorem armOrder_arranged (graph : BlockGraph) (dominates : BlockId → BlockId → Bool) (block : BlockId)
    (arms : List PendingArm) :
    Arranged (compute graph dominates block arms) (armOrder graph dominates block arms).reverse := by
  have sound := sound_compute graph dominates block arms
  unfold armOrder
  dsimp only
  rw [List.reverse_reverse]
  refine List.foldlRecOn (motive := Arranged (compute graph dominates block arms)) _ _ arranged_nil ?_
  intro placed arranged start member
  split
  · exact arranged
  · rename_i fresh
    exact arranged_place sound arranged (List.mem_range.mp member) fresh

open ArmLinks in
-- Every arm is placed once. Arms are linked in both directions alike, and fall into strands that stand one
-- behind the other: chains, and cycles that were opened at one link. Along all other links an arm stands
-- right behind the one that falls into it.
theorem armOrder_strands (graph : BlockGraph) (dominates : BlockId → BlockId → Bool) (block : BlockId)
    (arms : List PendingArm) :
    let links := compute graph dominates block arms
    let order := armOrder graph dominates block arms
    order.Perm (List.range arms.length) ∧
      (∀ source target, links.next? source = some target ↔ links.previous? target = some source) ∧
      ∃ groups : List (List Nat), order = groups.flatten ∧ (∀ group ∈ groups, Strand links group) ∧
        ∀ source target, links.next? source = some target → ∃ group ∈ groups, source ∈ group ∧ target ∈ group ∧
          ([source,target] <:+: order ∨ group.getLast? = some source ∧ group.head? = some target) := by
  have sound := sound_compute graph dominates block arms
  have perm := armOrder_perm graph dominates block arms
  obtain ⟨_,_,groups,same,strands⟩ := armOrder_arranged graph dominates block arms
  rw [List.reverse_reverse] at same
  refine ⟨perm,fun source target => runs_iff_previous sound,groups,same,strands,?_⟩
  intro source target runs
  have placed : source ∈ armOrder graph dominates block arms :=
    mem_armOrder (sound.inside _ (Runs.mem runs)).1
  rw [same] at placed
  obtain ⟨group,listed,member⟩ := List.mem_flatten.mp placed
  refine ⟨group,listed,member,?_⟩
  rcases (strands group listed).behind member runs with next | closes
  · refine ⟨next.subset (by simp),Or.inl ?_⟩
    rw [same]
    exact next.trans (List.infix_of_mem_flatten listed)
  · exact ⟨List.mem_of_head? closes.2,Or.inr closes⟩

end Untangle
