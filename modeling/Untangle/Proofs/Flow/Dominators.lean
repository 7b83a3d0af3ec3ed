import Mathlib.Data.List.Perm.Subperm
import Untangle.Proofs.Flow.Walks

namespace Untangle
open Relation
variable {size a b source target root node : Nat} {next : Nat → List Nat} {roots : List Nat}

-- Both nodes are reached, and no way from a root to the second one misses the first.
structure Dominates (size : Nat) (next : Nat → List Nat) (roots : List Nat) (a b : Nat) : Prop where
  above : Reaches size next roots a
  below : Reaches size next roots b
  never : ∀ root ∈ roots, root < size → ¬Clear size next a root b

theorem dominates_iff :
    (Detours.compute size next roots).dominates a b = true ↔ Dominates size next roots a b := by
  unfold Detours.dominates Detours.compute Detours.isReached
  simp only [Bool.and_eq_true,decide_eq_true_eq,mem_reach]
  constructor
  · rintro ⟨⟨above,below⟩,all⟩
    refine ⟨above,below,fun root member bound clear => ?_⟩
    have listed : b ∈ Detours.avoiding size next roots a :=
      mem_reach.mpr (Reaches.iff_clear.mpr ⟨root,member,bound,clear⟩)
    simp only [List.getElem?_map,List.getElem?_range above.inside,Option.map_some,Option.getD_some] at all
    exact absurd rfl (of_decide_eq_true (List.all_eq_true.mp all b listed))
  · rintro ⟨above,below,never⟩
    refine ⟨⟨above,below⟩,?_⟩
    simp only [List.getElem?_map,List.getElem?_range above.inside,Option.map_some,Option.getD_some]
    refine List.all_eq_true.mpr fun node listed => decide_eq_true ?_
    rintro rfl
    obtain ⟨root,member,bound,clear⟩ := Reaches.iff_clear.mp (mem_reach.mp listed)
    exact never root member bound clear

namespace Dominates
variable {x : Nat}

theorem refl (reached : Reaches size next roots a) : Dominates size next roots a a :=
  ⟨reached,reached,fun _ _ _ clear => clear.apart rfl⟩

theorem trans (first : Dominates size next roots a b) (second : Dominates size next roots b x) :
    Dominates size next roots a x := by
  refine ⟨first.above,second.below,fun root member bound clear => ?_⟩
  rcases clear.toward b with missed | found
  · exact second.never root member bound missed
  · exact first.never root member bound found

theorem antisymm (first : Dominates size next roots a b) (second : Dominates size next roots b a) : a = b := by
  by_contra apart
  obtain ⟨root,member,bound,walk⟩ := Reaches.iff_walk.mp first.above
  rcases clear_to_either apart walk with missed | missed
  · exact second.never root member bound missed
  · exact first.never root member bound missed

theorem before (dominates : Dominates size next roots a target) (reached : Reaches size next roots source)
    (leads : Step size next source target) (apart : a ≠ target) : Dominates size next roots a source :=
  ⟨dominates.above,reached,fun root member bound clear =>
    dominates.never root member bound (clear.step leads apart.symm)⟩

theorem missed (above : Reaches size next roots a) (below : Reaches size next roots b)
    (not : ¬Dominates size next roots a b) : ∃ root ∈ roots, root < size ∧ Clear size next a root b := by
  by_contra none
  exact not ⟨above,below,fun root member bound clear => none ⟨root,member,bound,clear⟩⟩

theorem walk (dominates : Dominates size next roots a b) : ReflTransGen (Step size next) a b := by
  rcases dominates.below.around a with missed | onward
  · obtain ⟨root,member,bound,clear⟩ := Reaches.iff_clear.mp missed
    exact absurd clear (dominates.never root member bound)
  · obtain ⟨root,same,_,walk⟩ := Reaches.iff_walk.mp onward
    exact List.mem_singleton.mp same ▸ walk

theorem linear (first : Dominates size next roots a x) (second : Dominates size next roots b x) :
    Dominates size next roots a b ∨ Dominates size next roots b a := by
  by_cases same : a = b
  · exact Or.inl (same ▸ .refl first.above)
  by_cases atA : x = a
  · exact Or.inr (atA ▸ second)
  by_cases atB : x = b
  · exact Or.inl (atB ▸ first)
  by_contra neither
  rw [not_or] at neither
  rcases clear_from_either same atA atB first.walk with onward | onward
  · obtain ⟨root,member,bound,clear⟩ := missed second.above first.above neither.2
    exact second.never root member bound (clear.trans onward)
  · obtain ⟨root,member,bound,clear⟩ := missed first.above second.above neither.1
    exact first.never root member bound (clear.trans onward)

end Dominates

theorem length_within {nodes : List Nat} (once : nodes.Nodup) (within : ∀ node ∈ nodes, node < size) :
    nodes.length ≤ size := by
  have all : nodes ⊆ List.range size := fun node member => List.mem_range.mpr (within node member)
  have few := (List.subperm_of_subset once all).length_le
  rwa [List.length_range] at few

theorem within_shorter {inner outer : List Nat} (once : inner.Nodup) (within : ∀ x ∈ inner, x ∈ outer)
    (member : node ∈ outer) (missing : node ∉ inner) : inner.length < outer.length := by
  have longer : (node :: inner).length ≤ outer.length := by
    apply List.Subperm.length_le
    apply List.subperm_of_subset (List.nodup_cons.mpr ⟨missing,once⟩)
    intro x listed
    rcases List.mem_cons.mp listed with same | listed
    · exact same ▸ member
    · exact within x listed
  rwa [List.length_cons] at longer

namespace Dominance

theorem mem_strict : a ∈ (Detours.compute size next roots).strict node ↔
    Dominates size next roots a node ∧ a ≠ node := by
  unfold Detours.strict Detours.strictlyDominates
  rw [List.mem_filter,List.mem_reverse,List.mem_range,Bool.and_eq_true,dominates_iff,bne_iff_ne]
  constructor
  · intro ⟨_,apart,dominates⟩
    exact ⟨dominates,apart⟩
  · intro ⟨dominates,apart⟩
    exact ⟨dominates.above.inside,apart,dominates⟩

theorem immediate_some (found : (compute size next roots).immediate? node = some a) :
    Dominates size next roots a node ∧ a ≠ node ∧
      ∀ above, Dominates size next roots above node → above ≠ node → Dominates size next roots above a := by
  have inside : node < size := by
    by_contra outside
    unfold immediate? compute ofDetours Detours.compute at found
    simp [List.getElem?_eq_none (by simpa using outside : (List.range size).length ≤ node)] at found
  unfold compute at found
  rw [immediate_ofDetours _ _ inside] at found
  unfold Detours.closest? at found
  have all := List.find?_some found
  obtain ⟨dominates,apart⟩ := mem_strict.mp (List.mem_of_find?_eq_some found)
  refine ⟨dominates,apart,fun above higher other => ?_⟩
  exact dominates_iff.mp (List.all_eq_true.mp all above (mem_strict.mpr ⟨higher,other⟩))

theorem immediate_direct (found : (compute size next roots).immediate? target = some a) (first : b ≠ a)
    (last : b ≠ target) : Clear size next b a target := by
  obtain ⟨dominates,apart,closest⟩ := immediate_some found
  by_contra met
  have between := (clear_to_either last.symm dominates.walk).resolve_left met
  have reached := dominates.above.walk (ReflTransGen.mono (fun _ _ step => step.1) _ _ between.2)
  have above : Dominates size next roots b target := by
    refine ⟨reached,dominates.below,fun root member bound clear => ?_⟩
    rcases clear.through a with missed | rest
    · exact dominates.never root member bound missed
    · exact met rest
  obtain ⟨node,leads,away⟩ := leaves_last dominates.walk apart.symm
  have onward := (away.through b).resolve_left fun clear => met (clear.after first.symm leads)
  obtain ⟨root,member,bound,clear⟩ := Dominates.missed dominates.above reached fun swapped =>
    first ((closest b above last).antisymm swapped)
  exact dominates.never root member bound (clear.trans onward)

theorem mem_children : node ∈ (compute size next roots).children a ↔
    node < size ∧ (compute size next roots).immediate? node = some a := by
  unfold children
  rw [List.mem_filter,List.mem_range,beq_iff_eq]
  rfl

end Dominance
end Untangle
