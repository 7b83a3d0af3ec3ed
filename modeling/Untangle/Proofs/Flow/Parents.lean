import Untangle.Proofs.Flow.Routes

namespace Untangle
open Relation

namespace Dominance
variable {size a b node : Nat} {next : Nat → List Nat} {roots nodes : List Nat}

theorem lowest (some : nodes ≠ []) (all : ∀ above ∈ nodes, Dominates size next roots above node) :
    ∃ low ∈ nodes, ∀ above ∈ nodes, Dominates size next roots above low := by
  induction nodes with
  | nil => exact absurd rfl some
  | cons first rest ih =>
    have top := all first List.mem_cons_self
    cases rest with
    | nil =>
      refine ⟨first,List.mem_cons_self,?_⟩
      intro above member
      cases List.mem_singleton.mp member
      exact .refl top.above
    | cons second others =>
      obtain ⟨low,member,below⟩ := ih (by simp) fun above member => all above (List.mem_cons_of_mem _ member)
      cases top.linear (all low (List.mem_cons_of_mem _ member)) with
      | inl higher =>
        refine ⟨low,List.mem_cons_of_mem _ member,?_⟩
        intro above listed
        rcases List.mem_cons.mp listed with same | later
        · exact same ▸ higher
        · exact below above later
      | inr lower =>
        refine ⟨first,List.mem_cons_self,?_⟩
        intro above listed
        rcases List.mem_cons.mp listed with same | later
        · exact same.symm ▸ .refl top.above
        · exact (below above later).trans lower

theorem immediate_iff : (compute size next roots).immediate? node = some a ↔
    Dominates size next roots a node ∧ a ≠ node ∧
      ∀ above, Dominates size next roots above node → above ≠ node → Dominates size next roots above a := by
  constructor
  · exact immediate_some
  · intro ⟨dominates,apart,closest⟩
    have inside : node < size := dominates.below.inside
    cases found : (compute size next roots).immediate? node with
    | some other =>
      obtain ⟨higher,different,nearest⟩ := immediate_some found
      exact congrArg some ((closest other higher different).antisymm (nearest a dominates apart))
    | none =>
      unfold compute at found
      rw [immediate_ofDetours _ _ inside] at found
      have misses := List.find?_eq_none.mp found a (mem_strict.mpr ⟨dominates,apart⟩)
      refine absurd (List.all_eq_true.mpr ?_) misses
      intro above member
      obtain ⟨higher,different⟩ := mem_strict.mp member
      exact dominates_iff.mpr (closest above higher different)

theorem immediate_none : (compute size next roots).immediate? node = none ↔
    ∀ above, Dominates size next roots above node → above = node := by
  constructor
  · intro none above dominates
    apply Classical.byContradiction
    intro apart
    have member := mem_strict.mpr ⟨dominates,apart⟩
    obtain ⟨low,listed,below⟩ := lowest (List.ne_nil_of_mem member) fun other known => (mem_strict.mp known).1
    obtain ⟨nearest,different⟩ := mem_strict.mp listed
    have found := immediate_iff.mpr ⟨nearest,different,fun above higher apart =>
      below above (mem_strict.mpr ⟨higher,apart⟩)⟩
    cases none.symm.trans found
  · intro alone
    cases found : (compute size next roots).immediate? node with
    | none => rfl
    | some other =>
      obtain ⟨dominates,apart,_⟩ := immediate_some found
      exact absurd (alone other dominates) apart

theorem strict_shorter (parent : (compute size next roots).immediate? node = some a) :
    ((Detours.compute size next roots).strict a).length < ((Detours.compute size next roots).strict node).length := by
  obtain ⟨dominates,apart,_⟩ := immediate_some parent
  have once : ((Detours.compute size next roots).strict a).Nodup :=
    (List.nodup_reverse.mpr List.nodup_range).filter _
  refine within_shorter once ?_ (mem_strict.mpr ⟨dominates,apart⟩) fun member => (mem_strict.mp member).2 rfl
  intro above listed
  obtain ⟨above_it,different⟩ := mem_strict.mp listed
  refine mem_strict.mpr ⟨above_it.trans dominates,?_⟩
  intro same
  exact different (above_it.antisymm (same ▸ dominates))

def Climbs (doms : Dominance) (low high : Nat) : Prop := doms.immediate? low = some high

theorem climbs_ends (size : Nat) (next : Nat → List Nat) (roots : List Nat) :
    WellFounded fun high low => (compute size next roots).Climbs low high :=
  Subrelation.wf strict_shorter (measure fun node => ((Detours.compute size next roots).strict node).length).wf

theorem dominates_iff_climbs : Dominates size next roots a b ↔
    Reaches size next roots b ∧ ReflTransGen (compute size next roots).Climbs b a := by
  constructor
  · intro dominates
    refine ⟨dominates.below,?_⟩
    induction b using (climbs_ends size next roots).induction with
    | _ low ih =>
      by_cases same : a = low
      · exact same ▸ .refl
      · cases parent : (compute size next roots).immediate? low with
        | none => exact absurd (immediate_none.mp parent a dominates) same
        | some high =>
          obtain ⟨_,_,closest⟩ := immediate_some parent
          exact .head parent (ih high parent (closest a dominates same))
  · intro ⟨reached,climb⟩
    induction climb with
    | refl => exact .refl reached
    | tail _ last ih => exact (immediate_some last).1.trans ih

-- What a dominance says, measured against a relation of nodes: which nodes it knows, which it relates,
-- and where the climb along closest dominators goes.
structure Tells (doms : Dominance) (related : Nat → Nat → Prop) : Prop where
  reached : ∀ node, doms.isReached node = true ↔ related node node
  dominates : ∀ a b, doms.dominates a b = true ↔ related a b
  immediate : ∀ a b, doms.immediate? b = some a ↔
    related a b ∧ a ≠ b ∧ ∀ other, related other b → other ≠ b → related other a
  topmost : ∀ b, doms.immediate? b = none ↔ ∀ a, related a b → a = b
  climbs : ∀ a b, related a b ↔ related b b ∧ ReflTransGen doms.Climbs b a
  ends : WellFounded fun high low => doms.Climbs low high

theorem compute_tells (size : Nat) (next : Nat → List Nat) (roots : List Nat) :
    (compute size next roots).Tells (Dominates size next roots) := by
  have itself (node : Nat) : Dominates size next roots node node ↔ Reaches size next roots node :=
    ⟨fun dominates => dominates.below,.refl⟩
  refine ⟨?_,fun a b => dominates_iff,fun a b => immediate_iff,fun b => immediate_none,?_,climbs_ends _ _ _⟩
  · intro node
    rw [itself,← mem_reach]
    exact decide_eq_true_iff
  · intro a b
    rw [itself]
    exact dominates_iff_climbs

end Dominance

-- Dominance of a graph is about all ways in, and dominance of the reversed graph about all ways out.
theorem BlockGraph.dominance_tells (graph : BlockGraph) :
    graph.dominance.Tells graph.OnEveryWayIn ∧ graph.postDominance.Tells graph.OnEveryWayOut := by
  have ways : Dominates graph.size graph.successors graph.roots = graph.OnEveryWayIn := by
    funext a b
    exact propext dominates_iff_onEveryWayIn
  have waysOut : Dominates graph.size graph.predecessors graph.exits = graph.OnEveryWayOut := by
    funext a b
    exact propext postDominates_iff_onEveryWayOut
  exact ⟨ways ▸ Dominance.compute_tells _ _ _,waysOut ▸ Dominance.compute_tells _ _ _⟩

end Untangle
