import Untangle.Proofs.Flow.NaturalLoops

namespace Untangle

namespace NaturalLoop

def Inside (inner outer : NaturalLoop) : Prop :=
  (∀ node ∈ inner.body, node ∈ outer.body) ∧ ∃ node ∈ outer.body, node ∉ inner.body

def Apart (one two : NaturalLoop) : Prop := ∀ node ∈ one.body, node ∉ two.body

-- A loop told from the graph alone: what goes back to the header, what comes to there without meeting
-- the header, and no way in but through the header. Only blocks behind a root count.
structure SingleEntry (graph : BlockGraph) (loop : NaturalLoop) : Prop where
  latches : ∀ source, source ∈ loop.latches ↔
    loop.header ∈ graph.successors source ∧ graph.Dom loop.header source
  body : ∀ node, node ∈ loop.body ↔ node = loop.header ∨
    Reaches graph.size graph.successors graph.roots node ∧
      ∃ latch ∈ loop.latches, Clear graph.size graph.successors loop.header node latch
  above : ∀ node ∈ loop.body, graph.Dom loop.header node
  entered : ∀ source target, target ∈ graph.successors source →
    Reaches graph.size graph.successors graph.roots source → source ∉ loop.body → target ∈ loop.body →
    target = loop.header

end NaturalLoop

namespace LoopForest
variable {graph : BlockGraph} {forest : LoopForest} {loop : NaturalLoop} {block : BlockId}

-- One loop for each block that is gone back to, with one way in. Loops lie apart or one in another, and the
-- innermost one around a block is the least.
structure Nested (graph : BlockGraph) (forest : LoopForest) : Prop where
  single : ∀ loop ∈ forest, loop.SingleEntry graph
  headed : ∀ source header, graph.Back source header → ∃ loop ∈ forest, loop.header = header
  once : ∀ one ∈ forest, ∀ two ∈ forest, one.header = two.header → one = two
  nested : ∀ one ∈ forest, ∀ two ∈ forest, one.header ≠ two.header →
    one.Apart two ∨ one.Inside two ∨ two.Inside one
  innermost : ∀ block loop, forest.innermost? block = some loop ↔
    loop ∈ forest ∧ block ∈ loop.body ∧
      ∀ other ∈ forest, block ∈ other.body → ∀ node ∈ loop.body, node ∈ other.body
  outside : ∀ block, forest.innermost? block = none ↔ ∀ loop ∈ forest, block ∉ loop.body

namespace Natural
variable {inner : NaturalLoop}

theorem singleEntry (natural : Natural graph loop) : loop.SingleEntry graph := by
  refine ⟨natural.latches,?_,fun node member => natural.header_dom member,?_⟩
  · intro node
    rw [natural.mem_body,BlockGraph.mem_order]
    simp only [natural.latches]
  · intro source target leads reached outside member
    apply Classical.byContradiction
    intro other
    have apart : source ≠ loop.header := fun same => outside (same ▸ natural.header_mem)
    have clear : Clear graph.size graph.successors loop.header source target :=
      .after apart ⟨BlockGraph.successor_inside leads,leads⟩ (.stay other)
    exact outside (natural.before (BlockGraph.mem_order.mpr reached) member clear)

theorem inside (outer : Natural graph loop) (natural : Natural graph inner) (apart : loop.header ≠ inner.header)
    (within : inner.header ∈ loop.body) : inner.Inside loop := by
  refine ⟨fun node member => outer.nested natural within member,loop.header,outer.header_mem,?_⟩
  intro back
  exact apart ((outer.header_dom within).antisymm (natural.header_dom back))

theorem apart_or_inside (outer : Natural graph loop) (natural : Natural graph inner)
    (apart : loop.header ≠ inner.header) : loop.Apart inner ∨ loop.Inside inner ∨ inner.Inside loop := by
  by_cases common : ∃ node ∈ loop.body, node ∈ inner.body
  · obtain ⟨node,first,second⟩ := common
    cases outer.meet natural first second with
    | inl within => exact Or.inr (Or.inr (outer.inside natural apart within))
    | inr within => exact Or.inr (Or.inl (natural.inside outer apart.symm within))
  · exact Or.inl fun node first second => common ⟨node,first,second⟩

end Natural

def smaller (best : Option NaturalLoop) (loop : NaturalLoop) : Option NaturalLoop :=
  match best with
  | none => some loop
  | some smallest => if loop.body.length < smallest.body.length then some loop else best

theorem smaller_some (best : Option NaturalLoop) (loop : NaturalLoop) :
    ∃ least, smaller best loop = some least ∧ (least = loop ∨ best = some least) ∧
      least.body.length ≤ loop.body.length ∧ ∀ old, best = some old → least.body.length ≤ old.body.length := by
  cases best with
  | none => exact ⟨loop,rfl,Or.inl rfl,Nat.le_refl _,fun _ none => by cases none⟩
  | some smallest =>
    by_cases less : loop.body.length < smallest.body.length
    · refine ⟨loop,if_pos less,Or.inl rfl,Nat.le_refl _,?_⟩
      intro old same
      cases same
      exact Nat.le_of_lt less
    · refine ⟨smallest,if_neg less,Or.inr rfl,Nat.not_lt.mp less,?_⟩
      intro old same
      cases same
      exact Nat.le_refl _

theorem smallest_some {loops : List NaturalLoop} {best : Option NaturalLoop}
    (found : loops.foldl smaller best = some loop) :
    (loop ∈ loops ∨ best = some loop) ∧ (∀ other ∈ loops, loop.body.length ≤ other.body.length) ∧
      ∀ old, best = some old → loop.body.length ≤ old.body.length := by
  induction loops generalizing best with
  | nil =>
    refine ⟨Or.inr found,by simp,?_⟩
    intro old same
    cases same.symm.trans found
    exact Nat.le_refl _
  | cons first rest ih =>
    obtain ⟨least,took,origin,least_first,least_old⟩ := smaller_some best first
    obtain ⟨source,others,after⟩ := ih found
    have below := after least took
    refine ⟨?_,?_,fun old same => Nat.le_trans below (least_old old same)⟩
    · rcases source with later | same
      · exact Or.inl (List.mem_cons_of_mem _ later)
      · cases took.symm.trans same
        cases origin with
        | inl taken => exact Or.inl (List.mem_cons.mpr (Or.inl taken))
        | inr kept => exact Or.inr kept
    · intro other member
      rcases List.mem_cons.mp member with same | member
      · exact same ▸ Nat.le_trans below least_first
      · exact others other member

theorem smallest_none {loops : List NaturalLoop} {best : Option NaturalLoop} :
    loops.foldl smaller best = none ↔ loops = [] ∧ best = none := by
  induction loops generalizing best with
  | nil => simp
  | cons first rest ih =>
    obtain ⟨least,took,_⟩ := smaller_some best first
    simp [ih,took]

theorem innermost_eq (forest : LoopForest) (block : BlockId) :
    forest.innermost? block = (forest.filter (·.contains block)).foldl smaller none := rfl

theorem mem_around : loop ∈ forest.filter (·.contains block) ↔ loop ∈ forest ∧ block ∈ loop.body := by
  rw [List.mem_filter,NaturalLoop.contains,decide_eq_true_eq]

theorem innermost_none : forest.innermost? block = none ↔ ∀ loop ∈ forest, block ∉ loop.body := by
  rw [innermost_eq,smallest_none,List.filter_eq_nil_iff]
  simp only [NaturalLoop.contains,decide_eq_true_eq,and_true]

theorem innermost_some (found : forest.innermost? block = some loop) :
    loop ∈ forest ∧ block ∈ loop.body ∧
      ∀ other ∈ forest, block ∈ other.body → loop.body.length ≤ other.body.length := by
  rw [innermost_eq] at found
  obtain ⟨source,least,_⟩ := smallest_some found
  obtain ⟨member,around⟩ := mem_around.mp (source.resolve_right (by simp))
  exact ⟨member,around,fun other known holds => least other (mem_around.mpr ⟨known,holds⟩)⟩

theorem compute_once (computed : compute graph graph.dominance graph.order = .ok forest) {one two : NaturalLoop}
    (first : one ∈ forest) (second : two ∈ forest) (same : one.header = two.header) : one = two := by
  have made {loop : NaturalLoop} (member : loop ∈ forest) :
      loopAt? graph graph.order (retreating graph graph.order) loop.header = some loop := by
    unfold compute at computed
    dsimp only at computed
    split at computed
    · cases computed
    · split at computed
      · cases computed
      · cases computed
        obtain ⟨header,_,found⟩ := List.mem_filterMap.mp member
        have at_ : loop.header = header := by
          unfold loopAt? at found
          split at found
          · cases found
          · cases found
            rfl
        exact at_ ▸ found
  have both := (made first).symm.trans (same ▸ made second)
  exact Option.some.inj both

theorem Natural.shorter_within {outer inner : NaturalLoop} (natural : Natural graph inner)
    (other : Natural graph outer) (apart : inner.header ≠ outer.header) (first : block ∈ inner.body)
    (second : block ∈ outer.body) (less : inner.body.length ≤ outer.body.length) : inner.Inside outer := by
  rcases natural.apart_or_inside other apart with disjoint | inside | ⟨sub,more,member,missing⟩
  · exact absurd second (disjoint block first)
  · exact inside
  · exact absurd (within_shorter other.body_once sub member missing) (Nat.not_lt.mpr less)

theorem innermost_iff (computed : compute graph graph.dominance graph.order = .ok forest)
    (complete : Complete graph forest) : forest.innermost? block = some loop ↔
      loop ∈ forest ∧ block ∈ loop.body ∧
        ∀ other ∈ forest, block ∈ other.body → ∀ node ∈ loop.body, node ∈ other.body := by
  -- What the search finds lies in every other loop around the block.
  have found_within {least : NaturalLoop} (found : forest.innermost? block = some least) :
      ∀ other ∈ forest, block ∈ other.body → ∀ node ∈ least.body, node ∈ other.body := by
    obtain ⟨member,around,smallest⟩ := innermost_some found
    intro other known holds node listed
    by_cases same : least.header = other.header
    · exact compute_once computed member known same ▸ listed
    · exact ((complete.natural least member).shorter_within (complete.natural other known) same around holds
        (smallest other known holds)).1 node listed
  constructor
  · intro found
    obtain ⟨member,around,_⟩ := innermost_some found
    exact ⟨member,around,found_within found⟩
  · intro ⟨member,around,within⟩
    cases found : forest.innermost? block with
    | none => exact absurd around (innermost_none.mp found loop member)
    | some least =>
      obtain ⟨known,holds,_⟩ := innermost_some found
      have natural := complete.natural loop member
      have other := complete.natural least known
      -- Each lies in the other, so each header dominates the other one.
      have below := other.header_dom (within least known holds _ natural.header_mem)
      have above := natural.header_dom (found_within found loop member around _ other.header_mem)
      rw [compute_once computed known member (below.antisymm above)]

-- Loops that are not refused are all found, with one way into each and properly nested.
theorem compute_nested (graph : BlockGraph)
    (accepted : ∀ block, compute graph graph.dominance graph.order ≠ .error (.irreducible block)) :
    ∃ forest, compute graph graph.dominance graph.order = .ok forest ∧ Nested graph forest := by
  rcases compute_cases graph with ⟨_,target,_,_,failed⟩ | ⟨forest,computed,complete⟩
  · exact absurd failed (accepted target)
  · refine ⟨forest,computed,fun loop member => (complete.natural loop member).singleEntry,complete.headed,?_,?_,
      fun block loop => innermost_iff computed complete,fun block => innermost_none⟩
    · intro one first two second same
      exact compute_once computed first second same
    · intro one first two second apart
      exact (complete.natural one first).apart_or_inside (complete.natural two second) apart

end LoopForest

def winding : BlockGraph :=
  ⟨[⟨[],.goto 1⟩,⟨[],.branch (.constant true) 2 5⟩,⟨[],.branch (.constant true) 3 4⟩,⟨[],.branch (.constant true) 2 1⟩,
    ⟨[],.goto 1⟩,⟨[],.ret none⟩],[],by decide⟩

theorem winding_nested :
    (∀ block, LoopForest.compute winding winding.dominance winding.order ≠ .error (.irreducible block)) ∧
      ∃ forest, LoopForest.compute winding winding.dominance winding.order = .ok forest ∧
        LoopForest.Nested winding forest := by
  have loops : LoopForest.compute winding winding.dominance winding.order =
      .ok [⟨1,[3,4],[1,2,3,4]⟩,⟨2,[3],[2,3]⟩] := by cbv
  have accepted : ∀ block, LoopForest.compute winding winding.dominance winding.order ≠
      .error (.irreducible block) := by
    intro block failed
    cases loops.symm.trans failed
  exact ⟨accepted,LoopForest.compute_nested winding accepted⟩

end Untangle
