import Untangle.Proofs.Flow.NaturalLoops

namespace Untangle
open Relation

namespace BlockGraph
variable {graph : BlockGraph} {block source target : BlockId}

-- What is left of the normal edges behind the roots without those back to a dominator.
def Lasting (graph : BlockGraph) (source target : BlockId) : Prop :=
  Reaches graph.size graph.successors graph.roots source ∧ target ∈ graph.successors source ∧
    ¬graph.Dom target source

-- A dominator comes first in the order, so no edge that leads forward goes back to one.
theorem Forward.lasting (forward : graph.Forward source target) (listed : source ∈ graph.order) :
    graph.Lasting source target := by
  refine ⟨mem_order.mp listed,forward.1.2,fun above => ?_⟩
  have later := forward.before
  by_cases same : target = source
  · exact Nat.lt_irrefl _ (same ▸ later)
  · exact Nat.lt_asymm later (dominator_before above same)

theorem forward_walk_lasting (walk : ReflTransGen graph.Forward source target) (listed : source ∈ graph.order) :
    target ∈ graph.order ∧ ReflTransGen graph.Lasting source target := by
  induction walk with
  | refl => exact ⟨listed,.refl⟩
  | tail _ last ih =>
    obtain ⟨here,walked⟩ := ih
    exact ⟨order_step here last.1.2,walked.tail (Forward.lasting last here)⟩

theorem retreat_lasts (retreats : graph.Retreats source target) (misses : ¬graph.Dom target source) :
    TransGen graph.Lasting target target := by
  obtain ⟨leads,listed,early⟩ := retreats
  have forward := retreat_cycles leads listed early
  have around := forward_walk_lasting forward (order_step listed leads)
  exact .tail' around.2 ⟨mem_order.mp listed,leads,misses⟩

theorem Lasting.before (back : ∀ source target, graph.Retreats source target → graph.Back source target)
    (lasting : graph.Lasting source target) : graph.order.idxOf source < graph.order.idxOf target := by
  obtain ⟨reached,leads,misses⟩ := lasting
  by_contra early
  exact misses (back source target ⟨leads,mem_order.mpr reached,Nat.not_lt.mp early⟩).2

theorem lasting_cycle_before (back : ∀ source target, graph.Retreats source target → graph.Back source target)
    (way : TransGen graph.Lasting source target) : graph.order.idxOf source < graph.order.idxOf target := by
  induction way with
  | single only => exact only.before back
  | tail _ last ih => exact Nat.lt_trans ih (last.before back)

end BlockGraph

namespace LoopForest
variable {graph : BlockGraph} {block : BlockId}

theorem irreducible_cycles (failed : compute graph graph.dominance graph.order = .error (.irreducible block)) :
    TransGen graph.Lasting block block := by
  rcases compute_cases graph with ⟨source,target,retreats,misses,computed⟩ | ⟨forest,computed,_⟩
  · rw [computed] at failed
    cases failed
    exact BlockGraph.retreat_lasts retreats misses
  · rw [computed] at failed
    cases failed

-- Loops are refused just where edges other than those back to a dominator close a cycle, whatever
-- order the blocks are visited in.
theorem compute_irreducible_iff (graph : BlockGraph) :
    (∃ block, compute graph graph.dominance graph.order = .error (.irreducible block)) ↔
      ∃ block, TransGen graph.Lasting block block := by
  constructor
  · rintro ⟨block,failed⟩
    exact ⟨block,irreducible_cycles failed⟩
  · rintro ⟨block,cycle⟩
    rcases compute_cases graph with ⟨_,target,_,_,computed⟩ | ⟨forest,_,complete⟩
    · exact ⟨target,computed⟩
    · exact absurd (BlockGraph.lasting_cycle_before complete.back cycle) (Nat.lt_irrefl _)

end LoopForest
end Untangle
