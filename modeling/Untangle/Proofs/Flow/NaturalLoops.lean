import Untangle.Proofs.Flow.Finishing

namespace Untangle
open Relation

namespace BlockGraph

abbrev Dom (graph : BlockGraph) (above block : BlockId) : Prop :=
  Dominates graph.size graph.successors graph.roots above block

def Back (graph : BlockGraph) (source target : BlockId) : Prop :=
  target ∈ graph.successors source ∧ graph.Dom target source

-- An edge that does not lead forward in the order.
def Retreats (graph : BlockGraph) (source target : BlockId) : Prop :=
  target ∈ graph.successors source ∧ source ∈ graph.order ∧
    graph.order.idxOf target ≤ graph.order.idxOf source

variable {graph : BlockGraph} {source target : BlockId}

theorem mem_predecessors : source ∈ graph.predecessors target ↔ target ∈ graph.successors source := by
  unfold predecessors
  rw [List.mem_filter,mem_ids,decide_eq_true_eq]
  refine ⟨fun known => known.2,fun leads => ⟨?_,leads⟩⟩
  by_contra outside
  unfold successors terminator at leads
  rw [List.getElem?_eq_none (Nat.not_lt.mp outside)] at leads
  cases leads

theorem order_step (listed : source ∈ graph.order) (leads : target ∈ graph.successors source) :
    target ∈ graph.order :=
  mem_order.mpr (.edge (mem_order.mp listed) (successor_inside leads) leads)

theorem dominance_iff : graph.dominance.dominates source target = true ↔ graph.Dom source target := dominates_iff

theorem Back.retreats (back : graph.Back source target) : graph.Retreats source target := by
  refine ⟨back.1,mem_order.mpr back.2.below,?_⟩
  by_cases same : target = source
  · exact Nat.le_of_eq (same ▸ rfl)
  · exact Nat.le_of_lt (dominator_before back.2 same)

end BlockGraph

namespace LoopForest
variable {graph : BlockGraph} {source target : BlockId} {forest : LoopForest} {loop : NaturalLoop}

theorem position_some {order : List BlockId} {id : BlockId} {here : Nat} :
    BlockGraph.position? order id = some here ↔ id ∈ order ∧ order.idxOf id = here := by
  unfold BlockGraph.position?
  by_cases listed : id ∈ order
  · obtain ⟨place,found⟩ := Option.isSome_iff_exists.mp (List.isSome_idxOf?.mpr listed)
    rw [List.idxOf_eq_getD_idxOf?,found,Option.getD_some,Option.some.injEq]
    exact ⟨fun same => ⟨listed,same⟩,fun known => known.2⟩
  · rw [List.idxOf?_eq_none_iff.mpr listed]
    exact ⟨fun impossible => (by cases impossible),fun known => absurd known.1 listed⟩

theorem mem_retreating : (source,target) ∈ retreating graph graph.order ↔ graph.Retreats source target := by
  unfold retreating BlockGraph.Retreats
  rw [List.mem_flatMap]
  constructor
  · rintro ⟨from_,_,member⟩
    split at member
    · cases member
    · rename_i here placed
      obtain ⟨to_,chosen,same⟩ := List.mem_map.mp member
      cases same
      obtain ⟨leads,early⟩ := List.mem_filter.mp chosen
      obtain ⟨listed,rfl⟩ := position_some.mp placed
      split at early
      · cases early
      · rename_i there found
        obtain ⟨_,rfl⟩ := position_some.mp found
        exact ⟨leads,listed,of_decide_eq_true early⟩
  · rintro ⟨leads,listed,early⟩
    refine ⟨source,BlockGraph.mem_ids.mpr (BlockGraph.mem_order.mp listed).inside,?_⟩
    rw [position_some.mpr ⟨listed,rfl⟩]
    refine List.mem_map.mpr ⟨target,List.mem_filter.mpr ⟨leads,?_⟩,rfl⟩
    rw [position_some.mpr ⟨BlockGraph.order_step listed leads,rfl⟩]
    exact decide_eq_true early

theorem mem_bodyOf {header node : BlockId} {latches : List BlockId} (inside : header < graph.size)
    (ordered : ∀ latch ∈ latches, latch ∈ graph.order) :
    node ∈ bodyOf graph graph.order header latches ↔ node = header ∨
      node ∈ graph.order ∧ ∃ latch ∈ latches, Clear graph.size graph.successors header node latch := by
  unfold bodyOf
  dsimp only
  rw [List.mem_filter,decide_eq_true_eq,mem_reach_walled,List.mem_singleton,Reaches.iff_walk]
  constructor
  · rintro ⟨-,rfl | ⟨latch,member,bound,walk⟩⟩
    · exact Or.inl rfl
    · obtain ⟨listed,apart⟩ := List.mem_filter.mp member
      have other : latch ≠ header := by simpa using apart
      refine Or.inr ?_
      have all : node ∈ graph.order ∧ node < graph.size ∧ Clear graph.size graph.successors header node latch := by
        induction walk with
        | refl => exact ⟨ordered latch listed,bound,.stay other⟩
        | @tail middle node _ last ih =>
          obtain ⟨within,leads⟩ := last
          obtain ⟨leads,apart⟩ := List.mem_filter.mp leads
          obtain ⟨back,known⟩ := List.mem_filter.mp leads
          have step : Step graph.size graph.successors node middle := ⟨ih.2.1,BlockGraph.mem_predecessors.mp back⟩
          exact ⟨of_decide_eq_true known,within,.after (by simpa using apart) step ih.2.2⟩
      exact ⟨all.1,latch,listed,all.2.2⟩
  · rintro (rfl | ⟨known,latch,listed,clear⟩)
    · exact ⟨BlockGraph.mem_ids.mpr inside,Or.inl rfl⟩
    · have bound {node : BlockId} (known : node ∈ graph.order) : node < graph.size :=
        (BlockGraph.mem_order.mp known).inside
      refine ⟨BlockGraph.mem_ids.mpr (bound known),Or.inr
        ⟨latch,List.mem_filter.mpr ⟨listed,by simpa using clear.apart⟩,bound (ordered latch listed),?_⟩⟩
      obtain ⟨apart,walk⟩ := clear
      clear listed
      induction walk using ReflTransGen.head_induction_on with
      | refl => exact .refl
      | @head node middle leads _ ih =>
        refine (ih (BlockGraph.order_step known leads.1.2) leads.2).tail ⟨bound known,?_⟩
        exact List.mem_filter.mpr ⟨List.mem_filter.mpr
          ⟨BlockGraph.mem_predecessors.mpr leads.1.2,decide_eq_true known⟩,by simpa using apart⟩

structure Natural (graph : BlockGraph) (loop : NaturalLoop) : Prop where
  latches : ∀ source, source ∈ loop.latches ↔ graph.Back source loop.header
  closes : ∃ latch, latch ∈ loop.latches
  gathers : loop.body = bodyOf graph graph.order loop.header loop.latches

namespace Natural
variable {inner : NaturalLoop} {node a : BlockId}

theorem mem_body (natural : Natural graph loop) : node ∈ loop.body ↔ node = loop.header ∨
    node ∈ graph.order ∧ ∃ latch, graph.Back latch loop.header ∧
      Clear graph.size graph.successors loop.header node latch := by
  obtain ⟨latch,closing⟩ := natural.closes
  have inside := ((natural.latches latch).mp closing).2.above.inside
  have ordered : ∀ latch ∈ loop.latches, latch ∈ graph.order := fun latch listed =>
    BlockGraph.mem_order.mpr ((natural.latches latch).mp listed).2.below
  simp only [natural.gathers,mem_bodyOf inside ordered,natural.latches]

theorem header_mem (natural : Natural graph loop) : loop.header ∈ loop.body := natural.mem_body.mpr (Or.inl rfl)

theorem header_dom (natural : Natural graph loop) (member : node ∈ loop.body) : graph.Dom loop.header node := by
  rcases natural.mem_body.mp member with rfl | ⟨listed,latch,back,clear⟩
  · obtain ⟨latch,closing⟩ := natural.closes
    exact .refl ((natural.latches latch).mp closing).2.above
  · refine ⟨back.2.above,BlockGraph.mem_order.mp listed,fun root known bound missed => ?_⟩
    exact back.2.never root known bound (missed.trans clear)

theorem latch_mem (natural : Natural graph loop) (latch : node ∈ loop.latches) : node ∈ loop.body := by
  have back := (natural.latches node).mp latch
  by_cases same : node = loop.header
  · exact same ▸ natural.header_mem
  · exact natural.mem_body.mpr (Or.inr ⟨BlockGraph.mem_order.mpr back.2.below,node,back,.stay same⟩)

theorem live (natural : Natural graph loop) (header : loop.header ∈ graph.live) (member : node ∈ loop.body) :
    node ∈ graph.live := by
  have below := natural.header_dom member
  exact BlockGraph.live_walk header
    (Reaches.iff_walk.mpr ⟨_,List.mem_singleton.mpr rfl,below.above.inside,below.walk⟩)

theorem before (natural : Natural graph loop) (listed : a ∈ graph.order) (member : node ∈ loop.body)
    (clear : Clear graph.size graph.successors loop.header a node) : a ∈ loop.body := by
  rcases natural.mem_body.mp member with rfl | ⟨_,latch,back,onward⟩
  · exact absurd rfl clear.apart
  · exact natural.mem_body.mpr (Or.inr ⟨listed,latch,back,clear.trans onward⟩)

theorem between (natural : Natural graph loop) (above : graph.Dom loop.header a) (below : graph.Dom a node)
    (member : node ∈ loop.body) : a ∈ loop.body := by
  by_cases same : a = loop.header
  · exact same ▸ natural.header_mem
  by_cases here : node = loop.header
  · exact absurd ((here ▸ below).antisymm above) same
  obtain ⟨first,leads,clear⟩ := leaves_last (natural.header_dom member).walk here
  rcases clear.through a with missed | onward
  · have higher : ¬graph.Dom a loop.header := fun upward => same (upward.antisymm above)
    obtain ⟨root,known,bound,start⟩ := Dominates.missed above.below above.above higher
    exact absurd ((start.step leads missed.1).trans missed) (below.never root known bound)
  · exact natural.before (BlockGraph.mem_order.mpr above.below) member onward

theorem nested (outer : Natural graph loop) (natural : Natural graph inner) (within : inner.header ∈ loop.body)
    (member : node ∈ inner.body) : node ∈ loop.body := by
  rcases natural.mem_body.mp member with rfl | ⟨listed,latch,back,clear⟩
  · exact within
  by_cases same : inner.header = loop.header
  · exact outer.mem_body.mpr (Or.inr ⟨listed,latch,same ▸ back,same ▸ clear⟩)
  rcases clear.through loop.header with missed | onward
  · exact outer.before listed within (missed.step ⟨back.2.above.inside,back.1⟩ same)
  · have above := outer.header_dom within
    have swapped : loop.header ∈ inner.body :=
      natural.mem_body.mpr (Or.inr ⟨BlockGraph.mem_order.mpr above.above,latch,back,onward⟩)
    exact absurd ((natural.header_dom swapped).antisymm above) same

theorem meet (outer : Natural graph loop) (natural : Natural graph inner) (first : node ∈ loop.body)
    (second : node ∈ inner.body) : inner.header ∈ loop.body ∨ loop.header ∈ inner.body := by
  have one := outer.header_dom first
  have two := natural.header_dom second
  rcases one.linear two with above | above
  · exact Or.inl (outer.between above two first)
  · exact Or.inr (natural.between above one second)

theorem body_once (natural : Natural graph loop) : loop.body.Nodup := by
  rw [natural.gathers]
  exact List.nodup_range.filter _

theorem shared_all (outer : Natural graph loop) (natural : Natural graph inner) :
    (loop.header ∈ inner.body → loop.shared inner = loop.body.length) ∧
      (inner.header ∈ loop.body → loop.shared inner = inner.body.length) := by
  refine ⟨fun within => ?_,fun within => ?_⟩
  · unfold NaturalLoop.shared
    rw [List.filter_eq_self.mpr fun node member => decide_eq_true (natural.nested outer within member)]
  · refine List.Perm.length_eq ?_
    refine (List.perm_ext_iff_of_nodup (outer.body_once.filter _) natural.body_once).mpr fun node => ?_
    rw [List.mem_filter,decide_eq_true_eq]
    exact ⟨fun known => known.2,fun known => ⟨outer.nested natural within known,known⟩⟩

theorem nests (outer : Natural graph loop) (natural : Natural graph inner) : loop.nests inner = true := by
  unfold NaturalLoop.nests
  simp only [Bool.or_eq_true,beq_iff_eq]
  by_cases common : ∃ node ∈ loop.body, node ∈ inner.body
  · obtain ⟨node,first,second⟩ := common
    rcases outer.meet natural first second with within | within
    · exact Or.inr ((outer.shared_all natural).2 within)
    · exact Or.inl (Or.inr ((outer.shared_all natural).1 within))
  · refine Or.inl (Or.inl (List.length_eq_zero_iff.mpr (List.filter_eq_nil_iff.mpr fun node first second => ?_)))
    exact common ⟨node,first,of_decide_eq_true second⟩

end Natural

-- All loops of a graph, where every edge that does not lead forward closes one.
structure Complete (graph : BlockGraph) (forest : LoopForest) : Prop where
  natural : ∀ loop ∈ forest, Natural graph loop
  back : ∀ source target, graph.Retreats source target → graph.Back source target
  headed : ∀ source header, graph.Back source header → ∃ loop ∈ forest, loop.header = header

theorem loopAt_natural (back : ∀ source target, graph.Retreats source target → graph.Back source target)
    {header : BlockId} (found : loopAt? graph graph.order (retreating graph graph.order) header = some loop) :
    loop.header = header ∧ Natural graph loop := by
  unfold loopAt? at found
  split at found
  · cases found
  · rename_i latches closes
    cases found
    have closing (source : BlockId) : source ∈ graph.ids.filter (fun source =>
        decide ((source,header) ∈ retreating graph graph.order)) ↔ graph.Back source header := by
      rw [List.mem_filter,decide_eq_true_eq,mem_retreating]
      refine ⟨fun known => back _ _ known.2,fun known => ⟨?_,known.retreats⟩⟩
      exact BlockGraph.mem_ids.mpr known.2.below.inside
    exact ⟨rfl,closing,List.exists_mem_of_ne_nil _ closes,rfl⟩

theorem overlap_none {loops : List NaturalLoop} (natural : ∀ loop ∈ loops, Natural graph loop) :
    overlap? loops = none := by
  induction loops with
  | nil => rfl
  | cons outer rest ih =>
    unfold overlap?
    split
    · rename_i inner found
      have fails := List.find?_some found
      have both := (natural outer List.mem_cons_self).nests
        (natural inner (List.mem_cons_of_mem _ (List.mem_of_find?_eq_some found)))
      simp [both] at fails
    · exact ih fun loop member => natural loop (List.mem_cons_of_mem _ member)

theorem compute_cases (graph : BlockGraph) :
    (∃ source target, graph.Retreats source target ∧ ¬graph.Dom target source ∧
      compute graph graph.dominance graph.order = .error (.irreducible target)) ∨
    ∃ forest, compute graph graph.dominance graph.order = .ok forest ∧ Complete graph forest := by
  unfold compute
  dsimp only
  split
  · rename_i source target found
    have retreats := mem_retreating.mp (List.mem_of_find?_eq_some found)
    have misses := List.find?_some found
    refine Or.inl ⟨source,target,retreats,fun dominates => ?_,rfl⟩
    simp [BlockGraph.dominance_iff.mpr dominates] at misses
  · rename_i sound
    have back (source target : BlockId) (retreats : graph.Retreats source target) : graph.Back source target := by
      have dominates := List.find?_eq_none.mp sound _ (mem_retreating.mpr retreats)
      refine ⟨retreats.1,BlockGraph.dominance_iff.mp ?_⟩
      simpa using dominates
    have natural : ∀ loop ∈ graph.ids.filterMap (loopAt? graph graph.order (retreating graph graph.order)),
        Natural graph loop := by
      intro loop member
      obtain ⟨header,_,found⟩ := List.mem_filterMap.mp member
      exact (loopAt_natural back found).2
    rw [overlap_none natural]
    refine Or.inr ⟨_,rfl,natural,back,fun source header closing => ?_⟩
    have inside : header ∈ graph.ids := BlockGraph.mem_ids.mpr closing.2.above.inside
    have listed : source ∈ graph.ids.filter fun source =>
        decide ((source,header) ∈ retreating graph graph.order) :=
      List.mem_filter.mpr ⟨BlockGraph.mem_ids.mpr closing.2.below.inside,
        decide_eq_true (mem_retreating.mpr closing.retreats)⟩
    have some : ∃ loop, loopAt? graph graph.order (retreating graph graph.order) header = some loop := by
      unfold loopAt?
      split
      · rename_i none
        rw [none] at listed
        cases listed
      · exact ⟨_,rfl⟩
    obtain ⟨loop,found⟩ := some
    exact ⟨loop,List.mem_filterMap.mpr ⟨header,inside,found⟩,(loopAt_natural back found).1⟩

end LoopForest
end Untangle
