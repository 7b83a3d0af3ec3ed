import Untangle.Proofs.Flow.NaturalLoops

namespace Untangle
open Relation

namespace BlockGraph
variable {graph : BlockGraph} {block source target : BlockId} {order : List BlockId}

theorem handler_ordered {row : ProtectedRange} (member : row ∈ graph.table) : row.handler ∈ graph.order :=
  mem_order.mpr (.root (handler_inside member).handled
    (List.mem_cons_of_mem _ (mem_handlerEntries.mpr ⟨row,member,rfl⟩)))

theorem entry_ordered (graph : BlockGraph) : graph.entry ∈ graph.order :=
  mem_order.mpr (.root graph.entry_inside List.mem_cons_self)

theorem roots_ordered (graph : BlockGraph) : ∀ root ∈ graph.roots, root ∈ graph.order := by
  intro root member
  rcases List.mem_cons.mp member with rfl | handler
  · exact graph.entry_ordered
  · obtain ⟨row,listed,rfl⟩ := mem_handlerEntries.mp handler
    exact handler_ordered listed

theorem live_ordered (lives : block ∈ graph.live) : block ∈ graph.order := by
  have reaches := mem_live.mp lives
  induction reaches with
  | root _ member =>
    cases List.mem_singleton.mp member
    exact graph.entry_ordered
  | edge earlier _ leads ih =>
    rcases List.mem_append.mp leads with leads | handles
    · exact order_step (ih (mem_live.mpr earlier)) leads
    · obtain ⟨row,covering,rfl⟩ := List.mem_map.mp handles
      exact handler_ordered (List.mem_of_mem_filter covering)

def Leads (graph : BlockGraph) (source target : BlockId) : Prop := target ∈ graph.successors source

def Starts (graph : BlockGraph) (block : BlockId) : Prop :=
  block = graph.entry ∨ ∃ row ∈ graph.table, row.handler = block

theorem mem_roots : block ∈ graph.roots ↔ graph.Starts block := by
  unfold roots Starts
  rw [List.mem_cons,mem_handlerEntries]

-- An edge never leaves the graph, so walks need no bounds.
theorem step_iff_leads : Step graph.size graph.successors source target ↔ graph.Leads source target :=
  ⟨fun step => step.2,fun leads => ⟨successor_inside leads,leads⟩⟩

theorem walk_iff_leads :
    ReflTransGen (Step graph.size graph.successors) source target ↔ ReflTransGen graph.Leads source target := by
  have same : Step graph.size graph.successors = graph.Leads := by
    funext source target
    exact propext step_iff_leads
  rw [same]

theorem mem_order_iff_leads :
    block ∈ graph.order ↔ ∃ root, graph.Starts root ∧ ReflTransGen graph.Leads root block := by
  rw [mem_order,Reaches.iff_walk]
  constructor
  · rintro ⟨root,known,_,walk⟩
    exact ⟨root,mem_roots.mp known,walk_iff_leads.mp walk⟩
  · rintro ⟨root,starts,walk⟩
    have known := mem_roots.mpr starts
    exact ⟨root,known,(mem_order.mp (graph.roots_ordered root known)).inside,walk_iff_leads.mpr walk⟩

theorem position_iff_at (once : order.Nodup) {place : Nat} :
    position? order block = some place ↔ order[place]? = some block := by
  rw [LoopForest.position_some]
  constructor
  · rintro ⟨listed,rfl⟩
    exact List.getElem?_idxOf listed
  · intro at_
    obtain ⟨inside,rfl⟩ := List.getElem?_eq_some_iff.mp at_
    exact ⟨List.getElem_mem inside,once.idxOf_getElem place inside⟩

theorem forward_leads (walk : ReflTransGen graph.Forward source target) : ReflTransGen graph.Leads source target :=
  ReflTransGen.mono (fun _ _ forward => forward.1.2) _ _ walk

-- What it is to list the blocks of a graph in reverse post-order, and to know where each one stands.
structure ReversePostOrder (graph : BlockGraph) (order : List BlockId) : Prop where
  -- All blocks that normal edges lead to from where control may start, and no others, each of them once.
  lists : ∀ block, block ∈ order ↔ ∃ root, graph.Starts root ∧ ReflTransGen graph.Leads root block
  once : order.Nodup
  -- The position of a block is where it stands, and a block that is not listed has none.
  places : ∀ block place, position? order block = some place ↔ order[place]? = some block
  unplaced : ∀ block, position? order block = none ↔ block ∉ order
  -- An edge that does not lead to a later block closes a cycle.
  cycles : ∀ source target here there, graph.Leads source target → position? order source = some here →
    position? order target = some there → there ≤ here → ReflTransGen graph.Leads target source
  -- So where there are no cycles, all edges lead to later blocks.
  sorts : (∀ block ∈ order, ¬TransGen graph.Leads block block) →
    ∀ source target here there, graph.Leads source target → position? order source = some here →
      position? order target = some there → here < there
  -- Blocks that control comes to when exceptions are thrown as well are all among them.
  live : ∀ block, graph.isLive block = true → block ∈ order

theorem order_cycles {here there : Nat} (leads : graph.Leads source target)
    (placed : position? graph.order source = some here) (found : position? graph.order target = some there)
    (early : there ≤ here) : ReflTransGen graph.Leads target source := by
  obtain ⟨listed,rfl⟩ := LoopForest.position_some.mp placed
  obtain ⟨_,rfl⟩ := LoopForest.position_some.mp found
  exact forward_leads (retreat_cycles leads listed early)

theorem order_reversePostOrder (graph : BlockGraph) : graph.ReversePostOrder graph.order where
  lists _ := mem_order_iff_leads
  once := graph.order_once
  places _ _ := position_iff_at graph.order_once
  unplaced _ := List.idxOf?_eq_none_iff
  cycles _ _ _ _ := order_cycles
  sorts acyclic source target here there leads placed found := by
    by_contra early
    have back := order_cycles leads placed found (Nat.not_lt.mp early)
    exact acyclic target (LoopForest.position_some.mp found).1 (.tail' back leads)
  live _ lives := live_ordered (of_decide_eq_true lives)

end BlockGraph
end Untangle
