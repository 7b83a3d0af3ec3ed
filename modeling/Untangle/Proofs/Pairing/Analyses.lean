import Mathlib.Data.List.Find
import Untangle.Proofs.Flow.Ordering

namespace Untangle
open Relation

section
variable {size : Nat} {next next' : Nat → List Nat} {pending seen : List Nat}
  (kept : Nat → Prop) (agree : ∀ node, kept node → next node = next' node)
  (closed : ∀ node, kept node → ∀ target ∈ next node, kept target)

include agree closed

theorem reach_congr (start : ∀ node ∈ pending, kept node) :
    reach size next pending seen = reach size next' pending seen := by
  fun_induction reach size next pending seen with
  | case1 seen => rw [reach]
  | case2 seen node rest fresh ih =>
    have here := start node List.mem_cons_self
    rw [reach,dif_pos fresh,← agree node here]
    refine ih fun target member => ?_
    rcases List.mem_append.mp member with leads | waits
    · exact closed node here target leads
    · exact start target (List.mem_cons_of_mem _ waits)
  | case3 seen node rest stale ih =>
    rw [reach,dif_neg stale]
    exact ih fun target member => start target (List.mem_cons_of_mem _ member)

theorem finish_congr {pending : List Visit} {finished : List Nat}
    (start : ∀ node, .enter node ∈ pending → kept node) :
    finish size next pending seen finished = finish size next' pending seen finished := by
  fun_induction finish size next pending seen finished with
  | case1 seen finished => rw [finish]
  | case2 seen finished node rest ih =>
    rw [finish]
    exact ih fun target member => start target (List.mem_cons_of_mem _ member)
  | case3 seen finished node rest fresh ih =>
    have here := start node List.mem_cons_self
    rw [finish,dif_pos fresh,← agree node here]
    refine ih fun target member => ?_
    rcases List.mem_append.mp member with leads | waits
    · obtain ⟨_,leads,same⟩ := List.mem_map.mp leads
      cases same
      exact closed node here target leads
    · rcases List.mem_cons.mp waits with impossible | waits
      · cases impossible
      · exact start target (List.mem_cons_of_mem _ waits)
  | case4 seen finished node rest stale ih =>
    rw [finish,dif_neg stale]
    exact ih fun target member => start target (List.mem_cons_of_mem _ member)

theorem Dominance.compute_congr {roots : List Nat} (start : ∀ node ∈ roots, kept node) :
    compute size next roots = compute size next' roots := by
  have without : Detours.avoiding size next roots = Detours.avoiding size next' roots := by
    funext node
    unfold Detours.avoiding
    refine reach_congr kept (fun id here => ?_) (fun id here target leads => ?_) fun root member => ?_
    · rw [agree id here]
    · exact closed id here target (List.mem_of_mem_filter leads)
    · exact start root (List.mem_of_mem_filter member)
  unfold compute Detours.compute
  rw [without,reach_congr kept agree closed start]

end

namespace BlockGraph

-- Two graphs of one size and with one exception table that have the same blocks wherever the entry or
-- a handler leads.
structure Alike (one two : BlockGraph) : Prop where
  size : one.size = two.size
  table : one.table = two.table
  blocks : ∀ block ∈ one.order, one.blocks[block]? = two.blocks[block]?

variable {one two : BlockGraph} {block source target : BlockId}

namespace Alike
variable (alike : Alike one two)
include alike

theorem terminator (listed : block ∈ one.order) : one.terminator block = two.terminator block := by
  unfold BlockGraph.terminator
  rw [alike.blocks block listed]

theorem statements (listed : block ∈ one.order) : one.statements block = two.statements block := by
  unfold BlockGraph.statements
  rw [alike.blocks block listed]

theorem successors (listed : block ∈ one.order) : one.successors block = two.successors block := by
  unfold BlockGraph.successors
  rw [alike.terminator listed]

theorem ids : one.ids = two.ids := by
  unfold BlockGraph.ids
  rw [alike.size]

theorem roots : one.roots = two.roots := by
  unfold BlockGraph.roots BlockGraph.handlerEntries BlockGraph.entry
  rw [alike.table]

theorem order : one.order = two.order := by
  unfold BlockGraph.order
  rw [alike.size,alike.roots]
  refine finish_congr (· ∈ one.order) (fun _ => alike.successors)
    (fun _ listed _ leads => order_step listed leads) fun node member => ?_
  obtain ⟨_,root,same⟩ := List.mem_map.mp member
  cases same
  exact one.roots_ordered node (alike.roots ▸ root)

theorem symm : Alike two one :=
  ⟨alike.size.symm,alike.table.symm,fun block listed => (alike.blocks block (alike.order ▸ listed)).symm⟩

theorem live : one.live = two.live := by
  unfold BlockGraph.live BlockGraph.handlersOf
  rw [alike.size,alike.table]
  refine reach_congr (· ∈ one.order) (fun _ listed => by rw [alike.successors listed]) ?_ ?_
  · intro node listed target leads
    rcases List.mem_append.mp leads with leads | handles
    · exact order_step listed leads
    · obtain ⟨row,covering,rfl⟩ := List.mem_map.mp handles
      exact handler_ordered (alike.table ▸ List.mem_of_mem_filter covering)
  · intro node member
    exact one.roots_ordered node (List.mem_cons.mpr (Or.inl (List.mem_singleton.mp member)))

theorem dominance : one.dominance = two.dominance := by
  unfold BlockGraph.dominance
  rw [alike.size,← alike.roots]
  exact Dominance.compute_congr (· ∈ one.order) (fun _ => alike.successors)
    (fun _ listed _ leads => order_step listed leads) one.roots_ordered

theorem predecessors (keep : BlockId → Bool) (ordered : ∀ source, keep source = true → source ∈ one.order)
    (block : BlockId) : (one.predecessors block).filter keep = (two.predecessors block).filter keep := by
  unfold BlockGraph.predecessors
  rw [List.filter_filter,List.filter_filter,alike.ids]
  refine List.filter_congr fun source _ => ?_
  cases kept : keep source with
  | false => rfl
  | true => rw [alike.successors (ordered source kept)]

theorem retreating : LoopForest.retreating one one.order = LoopForest.retreating two one.order := by
  unfold LoopForest.retreating
  rw [alike.ids]
  refine List.flatMap_congr fun source _ => ?_
  cases placed : position? one.order source with
  | none => rfl
  | some here => rw [alike.successors (LoopForest.position_some.mp placed).1]

theorem bodyOf (header : BlockId) (latches : List BlockId) :
    LoopForest.bodyOf one one.order header latches = LoopForest.bodyOf two one.order header latches := by
  have back (id : BlockId) :
      (one.predecessors id).filter (· ∈ one.order) = (two.predecessors id).filter (· ∈ one.order) :=
    alike.predecessors _ (fun _ => of_decide_eq_true) id
  unfold LoopForest.bodyOf
  simp only [back]
  rw [alike.ids,alike.size]

theorem loops : LoopForest.compute one one.dominance one.order = LoopForest.compute two two.dominance two.order := by
  have loopAt : LoopForest.loopAt? one one.order = LoopForest.loopAt? two one.order := by
    funext edges header
    unfold LoopForest.loopAt?
    simp only [alike.bodyOf,alike.ids]
  unfold LoopForest.compute
  rw [← alike.order,← alike.dominance,alike.retreating,loopAt,alike.ids]

theorem backward (also : BlockId → BlockId → Prop)
    (walk : ReflTransGen (fun middle source => Step one.size one.predecessors middle source ∧ also middle source)
      target source) (listed : source ∈ one.order) :
    target ∈ one.order ∧
      ReflTransGen (fun middle source => Step two.size two.predecessors middle source ∧ also middle source)
        target source := by
  induction walk with
  | refl => exact ⟨listed,.refl⟩
  | @tail middle source _ last ih =>
    obtain ⟨⟨inside,leads⟩,kept⟩ := last
    have onward := mem_predecessors.mp leads
    obtain ⟨ordered,walked⟩ := ih (order_step listed onward)
    refine ⟨ordered,walked.tail ⟨⟨alike.size ▸ inside,mem_predecessors.mpr ?_⟩,kept⟩⟩
    rwa [← alike.successors listed]

theorem backward_walk (walk : ReflTransGen (Step one.size one.predecessors) target source)
    (listed : source ∈ one.order) :
    target ∈ one.order ∧ ReflTransGen (Step two.size two.predecessors) target source := by
  obtain ⟨ordered,walked⟩ := alike.backward (fun _ _ => True)
    (ReflTransGen.mono (fun _ _ step => ⟨step,trivial⟩) _ _ walk) listed
  exact ⟨ordered,ReflTransGen.mono (fun _ _ step => step.1) _ _ walked⟩

theorem exits (listed : block ∈ one.order) (leaves : block ∈ one.exits) : block ∈ two.exits := by
  unfold BlockGraph.exits at *
  rw [List.mem_filter] at *
  rwa [← alike.ids,← alike.terminator listed]

theorem leaves (listed : block ∈ one.order) (reaches : Reaches one.size one.predecessors one.exits block) :
    Reaches two.size two.predecessors two.exits block := by
  obtain ⟨root,known,bound,walk⟩ := Reaches.iff_walk.mp reaches
  obtain ⟨ordered,walked⟩ := alike.backward_walk walk listed
  exact Reaches.iff_walk.mpr ⟨root,alike.exits ordered known,alike.size ▸ bound,walked⟩

theorem postDominates {above : BlockId} (listed : block ∈ one.order)
    (dominates : Dominates one.size one.predecessors one.exits above block) :
    above ∈ one.order ∧ Dominates two.size two.predecessors two.exits above block := by
  have ordered := (alike.backward_walk dominates.walk listed).1
  refine ⟨ordered,alike.leaves ordered dominates.above,alike.leaves listed dominates.below,?_⟩
  rintro root known bound ⟨apart,clear⟩
  obtain ⟨listed',walked⟩ := alike.symm.backward (fun _ source => source ≠ above) clear (alike.order ▸ listed)
  exact dominates.never root (alike.symm.exits listed' known) (alike.size ▸ bound) ⟨apart,walked⟩

theorem postImmediate (listed : block ∈ one.order) :
    one.postDominance.immediate? block = two.postDominance.immediate? block := by
  have dominates (above block : BlockId) (listed : block ∈ one.order) :
      (Detours.compute one.size one.predecessors one.exits).dominates above block =
        (Detours.compute two.size two.predecessors two.exits).dominates above block := by
    rw [Bool.eq_iff_iff,dominates_iff,dominates_iff]
    exact ⟨fun known => (alike.postDominates listed known).2,
      fun known => (alike.symm.postDominates (alike.order ▸ listed) known).2⟩
  have inside : block < one.size := (mem_order.mp listed).inside
  have strict : (Detours.compute one.size one.predecessors one.exits).strict block =
      (Detours.compute two.size two.predecessors two.exits).strict block := by
    unfold Detours.strict Detours.strictlyDominates
    simp only [dominates _ _ listed]
    rw [Detours.compute,Detours.compute,alike.size]
  unfold postDominance Dominance.compute
  rw [Dominance.immediate_ofDetours _ _ inside,Dominance.immediate_ofDetours _ _ (alike.size ▸ inside)]
  unfold Detours.closest?
  rw [strict]
  refine List.find?_congr fun closest member => List.all_congr rfl fun above => ?_
  have known : closest ∈ one.order := by
    rw [← strict] at member
    have above := (List.mem_filter.mp member).2
    unfold Detours.strictlyDominates at above
    rw [Bool.and_eq_true,dominates_iff] at above
    exact (alike.postDominates listed above.2).1
  exact dominates above closest known

end Alike
end BlockGraph
end Untangle
