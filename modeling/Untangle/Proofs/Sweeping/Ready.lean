import Untangle.Proofs.Emission.Pending
import Untangle.Proofs.Flow.NaturalLoops
import Untangle.Structuring.LoopShape

namespace Untangle
open Relation

namespace BlockGraph
variable {graph : BlockGraph} {block source target above behind : BlockId} {taken wider : List BlockId}

def Rooted (graph : BlockGraph) (taken : List BlockId) : Prop :=
  ∀ block ∈ taken, block ∈ graph.order ∧ ∀ above, graph.Dom above block → above ∈ taken

def Ready (graph : BlockGraph) (taken : List BlockId) (block : BlockId) : Prop :=
  block ∈ graph.order ∧ ∀ above, graph.Dom above block → above ≠ block → above ∈ taken

theorem Rooted.take (rooted : graph.Rooted taken) (ready : graph.Ready taken block) :
    graph.Rooted (block :: taken) := by
  intro other member
  rcases List.mem_cons.mp member with rfl | member
  · refine ⟨ready.1,fun above dominates => ?_⟩
    by_cases same : above = other
    · exact same ▸ List.mem_cons_self
    · exact List.mem_cons_of_mem _ (ready.2 above dominates same)
  · exact ⟨(rooted other member).1,fun above dominates => List.mem_cons_of_mem _ ((rooted other member).2 above dominates)⟩

theorem Ready.more (ready : graph.Ready taken block) (sub : ∀ block ∈ taken, block ∈ wider) :
    graph.Ready wider block :=
  ⟨ready.1,fun above dominates apart => sub above (ready.2 above dominates apart)⟩

theorem Rooted.edge (rooted : graph.Rooted taken) (here : source ∈ taken) (leads : target ∈ graph.successors source) :
    graph.Ready taken target := by
  obtain ⟨listed,all⟩ := rooted source here
  refine ⟨order_step listed leads,fun above dominates apart => all above ?_⟩
  exact dominates.before (mem_order.mp listed) ⟨successor_inside leads,leads⟩ apart

theorem Rooted.child (rooted : graph.Rooted taken) (here : block ∈ taken)
    (found : graph.dominance.immediate? target = some block) : graph.Ready taken target := by
  obtain ⟨dominates,_,closest⟩ := Dominance.immediate_some found
  refine ⟨mem_order.mpr dominates.below,fun above higher apart => ?_⟩
  exact (rooted block here).2 above (closest above higher apart)

theorem clear_forward (inside : source < graph.size)
    (clear : Clear graph.size graph.predecessors above source target) :
    Clear graph.size graph.successors above target source := by
  obtain ⟨apart,walk⟩ := clear
  induction walk using ReflTransGen.head_induction_on with
  | refl => exact .stay apart
  | @head source middle leads rest ih =>
    exact (ih leads.1.1 leads.2).step ⟨inside,mem_predecessors.mp leads.1.2⟩ apart

theorem walk_forward (inside : source < graph.size)
    (walk : ReflTransGen (Step graph.size graph.predecessors) source target) :
    ReflTransGen (Step graph.size graph.successors) target source := by
  induction walk using ReflTransGen.head_induction_on with
  | refl => exact .refl
  | @head source middle leads rest ih => exact (ih leads.1).tail ⟨inside,mem_predecessors.mp leads.2⟩

theorem Rooted.post (rooted : graph.Rooted taken) (here : block ∈ taken)
    (found : graph.postDominance.immediate? block = some behind) : graph.Ready taken behind := by
  obtain ⟨dominates,_,_⟩ := Dominance.immediate_some found
  obtain ⟨listed,all⟩ := rooted block here
  have start := mem_order.mp listed
  refine ⟨mem_order.mpr (start.walk (walk_forward dominates.above.inside dominates.walk)),?_⟩
  intro above higher other
  refine all above ?_
  by_contra misses
  have differs : above ≠ block := by
    rintro rfl
    exact misses (.refl start)
  have onward := clear_forward dominates.above.inside (Dominance.immediate_direct found other differs)
  obtain ⟨root,known,bound,reaching⟩ := Dominates.missed higher.above start misses
  exact higher.never root known bound (reaching.trans onward)

end BlockGraph

def Outside (forest : LoopForest) (taken entered : List BlockId) (block : BlockId) : Prop :=
  ∀ loop ∈ forest, loop.header ∉ taken → loop.header ∉ entered → block ∈ loop.body → block = loop.header

open BlockGraph LoopForest
variable {graph : BlockGraph} {forest : LoopForest} {loop : NaturalLoop} {taken entered wider later : List BlockId}
  {block source exit latch : BlockId}

theorem Outside.more (outside : Outside forest taken entered block)
    (takenMore : ∀ block ∈ taken, block ∈ wider) (enteredMore : ∀ block ∈ entered, block ∈ later) :
    Outside forest wider later block :=
  fun loop member fresh unentered => outside loop member (fun known => fresh (takenMore _ known))
    fun known => unentered (enteredMore _ known)

theorem BlockGraph.Ready.outside (ready : graph.Ready taken block) (complete : Complete graph forest)
    (entered : List BlockId) : Outside forest taken entered block := by
  intro loop member fresh _ within
  by_contra apart
  exact fresh (ready.2 _ ((complete.natural loop member).header_dom within) fun same => apart same.symm)

theorem BlockGraph.Rooted.fresh_body (rooted : graph.Rooted taken) (natural : Natural graph loop)
    (fresh : loop.header ∉ taken) (within : block ∈ loop.body) : block ∉ taken :=
  fun known => fresh ((rooted block known).2 _ (natural.header_dom within))

theorem outside_exit (complete : Complete graph forest) (member : loop ∈ forest) (ready : graph.Ready taken loop.header)
    (known : loop.header ∈ entered) (within : source ∈ loop.body) (leads : exit ∈ graph.successors source)
    (leaves : exit ∉ loop.body) : Outside forest taken entered exit := by
  intro other listed fresh unentered inside
  by_contra apart
  have natural := complete.natural loop member
  have second := complete.natural other listed
  have above := natural.header_dom within
  have dominates := (second.header_dom inside).before above.below ⟨successor_inside leads,leads⟩
    fun same => apart same.symm
  have different : other.header ≠ loop.header := fun same => unentered (same ▸ known)
  rcases dominates.linear above with higher | lower
  · exact fresh (ready.2 _ higher different)
  · exact leaves (natural.nested second (natural.between lower dominates within) inside)

theorem outside_latch (complete : Complete graph forest) (member : loop ∈ forest) (ready : graph.Ready taken loop.header)
    (known : loop.header ∈ entered) (within : latch ∈ loop.body)
    (only : ∀ target ∈ graph.successors latch, target = loop.header ∨ target ∉ loop.body) :
    Outside forest taken entered latch := by
  intro other listed fresh unentered inside
  by_contra apart
  have natural := complete.natural loop member
  have second := complete.natural other listed
  have above := natural.header_dom within
  have dominates := second.header_dom inside
  have different : other.header ≠ loop.header := fun same => unentered (same ▸ known)
  rcases dominates.linear above with higher | lower
  · exact fresh (ready.2 _ higher different)
  have nested := natural.between lower dominates within
  have away : loop.header ∉ other.body := fun swapped =>
    different ((second.header_dom swapped).antisymm lower)
  -- Wherever the latch leads, it is the header of the outer loop or out of both loops.
  have escapes (target : BlockId) (leads : target ∈ graph.successors latch) : target ∉ other.body := by
    rcases only target leads with rfl | leaves
    · exact away
    · exact fun swapped => leaves (natural.nested second nested swapped)
  obtain same | ⟨_,back,closing,clear⟩ := second.mem_body.mp inside
  · exact apart same
  obtain same | ⟨middle,step,rest⟩ := clear.2.cases_head
  · exact escapes other.header (same ▸ closing.1) second.header_mem
  · refine escapes middle step.1.2 (second.mem_body.mpr (Or.inr ⟨?_,back,closing,step.2,rest⟩))
    exact order_step (mem_order.mpr above.below) step.1.2

theorem body_taken (natural : Natural graph loop) (header : loop.header ∈ taken)
    (onward : ∀ block ∈ taken, block ∈ loop.body → ∀ target ∈ graph.successors block, target ∈ loop.body →
      target ∈ taken) (within : block ∈ loop.body) : block ∈ taken := by
  have reaching := (natural.header_dom within).walk
  by_cases same : block = loop.header
  · exact same ▸ header
  obtain ⟨first,leads,apart,walk⟩ := leaves_last reaching same
  have inner : ∀ {node : BlockId}, node ∈ graph.order → node ≠ loop.header →
      ReflTransGen (fun one two => Step graph.size graph.successors one two ∧ two ≠ loop.header) node block →
      node ∈ loop.body := fun listed other rest => natural.before listed within ⟨other,rest⟩
  have listed : first ∈ graph.order :=
    order_step (mem_order.mpr (natural.header_dom within).above) leads.2
  have start : first ∈ taken := onward _ header natural.header_mem first leads.2 (inner listed apart walk)
  clear leads
  induction walk using ReflTransGen.head_induction_on with
  | refl => exact start
  | @head node middle step rest ih =>
    have further := order_step listed step.1.2
    have here := inner listed apart (.head step rest)
    have there := inner further step.2 rest
    exact ih step.2 further (onward node start here middle step.1.2 there)

end Untangle
