import Untangle.Proofs.Emission.Causes
import Untangle.Proofs.Emission.Inversion
import Untangle.Proofs.Flow.NaturalLoops

namespace Untangle
open Relation

namespace TryRegion

theorem addClause_error {row : ProtectedRange} {clauses : List CatchGroup} {cause : StructureError}
    (failed : addClause row clauses = .error cause) : cause = .interleavedHandlers row.handler := by
  fun_induction addClause row clauses with
  | case1 => cases failed
  | case2 => cases failed
  | case3 => cases failed
  | case4 =>
    cases failed
    rfl
  | case5 group rest _ _ ih =>
    cases more : addClause row rest with
    | error fault =>
      rw [more] at failed
      cases failed
      exact ih more
    | ok others =>
      rw [more] at failed
      cases failed

theorem addRow_error {row : ProtectedRange} {regions : List TryRegion} {cause : StructureError}
    (failed : addRow row regions = .error cause) : cause = .interleavedHandlers row.handler := by
  fun_induction addRow row regions with
  | case1 => cases failed
  | case2 region rest _ =>
    cases more : addClause row region.clauses with
    | error fault =>
      rw [more] at failed
      cases failed
      exact addClause_error more
    | ok clauses =>
      rw [more] at failed
      cases failed
  | case3 region rest _ ih =>
    cases more : addRow row rest with
    | error fault =>
      rw [more] at failed
      cases failed
      exact ih more
    | ok others =>
      rw [more] at failed
      cases failed

theorem group_error {table : List ProtectedRange} {cause : StructureError}
    (failed : group table = .error cause) :
    ∃ block, cause = .interleavedHandlers block ∨ cause = .overlappingHandlers block := by
  have rows {regions : List TryRegion} (fails : table.foldlM (fun regions row => addRow row regions) regions =
      .error cause) : ∃ block, cause = .interleavedHandlers block := by
    clear failed
    induction table generalizing regions with
    | nil => cases fails
    | cons row rest ih =>
      rw [List.foldlM_cons] at fails
      cases added : addRow row regions with
      | error fault =>
        rw [added] at fails
        cases fails
        exact ⟨row.handler,addRow_error added⟩
      | ok regions =>
        rw [added] at fails
        exact ih fails
  unfold group at failed
  cases folded : table.foldlM (fun regions row => addRow row regions) [] with
  | error fault =>
    rw [folded] at failed
    cases failed
    obtain ⟨block,same⟩ := rows folded
    exact ⟨block,Or.inl same⟩
  | ok regions =>
    rw [folded] at failed
    dsimp only [bind,Except.bind] at failed
    split at failed
    · rename_i block _
      cases failed
      exact ⟨block,Or.inr rfl⟩
    · cases failed

end TryRegion

namespace Survey

theorem make_error {graph : BlockGraph} {settings : StructuringSettings} {cause : StructureError}
    (failed : Survey.make graph settings = .error cause) :
    (∃ source target, graph.Retreats source target ∧ ¬graph.Dom target source ∧ cause = .irreducible target) ∨
      (TryRegion.group graph.table = .error cause ∧
        ∃ block, cause = .interleavedHandlers block ∨ cause = .overlappingHandlers block) := by
  unfold make at failed
  dsimp only at failed
  rcases LoopForest.compute_cases graph with ⟨source,target,retreats,misses,computed⟩ | ⟨forest,computed,_⟩
  · rw [computed] at failed
    cases failed
    exact Or.inl ⟨source,target,retreats,misses,rfl⟩
  · rw [computed] at failed
    cases grouped : TryRegion.group graph.table with
    | error fault =>
      rw [grouped] at failed
      cases failed
      exact Or.inr ⟨rfl,TryRegion.group_error grouped⟩
    | ok regions =>
      rw [grouped] at failed
      cases failed

end Survey

namespace BlockGraph

-- What may come right after a block: where it jumps to, and the handlers that protect it.
def onward (graph : BlockGraph) (id : BlockId) : List BlockId := graph.successors id ++ graph.handlersOf id

-- Dominance as the unit runs: from its entry alone, and along exception edges too.
abbrev FlowDom (graph : BlockGraph) (above block : BlockId) : Prop :=
  Dominates graph.size graph.onward [graph.entry] above block

def Advances (graph : BlockGraph) (source target : BlockId) : Prop :=
  source ∈ graph.live ∧ Step graph.size graph.onward source target ∧ ¬graph.FlowDom target source

def Reducible (graph : BlockGraph) : Prop := ∀ block, ¬TransGen graph.Advances block block

-- Every handler protects something live, and comes into a cycle of normal edges only where the cycle
-- is entered anyway.
structure Rejoins (graph : BlockGraph) : Prop where
  live : ∀ handler ∈ graph.handlerEntries, handler ∈ graph.live
  headed : ∀ source target, target ∈ graph.successors source → graph.FlowDom target source →
    ReflTransGen (Step graph.size graph.successors) target source →
    ∀ handler ∈ graph.handlerEntries, ¬Clear graph.size graph.successors target handler source

variable {graph : BlockGraph} {block source target : BlockId}

theorem order_live (rejoins : graph.Rejoins) (listed : block ∈ graph.order) : block ∈ graph.live := by
  obtain ⟨root,known,bound,walk⟩ := Reaches.iff_walk.mp (mem_order.mp listed)
  have start : root ∈ graph.live := by
    rcases List.mem_cons.mp known with rfl | handler
    · exact graph.live_entry
    · exact rejoins.live root handler
  exact live_walk start (Reaches.iff_walk.mpr ⟨root,List.mem_singleton.mpr rfl,bound,walk⟩)

theorem Rejoins.dom (rejoins : graph.Rejoins) (leads : target ∈ graph.successors source)
    (above : graph.FlowDom target source)
    (cycle : ReflTransGen (Step graph.size graph.successors) target source) (listed : source ∈ graph.order)
    (known : target ∈ graph.order) : graph.Dom target source := by
  refine ⟨mem_order.mp known,mem_order.mp listed,fun root start bound clear => ?_⟩
  rcases List.mem_cons.mp start with rfl | handler
  · refine above.never _ (List.mem_singleton.mpr rfl) bound ⟨clear.1,ReflTransGen.mono ?_ _ _ clear.2⟩
    exact fun _ _ step => ⟨⟨step.1.1,List.mem_append_left _ step.1.2⟩,step.2⟩
  · exact rejoins.headed source target leads above cycle root handler clear

theorem retreats_back (reducible : graph.Reducible) (rejoins : graph.Rejoins)
    (retreats : graph.Retreats source target) : graph.Dom target source := by
  obtain ⟨leads,listed,early⟩ := retreats
  have cycle := retreat_cycles leads listed early
  have known := order_step listed leads
  have plain {one two : BlockId} (walk : ReflTransGen graph.Forward one two) :
      ReflTransGen (Step graph.size graph.successors) one two := ReflTransGen.mono (fun _ _ step => step.1) _ _ walk
  have advances {one two : BlockId} (listed : one ∈ graph.order) (leads : two ∈ graph.successors one)
      (free : ¬graph.FlowDom two one) : graph.Advances one two :=
    ⟨order_live rejoins listed,⟨successor_inside leads,List.mem_append_left _ leads⟩,free⟩
  by_contra misses
  have last : graph.Advances source target :=
    advances listed leads fun above => misses (rejoins.dom leads above (plain cycle) listed known)
  -- No edge on the way from the target back to the source goes up to a dominator, since the way only
  -- leads forward.
  have whole : ∀ middle, ReflTransGen graph.Forward target middle → ReflTransGen graph.Forward middle source →
      middle ∈ graph.order ∧ ReflTransGen graph.Advances target middle := by
    intro middle before
    induction before with
    | refl => exact fun _ => ⟨known,.refl⟩
    | @tail one two before step ih =>
      intro after
      obtain ⟨here,walked⟩ := ih (.head step after)
      have there := order_step here step.1.2
      refine ⟨there,walked.tail (advances here step.1.2 fun above => ?_)⟩
      have around : ReflTransGen (Step graph.size graph.successors) two one :=
        (plain after).trans (.head ⟨(mem_order.mp known).inside,leads⟩ (plain before))
      have dominates := rejoins.dom step.1.2 above around here there
      have order := step.before
      by_cases same : two = one
      · exact absurd order (same ▸ Nat.lt_irrefl _)
      · exact absurd (dominator_before dominates same) (Nat.lt_asymm order)
  exact reducible target (.tail' (whole source cycle .refl).2 last)

-- Structuring takes every graph whose loops have one way in, handlers included.
theorem structured_accepts_reducible (graph : BlockGraph) (settings : StructuringSettings)
    (reducible : graph.Reducible) (rejoins : graph.Rejoins) (block : BlockId) :
    graph.structured settings ≠ .error (.irreducible block) := by
  intro failed
  unfold structured structureLogged at failed
  split at failed
  · rename_i cause made
    simp only [Except.error.injEq] at failed
    subst failed
    rcases Survey.make_error made with ⟨source,target,retreats,misses,_⟩ | ⟨_,_,same | same⟩
    · exact misses (retreats_back reducible rejoins retreats)
    · cases same
    · cases same
  · rename_i survey made
    cases Survey.structured_unforeseen failed

-- Edges that climb, but for those back to a dominator, close no cycle.
theorem reducible_of_rank (rank : BlockId → Nat)
    (climbs : ∀ source target, source < graph.size → target ∈ graph.onward source →
      rank source < rank target ∨ graph.FlowDom target source) : graph.Reducible := by
  have up {source target : BlockId} (way : TransGen graph.Advances source target) : rank source < rank target := by
    have step {one two : BlockId} (advances : graph.Advances one two) : rank one < rank two :=
      (climbs one two (live_inside advances.1) advances.2.1.2).resolve_right advances.2.2
    induction way with
    | single only => exact step only
    | tail _ last ih => exact Nat.lt_trans ih (step last)
  exact fun block cycle => Nat.lt_irrefl _ (up cycle)

theorem flowDom_iff : graph.FlowDom target source ↔
    (Detours.compute graph.size graph.onward [graph.entry]).dominates target source = true := dominates_iff.symm

end BlockGraph

def tick (amount : Int32) : Statement := .increment ⟨0,none,.int⟩ amount

-- A loop whose body is protected; the handler starts the next round.
def retrying : BlockGraph :=
  ⟨[⟨[tick 1],.goto 1⟩,⟨[],.branch (.constant true) 2 4⟩,⟨[tick 2],.goto 1⟩,⟨[tick 3],.goto 1⟩,⟨[],.ret none⟩],
    [⟨2,3,3,none⟩],by decide⟩

theorem retrying_dominated : retrying.FlowDom 1 2 ∧ retrying.FlowDom 1 3 ∧ ¬retrying.FlowDom 2 1 ∧
    ¬retrying.FlowDom 4 1 := by
  simp only [BlockGraph.flowDom_iff]
  cbv
  simp

theorem retrying_reducible : retrying.Reducible := by
  refine BlockGraph.reducible_of_rank id fun source target inside leads => ?_
  have edges : ∀ source < retrying.size, ∀ target ∈ retrying.onward source,
      source < target ∨ (source = 2 ∨ source = 3) ∧ target = 1 := by decide
  rcases edges source inside target leads with climbs | ⟨rfl | rfl,rfl⟩
  · exact Or.inl climbs
  · exact Or.inr retrying_dominated.1
  · exact Or.inr retrying_dominated.2.1

theorem retrying_rejoins : retrying.Rejoins := by
  have handlers : retrying.handlerEntries = [3] := by decide
  have live : 3 ∈ retrying.live := by
    have all : retrying.live = [4,3,2,1,0] := by cbv
    simp [all]
  have edges : ∀ source < retrying.size, ∀ target ∈ retrying.successors source,
      (source = 1 ∧ (target = 2 ∨ target = 4)) ∨ target = 1 ∧ (source = 0 ∨ source = 2 ∨ source = 3) := by decide
  refine ⟨by simp [handlers,live],?_⟩
  intro source target leads above cycle handler listed clear
  rw [handlers] at listed
  cases List.mem_singleton.mp listed
  rcases edges source above.below.inside target leads with ⟨rfl,rfl | rfl⟩ | ⟨rfl,origin⟩
  · exact retrying_dominated.2.2.1 above
  · exact retrying_dominated.2.2.2 above
  · -- The handler comes to the header at once, and the header never comes back to the handler.
    have first : source = 3 := by
      obtain same | ⟨next,step,_⟩ := clear.2.cases_head
      · exact same.symm
      · have only : ∀ next ∈ retrying.successors 3, next = 1 := by decide
        exact absurd (only next step.1.2) step.2
    subst first
    have kept : ∀ block, ReflTransGen (Step retrying.size retrying.successors) 1 block →
        block = 1 ∨ block = 2 ∨ block = 4 := by
      intro block walk
      induction walk with
      | refl => exact Or.inl rfl
      | tail _ last ih =>
        have closed : ∀ block ∈ [1,2,4], ∀ next ∈ retrying.successors block, next ∈ [1,2,4] := by decide
        simpa using closed _ (by simpa using ih) _ last.2
    simpa using kept 3 cycle

theorem retrying_accepted : retrying.Reducible ∧ retrying.Rejoins ∧
    retrying.structured .default ≠ .error (.irreducible 1) :=
  ⟨retrying_reducible,retrying_rejoins,
    BlockGraph.structured_accepts_reducible retrying .default retrying_reducible retrying_rejoins 1⟩

-- A loop with a protected block in it, where the handler joins in again behind that block.
def rejoining : BlockGraph :=
  ⟨[⟨[],.branch (.constant true) 1 3⟩,⟨[tick 1],.goto 2⟩,⟨[tick 2],.goto 0⟩,⟨[],.ret none⟩,⟨[tick 3],.goto 2⟩],
    [⟨1,2,4,none⟩],by decide⟩

theorem rejoining_refused : rejoining.Reducible ∧ rejoining.structured .default = .error (.irreducible 0) := by
  refine ⟨BlockGraph.reducible_of_rank (fun block => [0,1,3,1,2].getD block 0) fun source target inside leads => ?_,
    by cbv⟩
  have edges : ∀ source < rejoining.size, ∀ target ∈ rejoining.onward source,
      [0,1,3,1,2].getD source 0 < [0,1,3,1,2].getD target 0 ∨ source = 2 ∧ target = 0 := by decide
  rcases edges source inside target leads with climbs | ⟨rfl,rfl⟩
  · exact Or.inl climbs
  · refine Or.inr (BlockGraph.flowDom_iff.mpr ?_)
    cbv

end Untangle
