import Mathlib
import Untangle.Proofs.Absorption.SideBlocks
import Untangle.Proofs.Emission.Inversion
import Untangle.Proofs.Flow.Reducible
import Untangle.Proofs.Pairing.Analyses
import Untangle.Proofs.Pairing.Emitters
import Untangle.Proofs.Protection.Regions

namespace Untangle

theorem tally_eq {one two : Except ε α} (tally : Tally Eq one two) : one = two := by
  cases one <;> cases two
  · exact congrArg _ tally
  · exact tally.elim
  · exact tally.elim
  · exact congrArg _ tally

theorem Structured.Twin.same {one two : Structured} (twin : Structured.Twin True one two) : one = two := by
  obtain ⟨body,registry,diagnostics⟩ := twin
  have bodies := body.eq trivial
  have registries := registry.eq trivial
  cases one
  cases two
  simp only at bodies registries diagnostics
  rw [bodies,registries,diagnostics]

namespace BlockGraph

-- Blocks that nothing leads to do not jump to where a loop goes back.
def Undisturbed (graph : BlockGraph) : Prop :=
  ∀ source latch header, source ∉ graph.order → latch ∈ graph.successors source → ¬graph.Back latch header

variable {one two : BlockGraph} {latch header : BlockId}

theorem Alike.latch_predecessors (alike : Alike one two) (quiet : one.Undisturbed) (quiet' : two.Undisturbed)
    (back : one.Back latch header) (back' : two.Back latch header) :
    one.predecessors latch = two.predecessors latch := by
  have known {graph : BlockGraph} (quiet : graph.Undisturbed) (back : graph.Back latch header) :
      (graph.predecessors latch).filter (· ∈ graph.order) = graph.predecessors latch := by
    refine List.filter_eq_self.mpr fun source member => decide_eq_true ?_
    exact Decidable.byContradiction fun unknown => quiet source latch header unknown (mem_predecessors.mp member) back
  rw [← known quiet back,← known quiet' back',← alike.order]
  exact alike.predecessors _ (fun _ => of_decide_eq_true) latch

theorem Alike.back (alike : Alike one two) (back : one.Back latch header) : two.Back latch header := by
  have listed := mem_order.mpr back.2.below
  refine ⟨alike.successors listed ▸ back.1,?_⟩
  rw [← dominance_iff,← alike.dominance]
  exact dominance_iff.mpr back.2

end BlockGraph

namespace Survey
variable {survey : Survey} {graph : BlockGraph} {loop : NaturalLoop} {block source target : BlockId}

structure Searched (survey : Survey) : Prop where
  doms : survey.doms = survey.graph.dominance
  postDoms : survey.postDoms = survey.graph.postDominance
  order : survey.order = survey.graph.order
  live : survey.live = survey.graph.live
  complete : LoopForest.Complete survey.graph survey.loops
  grouped : TryRegion.group survey.graph.table = .ok survey.tries

theorem settle_congr {stays stays' : List BlockId → BlockId → Bool} {kept : List BlockId}
    (agree : ∀ others, ∀ block ∈ kept, stays others block = stays' others block) :
    settle stays kept = settle stays' kept := by
  fun_induction settle stays kept with
  | case1 kept shrinks ih =>
    have same : staying stays kept = staying stays' kept := List.filter_congr fun block => agree kept block
    have settled := ih fun others block member => agree others block (List.mem_of_mem_filter member)
    rw [same] at shrinks
    rw [settled,same]
    conv => rhs; rw [settle,dif_pos shrinks]
  | case2 kept full =>
    have same : staying stays kept = staying stays' kept := List.filter_congr fun block => agree kept block
    rw [same] at full
    rw [settle,dif_neg full]

def moved (survey : Survey) (graph : BlockGraph) : Survey :=
  {survey with graph,postDoms:=graph.postDominance}

theorem moved_graph : (survey.moved graph).graph = graph := rfl

theorem Searched.live_ordered (searched : survey.Searched) (lives : block ∈ survey.live) :
    block ∈ survey.graph.order :=
  BlockGraph.live_ordered (searched.live ▸ lives)

theorem Searched.body_ordered (searched : survey.Searched) (member : loop ∈ survey.loops)
    (within : block ∈ loop.body) : block ∈ survey.graph.order :=
  BlockGraph.mem_order.mpr ((searched.complete.natural loop member).header_dom within).below

theorem sideBlocks_moved (alike : survey.graph.Alike graph) (scope : Scope) (taken : List BlockId)
    (exit : Option BlockId) :
    survey.sideBlocks scope taken loop exit = (survey.moved graph).sideBlocks scope taken loop exit := by
  have above (block : BlockId) : survey.above? block = (survey.moved graph).above? block := by
    unfold above?
    rw [alike.table]
    rfl
  unfold sideBlocks effectivelyDominates
  simp only [climbsTo_eq above]
  rw [alike.ids,alike.size]
  rfl

section
variable (searched : survey.Searched) (alike : survey.graph.Alike graph)
include searched alike

theorem mergePoint_moved (scope : Scope) (taken : List BlockId) (stop : Option BlockId)
    (listed : block ∈ survey.graph.order) :
    survey.mergePoint scope taken block stop = (survey.moved graph).mergePoint scope taken block stop := by
  have forward (target : BlockId) :
      survey.forwardPredecessors target = (survey.moved graph).forwardPredecessors target := by
    unfold forwardPredecessors
    refine congrArg List.length (alike.predecessors _ (fun source early => ?_) target)
    have before : survey.order.idxOf source < survey.order.length :=
      Nat.lt_of_lt_of_le (of_decide_eq_true early) List.idxOf_le_length
    exact searched.order ▸ List.idxOf_lt_length_iff.mp before
  have post : survey.postDoms.immediate? block = (survey.moved graph).postDoms.immediate? block := by
    rw [searched.postDoms]
    exact alike.postImmediate listed
  unfold mergePoint
  simp only [forward]
  rw [post]
  rfl

omit alike in
theorem claim_unknown (arms : List PendingArm) (links : ArmLinks) (target : Nat)
    (unknown : source ∉ survey.graph.order) : ArmLinks.claim survey.doms.dominates arms links target source = links := by
  have apart (above : BlockId) : survey.doms.dominates above source = false := by
    rw [Bool.eq_false_iff,searched.doms]
    exact fun dominates => unknown (BlockGraph.mem_order.mpr (BlockGraph.dominance_iff.mp dominates).below)
  unfold ArmLinks.claim
  dsimp only
  rw [List.find?_eq_none.mpr fun entry _ => by simp [apart]]

theorem armLinks_moved (block : BlockId) (arms : List PendingArm) :
    ArmLinks.compute survey.graph survey.doms.dominates block arms =
      ArmLinks.compute graph survey.doms.dominates block arms := by
  have known (target : Nat) (items : List BlockId) (links : ArmLinks) :
      items.foldl (fun links source => ArmLinks.claim survey.doms.dominates arms links target source) links =
        (items.filter (· ∈ survey.graph.order)).foldl
          (fun links source => ArmLinks.claim survey.doms.dominates arms links target source) links := by
    rw [List.foldl_filter]
    refine List.foldl_ext _ _ _ fun links source _ => ?_
    split
    · rfl
    · rename_i unknown
      exact claim_unknown searched arms links target (by simpa using unknown)
  unfold ArmLinks.compute
  refine List.foldl_ext _ _ _ fun links entry _ => ?_
  dsimp only
  rw [known,known _ (List.filter _ (graph.predecessors _)),List.filter_filter,List.filter_filter]
  rw [alike.predecessors _ fun source kept => by
    simp only [Bool.and_eq_true,decide_eq_true_eq] at kept
    exact kept.1]

theorem armOrder_moved (block : BlockId) (arms : List PendingArm) :
    armOrder survey.graph survey.doms.dominates block arms =
      armOrder (survey.moved graph).graph (survey.moved graph).doms.dominates block arms := by
  unfold armOrder
  rw [armLinks_moved searched alike]
  rfl

theorem latchAllowed_moved (quiet : survey.graph.Undisturbed) (quiet' : graph.Undisturbed) {latch : BlockId}
    (member : loop ∈ survey.loops) (latches : latch ∈ loop.latches) (tryAtHeader : Bool) :
    survey.latchAllowed loop latch tryAtHeader = (survey.moved graph).latchAllowed loop latch tryAtHeader := by
  have back := ((searched.complete.natural loop member).latches latch).mp latches
  have listed := BlockGraph.mem_order.mpr back.2.below
  unfold latchAllowed
  rw [alike.statements listed,alike.latch_predecessors quiet quiet' back (alike.back back)]
  rfl

theorem exits_moved (member : loop ∈ survey.loops) : loop.exits survey.graph = loop.exits graph := by
  unfold NaturalLoop.exits
  rw [alike.ids]
  refine List.filter_congr fun target _ => ?_
  have leads : (loop.body.any fun source => target ∈ survey.graph.successors source) =
      loop.body.any fun source => target ∈ graph.successors source := by
    rw [Bool.eq_iff_iff,List.any_eq_true,List.any_eq_true]
    refine exists_congr fun source => and_congr_right fun within => ?_
    rw [alike.successors (searched.body_ordered member within)]
  rw [leads]

theorem classify_moved (quiet : survey.graph.Undisturbed) (quiet' : graph.Undisturbed) (opened : List Nat)
    (member : loop ∈ survey.loops) : survey.classify opened loop = (survey.moved graph).classify opened loop := by
  have natural := searched.complete.natural loop member
  have headed := searched.body_ordered member natural.header_mem
  have atHeader : survey.headerTest? loop = (survey.moved graph).headerTest? loop := by
    unfold headerTest?
    rw [alike.statements headed,alike.terminator headed]
    rfl
  have atLatch (tryAtHeader : Bool) :
      survey.onlyLatchTest? loop tryAtHeader = (survey.moved graph).onlyLatchTest? loop tryAtHeader := by
    unfold onlyLatchTest?
    split
    · rename_i latch single
      have latches : latch ∈ loop.latches := by simp [single]
      have listed := searched.body_ordered member (natural.latch_mem latches)
      rw [latchAllowed_moved searched alike quiet quiet' member latches]
      unfold latchTest?
      rw [alike.terminator listed]
      rfl
    · rfl
  have left : survey.endlessExit? loop = (survey.moved graph).endlessExit? loop := by
    unfold endlessExit?
    rw [exits_moved searched alike member]
    rfl
  unfold classify
  dsimp only
  rw [atHeader,left]
  simp only [atLatch]
  rfl

theorem updateBlock_moved (quiet : survey.graph.Undisturbed) (quiet' : graph.Undisturbed) (bodyEntry : BlockId)
    (member : loop ∈ survey.loops) :
    survey.updateBlock? loop bodyEntry = (survey.moved graph).updateBlock? loop bodyEntry := by
  unfold updateBlock?
  split
  · rename_i latch single
    have back := ((searched.complete.natural loop member).latches latch).mp (by simp [single])
    have listed := BlockGraph.mem_order.mpr back.2.below
    rw [alike.statements listed,alike.terminator listed,
      alike.latch_predecessors quiet quiet' back (alike.back back)]
    rfl
  · rfl

theorem tryMerge_moved (scope : Scope) (region : TryRegion) :
    survey.tryMerge scope region = (survey.moved graph).tryMerge scope region := by
  have leads : (survey.protectedBlocks region).flatMap survey.graph.successors =
      (survey.protectedBlocks region).flatMap graph.successors :=
    List.flatMap_congr fun block member =>
      alike.successors (searched.live_ordered (of_decide_eq_true (List.mem_filter.mp member).2))
  unfold tryMerge
  dsimp only
  rw [leads]
  rfl

omit alike in
theorem sideBlocks_ordered {scope : Scope} {taken : List BlockId} {exit : Option BlockId}
    (listed : block ∈ survey.sideBlocks scope taken loop exit) : block ∈ survey.graph.order := by
  unfold sideBlocks at listed
  have lives := (List.mem_filter.mp listed).2
  simp only [Bool.and_eq_true] at lives
  exact searched.live_ordered (of_decide_eq_true lives.1.1.1.1.2)

theorem entered_moved (member : loop ∈ survey.loops) (block : BlockId) :
    (survey.graph.predecessors block).any loop.contains = (graph.predecessors block).any loop.contains := by
  have same := alike.predecessors loop.contains
    (fun source within => searched.body_ordered member (of_decide_eq_true within)) block
  rw [Bool.eq_iff_iff,List.any_eq_true,List.any_eq_true]
  refine exists_congr fun source => ?_
  rw [← List.mem_filter,← List.mem_filter,same]

theorem absorb_moved (scope : Scope) (taken : List BlockId) (exit : Option BlockId) (member : loop ∈ survey.loops) :
    survey.absorb scope taken loop exit = (survey.moved graph).absorb scope taken loop exit := by
  have stays (kept : List BlockId) (block : BlockId) (listed : block ∈ survey.sideBlocks scope taken loop exit) :
      ((survey.graph.successors block).all fun target =>
        loop.contains target || target ∈ kept || some target == exit || scope.isJumpTarget target) =
      (graph.successors block).all fun target =>
        loop.contains target || target ∈ kept || some target == exit || scope.isJumpTarget target := by
    rw [alike.successors (sideBlocks_ordered searched listed)]
  unfold absorb
  simp only [moved_graph,← sideBlocks_moved alike,← settle_congr stays]
  generalize left : settle _ (survey.sideBlocks scope taken loop exit) = kept
  have ordered (block : BlockId) (listed : block ∈ kept) : block ∈ survey.graph.order :=
    sideBlocks_ordered searched (settle_within (left ▸ listed))
  simp only [entered_moved searched alike member]
  rw [alike.table,alike.ids,alike.size]
  have found : reach graph.size (fun block => (survey.graph.successors block).filter (· ∈ kept))
      (kept.filter fun block => (graph.predecessors block).any loop.contains ||
        graph.table.any fun row => row.handler == block && loop.body.any row.covers) loop.body =
      reach graph.size (fun block => (graph.successors block).filter (· ∈ kept))
        (kept.filter fun block => (graph.predecessors block).any loop.contains ||
          graph.table.any fun row => row.handler == block && loop.body.any row.covers) loop.body :=
    reach_congr (· ∈ kept) (fun block listed => by rw [alike.successors (ordered block listed)])
      (fun _ _ target leads => of_decide_eq_true (List.mem_filter.mp leads).2)
      fun block member => List.mem_of_mem_filter member
  rw [found]

end

theorem moved_twin (searched : survey.Searched) (alike : survey.graph.Alike graph) (quiet : survey.graph.Undisturbed)
    (quiet' : graph.Undisturbed) : Survey.Twin True (· ∈ survey.graph.order) survey (survey.moved graph) where
  recovers := Or.inl rfl
  validates := rfl
  size := alike.size
  live := rfl
  loops := rfl
  tries := rfl
  entry := survey.graph.entry_ordered
  lives _ := searched.live_ordered
  latches loop member latch listed :=
    searched.body_ordered member ((searched.complete.natural loop member).latch_mem listed)
  handlers region member handler listed := by
    obtain ⟨clause,known,rfl⟩ := List.mem_map.mp listed
    obtain ⟨row,tabled,_,same⟩ := (TryRegion.groups_of_group searched.grouped).handlers region member clause known
    exact same ▸ BlockGraph.handler_ordered tabled
  statements _ := alike.statements
  terminator _ := alike.terminator
  mergePoint scope taken _ stop := mergePoint_moved searched alike scope taken stop
  armOrder := armOrder_moved searched alike
  classify opened _ := classify_moved searched alike quiet quiet' opened
  absorb scope taken _ member exit := absorb_moved searched alike scope taken exit member
  updateBlock _ member bodyEntry := updateBlock_moved searched alike quiet quiet' bodyEntry member
  tryMerge := tryMerge_moved searched alike

theorem make_searched {settings : StructuringSettings} (made : make graph settings = .ok survey) :
    survey.graph = graph ∧ survey.Searched := by
  unfold make at made
  obtain ⟨forest,computed,made⟩ := ok_of_bind made
  obtain ⟨regions,grouped,made⟩ := ok_of_bind made
  cases made
  refine ⟨rfl,rfl,rfl,rfl,rfl,?_,grouped⟩
  have computed := ok_of_mapError computed
  rcases LoopForest.compute_cases graph with ⟨_,_,_,_,failed⟩ | ⟨forest',same,complete⟩
  · rw [failed] at computed
    cases computed
  · rw [same] at computed
    cases computed
    exact complete

theorem make_moved {graph' : BlockGraph} (alike : graph.Alike graph') (settings : StructuringSettings) :
    make graph' settings = (make graph settings).map fun survey => survey.moved graph' := by
  unfold make
  dsimp only
  rw [← alike.order,← alike.dominance,← alike.live,← alike.table]
  have loops := alike.loops
  rw [← alike.order,← alike.dominance] at loops
  rw [← loops]
  cases (LoopForest.compute graph graph.dominance graph.order).mapError StructureError.ofFlow with
  | error cause => rfl
  | ok loops =>
    cases TryRegion.group graph.table with
    | error cause => rfl
    | ok tries => rfl

end Survey

-- Blocks that neither the entry nor any handler leads to have no say in the result, as long as they do
-- not jump to where a loop goes back.
theorem BlockGraph.structured_undisturbed (one two : BlockGraph) (settings : StructuringSettings) (alike : one.Alike two)
    (quiet : one.Undisturbed) (quiet' : two.Undisturbed) : one.structured settings = two.structured settings := by
  unfold structured structureLogged
  rw [Survey.make_moved alike]
  cases made : Survey.make one settings with
  | error cause => rfl
  | ok survey =>
    obtain ⟨rfl,searched⟩ := Survey.make_searched made
    have twins := Survey.structured_together (Survey.moved_twin searched alike quiet quiet')
    exact tally_eq (twins.mono fun _ _ twin => twin.same)

def entering : BlockGraph :=
  ⟨[⟨[tick 1],.goto 1⟩,⟨[],.branch (.constant true) 2 3⟩,⟨[tick 2],.goto 1⟩,⟨[],.ret none⟩,⟨[tick 3],.goto 1⟩],[],
    by decide⟩

def standing : BlockGraph :=
  ⟨[⟨[tick 1],.goto 1⟩,⟨[],.branch (.constant true) 2 3⟩,⟨[tick 2],.goto 1⟩,⟨[],.ret none⟩,⟨[],.ret none⟩],[],
    by decide⟩

theorem entering_undisturbed : entering.Undisturbed := by
  have order : entering.order = [0,1,3,2] := by cbv
  have edges : ∀ source < 5, source ∉ [0,1,3,2] → ∀ target ∈ entering.successors source, target = 1 := by
    decide
  have below : entering.dominance.dominates 2 1 = false := by cbv
  have beside : entering.dominance.dominates 3 1 = false := by cbv
  have apart : ∀ header ∈ entering.successors 1, entering.dominance.dominates header 1 = false := by
    intro header onward
    have onward : header ∈ [2,3] := onward
    simp only [List.mem_cons,List.not_mem_nil,or_false] at onward
    obtain rfl | rfl := onward
    · exact below
    · exact beside
  intro source latch header unknown leads back
  have inside := BlockGraph.mem_ids.mp (List.mem_of_mem_filter (BlockGraph.mem_predecessors.mpr leads))
  obtain rfl := edges source inside (order ▸ unknown) latch leads
  have above := BlockGraph.dominance_iff.mpr back.2
  rw [apart header back.1] at above
  cases above

theorem standing_undisturbed : standing.Undisturbed := by
  have order : standing.order = [0,1,3,2] := by cbv
  have edges : ∀ source < 5, source ∉ [0,1,3,2] → standing.successors source = [] := by decide
  intro source latch header unknown leads back
  have inside := BlockGraph.mem_ids.mp (List.mem_of_mem_filter (BlockGraph.mem_predecessors.mpr leads))
  rw [edges source inside (order ▸ unknown)] at leads
  cases leads

theorem entering_alike : entering.Alike standing := by
  have order : entering.order = [0,1,3,2] := by cbv
  refine ⟨rfl,rfl,?_⟩
  rw [order]
  simp [entering,standing]

theorem entering_structured : entering.Alike standing ∧ entering.Undisturbed ∧ standing.Undisturbed ∧
    entering.structured .default = standing.structured .default :=
  ⟨entering_alike,entering_undisturbed,standing_undisturbed,
    BlockGraph.structured_undisturbed entering standing .default entering_alike entering_undisturbed
      standing_undisturbed⟩

-- A dropped block that goes to the latch of a loop, and the same graph without that edge.
def haunting : BlockGraph :=
  ⟨[⟨[tick 1],.goto 1⟩,⟨[tick 2],.branch (.constant true) 0 2⟩,⟨[],.ret none⟩,⟨[],.goto 1⟩],[],by decide⟩

def haunted : BlockGraph :=
  ⟨[⟨[tick 1],.goto 1⟩,⟨[tick 2],.branch (.constant true) 0 2⟩,⟨[],.ret none⟩,⟨[],.ret none⟩],[],by decide⟩

def hauntingTree : Structured :=
  ⟨[.whileLoop 0 (.constant true) [tick 1,tick 2,.branch (.constant false) [.jump ⟨0,.break,some 0,false⟩] none]],
    ⟨[⟨.whileLoop,[0]⟩],[.break],[(0,0)]⟩,[Structured.unreachable 3]⟩

def hauntedTree : Structured :=
  ⟨[.doWhile 0 (.constant true) [tick 1,tick 2]],⟨[⟨.doWhile,[]⟩],[],[]⟩,[Structured.unreachable 3]⟩

theorem haunting_unrolls : haunting.size = haunted.size ∧ haunting.table = haunted.table ∧
    (∀ block ∈ haunting.live, haunting.blocks[block]? = haunted.blocks[block]?) ∧
    haunting.structured .default = .ok hauntingTree ∧ haunted.structured .default = .ok hauntedTree ∧
    hauntingTree.body ≠ hauntedTree.body := by
  have live : haunting.live = [2,1,0] := by cbv
  refine ⟨rfl,rfl,?_,by cbv,by cbv,?_⟩
  · rw [live]
    simp [haunting,haunted]
  · simp [hauntingTree,hauntedTree]

-- A handler counts as a way in even where nothing leads into its range: this loop, of live blocks only,
-- is refused.
example : BlockGraph.structured ⟨[⟨[],.branch (.constant true) 1 2⟩,⟨[tick 1],.goto 0⟩,⟨[],.ret none⟩,⟨[],.ret none⟩,
    ⟨[tick 2],.goto 1⟩],[⟨3,4,4,none⟩],by decide⟩ .default = .error (.irreducible 0) := by cbv

end Untangle
