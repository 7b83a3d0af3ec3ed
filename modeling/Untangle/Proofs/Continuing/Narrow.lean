import Untangle.Proofs.Sweeping.Failures

namespace Untangle
open Relation BlockGraph

-- A loop that tests behind statements: its only latch is not its header, holds statements and ends in a
-- branch back to the header.
def NaturalLoop.WorksBeforeTest (loop : NaturalLoop) (graph : BlockGraph) : Prop :=
  ∃ latch condition thenTarget elseTarget, loop.latches = [latch] ∧ latch ≠ loop.header ∧
    graph.statements latch ≠ [] ∧ graph.terminator latch = .branch condition thenTarget elseTarget ∧
    (thenTarget = loop.header ∨ elseTarget = loop.header)

-- Those statements have a single way in.
def NaturalLoop.WorksBehindOne (loop : NaturalLoop) (graph : BlockGraph) : Prop :=
  loop.WorksBeforeTest graph ∧ ∀ latch ∈ loop.latches, ∃ feeder, graph.predecessors latch = [feeder]

-- A loop is left towards one place only, which its latches lead to, and by no loop or switch inside it: an arm that
-- ends where the next one begins would jump to the latch, and so would a loop that ends elsewhere.
structure NaturalLoop.LeavesOnce (loop : NaturalLoop) (graph : BlockGraph) (forest : LoopForest) : Prop where
  exits : ∀ block ∈ loop.body, ∀ target ∈ graph.successors block, target ∉ loop.body →
    ∀ latch ∈ loop.latches, target ∈ graph.successors latch
  inner : ∀ other ∈ forest, other.header ∈ loop.body → other.header ≠ loop.header →
    ∀ block ∈ other.body, ∀ target ∈ graph.successors block, target ∈ loop.body
  switches : ∀ block ∈ loop.body, ∀ discriminant cases default,
    graph.terminator block = .switch discriminant cases default → ∀ target ∈ graph.successors block, target ∈ loop.body

-- A loop without an exit is not left.
theorem Survey.Unguarded.never_left {survey : Survey} {inner : NaturalLoop} {source target : BlockId} {opened : List Nat}
    (sound : survey.Unguarded) (none : (survey.classify opened inner).exit? = none) (within : source ∈ inner.body)
    (edge : target ∈ survey.graph.successors source) (ordered : target ∈ survey.graph.order) : target ∈ inner.body := by
  cases shape : survey.classify opened inner with
  | preTested condition bodyEntry exit =>
    rw [shape] at none
    cases none
  | postTested latch condition exit =>
    rw [shape] at none
    cases none
  | endless exit =>
    rw [shape] at none
    have absent := List.eq_nil_iff_forall_not_mem.mp (latestBy_none ((Survey.classify_endless shape).trans none)) target
    by_contra leaving
    refine absent (List.mem_filter.mpr ⟨List.mem_filter.mpr ⟨?_,?_⟩,?_⟩)
    · exact mem_ids.mpr (successor_inside edge)
    · simpa [leaving] using ⟨source,within,edge⟩
    · exact decide_eq_true (sound.live ▸ sound.ordered target ordered)

-- A `do` loop that tests in a latch behind its header, with the block that the latch is entered from.
structure DoLoop where
  loop : NaturalLoop
  latch : BlockId
  exit : BlockId
  feeder : BlockId
  id : BreakableId

namespace DoLoop

def context (doing : DoLoop) : Context := ⟨doing.id,.doWhile,some doing.exit,some doing.latch⟩

def Between (doing : DoLoop) (block : BlockId) : Prop :=
  block ∈ doing.loop.body ∧ block ≠ doing.loop.header ∧ block ≠ doing.latch

structure Narrow (doing : DoLoop) (survey : Survey) : Prop where
  member : doing.loop ∈ survey.loops
  only : doing.loop.latches = [doing.latch]
  apart : doing.latch ≠ doing.loop.header
  outside : doing.exit ∉ doing.loop.body
  turns : ∀ target, target ∈ survey.graph.successors doing.latch ↔ target = doing.loop.header ∨ target = doing.exit
  single : ∀ source, doing.latch ∈ survey.graph.successors source → source = doing.feeder
  leaves : doing.loop.LeavesOnce survey.graph survey.loops

variable {doing : DoLoop} {survey : Survey} {scope : Scope} {stop : Option BlockId} {block source target start : BlockId}
  {before middle after : Progress} {taken : List BlockId} {ends kept : BlockId → Prop} {inner : NaturalLoop}

namespace Narrow
variable (narrow : doing.Narrow survey) (sound : survey.Unguarded)
include narrow

theorem latch_within (sound : survey.Unguarded) : doing.latch ∈ doing.loop.body :=
  (sound.complete.natural _ narrow.member).latch_mem (by simp [narrow.only])

theorem within_apart (within : block ∈ doing.loop.body) : block ≠ doing.exit := fun same => narrow.outside (same ▸ within)

include sound

theorem returns (within : source ∈ doing.loop.body) (edge : doing.loop.header ∈ survey.graph.successors source) :
    source = doing.latch := by
  have natural := sound.complete.natural _ narrow.member
  have listed : source ∈ doing.loop.latches := (natural.latches source).mpr ⟨edge,natural.header_dom within⟩
  rw [narrow.only] at listed
  exact List.mem_singleton.mp listed

theorem leads (within : block ∈ doing.loop.body) (apart : block ≠ doing.latch)
    (edge : target ∈ survey.graph.successors block) :
    target = doing.exit ∨ target = doing.latch ∨ doing.Between target := by
  by_cases inside : target ∈ doing.loop.body
  · by_cases last : target = doing.latch
    · exact Or.inr (Or.inl last)
    · exact Or.inr (Or.inr ⟨inside,fun same => apart (narrow.returns sound within (same ▸ edge)),last⟩)
  · have further := narrow.leaves.exits block within target edge inside doing.latch (by simp [narrow.only])
    rcases (narrow.turns target).mp further with rfl | same
    · exact absurd (sound.complete.natural _ narrow.member).header_mem inside
    · exact Or.inl same

-- Whatever is reached without the exit lies in the loop.
theorem clear_within (within : source ∈ doing.loop.body)
    (clear : Clear survey.graph.size survey.graph.successors doing.exit source target) : target ∈ doing.loop.body := by
  obtain ⟨_,walk⟩ := clear
  induction walk with
  | refl => exact within
  | @tail node next _ step ih =>
    by_cases last : node = doing.latch
    · rcases (narrow.turns next).mp (last ▸ step.1.2) with rfl | same
      · exact (sound.complete.natural _ narrow.member).header_mem
      · exact absurd same step.2
    · rcases narrow.leads sound ih last step.1.2 with same | rfl | between
      · exact absurd same step.2
      · exact narrow.latch_within sound
      · exact between.1

theorem merge_between (within : block ∈ doing.loop.body) (header : doing.loop.header ∈ taken)
    (context : doing.context ∈ scope.contexts) (found : survey.mergePoint scope taken block stop = some target)
    (goes : some target ≠ stop) : doing.Between target := by
  obtain ⟨⟨fresh,free⟩,ways⟩ := (Survey.mergePoint_cases found).resolve_left goes
  have jumps (place : BlockId) (leads : doing.context.breakTarget = some place ∨ doing.context.continueTarget = some place) :
      target ≠ place := by
    rintro rfl
    refine Bool.eq_false_iff.mp free (List.any_eq_true.mpr ⟨_,context,?_⟩)
    simpa using leads
  have away := jumps doing.exit (Or.inl rfl)
  have clear : Clear survey.graph.size survey.graph.successors doing.exit block target := by
    have apart := narrow.within_apart within
    rcases ways with behind | below
    · rw [sound.postDoms] at behind
      exact clear_forward (Dominance.immediate_some behind).1.above.inside
        (Dominance.immediate_direct behind away.symm apart.symm)
    · rw [sound.doms] at below
      exact Dominance.immediate_direct (Dominance.mem_children.mp below).2 apart.symm away.symm
  exact ⟨narrow.clear_within sound within clear,fun same => fresh (same ▸ header),jumps doing.latch (Or.inr rfl)⟩

-- On from a block that is taken later than the feeder, the way to the latch is cut short.
theorem escapes (between : doing.Between start) (new : Meanwhile middle after start) (fed : doing.feeder ∈ middle.taken)
    (sweeps : Sweeps survey.graph ends kept middle after) : ∃ target, doing.Between target ∧ ends target := by
  have natural := sound.complete.natural _ narrow.member
  obtain ⟨listed,latch,back,_,walk⟩ := (natural.mem_body.mp between.1).resolve_left between.2.1
  have same : latch = doing.latch := narrow.returns sound (natural.latch_mem ((natural.latches latch).mpr back)) back.1
  subst same
  induction walk using ReflTransGen.head_induction_on with
  | refl => exact absurd rfl between.2.2
  | @head node next step rest ih =>
    have further := order_step listed step.1.2
    have inside := natural.mem_body.mpr (Or.inr ⟨further,_,back,step.2,rest⟩)
    rcases narrow.leads sound between.1 between.2.2 step.1.2 with rfl | rfl | onward
    · exact absurd inside narrow.outside
    · exact absurd (narrow.single node step.1.2 ▸ fed) new.2
    · rcases sweeps.onward node new.1 new.2 next step.1.2 with later | ended
      · exact ih onward later further step.2
      · exact ⟨next,onward,ended⟩

theorem inner_within (member : inner ∈ survey.loops) (between : doing.Between inner.header)
    (within : source ∈ inner.body) : source ∈ doing.loop.body :=
  (sound.complete.natural _ narrow.member).nested (sound.complete.natural inner member) between.1 within

theorem inner_between (member : inner ∈ survey.loops) (between : doing.Between inner.header)
    (away : doing.latch ∉ inner.body) (within : source ∈ inner.body) : doing.Between source := by
  have outer := sound.complete.natural _ narrow.member
  have natural := sound.complete.natural inner member
  refine ⟨narrow.inner_within sound member between within,fun same => ?_,fun same => away (same ▸ within)⟩
  exact between.2.1 ((natural.header_dom (same ▸ within)).antisymm (outer.header_dom between.1))

-- On from a loop within, the way to the latch leaves that loop.
theorem inner_crossed (between : doing.Between inner.header) (header : inner.header ∈ inner.body)
    (away : doing.latch ∉ inner.body) : ∃ source ∈ inner.body, ∃ target ∈ survey.graph.successors source,
      target ∉ inner.body ∧ target ∈ survey.graph.order := by
  have outer := sound.complete.natural _ narrow.member
  obtain ⟨listed,latch,back,_,walk⟩ := (outer.mem_body.mp between.1).resolve_left between.2.1
  have same : latch = doing.latch := narrow.returns sound (outer.latch_mem ((outer.latches latch).mpr back)) back.1
  subst same
  clear between
  generalize inner.header = node at listed walk header
  induction walk using ReflTransGen.head_induction_on with
  | refl => exact absurd header away
  | @head node next step _ ih =>
    have further := order_step listed step.1.2
    by_cases inside : next ∈ inner.body
    · exact ih further inside
    · exact ⟨node,header,next,step.1.2,inside,further⟩

-- The latch lies outside of a loop within, and so that loop has an exit.
theorem inner_exit (member : inner ∈ survey.loops) (between : doing.Between inner.header) (away : doing.latch ∉ inner.body)
    (opened : List Nat) : ∃ exit, (survey.classify opened inner).exit? = some exit ∧
      (exit = doing.latch ∨ doing.Between exit) := by
  have natural := sound.complete.natural inner member
  cases exits : (survey.classify opened inner).exit? with
  | some exit =>
    obtain ⟨outside,source,within,edge⟩ := Survey.classify_left natural opened exit exits
    have inside := narrow.leaves.inner inner member between.1 between.2.1 source within exit edge
    have own := narrow.inner_between sound member between away within
    refine ⟨exit,rfl,?_⟩
    rcases narrow.leads sound own.1 own.2.2 edge with rfl | last | further
    · exact absurd inside narrow.outside
    · exact Or.inl last
    · exact Or.inr further
  | none =>
    obtain ⟨source,within,target,edge,leaving,ordered⟩ := narrow.inner_crossed sound between natural.header_mem away
    exact absurd (sound.never_left exits within edge ordered) leaving

end Narrow
end DoLoop
end Untangle
