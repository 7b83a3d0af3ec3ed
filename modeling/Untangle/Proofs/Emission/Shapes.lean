import Untangle.Proofs.Emission.Pending
import Untangle.Proofs.Flow.NaturalLoops
import Untangle.Structuring.Induction
import Untangle.Structuring.LoopShape

namespace Untangle

def Statement.isPlain : Statement → Bool
  | .expr _ => true
  | .assign _ _ => true
  | .increment _ _ => true
  | _ => false

def BlockGraph.Plain (graph : BlockGraph) : Prop :=
  ∀ block, ∀ statement ∈ graph.statements block, statement.isPlain = true

theorem BlockGraph.plain_of_blocks {graph : BlockGraph}
    (all : ∀ block ∈ graph.blocks, ∀ statement ∈ block.statements, statement.isPlain = true) : graph.Plain := by
  intro block statement member
  unfold statements at member
  split at member
  · rename_i found at_
    exact all found (List.mem_of_getElem? at_) statement member
  · cases member

def NaturalLoop.LeftFor (loop : NaturalLoop) (graph : BlockGraph) (exit : Option BlockId) : Prop :=
  ∀ target, exit = some target → target ∉ loop.body ∧ ∃ source ∈ loop.body, target ∈ graph.successors source

def NaturalLoop.Turns (loop : NaturalLoop) (graph : BlockGraph) (exit : Option BlockId) (latch : BlockId) : Prop :=
  latch ∈ loop.body ∧ ∀ target ∈ graph.successors latch, target = loop.header ∨ exit = some target

namespace Survey
variable {survey : Survey} {loop : NaturalLoop} {shape : LoopShape} {latch bodyEntry exit : BlockId}
  {condition : Condition}

theorem headerTest_some (found : survey.headerTest? loop = some shape) :
    survey.graph.statements loop.header = [] ∧ ∃ condition thenTarget elseTarget,
      survey.graph.terminator loop.header = .branch condition thenTarget elseTarget ∧
      ((loop.contains thenTarget = true ∧ loop.contains elseTarget = false ∧
          shape = .preTested condition thenTarget elseTarget) ∨
        (loop.contains thenTarget = false ∧ loop.contains elseTarget = true ∧
          shape = .preTested condition.negate elseTarget thenTarget)) := by
  unfold headerTest? at found
  split at found
  · rename_i condition thenTarget elseTarget bare tests
    refine ⟨bare,condition,thenTarget,elseTarget,tests,?_⟩
    split at found
    · rename_i stays leaves
      cases found
      exact Or.inl ⟨stays,leaves,rfl⟩
    · rename_i leaves stays
      cases found
      exact Or.inr ⟨leaves,stays,rfl⟩
    · cases found
  · cases found

theorem latchTest_some (found : survey.latchTest? loop latch = some shape) :
    ∃ condition thenTarget elseTarget,
      survey.graph.terminator latch = .branch condition thenTarget elseTarget ∧
      ((thenTarget = loop.header ∧ loop.contains elseTarget = false ∧
          shape = .postTested latch condition elseTarget) ∨
        (elseTarget = loop.header ∧ loop.contains thenTarget = false ∧
          shape = .postTested latch condition.negate thenTarget)) := by
  unfold latchTest? at found
  split at found
  · rename_i condition thenTarget elseTarget tests
    refine ⟨condition,thenTarget,elseTarget,tests,?_⟩
    split at found
    · rename_i goes
      cases found
      exact Or.inl ⟨goes.1,by simpa using goes.2,rfl⟩
    · split at found
      · rename_i goes
        cases found
        exact Or.inr ⟨goes.1,by simpa using goes.2,rfl⟩
      · cases found
  · cases found

theorem classify_cases (opened : List Nat) (loop : NaturalLoop) :
    survey.headerTest? loop = some (survey.classify opened loop) ∨
      (∃ latch, loop.latches = [latch] ∧
        survey.latchAllowed loop latch (survey.pendingTry? opened loop.header).isSome = true ∧
        survey.latchTest? loop latch = some (survey.classify opened loop)) ∨
      survey.classify opened loop = .endless (survey.endlessExit? loop) := by
  unfold classify
  dsimp only
  generalize (survey.pendingTry? opened loop.header).isSome = pending
  cases header : (if pending = true then none else survey.headerTest? loop) with
  | some shape =>
    left
    split at header
    · cases header
    · exact header
  | none =>
    right
    cases only : survey.onlyLatchTest? loop pending with
    | none => exact Or.inr rfl
    | some shape =>
      left
      unfold onlyLatchTest? at only
      split at only
      · rename_i latch single
        split at only
        · rename_i allowed
          exact ⟨latch,single,allowed,only⟩
        · cases only
      · cases only

theorem classify_preTested (found : survey.classify opened loop = .preTested condition bodyEntry exit) :
    survey.headerTest? loop = some (.preTested condition bodyEntry exit) := by
  rcases survey.classify_cases opened loop with header | ⟨_,_,_,test⟩ | endless
  · rwa [found] at header
  · obtain ⟨_,_,_,_,⟨_,_,same⟩ | ⟨_,_,same⟩⟩ := latchTest_some test <;> cases found.symm.trans same
  · cases found.symm.trans endless

theorem classify_postTested (found : survey.classify opened loop = .postTested latch condition exit) :
    loop.latches = [latch] ∧ survey.latchTest? loop latch = some (.postTested latch condition exit) := by
  rcases survey.classify_cases opened loop with header | ⟨only,single,_,test⟩ | endless
  · obtain ⟨_,_,_,_,_,⟨_,_,same⟩ | ⟨_,_,same⟩⟩ := headerTest_some header <;> cases found.symm.trans same
  · rw [found] at test
    obtain ⟨_,_,_,_,⟨_,_,same⟩ | ⟨_,_,same⟩⟩ := latchTest_some test <;> cases same <;> exact ⟨single,test⟩
  · cases found.symm.trans endless

theorem classify_allowed (found : survey.classify opened loop = .postTested latch condition exit) :
    survey.latchAllowed loop latch (survey.pendingTry? opened loop.header).isSome = true := by
  rcases survey.classify_cases opened loop with header | ⟨only,single,allowed,test⟩ | endless
  · obtain ⟨_,_,_,_,_,⟨_,_,same⟩ | ⟨_,_,same⟩⟩ := headerTest_some header <;> cases found.symm.trans same
  · rw [found] at test
    obtain ⟨_,_,_,_,⟨_,_,same⟩ | ⟨_,_,same⟩⟩ := latchTest_some test <;> cases same <;> exact allowed
  · cases found.symm.trans endless

theorem updateBlock_some (found : survey.updateBlock? loop bodyEntry = some latch) :
    loop.latches = [latch] ∧ latch ≠ loop.header ∧ latch ≠ bodyEntry ∧
      survey.graph.terminator latch = .goto loop.header ∧
      ∃ statement, survey.graph.statements latch = [statement] := by
  unfold updateBlock? at found
  split at found
  · rename_i only single
    simp only [Option.ite_none_right_eq_some,Bool.and_eq_true,bne_iff_ne,Option.some.injEq] at found
    obtain ⟨⟨⟨⟨⟨header,entry⟩,plain⟩,back⟩,_⟩,rfl⟩ := found
    refine ⟨single,header,entry,?_,?_⟩
    · split at back
      · rename_i target at_
        rw [at_,eq_of_beq back]
      · cases back
    · split at plain
      · rename_i value at_
        exact ⟨_,at_⟩
      · rename_i target value at_
        exact ⟨_,at_⟩
      · rename_i var amount at_
        exact ⟨_,at_⟩
      · cases plain
  · cases found

theorem headerTest_leads (found : survey.headerTest? loop = some (.preTested condition bodyEntry exit)) :
    exit ∉ loop.body ∧
      ∀ target, target ∈ survey.graph.successors loop.header ↔ target = bodyEntry ∨ target = exit := by
  obtain ⟨_,condition,thenTarget,elseTarget,tests,sides⟩ := headerTest_some found
  unfold BlockGraph.successors
  rw [tests]
  unfold NaturalLoop.contains at sides
  rcases sides with ⟨_,leaves,same⟩ | ⟨leaves,_,same⟩
  · cases same
    exact ⟨of_decide_eq_false leaves,by simp [Terminator.successors]⟩
  · cases same
    exact ⟨of_decide_eq_false leaves,by simp [Terminator.successors,or_comm]⟩

theorem latchTest_leads (found : survey.latchTest? loop latch = some (.postTested latch condition exit)) :
    exit ∉ loop.body ∧
      ∀ target, target ∈ survey.graph.successors latch ↔ target = loop.header ∨ target = exit := by
  obtain ⟨condition,thenTarget,elseTarget,tests,sides⟩ := latchTest_some found
  unfold BlockGraph.successors
  rw [tests]
  unfold NaturalLoop.contains at sides
  rcases sides with ⟨rfl,leaves,same⟩ | ⟨rfl,leaves,same⟩
  · cases same
    exact ⟨of_decide_eq_false leaves,by simp [Terminator.successors]⟩
  · cases same
    exact ⟨of_decide_eq_false leaves,by simp [Terminator.successors,or_comm]⟩

theorem headerTest_left (natural : LoopForest.Natural survey.graph loop)
    (found : survey.headerTest? loop = some (.preTested condition bodyEntry exit)) :
    loop.LeftFor survey.graph (some exit) := by
  obtain ⟨outside,leads⟩ := headerTest_leads found
  intro target same
  cases same
  exact ⟨outside,loop.header,natural.header_mem,(leads _).mpr (Or.inr rfl)⟩

theorem latchTest_left (natural : LoopForest.Natural survey.graph loop) (only : loop.latches = [latch])
    (found : survey.latchTest? loop latch = some (.postTested latch condition exit)) :
    loop.LeftFor survey.graph (some exit) := by
  obtain ⟨outside,leads⟩ := latchTest_leads found
  intro target same
  cases same
  exact ⟨outside,latch,natural.latch_mem (by simp [only]),(leads _).mpr (Or.inr rfl)⟩

theorem classify_endless {opened : List Nat} {exit : Option BlockId}
    (found : survey.classify opened loop = .endless exit) : survey.endlessExit? loop = exit := by
  rcases survey.classify_cases opened loop with header | ⟨_,_,_,test⟩ | endless
  · obtain ⟨_,_,_,_,_,⟨_,_,same⟩ | ⟨_,_,same⟩⟩ := headerTest_some header <;> cases found.symm.trans same
  · obtain ⟨_,_,_,_,⟨_,_,same⟩ | ⟨_,_,same⟩⟩ := latchTest_some test <;> cases found.symm.trans same
  · cases found.symm.trans endless
    rfl

theorem updateBlock_turns (natural : LoopForest.Natural survey.graph loop) (exit : Option BlockId) (bodyEntry latch : BlockId)
    (found : survey.updateBlock? loop bodyEntry = some latch) :
    latch ≠ loop.header ∧ loop.Turns survey.graph exit latch := by
  obtain ⟨single,apart,_,back,_⟩ := updateBlock_some found
  refine ⟨apart,natural.latch_mem (by simp [single]),fun target edge => Or.inl ?_⟩
  unfold BlockGraph.successors at edge
  rw [back] at edge
  exact List.mem_singleton.mp edge

theorem endlessExit_left (survey : Survey) (loop : NaturalLoop) :
    loop.LeftFor survey.graph (survey.endlessExit? loop) := by
  intro target found
  have listed := (List.mem_filter.mp (latestBy_mem found)).1
  unfold NaturalLoop.exits at listed
  simpa using (List.mem_filter.mp listed).2

theorem classify_left (natural : LoopForest.Natural survey.graph loop) (opened : List Nat) :
    loop.LeftFor survey.graph (survey.classify opened loop).exit? := by
  cases found : survey.classify opened loop with
  | preTested condition bodyEntry exit => exact headerTest_left natural (classify_preTested found)
  | postTested latch condition exit =>
    obtain ⟨only,tests⟩ := classify_postTested found
    exact latchTest_left natural only tests
  | endless exit => exact classify_endless found ▸ survey.endlessExit_left loop

end Survey

theorem takeStart_splits (taken : takeStart out index = (start,out')) : out = out' ++ start.toList := by
  unfold takeStart at taken
  split at taken
  · rename_i last at_
    obtain ⟨rest,rfl⟩ := List.getLast?_eq_some_iff.mp at_
    split at taken <;> cases taken <;> simp
  · cases taken
    simp

theorem recoverInduction_splits (recovered : recoverInduction? condition body out = some parts) :
    out = parts.out ++ [parts.start] ∧ body = parts.body ++ [parts.update] ∧
      (inductionLocal? parts.update).isSome = true := by
  unfold recoverInduction? at recovered
  simp only [Option.bind_eq_bind,Option.bind_eq_some_iff] at recovered
  obtain ⟨update,lastOfBody,index,advances,start,lastOfOut,recovered⟩ := recovered
  obtain ⟨before,rfl⟩ := List.getLast?_eq_some_iff.mp lastOfOut
  obtain ⟨inner,rfl⟩ := List.getLast?_eq_some_iff.mp lastOfBody
  split at recovered
  · cases recovered
    simp [advances]
  · cases recovered

theorem inductionLocal_plain {statement : Statement} (advances : (inductionLocal? statement).isSome = true) :
    statement.isPlain = true := by
  cases statement <;> first | rfl | cases advances

theorem assignedLocal_plain {statement : Statement} {index : UInt16} (assigns : assignedLocal? statement = some index) :
    statement.isPlain = true := by
  cases statement <;> first | rfl | cases assigns

theorem takeStart_plain {start : Option Statement} {index : UInt16} (taken : takeStart out index = (start,out')) :
    ∀ statement ∈ start.toList, statement.isPlain = true := by
  unfold takeStart at taken
  split at taken
  · split at taken
    · rename_i assigns
      cases taken
      intro statement member
      cases List.mem_singleton.mp member
      exact assignedLocal_plain assigns
    · cases taken
      simp
  · cases taken
    simp

theorem recoverInduction_plain {condition : Condition} {parts : Recovered}
    (recovered : recoverInduction? condition out' out = some parts) :
    parts.start.isPlain = true ∧ parts.update.isPlain = true := by
  refine ⟨?_,inductionLocal_plain (recoverInduction_splits recovered).2.2⟩
  unfold recoverInduction? at recovered
  simp only [Option.bind_eq_bind,Option.bind_eq_some_iff] at recovered
  obtain ⟨_,_,index,_,start,_,recovered⟩ := recovered
  split at recovered
  · rename_i both
    cases recovered
    exact assignedLocal_plain both.2
  · cases recovered

end Untangle
