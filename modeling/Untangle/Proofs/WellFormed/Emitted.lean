import Untangle.Proofs.Emission.Inversion
import Untangle.Proofs.Emission.Shapes
import Untangle.Proofs.WellFormed.Checked

namespace Untangle
open Emission
variable {allowed : Expr → Prop}

namespace Condition

theorem check_negated (op : CompareOp) (left right : Expr) :
    (compare op.negate left right).check = (compare op left right).check := by
  cases op <;> rfl

mutual
theorem negate_built : (condition : Condition) → (Node.ofCondition condition).Built allowed →
    (Node.ofCondition condition.negate).Built allowed
  | .compare op left right => by
    rw [negate,built_compare,built_compare,check_negated]
    exact id
  | .test value inverted => by
    rw [negate,built_test,built_test]
    exact id
  | .conj parts => by
    rw [negate,built_conj,built_disj]
    exact negateEach_built parts
  | .disj parts => by
    rw [negate,built_conj,built_disj]
    exact negateEach_built parts
  | .not inner => by
    rw [negate,built_not]
    exact id
  | .constant value => fun _ => built_constant
theorem negateEach_built : (parts : List Condition) → (∀ part ∈ parts, (Node.ofCondition part).Built allowed) →
    ∀ part ∈ negateEach parts, (Node.ofCondition part).Built allowed
  | [] => id
  | part :: rest => by
    rw [negateEach,List.forall_mem_cons,List.forall_mem_cons]
    exact fun ⟨first,others⟩ => ⟨part.negate_built first,negateEach_built rest others⟩
end

end Condition

def Terminator.parts : Terminator → List Node
  | goto _ => []
  | branch condition _ _ => [.ofCondition condition]
  | switch discriminant _ _ => [.ofExpr discriminant]
  | ret value => value.toList.map .ofExpr
  | throw exception => [.ofExpr exception]

namespace BlockGraph

def WellFormed (graph : BlockGraph) : Prop := ∀ block ∈ graph.blocks,
  Block.WellFormed block.statements ∧ ∀ part ∈ block.terminator.parts, part.WellFormed

def Built (allowed : Expr → Prop) (graph : BlockGraph) : Prop := ∀ block ∈ graph.blocks,
  Block.Built allowed block.statements ∧ ∀ part ∈ block.terminator.parts, part.Built allowed

theorem wellFormed_built {graph : BlockGraph} : graph.WellFormed ↔ graph.Built Expr.Valid := by
  simp only [WellFormed,Built,Block.wellFormed_built,Node.wellFormed_built]

variable {graph : BlockGraph}

theorem Built.statements (formed : graph.Built allowed) (block : BlockId) :
    Block.Built allowed (graph.statements block) := by
  unfold BlockGraph.statements
  split
  · rename_i found at_
    exact (formed found (List.mem_of_getElem? at_)).1
  · exact Block.built_nil

theorem Built.parts (formed : graph.Built allowed) (block : BlockId) :
    ∀ part ∈ (graph.terminator block).parts, part.Built allowed := by
  unfold BlockGraph.terminator
  split
  · rename_i found at_
    exact (formed found (List.mem_of_getElem? at_)).2
  · simp [Terminator.parts]

end BlockGraph

section
variable {scope : Scope} {source target : BlockId} {stop merge next : Option BlockId} {out out' : Block}
  {before after : Progress} {emit : Emitter}

theorem flowTo_built (gives : Gives (flowTo scope source target stop out) before (out',next) after)
    (formed : Block.Built allowed out) : Block.Built allowed out' := by
  rcases gives_flowTo gives with ⟨_,same,_⟩ | ⟨_,resolved,result,_,jumps,same⟩ | ⟨_,_,_,_,same,_⟩
  · cases same
    exact formed
  · cases same
    obtain ⟨registry,brk,_,_,rfl,_⟩ := gives_jump jumps
    simp [formed,Statement.built_iff,Statement.check,Statement.parts,Statement.childBlocks]
  · cases same
    exact formed

theorem follow_built (gives : Gives (follow scope source merge stop out) before (out',next) after)
    (formed : Block.Built allowed out) : Block.Built allowed out' := by
  unfold follow at gives
  cases merge with
  | none =>
    obtain ⟨same,_⟩ := gives_pure.mp gives
    cases same
    exact formed
  | some target => exact flowTo_built gives formed

def Emitter.Forms (emit : Emitter) (allowed : Expr → Prop) : Prop :=
  ∀ scope block stop out before out' after, Gives (emit scope block stop out) before out' after →
    Block.Built allowed out → Block.Built allowed out'

theorem sequence_built (forms : emit.Forms allowed)
    (gives : Gives (Emission.sequence emit scope next stop out) before out' after) (formed : Block.Built allowed out) :
    Block.Built allowed out' := by
  unfold Emission.sequence at gives
  cases next with
  | none =>
    obtain ⟨rfl,_⟩ := gives_pure.mp gives
    exact formed
  | some block =>
    dsimp only at gives
    split at gives
    · obtain ⟨rfl,_⟩ := gives_pure.mp gives
      exact formed
    · exact forms _ _ _ _ _ _ _ gives formed

theorem arm_built (forms : emit.Forms allowed) (gives : Gives (arm emit scope source target stop) before out' after) :
    Block.Built allowed out' := by
  obtain ⟨start,next,middle,flows,rest⟩ := gives_arm gives
  exact sequence_built forms rest (flowTo_built flows Block.built_nil)

end

theorem branchForm_built {condition : Condition} {thenBlock elseBlock : Block} (openEnded : Bool)
    (tested : (Node.ofCondition condition).Built allowed) (first : Block.Built allowed thenBlock)
    (second : Block.Built allowed elseBlock) :
    Block.Built allowed (branchForm condition thenBlock elseBlock openEnded) := by
  have negated := condition.negate_built tested
  unfold branchForm
  repeat' split
  all_goals
    simp [Statement.built_iff,Statement.check,Statement.parts,Statement.childBlocks,tested,negated,first,second]

namespace Survey
variable {survey : Survey} {emit : Emitter} {scope : Scope} {loop : NaturalLoop} {region : List BlockId}
  {block bodyEntry exit latch thenTarget elseTarget default : BlockId} {stop next : Option BlockId}
  {out out' : Block} {before after : Progress} {condition : Condition} {statement : Statement}
  {discriminant : Expr} {cases : List (Int32 × BlockId)}

theorem emitBranch_built (forms : emit.Forms allowed) (tested : (Node.ofCondition condition).Built allowed)
    (gives : Gives (survey.emitBranch emit scope block condition thenTarget elseTarget stop out) before
      (out',next) after) (formed : Block.Built allowed out) : Block.Built allowed out' := by
  obtain ⟨merge,events,thenBlock,elseBlock,middle,later,openEnded,_,thenArm,elseArm,rest⟩ :=
    emitBranch_gives gives
  have built := branchForm_built openEnded tested (arm_built forms thenArm) (arm_built forms elseArm)
  exact follow_built rest (Block.built_append.mpr ⟨formed,built⟩)

theorem emitArms_built {pendings : List PendingArm} {arms : List SwitchArm} (forms : emit.Forms allowed)
    (gives : Gives (emitArms emit scope block stop pendings) before arms after) :
    ∀ arm ∈ arms, Block.Built allowed arm.body := by
  induction pendings generalizing before arms with
  | nil =>
    obtain ⟨rfl,_⟩ := emitArms_nil gives
    simp
  | cons current rest ih =>
    obtain ⟨body,middle,others,first,second,rfl⟩ := emitArms_cons gives
    exact List.forall_mem_cons.mpr ⟨arm_built forms first,ih second⟩

theorem emitSwitch_built (forms : emit.Forms allowed) (selects : (Node.ofExpr discriminant).Built allowed)
    (gives : Gives (survey.emitSwitch emit scope block discriminant cases default stop out) before
      (out',next) after) (formed : Block.Built allowed out) : Block.Built allowed out' := by
  obtain ⟨merge,arms,id,events,built,middle,statement,_,_,_,rfl,emitted,passed,rest⟩ := emitSwitch_gives gives
  have bodies := emitArms_built forms emitted
  refine follow_built rest ?_
  simp [formed,Statement.built_iff,passed,Statement.parts,Statement.childBlocks,selects]
  exact bodies

theorem headerTest_built (graph : survey.graph.Built allowed)
    (found : survey.headerTest? loop = some (.preTested condition bodyEntry exit)) :
    (Node.ofCondition condition).Built allowed := by
  obtain ⟨_,tested,_,_,at_,shape⟩ := headerTest_some found
  have formed := graph.parts loop.header
  simp only [at_,Terminator.parts,List.forall_mem_singleton] at formed
  rcases shape with ⟨_,_,same⟩ | ⟨_,_,same⟩
  · cases same
    exact formed
  · cases same
    exact tested.negate_built formed

theorem latchTest_built (graph : survey.graph.Built allowed)
    (found : survey.latchTest? loop latch = some (.postTested latch condition exit)) :
    (Node.ofCondition condition).Built allowed := by
  obtain ⟨tested,_,_,at_,shape⟩ := latchTest_some found
  have formed := graph.parts latch
  simp only [at_,Terminator.parts,List.forall_mem_singleton] at formed
  rcases shape with ⟨_,_,same⟩ | ⟨_,_,same⟩
  · cases same
    exact formed
  · cases same
    exact tested.negate_built formed

theorem forLoop_built {id : BreakableId} {start update : Option Statement} {body : Block}
    (tested : (Node.ofCondition condition).Built allowed) (starts : Block.Built allowed start.toList)
    (updates : Block.Built allowed update.toList) (formed : Block.Built allowed body) :
    (Node.ofStatement (.forLoop id start condition update body)).Built allowed := by
  rw [Block.built_statements] at starts updates
  rw [Statement.built_iff]
  simp only [Statement.check,Statement.parts,Statement.childBlocks,List.forall_mem_append,List.forall_mem_cons,
    List.forall_mem_map]
  exact ⟨trivial,⟨starts,tested,updates⟩,formed,by simp⟩

theorem emitPreTested_built (graph : survey.graph.Built allowed) (forms : emit.Forms allowed)
    (found : survey.headerTest? loop = some (.preTested condition bodyEntry exit))
    (gives : Gives (survey.emitPreTested emit scope loop region condition bodyEntry exit out) before
      (statement,out') after) (formed : Block.Built allowed out) : Block.Built allowed (out' ++ [statement]) := by
  obtain ⟨id,body,middle,_,_,emitted,built⟩ := emitPreTested_gives gives
  have inside := arm_built forms emitted
  have tested := headerTest_built graph found
  rcases built with ⟨latch,registry,start,shared,_,_,rfl,started,_⟩ |
    ⟨_,registry,parts,recovered,_,_,_,rfl,rfl,_⟩ | ⟨_,rfl,rfl,_⟩
  · obtain ⟨_,_,_,_,update,holds⟩ := updateBlock_some shared
    have updates := graph.statements latch
    rw [holds] at updates
    have splits : out = out' ++ start.toList := by
      rcases started with ⟨rfl,rfl⟩ | ⟨index,_,taken⟩
      · simp
      · exact takeStart_splits taken.symm
    obtain ⟨front,starts⟩ := Block.built_append.mp (splits ▸ formed)
    rw [holds]
    exact Block.built_append.mpr ⟨front,Block.built_cons.mpr
      ⟨forLoop_built tested starts updates inside,Block.built_nil⟩⟩
  · obtain ⟨rfl,rfl,_⟩ := recoverInduction_splits recovered
    obtain ⟨front,starts⟩ := Block.built_append.mp formed
    obtain ⟨rest,updates⟩ := Block.built_append.mp inside
    exact Block.built_append.mpr ⟨front,Block.built_cons.mpr
      ⟨forLoop_built tested starts updates rest,Block.built_nil⟩⟩
  · simp [formed,Statement.built_iff,Statement.check,Statement.parts,Statement.childBlocks,tested,inside]

theorem emitPostTested_built (graph : survey.graph.Built allowed) (forms : emit.Forms allowed)
    (found : survey.latchTest? loop latch = some (.postTested latch condition exit))
    (gives : Gives (survey.emitPostTested emit scope loop region latch condition exit) before statement after) :
    (Node.ofStatement statement).Built allowed := by
  obtain ⟨id,body,middle,_,rfl,built,_,_⟩ := emitPostTested_gives gives
  have inside : Block.Built allowed body := by
    rcases built with ⟨_,rfl,_⟩ | ⟨_,emitted⟩
    · exact Block.built_nil
    · exact forms _ _ _ _ _ _ _ emitted Block.built_nil
  have tested := latchTest_built graph found
  have last := graph.statements latch
  simp [Statement.built_iff,Statement.check,Statement.parts,Statement.childBlocks,tested,inside,last]

theorem emitEndless_built {exit : Option BlockId} (forms : emit.Forms allowed)
    (gives : Gives (emitEndless emit scope loop region exit) before statement after) :
    (Node.ofStatement statement).Built allowed := by
  obtain ⟨id,body,_,rfl,emitted⟩ := emitEndless_gives gives
  have inside := forms _ _ _ _ _ _ _ emitted Block.built_nil
  simp [Statement.built_iff,Statement.check,Statement.parts,Statement.childBlocks,inside]

theorem emitLoop_built (graph : survey.graph.Built allowed) (forms : emit.Forms allowed)
    (gives : Gives (survey.emitLoop emit scope loop stop out) before (out',next) after)
    (formed : Block.Built allowed out) : Block.Built allowed out' := by
  obtain ⟨shape,region,events,statement,front,middle,classified,_,built,rest⟩ := emitLoop_gives gives
  refine follow_built rest ?_
  rcases built with ⟨condition,bodyEntry,exit,rfl,built⟩ | ⟨latch,condition,exit,rfl,rfl,built⟩ |
    ⟨exit,rfl,rfl,built⟩
  · exact emitPreTested_built graph forms (classify_preTested classified.symm) built formed
  · have loops := emitPostTested_built graph forms (classify_postTested classified.symm).2 built
    simp [formed,loops]
  · have loops := emitEndless_built forms built
    simp [formed,loops]

theorem emitCatches_built {clauses : List CatchGroup} {catches : List CatchClause} (forms : emit.Forms allowed)
    (gives : Gives (emitCatches emit scope stop clauses) before catches after) :
    ∀ clause ∈ catches, Block.Built allowed clause.body := by
  induction clauses generalizing before catches with
  | nil =>
    obtain ⟨rfl,_⟩ := emitCatches_nil gives
    simp
  | cons clause rest ih =>
    obtain ⟨body,middle,others,_,first,second,rfl⟩ := emitCatches_cons gives
    exact List.forall_mem_cons.mpr ⟨sequence_built forms first Block.built_nil,ih second⟩

theorem emitTry_built {range : TryRegion} (forms : emit.Forms allowed)
    (gives : Gives (survey.emitTry emit scope range index stop out) before (out',next) after)
    (formed : Block.Built allowed out) : Block.Built allowed out' := by
  obtain ⟨merge,events,body,middle,catches,later,_,protected_,caught,rest⟩ := emitTry_gives gives
  have inside := sequence_built forms protected_ Block.built_nil
  have handlers := emitCatches_built forms caught
  refine follow_built rest (Block.built_append.mpr ⟨formed,Block.built_cons.mpr ⟨?_,Block.built_nil⟩⟩)
  simp only [Statement.built_iff,Statement.check,Statement.parts,Statement.childBlocks,List.forall_mem_cons,
    List.forall_mem_map]
  exact ⟨trivial,by simp,inside,handlers⟩

theorem emitPlain_built (graph : survey.graph.Built allowed) (forms : emit.Forms allowed)
    (gives : Gives (survey.emitPlain emit scope block stop out) before (out',next) after)
    (formed : Block.Built allowed out) : Block.Built allowed out' := by
  obtain ⟨_,gives⟩ := emitPlain_gives gives
  have inside : Block.Built allowed (out ++ survey.graph.statements block) :=
    Block.built_append.mpr ⟨formed,graph.statements block⟩
  have ends := graph.parts block
  cases at_ : survey.graph.terminator block with
  | goto target =>
    rw [at_] at gives
    exact flowTo_built gives inside
  | branch condition thenTarget elseTarget =>
    rw [at_] at gives ends
    exact emitBranch_built forms (ends _ (List.mem_singleton.mpr rfl)) gives inside
  | switch discriminant cases default =>
    rw [at_] at gives ends
    exact emitSwitch_built forms (ends _ (List.mem_singleton.mpr rfl)) gives inside
  | ret value =>
    rw [at_] at gives ends
    obtain ⟨same,_⟩ := gives
    cases same
    have leaves : (Node.ofStatement (.ret value)).Built allowed := by
      rw [Statement.built_iff]
      exact ⟨rfl,ends,by simp [Statement.childBlocks]⟩
    exact Block.built_append.mpr ⟨inside,Block.built_cons.mpr ⟨leaves,Block.built_nil⟩⟩
  | throw exception =>
    rw [at_] at gives ends
    obtain ⟨passed,same,_⟩ := gives
    cases same
    have leaves : (Node.ofStatement (.throw exception)).Built allowed := by
      rw [Statement.built_iff]
      exact ⟨passed,ends,by simp [Statement.childBlocks]⟩
    exact Block.built_append.mpr ⟨inside,Block.built_cons.mpr ⟨leaves,Block.built_nil⟩⟩

theorem emitBlock_built (graph : survey.graph.Built allowed) (forms : emit.Forms allowed)
    (gives : Gives (survey.emitBlock emit scope block stop out) before (out',next) after)
    (formed : Block.Built allowed out) : Block.Built allowed out' := by
  rcases emitBlock_gives gives with ⟨range,index,_,_,emitted⟩ | ⟨loop,_,_,_,emitted⟩ | ⟨_,emitted⟩
  · exact emitTry_built forms emitted formed
  · exact emitLoop_built graph forms emitted formed
  · exact emitPlain_built graph forms emitted formed

theorem emitFrom_forms (graph : survey.graph.Built allowed) (fuel : Nat) : (survey.emitFrom fuel).Forms allowed := by
  induction fuel with
  | zero =>
    intro scope block stop out before out' after gives
    exact absurd gives emitFrom_zero
  | succ fuel ih =>
    intro scope block stop out before last after gives formed
    obtain ⟨out',next,middle,emitted,rest⟩ := emitFrom_succ gives
    exact sequence_built ih rest (emitBlock_built graph ih emitted formed)

end Survey

theorem structured_built {graph : BlockGraph} {settings : StructuringSettings} {result : Structured}
    (done : graph.structured settings = .ok result) (formed : graph.Built allowed) :
    Block.Built allowed result.body := by
  obtain ⟨survey,made,finished⟩ := BlockGraph.structured_ok done
  obtain ⟨rfl,_⟩ := Survey.make_ok made
  obtain ⟨_,emitted,progress,gives,_,body,_⟩ := Survey.structured_gives finished
  have whole := Survey.emitFrom_forms formed _ _ _ _ _ _ _ _ gives Block.built_nil
  obtain ⟨trailing,_,same⟩ := withoutTrailingReturn_splits emitted
  rw [same,← body] at whole
  exact (Block.built_append.mp whole).1

theorem structured_wellFormed {graph : BlockGraph} {settings : StructuringSettings} {result : Structured}
    (done : graph.structured settings = .ok result) (formed : graph.WellFormed) : Block.WellFormed result.body :=
  Block.wellFormed_built.mpr (structured_built done (BlockGraph.wellFormed_built.mp formed))

end Untangle
