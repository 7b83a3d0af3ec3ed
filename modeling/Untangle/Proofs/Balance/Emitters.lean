import Untangle.Proofs.Balance.Balanced
import Untangle.Proofs.Emission.Inversion
import Untangle.Proofs.Emission.Shapes
import Untangle.Proofs.Flow.Reach
import Untangle.Proofs.Protection.Regions

namespace Untangle
namespace Survey
open Emission
variable {survey : Survey} {emit : Emitter} {scope : Scope} {loop : NaturalLoop} {region : List BlockId}
  {block bodyEntry exit latch thenTarget elseTarget default : BlockId} {stop next : Option BlockId}
  {out out' : Block} {before after : Progress} {condition : Condition} {statement : Statement}

-- Latches and handlers are taken without a look at the region, but they are live when their loop or their
-- range is.
structure Grounded (survey : Survey) : Prop where
  latches : ∀ loop ∈ survey.loops, loop.header ∈ survey.live → ∀ latch ∈ loop.latches, latch ∈ survey.live
  handlers : ∀ range ∈ survey.tries, range.first ∈ survey.live →
    ∀ clause ∈ range.clauses, clause.handler ∈ survey.live

theorem grounded_of_make {graph : BlockGraph} {settings : StructuringSettings}
    (made : Survey.make graph settings = .ok survey) : survey.Grounded := by
  obtain ⟨rfl,live,_,_,loops,tries⟩ := make_ok made
  refine ⟨?_,?_⟩
  · intro loop member header latch back
    rw [live] at header ⊢
    exact BlockGraph.live_walk header (LoopForest.latch_reached loops member back)
  · intro range member first clause listed
    rw [live] at first ⊢
    obtain ⟨row,known,⟨start,past⟩,handler⟩ := (TryRegion.groups_of_group tries).handlers range member clause listed
    have inside := (BlockGraph.handler_inside known).proper
    have covers : row.covers range.first = true := by
      unfold ProtectedRange.covers
      simpa [start] using inside
    exact handler ▸ BlockGraph.live_handler first known covers

theorem emitBranch_balanced (balances : emit.Balances survey)
    (gives : Gives (survey.emitBranch emit scope block condition thenTarget elseTarget stop out) before
      (out',next) after) (live : scope.Live survey) :
    Balanced survey before.taken out out' after.taken ∧ ∀ block, next = some block → block ∈ survey.live := by
  obtain ⟨merge,events,thenBlock,elseBlock,middle,later,openEnded,_,thenArm,elseArm,rest⟩ :=
    emitBranch_gives gives
  have arms := (arm_balanced balances thenArm live).both (arm_balanced balances elseArm live)
  exact follow_balanced rest live (arms.congr (branchForm_atoms _ _ _ _)).behind

theorem emitArms_balanced {pendings : List PendingArm} (balances : emit.Balances survey)
    (gives : Gives (emitArms emit scope block stop pendings) before arms after) (live : scope.Live survey) :
    Balanced survey before.taken [] (arms.flatMap (·.body)) after.taken := by
  induction pendings generalizing before arms with
  | nil =>
    obtain ⟨rfl,rfl⟩ := emitArms_nil gives
    exact .refl _ _ _
  | cons current rest ih =>
    obtain ⟨body,middle,others,first,second,rfl⟩ := emitArms_cons gives
    exact (arm_balanced balances first live).both (ih second)

theorem emitSwitch_balanced (balances : emit.Balances survey)
    (gives : Gives (survey.emitSwitch emit scope block discriminant cases default stop out) before
      (out',next) after) (live : scope.Live survey) :
    Balanced survey before.taken out out' after.taken ∧ ∀ block, next = some block → block ∈ survey.live := by
  obtain ⟨merge,arms,id,events,built,middle,statement,_,_,_,rfl,emitted,_,rest⟩ := emitSwitch_gives gives
  have inner := emitArms_balanced balances emitted live
  refine follow_balanced rest live (inner.congr ?_).behind
  rw [blockAtoms_single,Statement.atoms,armAtoms_bodies]

theorem emitPreTested_balanced (balances : emit.Balances survey) (header : loop.header ∈ survey.live)
    (latches : ∀ latch ∈ loop.latches, latch ∈ survey.live)
    (found : survey.headerTest? loop = some (.preTested condition bodyEntry exit))
    (gives : Gives (survey.emitPreTested emit scope loop region condition bodyEntry exit out) before
      (statement,out') after) (live : scope.Live survey) :
    Balanced survey before.taken out (out' ++ [statement]) after.taken := by
  obtain ⟨id,body,middle,_,fresh,emitted,built⟩ := emitPreTested_gives gives
  obtain ⟨bare,_,_,_,tests,_⟩ := headerTest_some found
  have empty : survey.graph.content loop.header = [] := by
    simp [BlockGraph.content,bare,tests,Terminator.exit?]
  have taken : Balanced survey before.taken [] ([] ++ survey.graph.content loop.header)
      (loop.header :: before.taken) := .take fresh header
  have first : Balanced survey before.taken [] [] (loop.header :: before.taken) := by
    rwa [empty] at taken
  have inner := first.both (arm_balanced balances emitted (live.narrow region))
  rcases built with ⟨latch,registry,start,shared,untaken,_,rfl,started,rfl⟩ |
    ⟨_,registry,parts,recovered,_,_,_,rfl,rfl,rfl⟩ | ⟨_,rfl,rfl,rfl⟩
  · obtain ⟨single,_,_,back,update,holds⟩ := updateBlock_some shared
    have content : survey.graph.content latch = [update] := by
      simp [BlockGraph.content,holds,back,Terminator.exit?]
    have whole := inner.trans (.take untaken (latches latch (by simp [single])))
    have splits : out = out' ++ start.toList := by
      rcases started with ⟨rfl,rfl⟩ | ⟨index,_,taken⟩
      · simp
      · exact takeStart_splits taken.symm
    refine whole.behind.congr ?_
    rw [splits,content,holds]
    simp [blockAtoms_append,blockAtoms,forLoop_atoms]
  · obtain ⟨rfl,rfl,_⟩ := recoverInduction_splits recovered
    refine inner.behind.congr ?_
    simp [blockAtoms_append,blockAtoms,forLoop_atoms]
  · exact (inner.congr (by simp [blockAtoms,Statement.atoms])).behind

theorem emitPostTested_balanced (out : Block) (balances : emit.Balances survey) (header : loop.header ∈ survey.live)
    (latches : ∀ latch ∈ loop.latches, latch ∈ survey.live)
    (found : survey.latchTest? loop latch = some (.postTested latch condition exit))
    (single : loop.latches = [latch])
    (gives : Gives (survey.emitPostTested emit scope loop region latch condition exit) before statement after)
    (live : scope.Live survey) : Balanced survey before.taken out (out ++ [statement]) after.taken := by
  obtain ⟨id,body,middle,_,rfl,built,untaken,rfl⟩ := emitPostTested_gives gives
  obtain ⟨_,_,_,tests,_⟩ := latchTest_some found
  have content : survey.graph.content latch = survey.graph.statements latch := by
    simp [BlockGraph.content,tests,Terminator.exit?]
  have inner : Balanced survey before.taken [] body middle.taken := by
    rcases built with ⟨_,rfl,rfl⟩ | ⟨_,emitted⟩
    · exact .refl _ _ _
    · have within := balances _ _ _ _ _ _ _ emitted (live.narrow region) header
      exact within
  have whole := inner.trans (.take untaken (latches latch (by simp [single])))
  rw [content] at whole
  exact (whole.congr (by rw [blockAtoms_single,Statement.atoms])).behind

theorem emitEndless_balanced {exit : Option BlockId} (out : Block) (balances : emit.Balances survey)
    (header : loop.header ∈ survey.live)
    (gives : Gives (emitEndless emit scope loop region exit) before statement after) (live : scope.Live survey) :
    Balanced survey before.taken out (out ++ [statement]) after.taken := by
  obtain ⟨id,body,_,rfl,emitted⟩ := emitEndless_gives gives
  have inner := balances _ _ _ _ _ _ _ emitted (live.narrow region) header
  exact (inner.congr (by rw [blockAtoms_single,Statement.atoms])).behind

theorem emitLoop_balanced (balances : emit.Balances survey) (header : loop.header ∈ survey.live)
    (latches : ∀ latch ∈ loop.latches, latch ∈ survey.live)
    (gives : Gives (survey.emitLoop emit scope loop stop out) before (out',next) after) (live : scope.Live survey) :
    Balanced survey before.taken out out' after.taken ∧ ∀ block, next = some block → block ∈ survey.live := by
  obtain ⟨shape,region,events,statement,front,middle,classified,_,built,rest⟩ := emitLoop_gives gives
  refine follow_balanced rest live ?_
  rcases built with ⟨condition,bodyEntry,exit,rfl,built⟩ | ⟨latch,condition,exit,rfl,rfl,built⟩ |
    ⟨exit,rfl,rfl,built⟩
  · have found := classify_preTested classified.symm
    have balanced := emitPreTested_balanced balances header latches found built live
    exact balanced
  · obtain ⟨single,found⟩ := classify_postTested classified.symm
    have balanced := emitPostTested_balanced front balances header latches found single built live
    exact balanced
  · have balanced := emitEndless_balanced front balances header built live
    exact balanced

theorem emitCatches_balanced {clauses : List CatchGroup} (balances : emit.Balances survey)
    (gives : Gives (emitCatches emit scope stop clauses) before catches after) (live : scope.Live survey)
    (handlers : ∀ clause ∈ clauses, clause.handler ∈ survey.live) :
    Balanced survey before.taken [] (catches.flatMap (·.body)) after.taken := by
  induction clauses generalizing before catches with
  | nil =>
    obtain ⟨rfl,rfl⟩ := emitCatches_nil gives
    exact .refl _ _ _
  | cons clause rest ih =>
    obtain ⟨body,middle,others,_,first,second,rfl⟩ := emitCatches_cons gives
    have handler : ∀ block, some clause.handler = some block → block ∈ survey.live := by
      intro block same
      cases same
      exact handlers clause List.mem_cons_self
    have here := sequence_balanced balances first live handler (.refl _ _ _)
    exact here.both (ih second fun other member => handlers other (List.mem_cons_of_mem _ member))

theorem emitTry_balanced {range : TryRegion} (balances : emit.Balances survey) (first : range.first ∈ survey.live)
    (handlers : ∀ clause ∈ range.clauses, clause.handler ∈ survey.live)
    (gives : Gives (survey.emitTry emit scope range index stop out) before (out',next) after)
    (live : scope.Live survey) :
    Balanced survey before.taken out out' after.taken ∧ ∀ block, next = some block → block ∈ survey.live := by
  obtain ⟨merge,events,body,middle,catches,later,_,protected_,caught,rest⟩ := emitTry_gives gives
  have start : ∀ block, some range.first = some block → block ∈ survey.live := by
    intro block same
    cases same
    exact first
  have inner : Balanced survey before.taken [] body middle.taken :=
    sequence_balanced balances protected_ (live.narrow _) start (.refl _ _ _)
  have whole := inner.both (emitCatches_balanced balances caught live handlers)
  refine follow_balanced rest live (whole.congr ?_).behind
  rw [blockAtoms_single,Statement.atoms,catchAtoms_bodies,blockAtoms_append]

theorem emitPlain_balanced (balances : emit.Balances survey) (here : block ∈ survey.live)
    (gives : Gives (survey.emitPlain emit scope block stop out) before (out',next) after)
    (live : scope.Live survey) :
    Balanced survey before.taken out out' after.taken ∧ ∀ block, next = some block → block ∈ survey.live := by
  obtain ⟨fresh,gives⟩ := emitPlain_gives gives
  have taken : Balanced survey before.taken out (out ++ survey.graph.content block) (block :: before.taken) :=
    .take fresh here
  unfold BlockGraph.content at taken
  cases at_ : survey.graph.terminator block with
  | goto target =>
    simp only [at_,Terminator.exit?,Option.toList_none,List.append_nil] at gives taken
    obtain ⟨rest,onward⟩ := flowTo_balanced gives live
    exact ⟨taken.trans rest,onward⟩
  | branch condition thenTarget elseTarget =>
    simp only [at_,Terminator.exit?,Option.toList_none,List.append_nil] at gives taken
    obtain ⟨rest,onward⟩ := emitBranch_balanced balances gives live
    exact ⟨taken.trans rest,onward⟩
  | switch discriminant cases default =>
    simp only [at_,Terminator.exit?,Option.toList_none,List.append_nil] at gives taken
    obtain ⟨rest,onward⟩ := emitSwitch_balanced balances gives live
    exact ⟨taken.trans rest,onward⟩
  | ret value =>
    simp only [at_] at gives taken
    obtain ⟨same,rfl⟩ := gives
    cases same
    exact ⟨by simpa [Terminator.exit?] using taken,by simp⟩
  | throw exception =>
    simp only [at_] at gives taken
    obtain ⟨_,same,rfl⟩ := gives
    cases same
    exact ⟨by simpa [Terminator.exit?] using taken,by simp⟩

end Survey
end Untangle
