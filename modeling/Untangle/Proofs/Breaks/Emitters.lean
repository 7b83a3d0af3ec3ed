import Untangle.Proofs.Breaks.Tracking
import Untangle.Proofs.Emission.Inversion
import Untangle.Proofs.Emission.Shapes

namespace Untangle
open Emission

def Tracked (around : Enclosing) (before : Registry) (out out' : Block) (after : Registry) : Prop :=
  ∃ marks, (blockMarks around out').Perm (blockMarks around out ++ marks) ∧ before.Tracks marks after

namespace Tracked
variable {around : Enclosing} {before middle after : Registry} {out out' last code : Block}

theorem refl (around : Enclosing) (registry : Registry) (out : Block) : Tracked around registry out out registry :=
  ⟨[],by simp,.refl _⟩

theorem trans (first : Tracked around before out out' middle) (second : Tracked around middle out' last after) :
    Tracked around before out last after := by
  obtain ⟨one,onePerm,oneTracks⟩ := first
  obtain ⟨two,twoPerm,twoTracks⟩ := second
  refine ⟨one ++ two,?_,oneTracks.trans twoTracks⟩
  rw [← List.append_assoc]
  exact twoPerm.trans (onePerm.append_right _)

theorem whole (tracked : Tracked around before [] code after) : before.Tracks (blockMarks around code) after := by
  obtain ⟨marks,perm,tracks⟩ := tracked
  exact tracks.perm perm.symm

theorem of_whole (tracks : before.Tracks (blockMarks around code) after) :
    Tracked around before out (out ++ code) after :=
  ⟨_,by rw [blockMarks_append],tracks⟩

theorem behind (tracked : Tracked around before [] code after) : Tracked around before out (out ++ code) after :=
  of_whole tracked.whole

theorem congr (tracked : Tracked around before out out' after)
    (same : (blockMarks around last).Perm (blockMarks around out')) : Tracked around before out last after := by
  obtain ⟨marks,perm,tracks⟩ := tracked
  exact ⟨marks,same.trans perm,tracks⟩

theorem both (first : Tracked around before [] out middle) (second : Tracked around middle [] out' after) :
    Tracked around before [] (out ++ out') after :=
  first.trans second.behind

theorem plain (quiet : ∀ statement ∈ code, statement.isPlain = true) :
    Tracked around before out (out ++ code) before :=
  ⟨[],by rw [blockMarks_append,blockMarks_plain quiet],.refl _⟩

theorem known {scope : Scope} (tracked : Tracked around before out out' after) (known : scope.Known before) :
    scope.Known after := by
  obtain ⟨_,_,tracks⟩ := tracked
  exact known.grown tracks

end Tracked

variable {around : Enclosing} {scope : Scope} {stop merge next : Option BlockId} {before after : Progress}
  {out out' last : Block} {target source : BlockId} {registry : Registry}

theorem branchForm_marks (around : Enclosing) (condition : Condition) (thenBlock elseBlock : Block)
    (openEnded : Bool) : (blockMarks around (branchForm condition thenBlock elseBlock openEnded)).Perm
      (blockMarks around (thenBlock ++ elseBlock)) := by
  unfold branchForm
  rw [blockMarks_append]
  split
  · rename_i absent
    simp [List.isEmpty_iff.mp absent,blockMarks,Statement.marks]
  · split
    · rename_i absent
      simp [List.isEmpty_iff.mp absent,blockMarks,Statement.marks]
    · split
      · simp [blockMarks,Statement.marks]
      · split
        · simpa [blockMarks,Statement.marks] using List.perm_append_comm
        · simp [blockMarks,Statement.marks]

theorem jump_tracked {resolved : ResolvedJump}
    (gives : Gives (jump source resolved out) before out' after)
    (found : resolveJump? target scope.contexts = some resolved) (known : scope.Known before.registry) :
    Tracked scope.around before.registry out out' after.registry := by
  obtain ⟨registry,brk,_,registered,rfl,rfl⟩ := gives_jump gives
  obtain ⟨_,_,fits⟩ := resolveJump_fits _ found known.distinct known.loops
  obtain ⟨rfl,tracks⟩ := Registry.Tracks.jump registered fits
  exact ⟨_,by simp [blockMarks_append,blockMarks,Statement.marks,Scope.around],tracks⟩

theorem flowTo_tracked (gives : Gives (flowTo scope source target stop out) before (out',next) after)
    (known : scope.Known before.registry) : Tracked scope.around before.registry out out' after.registry := by
  rcases gives_flowTo gives with ⟨_,same,rfl⟩ | ⟨_,resolved,result,found,jumps,same⟩ | ⟨_,_,_,_,same,rfl⟩
  · cases same
    exact .refl _ _ _
  · cases same
    exact jump_tracked jumps found known
  · cases same
    exact .refl _ _ _

theorem follow_tracked (gives : Gives (follow scope source merge stop out') before (last,next) after)
    (known : scope.Known before.registry) (tracked : Tracked scope.around registry out out' before.registry) :
    Tracked scope.around registry out last after.registry := by
  unfold follow at gives
  cases merge with
  | none =>
    obtain ⟨same,rfl⟩ := gives_pure.mp gives
    cases same
    exact tracked
  | some target => exact tracked.trans (flowTo_tracked gives known)

def Emitter.Tracks (emit : Emitter) : Prop :=
  ∀ scope block stop out before out' after, Gives (emit scope block stop out) before out' after →
    scope.Known before.registry → Tracked scope.around before.registry out out' after.registry

variable {emit : Emitter}

theorem sequence_tracked (tracks : emit.Tracks)
    (gives : Gives (Emission.sequence emit scope next stop out') before last after)
    (known : scope.Known before.registry) (tracked : Tracked scope.around registry out out' before.registry) :
    Tracked scope.around registry out last after.registry := by
  unfold Emission.sequence at gives
  cases next with
  | none =>
    obtain ⟨rfl,rfl⟩ := gives_pure.mp gives
    exact tracked
  | some block =>
    dsimp only at gives
    split at gives
    · obtain ⟨rfl,rfl⟩ := gives_pure.mp gives
      exact tracked
    · exact tracked.trans (tracks _ _ _ _ _ _ _ gives known)

theorem arm_tracked (tracks : emit.Tracks) (gives : Gives (arm emit scope source target stop) before out' after)
    (known : scope.Known before.registry) : Tracked scope.around before.registry [] out' after.registry := by
  obtain ⟨start,next,middle,flows,rest⟩ := gives_arm gives
  have first := flowTo_tracked flows known
  exact sequence_tracked tracks rest (first.known known) first

theorem headerMarks_plain {part : Option Statement} (plain : ∀ statement ∈ part.toList, statement.isPlain = true) :
    ∃ headers, headerMarks part = headers ∧ jumpsOf headers = [] ∧ constructsOf headers = [] ∧
      ∀ mark ∈ headers, mark.Fits := by
  refine ⟨_,rfl,?_⟩
  cases part with
  | none => exact ⟨rfl,rfl,by simp [headerMarks]⟩
  | some statement =>
    refine ⟨rfl,rfl,?_⟩
    intro mark member
    cases List.mem_singleton.mp member
    exact plain statement (by simp)

theorem Registry.Tracks.headers {before after : Registry} {marks : List Mark} {part : Option Statement}
    (tracks : before.Tracks marks after) (plain : ∀ statement ∈ part.toList, statement.isPlain = true) :
    before.Tracks (headerMarks part ++ marks) after := by
  obtain ⟨headers,same,jumps,constructs,fits⟩ := headerMarks_plain plain
  rw [same]
  have noJumps : jumpsOf (headers ++ marks) = jumpsOf marks := by
    unfold jumpsOf at *
    rw [List.filterMap_append,jumps,List.nil_append]
  have noConstructs : constructsOf (headers ++ marks) = constructsOf marks := by
    unfold constructsOf at *
    rw [List.filterMap_append,constructs,List.nil_append]
  refine ⟨noConstructs ▸ tracks.declared,noConstructs ▸ tracks.kinds,tracks.kept,noJumps ▸ tracks.handed,?_,
    noJumps ▸ tracks.recorded,tracks.remembered,noJumps ▸ tracks.labelled,tracks.labels,?_⟩
  · unfold aimedAt
    rw [noJumps]
    exact tracks.listed
  · intro mark member
    rcases List.mem_append.mp member with first | rest
    · exact fits mark first
    · exact tracks.fits mark rest

namespace Survey
variable {survey : Survey} {loop : NaturalLoop} {region : List BlockId} {statement : Statement}
  {block bodyEntry exit latch thenTarget elseTarget default : BlockId} {condition : Condition}

theorem emitBranch_tracked (tracks : emit.Tracks)
    (gives : Gives (survey.emitBranch emit scope block condition thenTarget elseTarget stop out) before
      (out',next) after) (known : scope.Known before.registry) :
    Tracked scope.around before.registry out out' after.registry := by
  obtain ⟨merge,events,thenBlock,elseBlock,middle,later,openEnded,_,thenArm,elseArm,rest⟩ :=
    emitBranch_gives gives
  have first := arm_tracked tracks thenArm known
  have both := first.both (arm_tracked tracks elseArm (first.known known))
  exact follow_tracked rest (both.known known) (both.congr (branchForm_marks _ _ _ _ _)).behind

theorem emitArms_tracked {pendings : List PendingArm} (tracks : emit.Tracks)
    (gives : Gives (emitArms emit scope block stop pendings) before arms after)
    (known : scope.Known before.registry) :
    Tracked scope.around before.registry [] (arms.flatMap (·.body)) after.registry := by
  induction pendings generalizing before arms with
  | nil =>
    obtain ⟨rfl,rfl⟩ := emitArms_nil gives
    exact .refl _ _ _
  | cons current rest ih =>
    obtain ⟨body,middle,others,first,second,rfl⟩ := emitArms_cons gives
    have here := arm_tracked tracks first known
    exact here.both (ih second (here.known known))

theorem switch_tracked {arms : List SwitchArm} (discriminant : Expr)
    (tracked : Tracked ((before.registry.breakables.length,false) :: scope.around)
      (before.registry.declare .switch).2 [] (arms.flatMap (·.body)) after.registry) :
    before.registry.Tracks
      ((Statement.switch before.registry.breakables.length discriminant arms).marks scope.around) after.registry := by
  rw [Statement.marks,armMarks_bodies]
  exact tracked.whole.declare _

theorem emitSwitch_tracked (tracks : emit.Tracks)
    (gives : Gives (survey.emitSwitch emit scope block discriminant cases default stop out) before
      (out',next) after) (known : scope.Known before.registry) :
    Tracked scope.around before.registry out out' after.registry := by
  obtain ⟨merge,arms,id,events,built,middle,statement,_,_,rfl,rfl,emitted,_,rest⟩ := emitSwitch_gives gives
  have inner := emitArms_tracked tracks emitted (known.inside .switch merge none (by simp))
  have all : Tracked scope.around before.registry out
      (out ++ [.switch before.registry.breakables.length discriminant built]) middle.registry :=
    .of_whole (by rw [blockMarks_single]; exact switch_tracked _ inner)
  exact follow_tracked rest (all.known known) all

theorem emitPreTested_tracked (tracks : emit.Tracks) (plain : survey.graph.Plain)
    (gives : Gives (survey.emitPreTested emit scope loop region condition bodyEntry exit out) before
      (statement,out') after) (known : scope.Known before.registry) :
    blockMarks scope.around out' = blockMarks scope.around out ∧
      before.registry.Tracks (statement.marks scope.around) after.registry := by
  obtain ⟨id,body,middle,rfl,_,emitted,built⟩ := emitPreTested_gives gives
  have inner := (arm_tracked tracks emitted ((known.narrow region).inside .whileLoop _ _ (fun _ _ => rfl))).whole
  have looped := inner.declare .whileLoop
  have headed {start update : Option Statement} {marks : List Mark} {kind : BreakableKind} {registry : Registry}
      (first : ∀ statement ∈ start.toList, statement.isPlain = true)
      (last : ∀ statement ∈ update.toList, statement.isPlain = true)
      (tracks : before.registry.Tracks (.construct before.registry.breakables.length kind :: marks) registry) :
      before.registry.Tracks (.construct before.registry.breakables.length kind ::
        (headerMarks start ++ headerMarks update ++ marks)) registry := by
    refine ((tracks.headers last).headers first).perm ?_
    rw [← List.append_assoc]
    exact List.perm_middle
  rcases built with ⟨latch,registry,start,shared,_,marked,rfl,started,rfl⟩ |
    ⟨_,registry,parts,recovered,_,_,marked,rfl,rfl,rfl⟩ | ⟨_,rfl,rfl,rfl⟩
  · have whole := looped.setKind (Nat.le_refl _) marked
    have last : ∀ statement ∈ (survey.graph.statements latch).head?.toList, statement.isPlain = true := by
      intro statement member
      exact plain latch statement (List.mem_of_head? (Option.mem_toList.mp member))
    have first : out = out' ++ start.toList ∧ ∀ statement ∈ start.toList, statement.isPlain = true := by
      rcases started with ⟨rfl,rfl⟩ | ⟨index,_,taken⟩
      · simp
      · exact ⟨takeStart_splits taken.symm,takeStart_plain taken.symm⟩
    refine ⟨?_,headed first.2 last whole⟩
    rw [first.1,blockMarks_append,blockMarks_plain first.2,List.append_nil]
  · have whole := looped.setKind (Nat.le_refl _) marked
    obtain ⟨outSplit,bodySplit,_⟩ := recoverInduction_splits recovered
    obtain ⟨startPlain,updatePlain⟩ := recoverInduction_plain recovered
    refine ⟨?_,headed (by simpa using startPlain) (by simpa using updatePlain) ?_⟩
    · rw [outSplit,blockMarks_append,blockMarks_single,plain_marks startPlain,List.append_nil]
    · rw [bodySplit,blockMarks_append,blockMarks_single,plain_marks updatePlain,List.append_nil] at whole
      exact whole
  · exact ⟨rfl,looped⟩

theorem emitPostTested_tracked (tracks : emit.Tracks) (plain : survey.graph.Plain)
    (gives : Gives (survey.emitPostTested emit scope loop region latch condition exit) before statement after)
    (known : scope.Known before.registry) :
    before.registry.Tracks (statement.marks scope.around) after.registry := by
  obtain ⟨id,body,middle,rfl,rfl,built,_,rfl⟩ := emitPostTested_gives gives
  have inside := (known.narrow region).inside .doWhile (some exit) (some latch) (fun _ _ => rfl)
  have inner : Tracked ((before.registry.breakables.length,true) :: scope.around)
      (before.registry.declare .doWhile).2 [] body middle.registry := by
    rcases built with ⟨_,rfl,rfl⟩ | ⟨_,emitted⟩
    · exact .refl _ _ _
    · exact tracks _ _ _ _ _ _ _ emitted inside
  exact (inner.trans (.plain (plain latch))).whole.declare .doWhile

theorem emitEndless_tracked {exit : Option BlockId} (tracks : emit.Tracks)
    (gives : Gives (emitEndless emit scope loop region exit) before statement after)
    (known : scope.Known before.registry) :
    before.registry.Tracks (statement.marks scope.around) after.registry := by
  obtain ⟨id,body,rfl,rfl,emitted⟩ := emitEndless_gives gives
  have inside := (known.narrow region).inside .whileLoop exit (some loop.header) (fun _ _ => rfl)
  have inner := tracks _ _ _ _ _ _ _ emitted inside
  exact inner.whole.declare .whileLoop

theorem emitLoop_tracked (tracks : emit.Tracks) (plain : survey.graph.Plain)
    (gives : Gives (survey.emitLoop emit scope loop stop out) before (out',next) after)
    (known : scope.Known before.registry) : Tracked scope.around before.registry out out' after.registry := by
  obtain ⟨shape,region,events,statement,front,middle,_,_,built,rest⟩ := emitLoop_gives gives
  have both : blockMarks scope.around front = blockMarks scope.around out ∧
      before.registry.Tracks (statement.marks scope.around) middle.registry := by
    rcases built with ⟨condition,bodyEntry,exit,_,built⟩ | ⟨latch,condition,exit,_,rfl,built⟩ | ⟨exit,_,rfl,built⟩
    · have tracked := emitPreTested_tracked tracks plain built known
      exact tracked
    · have tracked := emitPostTested_tracked tracks plain built known
      exact ⟨rfl,tracked⟩
    · have tracked := emitEndless_tracked tracks built known
      exact ⟨rfl,tracked⟩
  have all : Tracked scope.around before.registry out (front ++ [statement]) middle.registry :=
    ⟨_,by rw [blockMarks_append,both.1,blockMarks_single],both.2⟩
  exact follow_tracked rest (all.known known) all

theorem emitCatches_tracked {clauses : List CatchGroup} (tracks : emit.Tracks)
    (gives : Gives (emitCatches emit scope stop clauses) before catches after)
    (known : scope.Known before.registry) :
    Tracked scope.around before.registry [] (catches.flatMap (·.body)) after.registry := by
  induction clauses generalizing before catches with
  | nil =>
    obtain ⟨rfl,rfl⟩ := emitCatches_nil gives
    exact .refl _ _ _
  | cons clause rest ih =>
    obtain ⟨body,middle,others,_,first,second,rfl⟩ := emitCatches_cons gives
    have here := sequence_tracked tracks first known (.refl _ _ _)
    exact here.both (ih second (here.known known))

theorem emitTry_tracked {range : TryRegion} (tracks : emit.Tracks)
    (gives : Gives (survey.emitTry emit scope range index stop out) before (out',next) after)
    (known : scope.Known before.registry) : Tracked scope.around before.registry out out' after.registry := by
  obtain ⟨merge,events,body,middle,catches,later,_,emitted,caught,rest⟩ := emitTry_gives gives
  have protected_ := sequence_tracked tracks emitted (known.narrow _) (.refl _ _ _)
  have inner : Tracked scope.around before.registry [] body middle.registry := protected_
  have whole := inner.both (emitCatches_tracked tracks caught (inner.known known))
  refine follow_tracked rest (whole.known known) (whole.congr ?_).behind
  rw [blockMarks_single,Statement.marks,catchMarks_bodies,blockMarks_append]

theorem emitPlain_tracked (tracks : emit.Tracks) (plain : survey.graph.Plain)
    (gives : Gives (survey.emitPlain emit scope block stop out) before (out',next) after)
    (known : scope.Known before.registry) : Tracked scope.around before.registry out out' after.registry := by
  obtain ⟨_,gives⟩ := emitPlain_gives gives
  have first : Tracked scope.around before.registry out (out ++ survey.graph.statements block) before.registry :=
    .plain (plain block)
  cases at_ : survey.graph.terminator block with
  | goto target =>
    rw [at_] at gives
    have rest := flowTo_tracked gives known
    exact first.trans rest
  | branch condition thenTarget elseTarget =>
    rw [at_] at gives
    have rest := emitBranch_tracked tracks gives known
    exact first.trans rest
  | switch discriminant cases default =>
    rw [at_] at gives
    have rest := emitSwitch_tracked tracks gives known
    exact first.trans rest
  | ret value =>
    rw [at_] at gives
    obtain ⟨same,rfl⟩ := gives
    cases same
    exact first.congr (by simp [blockMarks_append,blockMarks,Statement.marks])
  | throw exception =>
    rw [at_] at gives
    obtain ⟨_,same,rfl⟩ := gives
    cases same
    exact first.congr (by simp [blockMarks_append,blockMarks,Statement.marks])

theorem emitBlock_tracked (tracks : emit.Tracks) (plain : survey.graph.Plain)
    (gives : Gives (survey.emitBlock emit scope block stop out) before (out',next) after)
    (known : scope.Known before.registry) : Tracked scope.around before.registry out out' after.registry := by
  rcases emitBlock_gives gives with ⟨range,index,_,_,emitted⟩ | ⟨loop,_,_,_,emitted⟩ | ⟨_,emitted⟩
  · exact emitTry_tracked tracks emitted known
  · exact emitLoop_tracked tracks plain emitted known
  · exact emitPlain_tracked tracks plain emitted known

theorem emitFrom_tracks (plain : survey.graph.Plain) (fuel : Nat) : (survey.emitFrom fuel).Tracks := by
  induction fuel with
  | zero =>
    intro scope block stop out before out' after gives
    exact absurd gives emitFrom_zero
  | succ fuel ih =>
    intro scope block stop out before last after gives known
    obtain ⟨out',next,middle,emitted,rest⟩ := emitFrom_succ gives
    have tracked := emitBlock_tracked ih plain emitted known
    exact sequence_tracked ih rest (tracked.known known) tracked

end Survey
end Untangle
