import Untangle.Decompile
import Untangle.Proofs.Emission.Gives

namespace Untangle
namespace Survey
open Emission
variable {survey : Survey} {emit : Emitter} {scope : Scope} {loop : NaturalLoop} {region : List BlockId}
  {block bodyEntry latch default : BlockId} {stop : Option BlockId} {out out' : Block} {condition : Condition}
  {before after : Progress} {onward : Onward} {statement : Statement}

theorem emitBranch_gives (gives : Gives (survey.emitBranch emit scope block condition thenTarget
      elseTarget stop out) before onward after) :
    ∃ merge events thenBlock elseBlock middle later openEnded,
      merge = survey.mergePoint scope before.taken block stop ∧
      Gives (arm emit scope block thenTarget (merge.or stop)) {before with events} thenBlock middle ∧
      Gives (arm emit scope block elseTarget (merge.or stop)) middle elseBlock later ∧
      Gives (follow scope block merge stop (out ++ branchForm condition thenBlock elseBlock openEnded))
        later onward after := by
  unfold emitBranch at gives
  rw [gives_get] at gives
  simp only [gives_bind,gives_log] at gives
  obtain ⟨_,_,rfl,thenBlock,middle,thenArm,elseBlock,later,elseArm,rest⟩ := gives
  exact ⟨_,_,thenBlock,elseBlock,middle,later,_,rfl,thenArm,elseArm,rest⟩

theorem emitArms_nil (gives : Gives (emitArms emit scope block stop []) before arms after) :
    arms = [] ∧ after = before := gives_pure.mp gives

theorem emitArms_cons (gives : Gives (emitArms emit scope block stop (current :: rest)) before arms after) :
    ∃ body middle arms',
      Gives (arm emit scope block current.entry ((rest.head?.map (·.entry)).or stop)) before body middle ∧
      Gives (emitArms emit scope block stop rest) middle arms' after ∧
      arms = ⟨current.emitted,body⟩ :: arms' := by
  cases rest with
  | nil =>
    unfold emitArms at gives
    simp only [gives_bind,gives_pure] at gives
    obtain ⟨body,middle,emitted,rfl,rfl⟩ := gives
    exact ⟨body,_,[],by simpa using emitted,by simp [emitArms,gives_pure],rfl⟩
  | cons next rest =>
    unfold emitArms at gives
    simp only [gives_bind,gives_pure] at gives
    obtain ⟨body,middle,emitted,arms',last,others,rfl,rfl⟩ := gives
    exact ⟨body,middle,arms',by simpa using emitted,others,rfl⟩

theorem emitSwitch_gives (gives : Gives (survey.emitSwitch emit scope block discriminant cases default stop
      out) before onward after) :
    ∃ merge arms id events built middle statement,
      merge = survey.mergePoint scope before.taken block stop ∧
      arms = PendingArm.group cases default merge ∧
      id = before.registry.breakables.length ∧
      statement = .switch id discriminant built ∧
      Gives (emitArms emit (scope.inside ⟨id,.switch,merge,none⟩) block (merge.or stop)
          ((armOrder survey.graph survey.doms.dominates block arms).filterMap (arms[·]?)))
        {before with registry:=(before.registry.declare .switch).2,events} built middle ∧
      statement.check = .ok () ∧
      Gives (follow scope block merge stop (out ++ [statement])) middle onward after := by
  unfold emitSwitch at gives
  rw [gives_get] at gives
  simp only [gives_bind,gives_log,gives_declare,gives_demand] at gives
  obtain ⟨_,_,rfl,id,_,⟨rfl,rfl⟩,built,middle,arms,_,_,⟨passed,rfl,rfl⟩,_,_,checked,rest⟩ := gives
  cases gives_checkConstruct checked
  exact ⟨_,_,_,_,built,_,_,rfl,rfl,rfl,rfl,arms,passed,rest⟩

theorem emitPreTested_gives (gives : Gives (survey.emitPreTested emit scope loop region condition
      bodyEntry exit out) before (statement,out') after) :
    ∃ id body middle, id = before.registry.breakables.length ∧ loop.header ∉ before.taken ∧
      Gives (arm emit ((scope.narrow region).inside ⟨id,.whileLoop,some exit,
            some ((survey.updateBlock? loop bodyEntry).getD loop.header)⟩) loop.header bodyEntry
          (some ((survey.updateBlock? loop bodyEntry).getD loop.header)))
        {before with taken:=loop.header :: before.taken,registry:=(before.registry.declare .whileLoop).2}
        body middle ∧
      ((∃ latch registry start, survey.updateBlock? loop bodyEntry = some latch ∧
          latch ∉ middle.taken ∧ middle.registry.setKind id .forLoop = .ok registry ∧
          statement = .forLoop id start condition (survey.graph.statements latch).head? body ∧
          ((start = none ∧ out' = out) ∨
            ∃ index, (survey.graph.statements latch).head?.bind inductionLocal? = some index ∧
              (start,out') = takeStart out index) ∧
          after = {middle with taken:=latch :: middle.taken,registry}) ∨
        (survey.updateBlock? loop bodyEntry = none ∧ ∃ registry parts,
          recoverInduction? condition body out = some parts ∧ survey.settings.recoverForLoops = true ∧
          middle.registry.hasContinue id = false ∧ middle.registry.setKind id .forLoop = .ok registry ∧
          statement = .forLoop id (some parts.start) condition (some parts.update) parts.body ∧
          out' = parts.out ∧ after = {middle with registry}) ∨
        (survey.updateBlock? loop bodyEntry = none ∧ statement = .whileLoop id condition body ∧
          out' = out ∧ after = middle)) := by
  unfold emitPreTested at gives
  simp only [gives_bind,gives_take,gives_declare] at gives
  obtain ⟨_,_,⟨fresh,rfl⟩,id,_,⟨rfl,rfl⟩,body,middle,emitted,rest⟩ := gives
  refine ⟨_,body,middle,rfl,fresh,emitted,?_⟩
  split at rest
  · rename_i latch found
    simp only [gives_bind,gives_take] at rest
    obtain ⟨_,_,⟨untaken,rfl⟩,rest⟩ := rest
    left
    split at rest
    · rename_i index advances
      simp only [gives_markFor,gives_pure] at rest
      obtain ⟨_,_,⟨registry,marked,rfl⟩,same,rfl⟩ := rest
      cases same
      exact ⟨latch,registry,_,found,untaken,marked,rfl,Or.inr ⟨index,advances,rfl⟩,rfl⟩
    · simp only [gives_markFor,gives_pure] at rest
      obtain ⟨_,_,⟨registry,marked,rfl⟩,same,rfl⟩ := rest
      cases same
      exact ⟨latch,registry,_,found,untaken,marked,rfl,Or.inl ⟨rfl,rfl⟩,rfl⟩
  · rename_i absent
    rw [gives_get] at rest
    right
    split at rest
    · rename_i parts recovered
      simp only [gives_bind,gives_markFor,gives_pure] at rest
      obtain ⟨_,_,⟨registry,marked,rfl⟩,same,rfl⟩ := rest
      cases same
      split at recovered
      · rename_i recoverable
        simp only [Bool.and_eq_true,Bool.not_eq_eq_eq_not,Bool.not_true] at recoverable
        exact Or.inl ⟨absent,registry,parts,recovered,recoverable.1,recoverable.2,marked,rfl,rfl,rfl⟩
      · cases recovered
    · obtain ⟨same,rfl⟩ := gives_pure.mp rest
      cases same
      exact Or.inr ⟨absent,rfl,rfl,rfl⟩

theorem emitPostTested_gives (gives : Gives (survey.emitPostTested emit scope loop region latch condition
      exit) before statement after) :
    ∃ id body middle, id = before.registry.breakables.length ∧
      statement = .doWhile id condition (body ++ survey.graph.statements latch) ∧
      ((latch = loop.header ∧ body = [] ∧
          middle = {before with registry:=(before.registry.declare .doWhile).2}) ∨
        (latch ≠ loop.header ∧
          Gives (emit ((scope.narrow region).inside ⟨id,.doWhile,some exit,some latch⟩) loop.header
              (some latch) [])
            {before with registry:=(before.registry.declare .doWhile).2} body middle)) ∧
      latch ∉ middle.taken ∧ after = {middle with taken:=latch :: middle.taken} := by
  unfold emitPostTested at gives
  simp only [gives_bind,gives_declare] at gives
  obtain ⟨_,_,⟨rfl,rfl⟩,gives⟩ := gives
  split at gives
  · rename_i same
    simp only [gives_bind,gives_take,gives_pure] at gives
    obtain ⟨_,_,⟨rfl,rfl⟩,_,_,⟨untaken,rfl⟩,rfl,rfl⟩ := gives
    exact ⟨_,[],_,rfl,rfl,Or.inl ⟨same,rfl,rfl⟩,untaken,rfl⟩
  · rename_i apart
    simp only [gives_bind,gives_take,gives_pure] at gives
    obtain ⟨body,middle,emitted,_,_,⟨untaken,rfl⟩,rfl,rfl⟩ := gives
    exact ⟨_,body,middle,rfl,rfl,Or.inr ⟨apart,emitted⟩,untaken,rfl⟩

theorem emitEndless_gives (gives : Gives (emitEndless emit scope loop region exit) before statement after) :
    ∃ id body, id = before.registry.breakables.length ∧ statement = .whileLoop id (.constant true) body ∧
      Gives (emit ((scope.narrow region).inside ⟨id,.whileLoop,exit,some loop.header⟩) loop.header
          (some loop.header) [])
        {before with registry:=(before.registry.declare .whileLoop).2} body after := by
  unfold emitEndless at gives
  simp only [gives_bind,gives_declare,gives_pure] at gives
  obtain ⟨_,_,⟨rfl,rfl⟩,body,_,emitted,rfl,rfl⟩ := gives
  exact ⟨_,body,rfl,rfl,emitted⟩

theorem emitLoop_gives (gives : Gives (survey.emitLoop emit scope loop stop out) before onward after) :
    ∃ shape region events statement out' middle,
      shape = survey.classify before.opened loop ∧
      region = survey.absorb scope before.taken loop shape.exit? ∧
      ((∃ condition bodyEntry exit, shape = .preTested condition bodyEntry exit ∧
          Gives (survey.emitPreTested emit scope loop region condition bodyEntry exit out)
            {before with entered:=loop.header :: before.entered,events} (statement,out') middle) ∨
        (∃ latch condition exit, shape = .postTested latch condition exit ∧ out' = out ∧
          Gives (survey.emitPostTested emit scope loop region latch condition exit)
            {before with entered:=loop.header :: before.entered,events} statement middle) ∨
        (∃ exit, shape = .endless exit ∧ out' = out ∧
          Gives (emitEndless emit scope loop region exit)
            {before with entered:=loop.header :: before.entered,events} statement middle)) ∧
      Gives (follow scope loop.header shape.exit? stop (out' ++ [statement])) middle onward after := by
  unfold emitLoop at gives
  simp only [gives_bind,gives_enter] at gives
  obtain ⟨_,_,rfl,_,_,same,_,_,logged,gives⟩ := gives
  cases same
  cases gives_log.mp logged
  split at gives
  · rename_i condition bodyEntry exit shape
    simp only [gives_bind] at gives
    obtain ⟨⟨statement,out'⟩,middle,built,_,_,checked,rest⟩ := gives
    cases gives_checkConstruct checked
    exact ⟨_,_,_,statement,out',_,rfl,rfl,Or.inl ⟨condition,bodyEntry,exit,shape,built⟩,rest⟩
  · rename_i latch condition exit shape
    simp only [gives_bind,gives_pure] at gives
    obtain ⟨statement,middle,built,_,_,⟨rfl,rfl⟩,_,_,checked,rest⟩ := gives
    cases gives_checkConstruct checked
    exact ⟨_,_,_,statement,out,_,rfl,rfl,Or.inr (Or.inl ⟨latch,condition,exit,shape,rfl,built⟩),rest⟩
  · rename_i exit shape
    simp only [gives_bind,gives_pure] at gives
    obtain ⟨statement,middle,built,_,_,⟨rfl,rfl⟩,_,_,checked,rest⟩ := gives
    cases gives_checkConstruct checked
    exact ⟨_,_,_,statement,out,_,rfl,rfl,Or.inr (Or.inr ⟨exit,shape,rfl,built⟩),rest⟩

theorem emitCatches_nil (gives : Gives (emitCatches emit scope stop []) before catches after) :
    catches = [] ∧ after = before := gives_pure.mp gives

theorem emitCatches_cons (gives : Gives (emitCatches emit scope stop (clause :: rest)) before catches after) :
    ∃ body middle catches', clause.handler ∉ before.taken ∧
      Gives (sequence emit scope (some clause.handler) stop []) before body middle ∧
      Gives (emitCatches emit scope stop rest) middle catches' after ∧
      catches = ⟨clause.caught,body⟩ :: catches' := by
  unfold emitCatches at gives
  rw [gives_get] at gives
  split at gives
  · simp only [gives_bind,gives_throw,false_and,exists_false] at gives
  · rename_i untaken
    simp only [gives_bind,gives_pure] at gives
    obtain ⟨body,middle,emitted,catches',last,others,rfl,rfl⟩ := gives
    exact ⟨body,middle,catches',untaken,emitted,others,rfl⟩

theorem emitTry_gives (gives : Gives (survey.emitTry emit scope range index stop out) before onward after) :
    ∃ merge events body middle catches later,
      merge = survey.tryMerge scope range ∧
      Gives (sequence emit (scope.narrow (survey.protectedBlocks range)) (some range.first) (merge.or stop) [])
        {before with opened:=index :: before.opened,events} body middle ∧
      Gives (emitCatches emit scope (merge.or stop) range.clauses) middle catches later ∧
      Gives (follow scope range.first merge stop (out ++ [.tryCatch body catches])) later onward after := by
  unfold emitTry at gives
  simp only [gives_bind,gives_openRange,gives_log] at gives
  obtain ⟨_,_,rfl,_,_,rfl,body,middle,emitted,catches,later,caught,rest⟩ := gives
  exact ⟨_,_,body,middle,catches,later,rfl,emitted,caught,rest⟩

theorem emitPlain_gives (gives : Gives (survey.emitPlain emit scope block stop out) before onward after) :
    block ∉ before.taken ∧
    match survey.graph.terminator block with
    | .goto target => Gives (flowTo scope block target stop (out ++ survey.graph.statements block))
        {before with taken:=block :: before.taken} onward after
    | .branch condition thenTarget elseTarget =>
      Gives (survey.emitBranch emit scope block condition thenTarget elseTarget stop
        (out ++ survey.graph.statements block)) {before with taken:=block :: before.taken} onward after
    | .switch discriminant cases default =>
      Gives (survey.emitSwitch emit scope block discriminant cases default stop
        (out ++ survey.graph.statements block)) {before with taken:=block :: before.taken} onward after
    | .ret value => onward = (out ++ survey.graph.statements block ++ [.ret value],none) ∧
        after = {before with taken:=block :: before.taken}
    | .throw exception => (Statement.throw exception).check = .ok () ∧
        onward = (out ++ survey.graph.statements block ++ [.throw exception],none) ∧
        after = {before with taken:=block :: before.taken} := by
  unfold emitPlain at gives
  simp only [gives_bind,gives_take] at gives
  obtain ⟨_,_,⟨untaken,rfl⟩,gives⟩ := gives
  refine ⟨untaken,?_⟩
  cases at_ : survey.graph.terminator block with
  | goto target => simpa only [at_] using gives
  | branch condition thenTarget elseTarget => simpa only [at_] using gives
  | switch discriminant cases default => simpa only [at_] using gives
  | ret value =>
    simp only [at_] at gives
    obtain ⟨rfl,rfl⟩ := gives_pure.mp gives
    exact ⟨rfl,rfl⟩
  | throw exception =>
    simp only [at_,gives_bind,gives_demand,gives_pure] at gives
    obtain ⟨_,_,⟨passed,rfl,rfl⟩,rfl,rfl⟩ := gives
    exact ⟨passed,rfl,rfl⟩

theorem emitBlock_gives (gives : Gives (survey.emitBlock emit scope block stop out) before onward after) :
    (∃ range index, survey.pendingTry? before.opened block = some (range,index) ∧
        survey.loopEnclosesTry before.entered block range = false ∧
        Gives (survey.emitTry emit scope range index stop out) before onward after) ∨
      (∃ loop, LoopForest.get? survey.loops block = some loop ∧ block ∉ before.entered ∧
        (∀ range index, survey.pendingTry? before.opened block = some (range,index) →
          survey.loopEnclosesTry before.entered block range = true) ∧
        Gives (survey.emitLoop emit scope loop stop out) before onward after) ∨
      (survey.pendingTry? before.opened block = none ∧
        Gives (survey.emitPlain emit scope block stop out) before onward after) := by
  unfold emitBlock at gives
  rw [gives_get] at gives
  dsimp only at gives
  split at gives
  · rename_i range index found
    obtain ⟨pending,outside⟩ := Option.filter_eq_some_iff.mp found
    exact Or.inl ⟨range,index,pending,by simpa using outside,gives⟩
  · rename_i held
    have encloses (range : TryRegion) (index : Nat)
        (pending : survey.pendingTry? before.opened block = some (range,index)) :
        survey.loopEnclosesTry before.entered block range = true := by
      simpa using Option.filter_eq_none_iff.mp held _ pending
    split at gives
    · rename_i loop found
      obtain ⟨known,fresh⟩ := Option.filter_eq_some_iff.mp found
      exact Or.inr (Or.inl ⟨loop,known,by simpa using fresh,encloses,gives⟩)
    · rename_i plain
      refine Or.inr (Or.inr ⟨?_,gives⟩)
      cases pending : survey.pendingTry? before.opened block with
      | none => rfl
      | some range =>
        have enclosed := encloses _ _ pending
        unfold loopEnclosesTry at enclosed
        split at enclosed
        · cases enclosed
        · rename_i loop found
          have passed := Option.filter_eq_none_iff.mp plain loop found
          simp only [Bool.and_eq_true] at enclosed
          exact absurd enclosed.1.1 passed

theorem emitFrom_zero : ¬Gives (survey.emitFrom 0 scope block stop out) before result after := by
  unfold emitFrom
  exact gives_throw

theorem emitFrom_succ {fuel : Nat} (gives : Gives (survey.emitFrom (fuel + 1) scope block stop out) before result after) :
    ∃ out' next middle,
      Gives (survey.emitBlock (survey.emitFrom fuel) scope block stop out) before (out',next) middle ∧
      Gives (sequence (survey.emitFrom fuel) scope next stop out') middle result after := by
  unfold emitFrom at gives
  obtain ⟨⟨out',next⟩,middle,emitted,rest⟩ := gives_bind.mp gives
  exact ⟨out',next,middle,emitted,rest⟩

theorem ok_of_bind {first : Except ε α} {next : α → Except ε β} (done : (first >>= next) = .ok result) :
    ∃ value, first = .ok value ∧ next value = .ok result := by
  cases first with
  | error cause => cases done
  | ok value => exact ⟨value,rfl,done⟩

theorem ok_of_mapError {first : Except ε α} {change : ε → ε'} (done : first.mapError change = .ok result) :
    first = .ok result := by
  cases first with
  | error cause => cases done
  | ok value =>
    cases done
    rfl

theorem complete_ok {result : Structured} (done : survey.complete progress emitted = .ok result) :
    survey.untaken? progress.taken = none ∧ result.body = withoutTrailingReturn emitted ∧
      result.registry = progress.registry := by
  unfold complete at done
  split at done
  · cases done
  · rename_i covered
    refine ⟨covered,?_⟩
    split at done
    · rename_i validated
      obtain ⟨_,_,finished⟩ := ok_of_bind done
      cases finished
      exact ⟨rfl,rfl⟩
    · cases done
      exact ⟨rfl,rfl⟩

theorem complete_diagnostics {result : Structured} (done : survey.complete progress emitted = .ok result) :
    result.diagnostics = survey.dropped.map Structured.unreachable := by
  unfold complete at done
  split at done
  · cases done
  · split at done
    · obtain ⟨_,_,finished⟩ := ok_of_bind done
      cases finished
      rfl
    · cases done
      rfl

theorem structured_completes {result : Structured} (done : survey.structured.1 = .ok result) :
    ∃ events emitted progress,
      Gives (survey.emitFrom survey.fuel ⟨survey.graph.ids.filter survey.isLive,[]⟩ survey.graph.entry none [])
        {Progress.start with events} emitted progress ∧ survey.complete progress emitted = .ok result := by
  unfold structured at done
  dsimp only at done
  rcases run : StateT.run (ExceptT.run survey.emitAll)
    {Progress.start with events:=survey.dropped.map .droppedBlock} with ⟨cause | emitted,progress⟩
  · rw [run] at done
    simp [Except.bind] at done
  · rw [run] at done
    refine ⟨_,emitted,progress,run,?_⟩
    cases finished : survey.complete progress emitted with
    | error cause => simp [Except.bind,finished] at done
    | ok built =>
      simp only [Except.bind,finished] at done
      cases done
      rfl

theorem structured_gives {result : Structured} (done : survey.structured.1 = .ok result) :
    ∃ events emitted progress,
      Gives (survey.emitFrom survey.fuel ⟨survey.graph.ids.filter survey.isLive,[]⟩ survey.graph.entry none [])
        {Progress.start with events} emitted progress ∧
      survey.untaken? progress.taken = none ∧ result.body = withoutTrailingReturn emitted ∧
      result.registry = progress.registry := by
  obtain ⟨events,emitted,progress,gives,completed⟩ := structured_completes done
  exact ⟨events,emitted,progress,gives,complete_ok completed⟩

theorem make_ok {graph : BlockGraph} {settings : StructuringSettings}
    (made : Survey.make graph settings = .ok survey) :
    survey.graph = graph ∧ survey.live = graph.live ∧ survey.doms = graph.dominance ∧
      survey.order = graph.order ∧
      LoopForest.compute graph graph.dominance graph.order = .ok survey.loops ∧
      TryRegion.group graph.table = .ok survey.tries := by
  unfold make at made
  obtain ⟨forest,loops,made⟩ := ok_of_bind made
  obtain ⟨regions,tries,made⟩ := ok_of_bind made
  cases made
  exact ⟨rfl,rfl,rfl,rfl,ok_of_mapError loops,tries⟩

end Survey

theorem withoutTrailingReturn_splits (body : Block) :
    ∃ trailing : Block, (trailing = [] ∨ trailing = [.ret none]) ∧ body = withoutTrailingReturn body ++ trailing := by
  unfold withoutTrailingReturn
  split
  · rename_i last
    obtain ⟨rest,same⟩ := List.getLast?_eq_some_iff.mp last
    exact ⟨[.ret none],Or.inr rfl,by simp [same]⟩
  · exact ⟨[],Or.inl rfl,by simp⟩

theorem BlockGraph.structured_ok {graph : BlockGraph} (done : graph.structured settings = .ok result) :
    ∃ survey, Survey.make graph settings = .ok survey ∧ survey.structured.1 = .ok result := by
  unfold structured structureLogged at done
  split at done
  · cases done
  · rename_i survey made
    exact ⟨survey,made,done⟩

theorem CodeUnit.decompile_ok {unit : CodeUnit} {resolver : Resolver} {settings : DecompileSettings}
    {result : Decompiled} (done : (unit.decompile resolver settings).1 = .ok result) :
    ∃ structured folded inferred, unit.graph.structured settings.structuring = .ok structured ∧
      folded = structured.body.fold settings.folding ∧ inferred = folded.body.inferTypes resolver ∧
      result = ⟨unit.name,inferred.body,structured.registry,
        structured.diagnostics ++ folded.diagnostics ++ inferred.diagnostics⟩ := by
  unfold decompile at done
  rcases outcome : unit.graph.structureLogged settings.structuring with ⟨cause | structured,events⟩
  · rw [outcome] at done
    cases done
  · rw [outcome] at done
    cases done
    refine ⟨structured,_,_,?_,rfl,rfl,rfl⟩
    unfold BlockGraph.structured
    rw [outcome]

end Untangle
