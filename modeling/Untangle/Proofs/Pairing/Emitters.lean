import Untangle.Proofs.Emission.Pending
import Untangle.Proofs.Pairing.Together

namespace Untangle

-- Two surveys that answer alike about the blocks they share. Where their results may differ, the first
-- one may recover a `for` that the second one does not.
structure Survey.Twin (equal : Prop) (shared : BlockId → Prop) (one two : Survey) : Prop where
  recovers : one.settings.recoverForLoops = two.settings.recoverForLoops ∨
    ¬equal ∧ two.settings.recoverForLoops = false
  validates : one.settings.validateBreaks = two.settings.validateBreaks
  size : one.graph.size = two.graph.size
  live : one.live = two.live
  loops : one.loops = two.loops
  tries : one.tries = two.tries
  entry : shared one.graph.entry
  lives : ∀ block ∈ one.live, shared block
  latches : ∀ loop ∈ one.loops, ∀ latch ∈ loop.latches, shared latch
  handlers : ∀ region ∈ one.tries, ∀ handler ∈ region.handlers, shared handler
  statements : ∀ block, shared block → one.graph.statements block = two.graph.statements block
  terminator : ∀ block, shared block → one.graph.terminator block = two.graph.terminator block
  mergePoint : ∀ scope taken block stop, shared block →
    one.mergePoint scope taken block stop = two.mergePoint scope taken block stop
  armOrder : ∀ block arms,
    armOrder one.graph one.doms.dominates block arms = armOrder two.graph two.doms.dominates block arms
  classify : ∀ opened, ∀ loop ∈ one.loops, one.classify opened loop = two.classify opened loop
  absorb : ∀ scope taken, ∀ loop ∈ one.loops, ∀ exit,
    one.absorb scope taken loop exit = two.absorb scope taken loop exit
  updateBlock : ∀ loop ∈ one.loops, ∀ bodyEntry, one.updateBlock? loop bodyEntry = two.updateBlock? loop bodyEntry
  tryMerge : ∀ scope region, one.tryMerge scope region = two.tryMerge scope region

namespace Survey
open Emission
variable {equal : Prop} {shared : BlockId → Prop} {one two : Survey} {emit emit' : Emitter} {scope : Scope}
  {block source default : BlockId} {stop : Option BlockId} {out out' : Block} {before before' : Progress}
  {loop : NaturalLoop} {region : List BlockId} {condition : Condition}

theorem climbsTo_eq {header : BlockId} (above : ∀ block, one.above? block = two.above? block) (block : BlockId)
    (steps : Nat) : one.climbsTo header block steps = two.climbsTo header block steps := by
  induction steps generalizing block with
  | zero => rfl
  | succ steps ih =>
    unfold climbsTo
    rw [above]
    cases two.above? block with
    | none => rfl
    | some next => simp only [ih]

theorem narrow_within (within : ∀ target ∈ scope.region, shared target) (region : List BlockId) :
    ∀ target ∈ (scope.narrow region).region, shared target := by
  intro target member
  exact within target (of_decide_eq_true (List.mem_filter.mp member).2)

theorem inside_within (within : ∀ target ∈ scope.region, shared target) (context : Context) :
    ∀ target ∈ (scope.inside context).region, shared target := within

section
variable (twins : Survey.Twin equal shared one two) (emits : Emitter.Twin equal shared emit emit')
  (within : ∀ target ∈ scope.region, shared target) (twin : Progress.Twin equal before before')

include emits within twin

theorem emitArms_together (pendings : List PendingArm) :
    Together equal (List.Forall₂ (SwitchArm.Twin equal)) (emitArms emit scope block stop pendings)
      (emitArms emit' scope block stop pendings) before before' := by
  induction pendings generalizing before before' with
  | nil => exact together_pure .nil twin
  | cons current rest ih =>
    cases rest with
    | nil =>
      unfold emitArms
      refine together_bind (arm_together within emits _ _ _ twin) fun _ _ _ _ bodies twin _ => ?_
      exact together_pure (.cons ⟨rfl,bodies⟩ .nil) twin
    | cons next rest =>
      unfold emitArms
      refine together_bind (arm_together within emits _ _ _ twin) fun _ _ _ _ bodies twin _ => ?_
      refine together_bind (ih twin) fun _ _ _ _ arms twin _ => ?_
      exact together_pure (.cons ⟨rfl,bodies⟩ arms) twin

theorem emitCatches_together {clauses : List CatchGroup} (shares : ∀ clause ∈ clauses, shared clause.handler) :
    Together equal (List.Forall₂ (CatchClause.Twin equal)) (emitCatches emit scope stop clauses)
      (emitCatches emit' scope stop clauses) before before' := by
  induction clauses generalizing before before' with
  | nil => exact together_pure .nil twin
  | cons clause rest ih =>
    unfold emitCatches
    refine together_get ?_
    rw [← twin.taken]
    have first (target : BlockId) (same : some clause.handler = some target) : shared target :=
      Option.some.inj same ▸ shares clause List.mem_cons_self
    split
    · exact together_throw _ twin
    · refine together_bind (sequence_together within emits first (.refl _ _) twin) fun _ _ _ _ bodies twin _ => ?_
      refine together_bind (ih twin fun clause member => shares clause (List.mem_cons_of_mem _ member)) ?_
      intro _ _ _ _ catches twin _
      exact together_pure (.cons ⟨rfl,bodies⟩ catches) twin

theorem emitEndless_together {exit : Option BlockId} (header : shared loop.header) :
    Together equal (fun statement statement' => Untangle.Twin equal [statement] [statement'])
      (emitEndless emit scope loop region exit) (emitEndless emit' scope loop region exit) before before' := by
  unfold emitEndless
  refine together_declare twin fun id _ _ _ twin => ?_
  refine together_bind (emits _ _ _ _ _ _ _ (narrow_within within region) header (.refl _ _) twin) ?_
  exact fun _ _ _ _ bodies twin _ => together_pure bodies.whileLoop twin

include twins

theorem emitBranch_together {thenTarget elseTarget : BlockId} (here : shared block)
    (outs : Untangle.Twin equal out out') :
    Together equal (Onward.Twin equal shared)
      (one.emitBranch emit scope block condition thenTarget elseTarget stop out)
      (two.emitBranch emit' scope block condition thenTarget elseTarget stop out') before before' := by
  unfold emitBranch
  refine together_get ?_
  rw [twin.taken,twins.mergePoint _ _ _ _ here]
  refine together_bind (log_together twin _) fun _ _ _ _ _ twin _ => ?_
  refine together_bind (arm_together within emits _ _ _ twin) fun _ _ _ _ thens twin _ => ?_
  refine together_bind (arm_together within emits _ _ _ twin) fun _ _ _ _ elses twin _ => ?_
  exact follow_together within _ _ _ (outs.append (thens.branchForm elses _)) twin

theorem emitSwitch_together {discriminant : Expr} {cases : List (Int32 × BlockId)} (here : shared block)
    (outs : Untangle.Twin equal out out') :
    Together equal (Onward.Twin equal shared)
      (one.emitSwitch emit scope block discriminant cases default stop out)
      (two.emitSwitch emit' scope block discriminant cases default stop out') before before' := by
  unfold emitSwitch
  refine together_get ?_
  dsimp only
  rw [twin.taken,twins.mergePoint _ _ _ _ here,twins.armOrder]
  refine together_bind (log_together twin _) fun _ _ _ _ _ twin _ => ?_
  refine together_declare twin fun id _ _ _ twin => ?_
  refine together_bind (emitArms_together emits (inside_within within _) twin _) fun arms arms' _ _ built twin _ => ?_
  have same : (Statement.switch id discriminant arms).check = (Statement.switch id discriminant arms').check := by
    simp only [Statement.check,checkArms_eq built]
  refine together_bind (demand_together block same (.switch built) twin) fun _ _ _ _ trees twin _ => ?_
  refine together_bind (checkConstruct_together twins.validates trees.sameBreaks twin) fun _ _ _ _ _ twin _ => ?_
  exact follow_together within _ _ _ (outs.append trees) twin

theorem emitPostTested_together {latch exit : BlockId} (closes : shared latch)
    (header : shared loop.header) :
    Together equal (fun statement statement' => Untangle.Twin equal [statement] [statement'])
      (one.emitPostTested emit scope loop region latch condition exit)
      (two.emitPostTested emit' scope loop region latch condition exit) before before' := by
  unfold emitPostTested
  refine together_declare twin fun id _ _ _ twin => ?_
  rw [twins.statements latch closes]
  have closing (body body' : Block) (middle middle' : Progress) (bodies : Untangle.Twin equal body body')
      (twin : Progress.Twin equal middle middle') :
      Together equal (fun statement statement' => Untangle.Twin equal [statement] [statement'])
        (take latch >>= fun _ => pure (.doWhile id condition (body ++ two.graph.statements latch)))
        (take latch >>= fun _ => pure (.doWhile id condition (body' ++ two.graph.statements latch))) middle middle' := by
    refine together_bind (take_together twin _) fun _ _ _ _ _ twin _ => ?_
    exact together_pure (Untangle.Twin.doWhile (bodies.append (.refl _ _))) twin
  split
  · exact closing [] [] _ _ (.refl _ _) twin
  · refine together_bind (emits _ _ _ _ _ _ _ (narrow_within within region) header (.refl _ _) twin) ?_
    exact fun _ _ _ _ bodies twin _ => closing _ _ _ _ bodies twin

theorem emitPreTested_together {bodyEntry exit : BlockId} (member : loop ∈ one.loops)
    (outs : Untangle.Twin equal out out') :
    Together equal (fun built built' => built.1.SameBreaks built'.1 ∧
        Untangle.Twin equal (built.2 ++ [built.1]) (built'.2 ++ [built'.1]))
      (one.emitPreTested emit scope loop region condition bodyEntry exit out)
      (two.emitPreTested emit' scope loop region condition bodyEntry exit out') before before' := by
  unfold emitPreTested
  rw [← twins.updateBlock loop member]
  refine together_bind (take_together twin _) fun _ _ _ _ _ twin _ => ?_
  refine together_declare twin fun id _ _ tests twin => ?_
  refine together_bind (arm_together (inside_within (narrow_within within region) _) emits _ _ _ twin) ?_
  intro body body' middle middle' bodies twin keeps
  cases found : one.updateBlock? loop bodyEntry with
  | some latch =>
    dsimp only
    rw [twins.statements latch (twins.latches loop member latch (by simp [(updateBlock_some found).1]))]
    refine together_bind (take_together twin _) fun _ _ _ _ _ twin _ => ?_
    cases (two.graph.statements latch).head?.bind inductionLocal? with
    | none =>
      refine together_bind (markFor_together twin _ _) fun _ _ _ _ _ twin _ => ?_
      exact together_pure ⟨bodies.forLoop.sameBreaks,outs.append bodies.forLoop⟩ twin
    | some index =>
      dsimp only
      obtain ⟨same,outs⟩ := outs.takeStart index
      rw [same]
      refine together_bind (markFor_together twin _ _) fun _ _ _ _ _ twin _ => ?_
      exact together_pure ⟨bodies.forLoop.sameBreaks,outs.append bodies.forLoop⟩ twin
  | none =>
    dsimp only
    refine together_get ?_
    rw [twin.registry.hasContinue_eq]
    have plain : Together equal (fun built built' => built.1.SameBreaks built'.1 ∧
        Untangle.Twin equal (built.2 ++ [built.1]) (built'.2 ++ [built'.1]))
        (pure (.whileLoop id condition body,out)) (pure (.whileLoop id condition body',out')) middle middle' :=
      together_pure ⟨bodies.whileLoop.sameBreaks,outs.append bodies.whileLoop⟩ twin
    rcases twins.recovers with same | ⟨free,off⟩
    · rw [same]
      cases two.settings.recoverForLoops && !middle'.registry.hasContinue id with
      | false => exact plain
      | true =>
        simp only [if_true]
        rcases bodies.recovers_both outs condition with ⟨found,found'⟩ |
          ⟨parts,parts',found,found',start,update,inner,front⟩
        · rw [found,found']
          exact plain
        · rw [found,found']
          dsimp only
          rw [start,update]
          refine together_bind (markFor_together twin _ _) fun _ _ _ _ _ twin _ => ?_
          exact together_pure ⟨inner.forLoop.sameBreaks,front.append inner.forLoop⟩ twin
    · rw [off]
      simp only [Bool.false_and,Bool.false_eq_true,if_false]
      split
      · rename_i parts recovered
        split at recovered
        · obtain ⟨later,marked,twin,keeps'⟩ := markFor_left twin loop.header free (keeps id (tests (Or.inl rfl)))
          obtain ⟨breaks,trees⟩ := Untangle.Twin.recovered id free recovered
          refine together_left marked keeps' (together_pure ⟨?_,trees.trans (outs.append bodies.whileLoop)⟩ twin)
          exact fun registry enclosing walk =>
            (breaks registry enclosing walk).trans (bodies.whileLoop.sameBreaks registry enclosing walk)
        · cases recovered
      · exact plain

theorem emitLoop_together (member : loop ∈ one.loops) (header : shared loop.header)
    (outs : Untangle.Twin equal out out') :
    Together equal (Onward.Twin equal shared) (one.emitLoop emit scope loop stop out)
      (two.emitLoop emit' scope loop stop out') before before' := by
  unfold emitLoop
  refine together_bind (enter_together twin _) fun _ _ _ _ _ twin _ => ?_
  refine together_get ?_
  dsimp only
  rw [twin.opened,twin.taken,← twins.classify _ loop member,← twins.absorb _ _ loop member]
  refine together_bind (log_together twin _) fun _ _ _ later _ twin _ => ?_
  have behind {statement statement' : Statement} {out out' : Block} {exit : Option BlockId} {middle middle' : Progress}
      (breaks : statement.SameBreaks statement')
      (trees : Untangle.Twin equal (out ++ [statement]) (out' ++ [statement']))
      (twin : Progress.Twin equal middle middle') :
      Together equal (Onward.Twin equal shared)
        (checkConstruct one.settings scope statement >>= fun _ =>
          follow scope loop.header exit stop (out ++ [statement]))
        (checkConstruct two.settings scope statement' >>= fun _ =>
          follow scope loop.header exit stop (out' ++ [statement'])) middle middle' :=
    together_bind (checkConstruct_together twins.validates breaks twin) fun _ _ _ _ _ twin _ =>
      follow_together within _ _ _ trees twin
  split
  · refine together_bind (emitPreTested_together twins emits within twin member outs) ?_
    exact fun _ _ _ _ built twin _ => behind built.1 built.2 twin
  · rename_i latch condition exit shape
    have closes := twins.latches loop member latch (by simp [(classify_postTested shape).1])
    refine together_bind (emitPostTested_together twins emits within twin closes header) ?_
    exact fun _ _ _ _ trees twin _ => behind trees.sameBreaks (outs.append trees) twin
  · refine together_bind (emitEndless_together emits within twin header) ?_
    exact fun _ _ _ _ trees twin _ => behind trees.sameBreaks (outs.append trees) twin

theorem emitTry_together {range : TryRegion} (member : range ∈ one.tries) (first : shared range.first)
    (index : Nat) (outs : Untangle.Twin equal out out') :
    Together equal (Onward.Twin equal shared) (one.emitTry emit scope range index stop out)
      (two.emitTry emit' scope range index stop out') before before' := by
  unfold emitTry
  rw [← twins.tryMerge]
  have same : one.protectedBlocks range = two.protectedBlocks range := by
    unfold protectedBlocks isLive
    rw [twins.live]
  rw [← same]
  refine together_bind (openRange_together twin _) fun _ _ _ _ _ twin _ => ?_
  refine together_bind (log_together twin _) fun _ _ _ _ _ twin _ => ?_
  refine together_bind (sequence_together (narrow_within within _) emits (fun _ same => Option.some.inj same ▸ first)
    (.refl _ _) twin) fun _ _ _ _ bodies twin _ => ?_
  have shares (clause : CatchGroup) (listed : clause ∈ range.clauses) : shared clause.handler :=
    twins.handlers range member _ (List.mem_map.mpr ⟨clause,listed,rfl⟩)
  refine together_bind (emitCatches_together emits within twin shares) fun _ _ _ _ catches twin _ => ?_
  exact follow_together within _ _ _ (outs.append (bodies.tryCatch catches)) twin

theorem emitPlain_together (here : shared block) (outs : Untangle.Twin equal out out') :
    Together equal (Onward.Twin equal shared) (one.emitPlain emit scope block stop out)
      (two.emitPlain emit' scope block stop out') before before' := by
  unfold emitPlain
  rw [← twins.statements block here,← twins.terminator block here]
  refine together_bind (take_together twin _) fun _ _ _ _ _ twin _ => ?_
  have outs := outs.append (.refl equal (one.graph.statements block))
  dsimp only
  split
  · exact flowTo_together within _ _ _ outs twin
  · exact emitBranch_together twins emits within twin here outs
  · exact emitSwitch_together twins emits within twin here outs
  · exact together_onward (outs.append (.refl _ _)) twin
  · refine together_bind (demand_together block rfl (.refl _ _) twin) fun _ _ _ _ trees twin _ => ?_
    exact together_onward (outs.append trees) twin

theorem emitBlock_together (here : shared block) (outs : Untangle.Twin equal out out') :
    Together equal (Onward.Twin equal shared) (one.emitBlock emit scope block stop out)
      (two.emitBlock emit' scope block stop out') before before' := by
  unfold emitBlock
  refine together_get ?_
  have pending (opened : List Nat) : one.pendingTry? opened block = two.pendingTry? opened block := by
    unfold pendingTry?
    rw [twins.tries]
  have encloses (entered : List BlockId) (range : TryRegion) :
      one.loopEnclosesTry entered block range = two.loopEnclosesTry entered block range := by
    unfold loopEnclosesTry protectedBlocks isLive
    rw [twins.loops,twins.live]
  dsimp only
  rw [twin.opened,twin.entered,pending,← twins.loops]
  simp only [encloses]
  split
  · rename_i range index found
    obtain ⟨known,starts,_⟩ := pendingTry_some (Option.filter_eq_some_iff.mp found).1
    rw [← twins.tries] at known
    exact emitTry_together twins emits within twin (List.mem_of_getElem? known) (starts ▸ here) index outs
  · split
    · rename_i loop found
      have known := (Option.filter_eq_some_iff.mp found).1
      have header : loop.header = block := by simpa using List.find?_some known
      exact emitLoop_together twins emits within twin (List.mem_of_find?_eq_some known) (header ▸ here) outs
    · exact emitPlain_together twins emits within twin here outs

end

theorem emitFrom_together (twins : Survey.Twin equal shared one two) (fuel : Nat) :
    Emitter.Twin equal shared (one.emitFrom fuel) (two.emitFrom fuel) := by
  induction fuel with
  | zero =>
    intro scope block stop out out' before before' within here outs twin
    unfold emitFrom
    exact together_throw _ twin
  | succ fuel emits =>
    intro scope block stop out out' before before' within here outs twin
    unfold emitFrom
    refine together_bind (emitBlock_together twins emits within twin here outs) ?_
    rintro ⟨out,next⟩ ⟨out',next'⟩ middle middle' ⟨outs,same,shares⟩ twin _
    cases same
    exact sequence_together within emits shares outs twin

end Survey

-- The same tree up to the loops that are a `for` in one of the two only.
structure Structured.Twin (equal : Prop) (one two : Structured) : Prop where
  body : Untangle.Twin equal one.body two.body
  registry : Registry.Twin equal one.registry two.registry
  diagnostics : one.diagnostics = two.diagnostics

namespace Survey
variable {equal : Prop} {shared : BlockId → Prop} {one two : Survey}

theorem ids_eq (twins : Survey.Twin equal shared one two) : one.graph.ids = two.graph.ids := by
  unfold BlockGraph.ids
  rw [twins.size]

theorem complete_together {before before' : Progress} {emitted emitted' : Block}
    (twins : Survey.Twin equal shared one two) (twin : Progress.Twin equal before before')
    (trees : Untangle.Twin equal emitted emitted') :
    Tally (Structured.Twin equal) (one.complete before emitted) (two.complete before' emitted') := by
  have sound : validateBreaks (withoutTrailingReturn emitted) before.registry =
      validateBreaks (withoutTrailingReturn emitted') before'.registry := trees.trailing.validateBreaks_eq twin.registry
  unfold complete untaken? dropped isLive
  dsimp only
  rw [ids_eq twins,twins.live,twin.taken,twins.validates,sound]
  split
  · exact rfl
  split
  · cases validateBreaks (withoutTrailingReturn emitted') before'.registry with
    | error cause => exact rfl
    | ok _ => exact ⟨trees.trailing,twin.registry,rfl⟩
  · exact ⟨trees.trailing,twin.registry,rfl⟩

def beginning (survey : Survey) : Progress := {Progress.start with events:=survey.dropped.map .droppedBlock}

theorem structured_from (survey : Survey) : survey.structured.1 =
    (survey.emitAll.from survey.beginning).1.bind (survey.complete (survey.emitAll.from survey.beginning).2) := by
  have same : StateT.run (ExceptT.run survey.emitAll) {Progress.start with events:=survey.dropped.map .droppedBlock} =
      survey.emitAll.from survey.beginning := rfl
  unfold structured
  dsimp only
  rw [same]
  rcases survey.emitAll.from survey.beginning with ⟨emitted,progress⟩
  dsimp only
  cases emitted.bind (survey.complete progress) <;> rfl

theorem structured_together (twins : Survey.Twin equal shared one two) :
    Tally (Structured.Twin equal) one.structured.1 two.structured.1 := by
  have fuel : one.fuel = two.fuel := by
    unfold Survey.fuel
    rw [twins.size,twins.tries,twins.loops]
  have region : one.graph.ids.filter one.isLive = two.graph.ids.filter two.isLive := by
    unfold isLive
    rw [ids_eq twins,twins.live]
  have start : Progress.Twin equal one.beginning two.beginning := by
    refine ⟨rfl,rfl,rfl,?_,.refl _ _⟩
    unfold beginning dropped isLive
    rw [ids_eq twins,twins.live]
  have together :
      Emission.Together equal (Untangle.Twin equal) one.emitAll two.emitAll one.beginning two.beginning := by
    unfold emitAll
    rw [fuel,← region]
    have within : ∀ target ∈ one.graph.ids.filter one.isLive, shared target := fun target member =>
      twins.lives target (of_decide_eq_true (List.mem_filter.mp member).2)
    exact emitFrom_together twins two.fuel _ _ _ _ _ _ _ within twins.entry (.refl _ _) start
  obtain ⟨outcome,progress,_⟩ := together
  rw [structured_from,structured_from]
  rcases ran : one.emitAll.from one.beginning with ⟨cause | emitted,after⟩ <;>
    rcases ran' : two.emitAll.from two.beginning with ⟨cause' | emitted',after'⟩ <;>
    rw [ran,ran'] at outcome progress
  · exact outcome
  · exact outcome.elim
  · exact outcome.elim
  · exact complete_together twins progress outcome

end Survey
end Untangle
