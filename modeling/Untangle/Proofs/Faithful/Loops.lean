import Untangle.Proofs.Continuing.Feeding
import Untangle.Proofs.Faithful.Constructs
import Untangle.Proofs.Running.Loops

namespace Untangle
open Emission Meaning
variable {σ : Type u} {ν : Type v} {meaning : Meaning σ ν}

namespace Meaning
variable {id : BreakableId} {condition : Condition} {store : σ} {flow : Flow σ ν}

theorem runs_forStart {start update : Option Statement} {body : Block} :
    meaning.Runs (out ++ [.forLoop id start condition update body]) store flow ↔
      meaning.Runs (out ++ start.toList ++ [.forLoop id none condition update body]) store flow := by
  cases start with
  | none => simp
  | some start =>
    rw [List.append_assoc]
    exact runs_behind fun _ _ => runs_single.trans executes_forStart

theorem executes_recovered {update : Statement} {body : Block} (plain : update.isPlain = true)
    (never : ∀ store last, ¬meaning.Runs (body ++ [update]) store (.resumes (some id) last)) :
    meaning.Executes (.forLoop id none condition (some update) body) store flow ↔
      meaning.Executes (.whileLoop id condition (body ++ [update])) store flow := by
  have updates (store : σ) (flow : Flow σ ν) :
      meaning.Runs [update] store flow ↔ flow = .normal (meaning.effect update store) := by
    rw [runs_single,executes_plain plain]
  have ends {store : σ} {flow : Flow σ ν} (ran : meaning.Runs (body ++ [update]) store flow)
      (jumps : ∀ last, flow ≠ .normal last) (next : σ) : flow.round id ≠ .inl next := by
    intro turned
    rcases Flow.round_inl.mp turned with rfl | rfl
    · exact jumps _ rfl
    · exact never _ _ ran
  rw [executes_for,executes_while]
  refine rounds_congr fun store result => ?_
  rw [testedRound_iff,testedRound_iff]
  refine or_congr Iff.rfl (and_congr Iff.rfl ?_)
  constructor
  · rintro ⟨flow,ran,turns⟩
    by_cases falls : ∃ last, flow = .normal last
    · obtain ⟨last,rfl⟩ := falls
      refine ⟨.normal (meaning.effect update last),runs_append.mpr ⟨_,ran,(updates _ _).mpr rfl⟩,Or.inl ?_⟩
      rcases turns with ⟨next,middle,turned,updated,rfl⟩ | ⟨_,turned,_⟩
      · cases turned
        cases (updates _ _).mp updated
        exact ⟨_,_,rfl,runs_nil.mpr rfl,rfl⟩
      · cases turned
    · have jumps : ∀ last, flow ≠ .normal last := fun last same => falls ⟨last,same⟩
      have whole : meaning.Runs (body ++ [update]) store flow :=
        runs_append.mpr ⟨flow,ran,after_jump jumps⟩
      refine ⟨flow,whole,Or.inr ?_⟩
      rcases turns with ⟨next,_,turned,_,_⟩ | turns
      · exact absurd turned (ends whole jumps next)
      · exact turns
  · rintro ⟨flow,ran,turns⟩
    obtain ⟨middle,first,second⟩ := runs_append.mp ran
    by_cases falls : ∃ last, middle = .normal last
    · obtain ⟨last,rfl⟩ := falls
      cases (updates _ _).mp second
      refine ⟨_,first,Or.inl ?_⟩
      rcases turns with ⟨next,middle,turned,updated,rfl⟩ | ⟨_,turned,_⟩
      · cases turned
        cases runs_nil.mp updated
        exact ⟨_,_,rfl,(updates _ _).mpr rfl,rfl⟩
      · cases turned
    · have jumps : ∀ last, middle ≠ .normal last := fun last same => falls ⟨last,same⟩
      obtain rfl := jump_after jumps second
      refine ⟨flow,first,Or.inr ?_⟩
      rcases turns with ⟨next,_,turned,_,_⟩ | turns
      · exact absurd turned (ends ran jumps next)
      · exact turns

end Meaning

namespace Survey
variable {survey : Survey} {emit : Emitter} {scope : Scope} {loop : NaturalLoop} {region : List BlockId}
  {bodyEntry exit latch : BlockId} {stop next : Option BlockId} {out out' : Block} {before after : Progress}
  {condition : Condition} {statement : Statement}

theorem header_steps (found : survey.headerTest? loop = some (.preTested condition bodyEntry exit)) (store : σ) :
    survey.graph.step meaning (.before loop.header store) =
      .before (if meaning.holds store condition then bodyEntry else exit) store := by
  obtain ⟨bare,tested,thenTarget,elseTarget,at_,⟨_,_,same⟩ | ⟨_,_,same⟩⟩ := headerTest_some found
  · cases same
    simp [BlockGraph.step,bare,at_,goes,effects]
  · cases same
    simp only [BlockGraph.step,bare,at_,goes,effects,List.foldl_nil,holds_negate]
    cases meaning.holds store tested <;> rfl

theorem latch_steps (found : survey.latchTest? loop latch = some (.postTested latch condition exit))
    (store : σ) : survey.graph.step meaning (.before latch store) =
      .before (if meaning.holds (meaning.effects (survey.graph.statements latch) store) condition then loop.header
        else exit) (meaning.effects (survey.graph.statements latch) store) := by
  obtain ⟨tested,thenTarget,elseTarget,at_,⟨rfl,_,same⟩ | ⟨rfl,_,same⟩⟩ := latchTest_some found
  · cases same
    simp [BlockGraph.step,at_,goes]
  · cases same
    simp only [BlockGraph.step,at_,goes,holds_negate]
    cases meaning.holds (meaning.effects (survey.graph.statements latch) store) tested <;> rfl

theorem emitPreTested_written (faithful : emit.Faithful survey.graph meaning) (plain : survey.graph.Plain)
    (found : survey.headerTest? loop = some (.preTested condition bodyEntry exit))
    (gives : Gives (survey.emitPreTested emit scope loop region condition bodyEntry exit out) before
      (statement,out') after) (declared : scope.Declared before.registry) :
    Written survey.graph meaning scope (some exit) 1 (Point.before loop.header) before.registry out
      (out' ++ [statement]) after.registry := by
  obtain ⟨id,body,middle,fresh,_,emitted,built⟩ := emitPreTested_gives gives
  generalize again_ : (survey.updateBlock? loop bodyEntry).getD loop.header = again at emitted
  have narrowed : (scope.narrow region).Declared before.registry := declared
  obtain ⟨apart,inner⟩ := declared_inside .whileLoop ⟨id,.whileLoop,some exit,some again⟩ narrowed fresh
  obtain ⟨grown,follows⟩ := arm_written faithful emitted inner
  have plainLoop : middle.registry.kind? id ≠ some .doWhile := by
    rw [ne_eq,grown.repeats id (inner _ List.mem_cons_self),fresh]
    simp [Registry.kind?,Registry.declare]
  have grown := Registry.extends_trans (Registry.declare_extends before.registry .whileLoop) grown
  have enters (store : σ) (holds : meaning.holds store condition = true) :
      (survey.graph.step meaning)^[1] (.before loop.header store) = .before bodyEntry store := by
    simp [header_steps found,holds]
  have leaves (store : σ) (fails : meaning.holds store condition = false) : ∃ target, some exit = some target ∧
      survey.graph.step meaning (.before loop.header store) = .before target store :=
    ⟨exit,rfl,by simp [header_steps found,fails]⟩
  have updates (store : σ) : ∃ next, (∀ flow, meaning.Runs (none : Option Statement).toList store flow ↔
      flow = .normal next) ∧
      (survey.graph.step meaning)^[0] (.before loop.header store) = .before loop.header next :=
    ⟨store,fun _ => runs_nil,rfl⟩
  rcases built with ⟨latch,registry,start,shared,_,marked,rfl,started,rfl⟩ |
    ⟨alone,registry,parts,recovered,_,never,marked,rfl,rfl,rfl⟩ | ⟨alone,rfl,rfl,rfl⟩
  · obtain ⟨_,_,_,back,update,holds⟩ := updateBlock_some shared
    obtain rfl : latch = again := by simpa [shared] using again_
    have still := Registry.setKind_extends marked (by decide) plainLoop
    have updates (store : σ) : ∃ next, (∀ flow, meaning.Runs (survey.graph.statements latch).head?.toList store
        flow ↔ flow = .normal next) ∧
        (survey.graph.step meaning)^[1] (.before latch store) = .before loop.header next := by
      refine ⟨meaning.effect update store,fun flow => ?_,by simp [BlockGraph.step,back,holds,goes,effects]⟩
      rw [holds]
      exact runs_single.trans (executes_plain (plain latch update (by simp [holds])))
    have whole := Follows.tested (fun store flow => executes_for) rfl apart (follows.mono still.continues) (by omega)
      enters leaves updates
    refine ⟨Registry.extends_trans grown still,_,fun store flow => ?_,whole⟩
    rcases started with ⟨rfl,rfl⟩ | ⟨index,_,taken⟩
    · exact Iff.rfl
    · rw [runs_forStart,takeStart_splits taken.symm]
  · obtain rfl : loop.header = again := by simpa [alone] using again_
    obtain ⟨rfl,rfl,advances⟩ := recoverInduction_splits recovered
    have still := Registry.setKind_extends marked (by decide) plainLoop
    refine ⟨Registry.extends_trans grown still,_,fun store flow => runs_forStart,?_⟩
    have silent (store last : σ) :
        ¬meaning.Runs (parts.body ++ [parts.update]) store (.resumes (some id) last) := by
      intro ran
      obtain ⟨_,_,_,_,leads⟩ := follows.sound store _ ran
      simp [leads.continues] at never
    have whole := Follows.tested (fun store flow => executes_while) rfl apart (follows.mono still.continues)
      (by omega) enters leaves updates
    refine whole.congr fun store flow => ?_
    rw [runs_single,runs_single]
    exact executes_recovered (inductionLocal_plain advances) silent
  · obtain rfl : loop.header = again := by simpa [alone] using again_
    exact .behind grown
      (.tested (fun store flow => executes_while) rfl apart follows (by omega) enters leaves updates)

theorem emitPostTested_written (out : Block) (faithful : emit.Faithful survey.graph meaning) (plain : survey.graph.Plain)
    (found : survey.latchTest? loop latch = some (.postTested latch condition exit))
    (gives : Gives (survey.emitPostTested emit scope loop region latch condition exit) before statement after)
    (quiet : latch ≠ loop.header → survey.graph.statements latch = [] ∨
      ¬after.registry.hasContinue before.registry.breakables.length = true)
    (declared : scope.Declared before.registry) :
    Written survey.graph meaning scope (some exit) 1 (Point.before loop.header) before.registry out
      (out ++ [statement]) after.registry := by
  obtain ⟨id,body,middle,fresh,rfl,built,_,rfl⟩ := emitPostTested_gives gives
  have grown := Registry.declare_extends before.registry .doWhile
  rcases built with ⟨rfl,rfl,rfl⟩ | ⟨apart,emitted⟩
  · refine .behind grown (.rounds (fun _ _ => executes_doWhile) ?_ ?_ ?_)
    · intro store next turned
      obtain ⟨flow,ran,same⟩ := repeatedRound_iff.mp turned
      cases (runs_plain (plain loop.header)).mp ran
      dsimp only [Flow.round] at same
      split at same
      · rename_i holds
        cases same
        exact ⟨1,Nat.le_refl _,by simp [latch_steps found,holds]⟩
      · cases same
    · intro store flow turned
      obtain ⟨flow',ran,same⟩ := repeatedRound_iff.mp turned
      cases (runs_plain (plain loop.header)).mp ran
      dsimp only [Flow.round] at same
      split at same
      · cases same
      · rename_i fails
        cases same
        exact ⟨1,_,Nat.le_refl _,by simp [latch_steps found,fails],.falls rfl⟩
    · intro store _ _
      exact ⟨_,repeatedRound_iff.mpr ⟨_,(runs_plain (plain loop.header)).mpr rfl,rfl⟩⟩
  · have narrowed : (scope.narrow region).Declared before.registry := declared
    obtain ⟨apart',inner⟩ := declared_inside .doWhile ⟨id,.doWhile,some exit,some latch⟩ narrowed fresh
    have written := faithful _ _ _ _ _ _ _ emitted inner
    refine .behind (Registry.extends_trans grown written.grown) ?_
    exact .repeated rfl rfl apart' written.alone (Nat.le_refl _) (plain latch) (fresh ▸ quiet apart) (latch_steps found)

theorem emitEndless_written {exit : Option BlockId} (out : Block) (faithful : emit.Faithful survey.graph meaning)
    (gives : Gives (emitEndless emit scope loop region exit) before statement after)
    (declared : scope.Declared before.registry) :
    Written survey.graph meaning scope exit 1 (Point.before loop.header) before.registry out
      (out ++ [statement]) after.registry := by
  obtain ⟨id,body,fresh,rfl,emitted⟩ := emitEndless_gives gives
  have narrowed : (scope.narrow region).Declared before.registry := declared
  obtain ⟨apart,inner⟩ := declared_inside .whileLoop ⟨id,.whileLoop,exit,some loop.header⟩ narrowed fresh
  have written := faithful _ _ _ _ _ _ _ emitted inner
  have grown := Registry.extends_trans (Registry.declare_extends before.registry .whileLoop) written.grown
  have updates (store : σ) : ∃ next, (∀ flow, meaning.Runs (none : Option Statement).toList store flow ↔
      flow = .normal next) ∧
      (survey.graph.step meaning)^[0] (.before loop.header store) = .before loop.header next :=
    ⟨store,fun _ => runs_nil,rfl⟩
  have enters (store : σ) (_ : meaning.holds store (.constant true) = true) :
      (survey.graph.step meaning)^[0] (.before loop.header store) = .before loop.header store := rfl
  have leaves (store : σ) (fails : meaning.holds store (.constant true) = false) : ∃ target, exit = some target ∧
      survey.graph.step meaning (.before loop.header store) = .before target store := by
    simp [holds] at fails
  exact .behind grown
    (.tested (fun store flow => executes_while) rfl apart written.alone (Nat.le_refl _) enters leaves updates)

theorem emitLoop_written (faithful : emit.Faithful survey.graph meaning) (plain : survey.graph.Plain)
    (quiet : emit.Quiet survey scope loop before)
    (gives : Gives (survey.emitLoop emit scope loop stop out) before (out',next) after)
    (declared : scope.Declared before.registry) :
    Written survey.graph meaning scope (next.or stop) 1 (Point.before loop.header) before.registry out out'
      after.registry := by
  obtain ⟨shape,region,events,statement,front,middle,classified,_,built,rest⟩ := emitLoop_gives gives
  refine follow_written (Written.wider ?_) rest
  rcases built with ⟨condition,bodyEntry,exit,rfl,built⟩ | ⟨latch,condition,exit,rfl,rfl,built⟩ |
    ⟨exit,rfl,rfl,built⟩
  · have written := emitPreTested_written faithful plain (classify_preTested classified.symm) built declared
    exact written
  · have silent (apart : latch ≠ loop.header) : survey.graph.statements latch = [] ∨
        ¬middle.registry.hasContinue before.registry.breakables.length = true := by
      by_cases works : survey.graph.statements latch = []
      · exact Or.inl works
      · exact Or.inr fun continued =>
          quiet _ _ _ _ _ _ _ classified.symm apart works built (Registry.mayContinue_of continued)
    have written := emitPostTested_written front faithful plain (classify_postTested classified.symm).2 built silent declared
    exact written
  · have written := emitEndless_written front faithful built declared
    exact written

end Survey
end Untangle
