import Mathlib
import Untangle.Proofs.Faithful.Loops

namespace Untangle
open Emission Meaning
variable {σ : Type u} {ν : Type v} {meaning : Meaning σ ν}

namespace Survey
variable {survey : Survey} {emit : Emitter} {scope : Scope} {block : BlockId} {stop next : Option BlockId}
  {out out' : Block} {before after : Progress}

theorem emitPlain_written (faithful : emit.Faithful survey.graph meaning) (plain : survey.graph.Plain)
    (gives : Gives (survey.emitPlain emit scope block stop out) before (out',next) after)
    (declared : scope.Declared before.registry) :
    Written survey.graph meaning scope (next.or stop) 1 (Point.before block) before.registry out out'
      after.registry := by
  obtain ⟨_,gives⟩ := emitPlain_gives gives
  refine .afterStatements (plain block) ?_
  cases at_ : survey.graph.terminator block with
  | goto target =>
    simp only [at_] at gives
    have written := flowTo_written survey.graph meaning gives
    exact written
  | branch condition thenTarget elseTarget =>
    simp only [at_] at gives
    have written := emitBranch_written faithful gives declared
    exact written
  | switch discriminant cases default =>
    simp only [at_] at gives
    have written := emitSwitch_written faithful at_ gives declared
    exact written
  | ret value =>
    simp only [at_] at gives
    obtain ⟨same,rfl⟩ := gives
    cases same
    exact .behind (Registry.extends_refl _) (.ret value)
  | throw exception =>
    simp only [at_] at gives
    obtain ⟨_,same,rfl⟩ := gives
    cases same
    exact .behind (Registry.extends_refl _) (.throw exception)

theorem emitBlock_written (faithful : emit.Faithful survey.graph meaning) (sound : survey.Unguarded)
    (quiet : ∀ loop ∈ survey.loops, loop.header = block → block ∉ before.entered → emit.Quiet survey scope loop before)
    (gives : Gives (survey.emitBlock emit scope block stop out) before (out',next) after)
    (declared : scope.Declared before.registry) :
    Written survey.graph meaning scope (next.or stop) 1 (Point.before block) before.registry out out'
      after.registry := by
  rcases emitBlock_gives gives with ⟨range,index,pending,_⟩ | ⟨loop,found,unentered,_,gives⟩ | ⟨_,gives⟩
  · simp [pendingTry?,sound.tries,latestBy] at pending
  · have header : loop.header = block := by simpa using List.find?_some found
    have silent := quiet loop (List.mem_of_find?_eq_some found) header unentered
    have written := emitLoop_written faithful sound.plain silent gives declared
    rwa [header] at written
  · exact emitPlain_written faithful sound.plain gives declared

theorem carefulFrom_faithful (meaning : Meaning σ ν) (sound : survey.Unguarded) (once : survey.LeavesOnce) (fuel : Nat) :
    (survey.carefulFrom fuel).Faithful survey.graph meaning := by
  induction fuel with
  | zero =>
    intro scope block stop out before out' after gives
    exact (carefulFrom_zero gives).elim
  | succ fuel ih =>
    intro scope block stop out before last after gives declared
    obtain ⟨starts,out',next,middle,emitted,_,rest⟩ := carefulFrom_succ sound gives
    have quiet (loop : NaturalLoop) (member : loop ∈ survey.loops) (header : loop.header = block)
        (unentered : block ∉ before.entered) : (survey.carefulFrom fuel).Quiet survey scope loop before := by
      subst header
      exact once.quiet sound starts member unentered
    have first := emitBlock_written ih sound quiet emitted declared
    exact sequence_written ih first rest (declared.later first.grown)

end Survey

-- How a unit ends with its body: falling off the end is a bare return.
def Flow.outcome? : Flow σ ν → Option (Outcome σ ν)
  | normal store => some (.returned store none)
  | ends outcome => some outcome
  | _ => none

namespace Meaning

def Ends (meaning : Meaning σ ν) (body : Block) (store : σ) (outcome : Outcome σ ν) : Prop :=
  ∃ flow, meaning.Runs body store flow ∧ flow.outcome? = some outcome

def Diverges (meaning : Meaning σ ν) (body : Block) (store : σ) : Prop :=
  ∀ fuel, meaning.run fuel body store = none

theorem diverges_iff {body : Block} {store : σ} :
    meaning.Diverges body store ↔ ∀ flow, ¬meaning.Runs body store flow := by
  simp only [Diverges,Runs,Option.eq_none_iff_forall_not_mem,not_exists]
  exact forall_comm

theorem runs_trailingReturn {body : Block} {store : σ} {flow : Flow σ ν} :
    meaning.Runs (body ++ [.ret none]) store flow ↔
      ∃ middle, meaning.Runs body store middle ∧ flow = match middle with
        | .normal last => .ends (.returned last none)
        | other => other := by
  rw [runs_append]
  refine exists_congr fun middle => and_congr Iff.rfl ?_
  cases middle with
  | normal last => exact runs_single.trans executes_ret
  | _ => exact Iff.rfl

theorem ends_withoutTrailingReturn {body : Block} {store : σ} {outcome : Outcome σ ν} :
    meaning.Ends (withoutTrailingReturn body) store outcome ↔ meaning.Ends body store outcome := by
  obtain ⟨trailing,shape,same⟩ := withoutTrailingReturn_splits body
  generalize withoutTrailingReturn body = rest at same ⊢
  rw [same]
  rcases shape with rfl | rfl
  · rw [List.append_nil]
  · unfold Ends
    simp only [runs_trailingReturn]
    constructor
    · rintro ⟨flow,ran,ends⟩
      refine ⟨_,⟨flow,ran,rfl⟩,?_⟩
      cases flow <;> exact ends
    · rintro ⟨_,⟨flow,ran,rfl⟩,ends⟩
      refine ⟨flow,ran,?_⟩
      cases flow <;> exact ends

theorem diverges_withoutTrailingReturn {body : Block} {store : σ} :
    meaning.Diverges (withoutTrailingReturn body) store ↔ meaning.Diverges body store := by
  obtain ⟨trailing,shape,same⟩ := withoutTrailingReturn_splits body
  generalize withoutTrailingReturn body = rest at same ⊢
  rw [same]
  rcases shape with rfl | rfl
  · rw [List.append_nil]
  · rw [diverges_iff,diverges_iff]
    simp only [runs_trailingReturn]
    constructor
    · rintro never flow ⟨middle,ran,_⟩
      exact never middle ran
    · intro never flow ran
      exact never _ ⟨flow,ran,rfl⟩

end Meaning

theorem Follows.ends {graph : BlockGraph} {code : Block} {start : σ → Point σ ν} {store : σ}
    (follows : Follows graph meaning continued [] none least code start) :
    (∀ outcome, meaning.Ends code store outcome ↔ graph.Finishes meaning (start store) outcome) ∧
      (meaning.Diverges code store ↔ ∀ outcome, ¬graph.Finishes meaning (start store) outcome) := by
  have leaves (flow : Flow σ ν) (ran : meaning.Runs code store flow) :
      ∃ outcome, flow = .ends outcome ∧ graph.Finishes meaning (start store) outcome := by
    obtain ⟨steps,point,_,reached,leads⟩ := follows.sound store flow ran
    cases leads with
    | falls impossible => cases impossible
    | leaves member => cases member
    | resumes member => cases member
    | ends => exact ⟨_,rfl,steps,reached⟩
  have comes (outcome : Outcome σ ν) (ended : graph.Finishes meaning (start store) outcome) :
      meaning.Runs code store (.ends outcome) := by
    obtain ⟨flow,ran⟩ := follows.total store outcome ended
    obtain ⟨same,rfl,ended'⟩ := leaves flow ran
    rwa [BlockGraph.finishes_functional ended ended']
  refine ⟨fun outcome => ⟨?_,fun ended => ⟨_,comes outcome ended,rfl⟩⟩,?_⟩
  · rintro ⟨flow,ran,ends⟩
    obtain ⟨same,rfl,ended⟩ := leaves flow ran
    cases ends
    exact ended
  · rw [diverges_iff]
    constructor
    · intro never outcome ended
      exact never _ (comes outcome ended)
    · intro never flow ran
      obtain ⟨outcome,_,ended⟩ := leaves flow ran
      exact never outcome ended

theorem structured_alike {graph : BlockGraph} {settings : StructuringSettings} {result : Structured}
    (done : graph.structured settings = .ok result) (unprotected : graph.table = []) (plain : graph.Plain)
    (once : ∀ forest, LoopForest.compute graph graph.dominance graph.order = .ok forest →
      ∀ loop ∈ forest, loop.WorksBehindOne graph → loop.LeavesOnce graph forest)
    (meaning : Meaning σ ν) (store : σ) :
    (∀ outcome, meaning.Ends result.body store outcome ↔
      graph.Finishes meaning (.before graph.entry store) outcome) ∧
    (meaning.Diverges result.body store ↔
      ∀ outcome, ¬graph.Finishes meaning (.before graph.entry store) outcome) := by
  obtain ⟨survey,made,finished⟩ := BlockGraph.structured_ok done
  obtain ⟨rfl,_,_,_,loops,_⟩ := Survey.make_ok made
  obtain ⟨_,sound⟩ := Survey.make_unguarded unprotected plain made
  obtain ⟨events,emitted,progress,gives,_,body,_⟩ := Survey.structured_gives finished
  have careful := careful_gives.mpr ⟨Survey.whole_starts unprotected events,gives⟩
  have written := Survey.carefulFrom_faithful meaning sound (once _ loops) _ _ _ _ _ _ _ _ careful
    (by simp [Scope.Declared])
  rw [body]
  simp only [ends_withoutTrailingReturn,diverges_withoutTrailingReturn]
  exact written.alone.ends

-- Whenever a graph without protected ranges is structured, and no loop of it tests behind statements,
-- the tree and the graph end alike: with the same store and value, or not at all.
theorem structured_preserves_meaning {graph : BlockGraph} {settings : StructuringSettings} {result : Structured}
    (done : graph.structured settings = .ok result) (unprotected : graph.table = []) (plain : graph.Plain)
    (idle : ∀ forest, LoopForest.compute graph graph.dominance graph.order = .ok forest →
      ∀ loop ∈ forest, ¬loop.WorksBeforeTest graph)
    (meaning : Meaning σ ν) (store : σ) :
    (∀ outcome, meaning.Ends result.body store outcome ↔
      graph.Finishes meaning (.before graph.entry store) outcome) ∧
    (meaning.Diverges result.body store ↔
      ∀ outcome, ¬graph.Finishes meaning (.before graph.entry store) outcome) :=
  structured_alike done unprotected plain (fun forest computed loop member works =>
    absurd works.1 (idle forest computed loop member)) meaning store

def counter : Expr := .plain (.var ⟨0,some "n",.int⟩)

def countingUp : Meaning Int32 Int32 where
  effect statement store :=
    match statement with
    | .increment _ amount => store + amount
    | _ => 0
  compares op _ _ _ :=
    match op with
    | .eq => true
    | .ge => true
    | .le => true
    | _ => false
  tests _ store := store < 10
  selects _ store := store
  value _ store := store
  isInstance _ _ := false
  complements op _ _ _ := by cases op <;> rfl

def counting : BlockGraph :=
  ⟨[⟨[.assign counter counter],.goto 1⟩,⟨[],.branch (.test counter false) 2 3⟩,
    ⟨[.increment ⟨0,some "n",.int⟩ 2],.goto 1⟩,⟨[],.ret (some counter)⟩],[],by decide⟩

def countedTree : Structured :=
  ⟨[.forLoop 0 (some (.assign counter counter)) (.test counter false) (some (.increment ⟨0,some "n",.int⟩ 2)) [],
    .ret (some counter)],⟨[⟨.forLoop,[]⟩],[],[]⟩,[]⟩

theorem counting_structured : counting.structured .default = .ok countedTree := by cbv

theorem counting_plain : counting.Plain := BlockGraph.plain_of_blocks (by simp [counting,Statement.isPlain])

theorem counting_idle (forest : LoopForest)
    (computed : LoopForest.compute counting counting.dominance counting.order = .ok forest) :
    ∀ loop ∈ forest, ¬loop.WorksBeforeTest counting := by
  have loops : LoopForest.compute counting counting.dominance counting.order = .ok [⟨1,[2],[1,2]⟩] := by cbv
  rw [loops] at computed
  cases computed
  intro loop member
  cases List.mem_singleton.mp member
  rintro ⟨latch,condition,thenTarget,elseTarget,single,_,_,at_,_⟩
  cases single
  cases at_

theorem counting_preserves_meaning : counting.structured .default = .ok countedTree ∧ counting.table = [] ∧
    counting.Plain ∧ countingUp.Ends countedTree.body 0 (.returned 10 (some 10)) ∧
    ¬countingUp.Diverges countedTree.body 0 := by
  obtain ⟨ends,diverges⟩ :=
    structured_preserves_meaning counting_structured rfl counting_plain counting_idle countingUp 0
  have finishes : counting.Finishes countingUp (.before counting.entry 0) (.returned 10 (some 10)) := ⟨13,rfl⟩
  exact ⟨counting_structured,rfl,counting_plain,(ends _).mpr finishes,
    fun never => diverges.mp never _ finishes⟩

end Untangle
