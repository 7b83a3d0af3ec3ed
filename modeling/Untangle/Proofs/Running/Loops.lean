import Untangle.Proofs.Running.Forms

namespace Untangle
namespace Follows
open Meaning
variable {σ : Type u} {ν : Type v} {graph : BlockGraph} {meaning : Meaning σ ν}
  {continued : BreakableId → Prop} {contexts : List Context} {context : Context} {stop : Option BlockId}
  {statement : Statement} {condition : Condition} {body : Block}

theorem rounds {turns : σ → σ ⊕ Flow σ ν → Prop} {header : BlockId} {statement : Statement}
    (law : ∀ store flow, meaning.Executes statement store flow ↔ Rounds turns store flow)
    (again : ∀ store next, turns store (.inl next) → ∃ steps, 1 ≤ steps ∧
      (graph.step meaning)^[steps] (.before header store) = .before header next)
    (last : ∀ store flow, turns store (.inr flow) → ∃ steps point, 1 ≤ steps ∧
      (graph.step meaning)^[steps] (.before header store) = point ∧ Leads continued contexts stop flow point)
    (total : ∀ store outcome, graph.Finishes meaning (.before header store) outcome →
      ∃ result, turns store result) :
    Follows graph meaning continued contexts stop 1 [statement] (Point.before header) where
  sound store flow ran := by
    have rounds := (law store flow).mp (runs_single.mp ran)
    clear ran
    induction rounds with
    | last turned => exact last _ _ turned
    | again turned _ ih =>
      obtain ⟨steps,_,reached⟩ := again _ _ turned
      obtain ⟨more,point,enough,arrived,leads⟩ := ih
      exact ⟨more + steps,point,Nat.le_trans enough (Nat.le_add_right _ _),
        by rw [Function.iterate_add_apply,reached,arrived],leads⟩
  total store outcome ended := by
    obtain ⟨steps,ended⟩ := ended
    simp only [runs_single,law]
    -- Every round takes a step, so fewer are left for the rest.
    induction steps using Nat.strongRecOn generalizing store with
    | _ steps ih =>
      obtain ⟨result,turned⟩ := total store outcome ⟨steps,ended⟩
      cases result with
      | inr done => exact ⟨done,.last turned⟩
      | inl next =>
        obtain ⟨taken,some,reached⟩ := again _ _ turned
        have left : steps - taken < steps := by
          rcases Nat.eq_zero_or_pos steps with rfl | positive
          · cases ended
          · omega
        obtain ⟨flow,rest⟩ := ih _ left next (BlockGraph.finish_after reached ended)
        exact ⟨flow,.again turned rest⟩

theorem tested {header entry again : BlockId} {ahead back least : Nat} {update : Option Statement}
    (law : ∀ store flow, meaning.Executes statement store flow ↔
      Rounds (meaning.TestedRound context.id condition update body) store flow)
    (target : context.continueTarget = some again) (fresh : ∀ outer ∈ contexts, outer.id ≠ context.id)
    (follows : Follows graph meaning continued (context :: contexts) (some again) least body
      (Point.before entry))
    (positive : 1 ≤ least + ahead)
    (enters : ∀ store, meaning.holds store condition = true →
      (graph.step meaning)^[ahead] (.before header store) = .before entry store)
    (leaves : ∀ store, meaning.holds store condition = false → ∃ exit, context.breakTarget = some exit ∧
      (graph.step meaning) (.before header store) = .before exit store)
    (updates : ∀ store, ∃ next, (∀ flow, meaning.Runs update.toList store flow ↔ flow = .normal next) ∧
      (graph.step meaning)^[back] (.before again store) = .before header next) :
    Follows graph meaning continued contexts context.breakTarget 1 [statement] (Point.before header) := by
  refine rounds law ?_ ?_ ?_
  · intro store next turned
    rcases testedRound_iff.mp turned with ⟨_,same⟩ | ⟨holds,flow,ran,turned⟩
    · cases same
    · obtain ⟨steps,point,enough,reached,leads⟩ := follows.sound store flow ran
      rcases turned with ⟨middle,last,round,updated,same⟩ | ⟨done,_,same⟩
      · obtain ⟨final,exact,returned⟩ := updates middle
        cases (exact last).mp updated
        cases same
        rcases leads.round target fresh with ⟨_,round',rfl⟩ | ⟨_,round',_⟩
        · rw [round] at round'
          cases round'
          refine ⟨back + (steps + ahead),by omega,?_⟩
          rw [Function.iterate_add_apply,Function.iterate_add_apply,enters store holds,reached,returned]
        · rw [round] at round'
          cases round'
      · cases same
  · intro store flow turned
    rcases testedRound_iff.mp turned with ⟨fails,same⟩ | ⟨holds,flow',ran,turned⟩
    · cases same
      obtain ⟨exit,broken,reached⟩ := leaves store fails
      exact ⟨1,_,Nat.le_refl _,reached,.falls broken⟩
    · obtain ⟨steps,point,enough,reached,leads⟩ := follows.sound store flow' ran
      rcases turned with ⟨middle,last,round,updated,same⟩ | ⟨done,round,same⟩
      · obtain ⟨final,exact,_⟩ := updates middle
        cases (exact last).mp updated
        cases same
      · cases same
        rcases leads.round target fresh with ⟨_,round',_⟩ | ⟨_,round',leads⟩
        · rw [round] at round'
          cases round'
        · rw [round] at round'
          cases round'
          refine ⟨steps + ahead,point,by omega,?_,leads⟩
          rw [Function.iterate_add_apply,enters store holds,reached]
  · intro store outcome ended
    cases holds : meaning.holds store condition with
    | false => exact ⟨_,testedRound_iff.mpr (Or.inl ⟨holds,rfl⟩)⟩
    | true =>
      obtain ⟨flow,ran⟩ := follows.total store outcome (ended.after (enters store holds))
      cases round : flow.round context.id with
      | inl next =>
        obtain ⟨final,exact,_⟩ := updates next
        exact ⟨_,testedRound_iff.mpr (Or.inr ⟨holds,flow,ran,
          Or.inl ⟨next,_,round,(exact _).mpr rfl,rfl⟩⟩)⟩
      | inr done => exact ⟨_,testedRound_iff.mpr (Or.inr ⟨holds,flow,ran,Or.inr ⟨done,round,rfl⟩⟩)⟩

theorem turned {work : Block} {again : BlockId} {middle flow : Flow σ ν} {point : Point σ ν}
    (leads : Leads continued (context :: contexts) (some again) middle point)
    (target : context.continueTarget = some again) (fresh : ∀ outer ∈ contexts, outer.id ≠ context.id)
    (plain : ∀ statement ∈ work, statement.isPlain = true) (quiet : work = [] ∨ ¬continued context.id)
    (after : After (meaning.Runs work) middle flow) :
    (∃ next, flow.round context.id = .inl (meaning.effects work next) ∧ point = .before again next) ∨
      ∃ done, flow.round context.id = .inr done ∧ Leads continued contexts context.breakTarget done point := by
  rcases leads.round target fresh with ⟨next,round,rfl⟩ | ⟨done,round,outside⟩
  · refine Or.inl ⟨next,?_,rfl⟩
    rcases Flow.round_inl.mp round with rfl | rfl
    · cases (runs_plain plain).mp after
      rfl
    · rcases quiet with rfl | single
      · cases after
        exact round
      · exact absurd leads.continues single
  · refine Or.inr ⟨done,?_,outside⟩
    have jumps (last : σ) : middle ≠ .normal last := by
      rintro rfl
      cases round
    rwa [jump_after jumps after]

theorem repeated {header latch exit : BlockId} {least : Nat} {work : Block}
    (target : context.continueTarget = some latch) (broken : context.breakTarget = some exit)
    (fresh : ∀ outer ∈ contexts, outer.id ≠ context.id)
    (follows : Follows graph meaning continued (context :: contexts) (some latch) least body
      (Point.before header))
    (positive : 1 ≤ least) (plain : ∀ statement ∈ work, statement.isPlain = true)
    (quiet : work = [] ∨ ¬continued context.id)
    (tests : ∀ store, (graph.step meaning) (.before latch store) = .before
      (if meaning.holds (meaning.effects work store) condition then header else exit) (meaning.effects work store)) :
    Follows graph meaning continued contexts context.breakTarget 1
      [.doWhile context.id condition (body ++ work)] (Point.before header) := by
  refine rounds (fun _ _ => executes_doWhile) ?_ ?_ ?_
  · intro store next turned
    obtain ⟨flow,ran,same⟩ := repeatedRound_iff.mp turned
    obtain ⟨middle,first,second⟩ := runs_append.mp ran
    obtain ⟨steps,point,_,reached,leads⟩ := follows.sound store middle first
    rcases Follows.turned leads target fresh plain quiet second with ⟨last,round,rfl⟩ | ⟨_,round,_⟩
    · simp only [round] at same
      split at same
      · rename_i holds
        cases same
        refine ⟨1 + steps,by omega,?_⟩
        rw [Function.iterate_add_apply,reached]
        simp [tests,holds]
      · cases same
    · simp only [round] at same
      cases same
  · intro store flow turned
    obtain ⟨flow',ran,same⟩ := repeatedRound_iff.mp turned
    obtain ⟨middle,first,second⟩ := runs_append.mp ran
    obtain ⟨steps,point,enough,reached,leads⟩ := follows.sound store middle first
    rcases Follows.turned leads target fresh plain quiet second with ⟨last,round,rfl⟩ | ⟨_,round,leads⟩
    · simp only [round] at same
      split at same
      · cases same
      · rename_i fails
        cases same
        refine ⟨1 + steps,.before exit (meaning.effects work last),by omega,?_,.falls broken⟩
        rw [Function.iterate_add_apply,reached]
        simp [tests,fails]
    · simp only [round] at same
      cases same
      exact ⟨steps,point,by omega,reached,leads⟩
  · intro store outcome ended
    obtain ⟨middle,ran⟩ := follows.total store outcome ended
    obtain ⟨flow,last⟩ : ∃ flow, After (meaning.Runs work) middle flow := by
      cases middle with
      | normal next => exact ⟨_,(runs_plain plain).mpr rfl⟩
      | _ => exact ⟨_,rfl⟩
    exact ⟨_,repeatedRound_iff.mpr ⟨flow,runs_append.mpr ⟨middle,ran,last⟩,rfl⟩⟩

end Follows
end Untangle
