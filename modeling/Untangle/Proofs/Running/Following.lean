import Mathlib.Logic.Function.Iterate
import Untangle.Proofs.Running.Rounds
import Untangle.Structuring.Survey

namespace Untangle
variable {σ : Type u} {ν : Type v}

inductive Point (σ : Type u) (ν : Type v) where
  | before (block : BlockId) (store : σ)
  | over (outcome : Outcome σ ν)

namespace Meaning

def effects (meaning : Meaning σ ν) (block : Block) (store : σ) : σ :=
  block.foldl (fun store statement => meaning.effect statement store) store

def goes (meaning : Meaning σ ν) (store : σ) : Terminator → Point σ ν
  | .goto target => .before target store
  | .branch condition thenTarget elseTarget =>
    .before (if meaning.holds store condition then thenTarget else elseTarget) store
  | .switch discriminant cases default =>
    .before ((cases.lookup (meaning.selects discriminant store)).getD default) store
  | .ret value => .over (.returned store (value.map (meaning.value · store)))
  | .throw exception => .over (.threw store (meaning.value exception store))

end Meaning

namespace BlockGraph

def step (graph : BlockGraph) (meaning : Meaning σ ν) : Point σ ν → Point σ ν
  | .before block store =>
    meaning.goes (meaning.effects (graph.statements block) store) (graph.terminator block)
  | .over outcome => .over outcome

def Finishes (graph : BlockGraph) (meaning : Meaning σ ν) (point : Point σ ν) (outcome : Outcome σ ν) : Prop :=
  ∃ steps, (graph.step meaning)^[steps] point = .over outcome

theorem over_stays (graph : BlockGraph) (meaning : Meaning σ ν) (outcome : Outcome σ ν) (steps : Nat) :
    (graph.step meaning)^[steps] (.over outcome) = .over outcome :=
  Function.iterate_fixed rfl steps

variable {graph : BlockGraph} {meaning : Meaning σ ν}

theorem finish_after {point next : Point σ ν} {steps total : Nat} {outcome : Outcome σ ν}
    (reached : (graph.step meaning)^[steps] point = next)
    (ended : (graph.step meaning)^[total] point = .over outcome) :
    (graph.step meaning)^[total - steps] next = .over outcome := by
  rcases Nat.le_total steps total with le | le
  · rw [← reached,← Function.iterate_add_apply,Nat.sub_add_cancel le]
    exact ended
  · rw [Nat.sub_eq_zero_of_le le]
    have again : (graph.step meaning)^[steps - total + total] point = .over outcome := by
      rw [Function.iterate_add_apply,ended,over_stays]
    rw [Nat.sub_add_cancel le,reached] at again
    exact again

theorem Finishes.after {point next : Point σ ν} {steps : Nat} {outcome : Outcome σ ν}
    (reached : (graph.step meaning)^[steps] point = next) (ended : graph.Finishes meaning point outcome) :
    graph.Finishes meaning next outcome := by
  obtain ⟨total,ended⟩ := ended
  exact ⟨_,finish_after reached ended⟩

theorem finishes_functional {point : Point σ ν} {left right : Outcome σ ν}
    (first : graph.Finishes meaning point left) (second : graph.Finishes meaning point right) : left = right := by
  obtain ⟨steps,ended⟩ := first
  obtain ⟨rest,same⟩ := second.after ended
  rw [over_stays] at same
  exact Point.over.inj same

end BlockGraph

-- The point of the graph that a flow stands for, where the open contexts give jumps their meaning and
-- `stop` is what follows. Only contexts known to be continued are.
inductive Leads (continued : BreakableId → Prop) (contexts : List Context) (stop : Option BlockId) :
    Flow σ ν → Point σ ν → Prop where
  | falls : stop = some target → Leads continued contexts stop (.normal store) (.before target store)
  | leaves : context ∈ contexts → context.breakTarget = some target →
      Leads continued contexts stop (.leaves (some context.id) store) (.before target store)
  | resumes : context ∈ contexts → context.continueTarget = some target → continued context.id →
      Leads continued contexts stop (.resumes (some context.id) store) (.before target store)
  | ends : Leads continued contexts stop (.ends outcome) (.over outcome)

namespace Leads
variable {continued : BreakableId → Prop} {contexts : List Context} {context : Context}
  {stop : Option BlockId} {flow : Flow σ ν} {point : Point σ ν}

theorem anyStop (leads : Leads continued contexts stop flow point)
    (leaves : ∀ store, flow ≠ .normal store) : Leads continued contexts other flow point := by
  cases leads with
  | falls _ => exact absurd rfl (leaves _)
  | leaves member target => exact .leaves member target
  | resumes member target known => exact .resumes member target known
  | ends => exact .ends

theorem mono (leads : Leads continued contexts stop flow point)
    (more : ∀ id, continued id → continued' id) : Leads continued' contexts stop flow point := by
  cases leads with
  | falls same => exact .falls same
  | leaves member target => exact .leaves member target
  | resumes member target known => exact .resumes member target (more _ known)
  | ends => exact .ends

theorem continues {id : BreakableId} {store : σ}
    (leads : Leads continued contexts stop (.resumes (some id) store) point) : continued id := by
  cases leads with
  | resumes _ _ known => exact known

theorem leaving (leads : Leads continued (context :: contexts) (context.breakTarget.or stop) flow point)
    (plain : context.continueTarget = none) (fresh : ∀ outer ∈ contexts, outer.id ≠ context.id) :
    Leads continued contexts (context.breakTarget.or stop) (flow.leaving context.id) point := by
  cases leads with
  | falls same => exact .falls same
  | leaves member target =>
    rcases List.mem_cons.mp member with rfl | outer
    · simp only [Flow.leaving,if_true]
      exact .falls (by rw [target]; rfl)
    · have apart := fresh _ outer
      simp only [Flow.leaving,Option.some.injEq,apart,if_false]
      exact .leaves outer target
  | resumes member target known =>
    rcases List.mem_cons.mp member with rfl | outer
    · rw [plain] at target
      cases target
    · exact .resumes outer target known
  | ends => exact .ends

theorem round {again : BlockId} (leads : Leads continued (context :: contexts) (some again) flow point)
    (target : context.continueTarget = some again) (fresh : ∀ outer ∈ contexts, outer.id ≠ context.id) :
    (∃ next, flow.round context.id = .inl next ∧ point = .before again next) ∨
      ∃ done, flow.round context.id = .inr done ∧ Leads continued contexts context.breakTarget done point := by
  cases leads with
  | falls same =>
    cases same
    exact Or.inl ⟨_,rfl,rfl⟩
  | leaves member leaves =>
    rcases List.mem_cons.mp member with rfl | outer
    · exact Or.inr ⟨_,by simp [Flow.round,Flow.leaving],.falls leaves⟩
    · have apart := fresh _ outer
      exact Or.inr ⟨_,by simp only [Flow.round,Flow.leaving,Option.some.injEq,apart,if_false],.leaves outer leaves⟩
  | resumes member resumes known =>
    rcases List.mem_cons.mp member with rfl | outer
    · rw [target] at resumes
      cases resumes
      exact Or.inl ⟨_,by simp only [Flow.round,if_true],rfl⟩
    · have apart := fresh _ outer
      exact Or.inr ⟨_,by simp only [Flow.round,Option.some.injEq,apart,if_false],.resumes outer resumes known⟩
  | ends => exact Or.inr ⟨_,rfl,.ends⟩

end Leads

-- A piece of code runs as the graph does from a point on: whatever it comes to, the graph gets to the
-- point this stands for, in at least so many steps; and it comes to something if the graph ends.
structure Follows (graph : BlockGraph) (meaning : Meaning σ ν) (continued : BreakableId → Prop)
    (contexts : List Context) (stop : Option BlockId) (least : Nat) (code : Block)
    (start : σ → Point σ ν) : Prop where
  sound : ∀ store flow, meaning.Runs code store flow → ∃ steps point, least ≤ steps ∧
    (graph.step meaning)^[steps] (start store) = point ∧ Leads continued contexts stop flow point
  total : ∀ store outcome, graph.Finishes meaning (start store) outcome → ∃ flow, meaning.Runs code store flow

namespace Follows
open Meaning
variable {graph : BlockGraph} {meaning : Meaning σ ν} {continued : BreakableId → Prop}
  {contexts : List Context} {stop : Option BlockId} {code : Block} {start : σ → Point σ ν} {least : Nat}

theorem mono (follows : Follows graph meaning continued contexts stop least code start)
    (more : ∀ id, continued id → continued' id) :
    Follows graph meaning continued' contexts stop least code start where
  sound store flow ran := by
    obtain ⟨steps,point,enough,reached,leads⟩ := follows.sound store flow ran
    exact ⟨steps,point,enough,reached,leads.mono more⟩
  total := follows.total

theorem anyStop (follows : Follows graph meaning continued contexts none least code start) :
    Follows graph meaning continued contexts stop least code start where
  sound store flow ran := by
    obtain ⟨steps,point,enough,reached,leads⟩ := follows.sound store flow ran
    refine ⟨steps,point,enough,reached,leads.anyStop ?_⟩
    rintro store rfl
    cases leads with
    | falls impossible => cases impossible
  total := follows.total

theorem congr {same : Block} (follows : Follows graph meaning continued contexts stop least code start)
    (equal : ∀ store flow, meaning.Runs same store flow ↔ meaning.Runs code store flow) :
    Follows graph meaning continued contexts stop least same start where
  sound store flow ran := follows.sound store flow ((equal store flow).mp ran)
  total store outcome ended := by
    obtain ⟨flow,ran⟩ := follows.total store outcome ended
    exact ⟨flow,(equal store flow).mpr ran⟩

theorem empty (target : BlockId) :
    Follows graph meaning continued contexts (some target) 0 [] (Point.before target) where
  sound store flow ran := by
    cases runs_nil.mp ran
    exact ⟨0,_,Nat.le_refl _,rfl,.falls rfl⟩
  total store _ _ := ⟨.normal store,runs_nil.mpr rfl⟩

theorem append {second : Block} {target : BlockId}
    (first : Follows graph meaning continued contexts (some target) least code start)
    (rest : Follows graph meaning continued contexts stop fewer second (Point.before target)) :
    Follows graph meaning continued contexts stop least (code ++ second) start where
  sound store flow ran := by
    obtain ⟨middle,ranFirst,ranRest⟩ := runs_append.mp ran
    obtain ⟨steps,point,enough,reached,leads⟩ := first.sound store middle ranFirst
    cases middle with
    | normal next =>
      obtain rfl : point = .before target next := by
        cases leads with
        | falls same => rw [Option.some.inj same]
      obtain ⟨more,last,_,arrived,leads⟩ := rest.sound _ flow ranRest
      exact ⟨more + steps,last,Nat.le_trans enough (Nat.le_add_left _ _),
        by rw [Function.iterate_add_apply,reached,arrived],leads⟩
    | _ =>
      cases ranRest
      exact ⟨steps,point,enough,reached,leads.anyStop fun _ same => by cases same⟩
  total store outcome ended := by
    obtain ⟨middle,ranFirst⟩ := first.total store outcome ended
    obtain ⟨steps,point,_,reached,leads⟩ := first.sound store middle ranFirst
    cases middle with
    | normal next =>
      obtain rfl : point = .before target next := by
        cases leads with
        | falls same => rw [Option.some.inj same]
      obtain ⟨flow,ranRest⟩ := rest.total _ outcome (ended.after reached)
      exact ⟨flow,runs_append.mpr ⟨_,ranFirst,ranRest⟩⟩
    | _ => exact ⟨_,runs_append.mpr ⟨_,ranFirst,rfl⟩⟩

end Follows
end Untangle
