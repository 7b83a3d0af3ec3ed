import Untangle.Proofs.Emission.Shapes
import Untangle.Proofs.Running.Runs

namespace Untangle

namespace Meaning
variable {σ : Type u} {ν : Type v}

inductive Rounds (turns : σ → σ ⊕ Flow σ ν → Prop) : σ → Flow σ ν → Prop where
  | last : turns store (.inr flow) → Rounds turns store flow
  | again : turns store (.inl next) → Rounds turns next flow → Rounds turns store flow

variable {meaning : Meaning σ ν} {store : σ} {flow : Flow σ ν}
  {id : BreakableId} {condition : Condition} {body : Block} {result : σ ⊕ Flow σ ν}

theorem executes_succ : meaning.Executes statement store flow ↔
    ∃ fuel, meaning.exec (fuel + 1) statement store = some flow := by
  constructor
  · rintro ⟨fuel,ran⟩
    exact ⟨fuel,exec_succ ran⟩
  · rintro ⟨fuel,ran⟩
    exact ⟨fuel + 1,ran⟩

theorem executes_plain (plain : statement.isPlain) :
    meaning.Executes statement store flow ↔ flow = .normal (meaning.effect statement store) := by
  rw [executes_succ]
  unfold exec
  cases statement <;> simp_all [Statement.isPlain,eq_comm]

theorem executes_branch : meaning.Executes (.branch condition thenBlock elseBlock) store flow ↔
    meaning.Runs (if meaning.holds store condition then thenBlock else elseBlock.getD []) store flow :=
  executes_succ

theorem executes_ret {value : Option Expr} : meaning.Executes (.ret value) store flow ↔
    flow = .ends (.returned store (value.map (meaning.value · store))) := by
  rw [executes_succ]
  unfold exec
  simp [eq_comm]

theorem executes_throw : meaning.Executes (.throw exception) store flow ↔
    flow = .ends (.threw store (meaning.value exception store)) := by
  rw [executes_succ]
  unfold exec
  simp [eq_comm]

theorem executes_jump : meaning.Executes (.jump brk) store flow ↔
    flow = match brk.kind with
      | .break => .leaves brk.target store
      | .continue => .resumes brk.target store := by
  rw [executes_succ]
  unfold exec
  cases kind : brk.kind <;> simp [kind,eq_comm]

theorem executes_switch : meaning.Executes (.switch id discriminant arms) store flow ↔
    ∃ middle, meaning.Runs ((SwitchArm.select arms (meaning.selects discriminant store)).flatMap (·.body))
      store middle ∧ flow = middle.leaving id := by
  rw [executes_succ]
  unfold exec
  simp only [Option.map_eq_some_iff]
  constructor
  · rintro ⟨fuel,middle,ran,rfl⟩
    exact ⟨middle,⟨fuel,ran⟩,rfl⟩
  · rintro ⟨middle,⟨fuel,ran⟩,rfl⟩
    exact ⟨fuel,middle,ran,rfl⟩

theorem executes_forStart : meaning.Executes (.forLoop id (some start) condition update body) store flow ↔
    meaning.Runs [start,.forLoop id none condition update body] store flow := executes_succ

theorem executes_rounds {turn : Nat → σ → Option (σ ⊕ Flow σ ν)}
    (unrolls : ∀ fuel store, meaning.exec (fuel + 1) statement store =
      (turn fuel store).bind (goOn (meaning.exec fuel statement)))
    (grows : ∀ less more store result, less ≤ more → turn less store = some result →
      turn more store = some result) :
    meaning.Executes statement store flow ↔
      Rounds (fun store result => ∃ fuel, turn fuel store = some result) store flow := by
  constructor
  · rintro ⟨fuel,ran⟩
    induction fuel generalizing store with
    | zero => cases ran
    | succ fuel ih =>
      rw [unrolls] at ran
      obtain ⟨result,first,second⟩ := Option.bind_eq_some_iff.mp ran
      cases result with
      | inl next => exact .again ⟨fuel,first⟩ (ih second)
      | inr done =>
        cases second
        exact .last ⟨fuel,first⟩
  · intro rounds
    induction rounds with
    | last turned =>
      obtain ⟨fuel,turned⟩ := turned
      refine ⟨fuel + 1,?_⟩
      rw [unrolls]
      exact Option.bind_eq_some_iff.mpr ⟨_,turned,rfl⟩
    | again turned _ ih =>
      obtain ⟨fuel,turned⟩ := turned
      obtain ⟨more,rest⟩ := ih
      refine ⟨max fuel more + 1,?_⟩
      rw [unrolls]
      exact Option.bind_eq_some_iff.mpr ⟨_,grows _ _ _ _ (Nat.le_max_left fuel more) turned,
        exec_mono (Nat.le_max_right fuel more) rest⟩

def TestedRound (meaning : Meaning σ ν) (id : BreakableId) (condition : Condition)
    (update : Option Statement) (body : Block) (store : σ) (result : σ ⊕ Flow σ ν) : Prop :=
  ∃ fuel, tested id (meaning.holds · condition) (meaning.run fuel body) (meaning.run fuel update.toList)
    store = some result

def RepeatedRound (meaning : Meaning σ ν) (id : BreakableId) (condition : Condition) (body : Block)
    (store : σ) (result : σ ⊕ Flow σ ν) : Prop :=
  ∃ fuel, repeated id (meaning.holds · condition) (meaning.run fuel body) store = some result

theorem executes_while : meaning.Executes (.whileLoop id condition body) store flow ↔
    Rounds (meaning.TestedRound id condition none body) store flow :=
  executes_rounds (fun _ _ => rfl) fun _ _ _ _ le =>
    tested_mono (fun _ _ => run_mono le) (fun _ _ => run_mono le)

theorem executes_for : meaning.Executes (.forLoop id none condition update body) store flow ↔
    Rounds (meaning.TestedRound id condition update body) store flow :=
  executes_rounds (fun _ _ => rfl) fun _ _ _ _ le =>
    tested_mono (fun _ _ => run_mono le) (fun _ _ => run_mono le)

theorem executes_doWhile : meaning.Executes (.doWhile id condition body) store flow ↔
    Rounds (meaning.RepeatedRound id condition body) store flow :=
  executes_rounds (fun _ _ => rfl) fun _ _ _ _ le => repeated_mono (fun _ _ => run_mono le)

theorem testedRound_iff : meaning.TestedRound id condition update body store result ↔
    (meaning.holds store condition = false ∧ result = .inr (.normal store)) ∨
    (meaning.holds store condition = true ∧ ∃ flow, meaning.Runs body store flow ∧
      ((∃ next middle, flow.round id = .inl next ∧ meaning.Runs update.toList next middle ∧
          result = match middle with
            | .normal last => .inl last
            | other => .inr other) ∨
        ∃ done, flow.round id = .inr done ∧ result = .inr done)) := by
  unfold TestedRound tested
  by_cases again : meaning.holds store condition = true
  · constructor
    · rintro ⟨fuel,ran⟩
      rw [if_pos again] at ran
      obtain ⟨flow,first,second⟩ := Option.bind_eq_some_iff.mp ran
      refine Or.inr ⟨again,flow,⟨fuel,first⟩,?_⟩
      split at second
      · rename_i next turned
        obtain ⟨middle,last,rfl⟩ := Option.map_eq_some_iff.mp second
        exact Or.inl ⟨next,middle,turned,⟨fuel,last⟩,rfl⟩
      · rename_i done turned
        exact Or.inr ⟨done,turned,(Option.some.inj second).symm⟩
    · rintro (⟨stops,_⟩ | ⟨_,flow,⟨fuel,ran⟩,⟨next,middle,turned,⟨more,last⟩,rfl⟩ | ⟨done,turned,rfl⟩⟩)
      · rw [again] at stops
        cases stops
      · refine ⟨max fuel more,?_⟩
        rw [if_pos again]
        refine Option.bind_eq_some_iff.mpr ⟨flow,run_mono (Nat.le_max_left fuel more) ran,?_⟩
        rw [turned]
        exact Option.map_eq_some_iff.mpr ⟨middle,run_mono (Nat.le_max_right fuel more) last,rfl⟩
      · refine ⟨fuel,?_⟩
        rw [if_pos again]
        exact Option.bind_eq_some_iff.mpr ⟨flow,ran,by rw [turned]⟩
  · constructor
    · rintro ⟨_,same⟩
      rw [if_neg again] at same
      exact Or.inl ⟨Bool.eq_false_iff.mpr again,(Option.some.inj same).symm⟩
    · rintro (⟨_,rfl⟩ | ⟨holds,_⟩)
      · exact ⟨0,if_neg again⟩
      · exact absurd holds again

theorem repeatedRound_iff : meaning.RepeatedRound id condition body store result ↔
    ∃ flow, meaning.Runs body store flow ∧ result = match flow.round id with
      | .inl next => if meaning.holds next condition then .inl next else .inr (.normal next)
      | .inr done => .inr done := by
  unfold RepeatedRound repeated
  simp only [Option.map_eq_some_iff]
  constructor
  · rintro ⟨fuel,flow,ran,rfl⟩
    exact ⟨flow,⟨fuel,ran⟩,rfl⟩
  · rintro ⟨flow,⟨fuel,ran⟩,rfl⟩
    exact ⟨fuel,flow,ran,rfl⟩

theorem rounds_congr {turns turns' : σ → σ ⊕ Flow σ ν → Prop}
    (same : ∀ store result, turns store result ↔ turns' store result) :
    Rounds turns store flow ↔ Rounds turns' store flow := by
  obtain rfl : turns = turns' := funext fun store => funext fun result => propext (same store result)
  rfl

end Meaning
end Untangle
