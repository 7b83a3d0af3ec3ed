import Untangle.Proofs.Running.Meaning

namespace Untangle
namespace Meaning
variable {σ : Type u} {ν : Type v} {meaning : Meaning σ ν}

theorem runWith_append (step : Statement → σ → Option (Flow σ ν)) (first second : Block) (store : σ) :
    runWith step (first ++ second) store =
      (runWith step first store).bind (·.andThen (runWith step second)) := by
  induction first generalizing store with
  | nil => rfl
  | cons statement rest ih =>
    simp only [List.cons_append,runWith]
    cases step statement store with
    | none => rfl
    | some flow =>
      cases flow with
      | normal next => exact ih next
      | _ => rfl

theorem runWith_mono {less more : Statement → σ → Option (Flow σ ν)}
    (keeps : ∀ statement store flow, less statement store = some flow → more statement store = some flow)
    {block : Block} {store : σ} {flow : Flow σ ν} (ran : runWith less block store = some flow) :
    runWith more block store = some flow := by
  induction block generalizing store with
  | nil => exact ran
  | cons statement rest ih =>
    simp only [runWith,Option.bind_eq_some_iff] at ran ⊢
    obtain ⟨middle,first,second⟩ := ran
    refine ⟨middle,keeps _ _ _ first,?_⟩
    cases middle with
    | normal next => exact ih second
    | _ => exact second

theorem tested_mono {id : BreakableId} {holds : σ → Bool}
    {body body' update update' : σ → Option (Flow σ ν)}
    (bodies : ∀ store flow, body store = some flow → body' store = some flow)
    (updates : ∀ store flow, update store = some flow → update' store = some flow)
    {store : σ} {turn : σ ⊕ Flow σ ν} (ran : tested id holds body update store = some turn) :
    tested id holds body' update' store = some turn := by
  unfold tested at ran ⊢
  split at ran
  · rename_i again
    rw [if_pos again]
    obtain ⟨flow,first,second⟩ := Option.bind_eq_some_iff.mp ran
    refine Option.bind_eq_some_iff.mpr ⟨flow,bodies _ _ first,?_⟩
    split at second
    · obtain ⟨middle,last,same⟩ := Option.map_eq_some_iff.mp second
      exact Option.map_eq_some_iff.mpr ⟨middle,updates _ _ last,same⟩
    · exact second
  · rename_i stops
    rwa [if_neg stops]

theorem repeated_mono {id : BreakableId} {holds : σ → Bool} {body body' : σ → Option (Flow σ ν)}
    (bodies : ∀ store flow, body store = some flow → body' store = some flow)
    {store : σ} {turn : σ ⊕ Flow σ ν} (ran : repeated id holds body store = some turn) :
    repeated id holds body' store = some turn := by
  obtain ⟨flow,first,same⟩ := Option.map_eq_some_iff.mp ran
  exact Option.map_eq_some_iff.mpr ⟨flow,bodies _ _ first,same⟩

theorem goOn_mono {again again' : σ → Option (Flow σ ν)}
    (keeps : ∀ store flow, again store = some flow → again' store = some flow)
    {turn : σ ⊕ Flow σ ν} {flow : Flow σ ν} (ran : goOn again turn = some flow) :
    goOn again' turn = some flow := by
  cases turn with
  | inl next => exact keeps _ _ ran
  | inr done => exact ran

theorem exec_succ {fuel : Nat} {statement : Statement} {store : σ} {flow : Flow σ ν}
    (ran : meaning.exec fuel statement store = some flow) :
    meaning.exec (fuel + 1) statement store = some flow := by
  induction fuel generalizing statement store flow with
  | zero => cases ran
  | succ fuel ih =>
    have blocks (block : Block) (store : σ) (flow : Flow σ ν)
        (ran : runWith (meaning.exec fuel) block store = some flow) :
        runWith (meaning.exec (fuel + 1)) block store = some flow :=
      runWith_mono (fun _ _ _ => ih) ran
    unfold exec at ran ⊢
    cases statement with
    | branch condition thenBlock elseBlock => exact blocks _ _ _ ran
    | whileLoop id condition body =>
      obtain ⟨turn,first,second⟩ := Option.bind_eq_some_iff.mp ran
      exact Option.bind_eq_some_iff.mpr
        ⟨turn,tested_mono (blocks _) (blocks _) first,goOn_mono (fun _ _ => ih) second⟩
    | doWhile id condition body =>
      obtain ⟨turn,first,second⟩ := Option.bind_eq_some_iff.mp ran
      exact Option.bind_eq_some_iff.mpr
        ⟨turn,repeated_mono (blocks _) first,goOn_mono (fun _ _ => ih) second⟩
    | forLoop id start condition update body =>
      cases start with
      | some start => exact blocks _ _ _ ran
      | none =>
        obtain ⟨turn,first,second⟩ := Option.bind_eq_some_iff.mp ran
        exact Option.bind_eq_some_iff.mpr
          ⟨turn,tested_mono (blocks _) (blocks _) first,goOn_mono (fun _ _ => ih) second⟩
    | switch id discriminant arms =>
      obtain ⟨middle,first,second⟩ := Option.map_eq_some_iff.mp ran
      exact Option.map_eq_some_iff.mpr ⟨middle,blocks _ _ _ first,second⟩
    | tryCatch body catches =>
      obtain ⟨middle,first,second⟩ := Option.bind_eq_some_iff.mp ran
      refine Option.bind_eq_some_iff.mpr ⟨middle,blocks _ _ _ first,?_⟩
      split at second
      · split at second
        · exact blocks _ _ _ second
        · exact second
      · exact second
    | _ => exact ran

theorem exec_mono {less more : Nat} (le : less ≤ more) {statement : Statement} {store : σ}
    {flow : Flow σ ν} (ran : meaning.exec less statement store = some flow) :
    meaning.exec more statement store = some flow := by
  induction le with
  | refl => exact ran
  | step _ ih => exact exec_succ ih

theorem run_mono {less more : Nat} (le : less ≤ more) {block : Block} {store : σ} {flow : Flow σ ν}
    (ran : meaning.run less block store = some flow) : meaning.run more block store = some flow :=
  runWith_mono (fun _ _ _ => exec_mono le) ran

def Executes (meaning : Meaning σ ν) (statement : Statement) (store : σ) (flow : Flow σ ν) : Prop :=
  ∃ fuel, meaning.exec fuel statement store = some flow

def Runs (meaning : Meaning σ ν) (block : Block) (store : σ) (flow : Flow σ ν) : Prop :=
  ∃ fuel, meaning.run fuel block store = some flow

def After (second : σ → Flow σ ν → Prop) (middle flow : Flow σ ν) : Prop :=
  match middle with
  | .normal next => second next flow
  | _ => flow = middle

theorem after_jump {second : σ → Flow σ ν → Prop} {flow : Flow σ ν} (jumps : ∀ last, flow ≠ .normal last) :
    After second flow flow := by
  cases flow with
  | normal last => exact absurd rfl (jumps last)
  | _ => rfl

theorem jump_after {second : σ → Flow σ ν → Prop} {middle flow : Flow σ ν}
    (jumps : ∀ last, middle ≠ .normal last) (after : After second middle flow) : flow = middle := by
  cases middle with
  | normal last => exact absurd rfl (jumps last)
  | _ => exact after

theorem runs_functional (left : meaning.Runs block store first) (right : meaning.Runs block store second) :
    first = second := by
  obtain ⟨n,left⟩ := left
  obtain ⟨k,right⟩ := right
  have left := run_mono (Nat.le_max_left n k) left
  have right := run_mono (Nat.le_max_right n k) right
  exact Option.some.inj (left.symm.trans right)

theorem runs_nil : meaning.Runs [] store flow ↔ flow = .normal store := by
  constructor
  · rintro ⟨fuel,ran⟩
    exact (Option.some.inj ran).symm
  · rintro rfl
    exact ⟨0,rfl⟩

theorem runs_append : meaning.Runs (first ++ second) store flow ↔
    ∃ middle, meaning.Runs first store middle ∧ After (meaning.Runs second) middle flow := by
  constructor
  · rintro ⟨fuel,ran⟩
    unfold run at ran
    rw [runWith_append] at ran
    obtain ⟨middle,ranFirst,ranSecond⟩ := Option.bind_eq_some_iff.mp ran
    refine ⟨middle,⟨fuel,ranFirst⟩,?_⟩
    cases middle with
    | normal next => exact ⟨fuel,ranSecond⟩
    | _ => exact (Option.some.inj ranSecond).symm
  · rintro ⟨middle,⟨n,ranFirst⟩,rest⟩
    cases middle with
    | normal next =>
      obtain ⟨k,ranSecond⟩ := rest
      refine ⟨max n k,?_⟩
      unfold run
      rw [runWith_append]
      exact Option.bind_eq_some_iff.mpr
        ⟨_,run_mono (Nat.le_max_left n k) ranFirst,run_mono (Nat.le_max_right n k) ranSecond⟩
    | _ =>
      cases rest
      refine ⟨n,?_⟩
      unfold run
      rw [runWith_append]
      exact Option.bind_eq_some_iff.mpr ⟨_,ranFirst,rfl⟩

theorem runs_behind (same : ∀ store flow, meaning.Runs second store flow ↔ meaning.Runs second' store flow) :
    meaning.Runs (first ++ second) store flow ↔ meaning.Runs (first ++ second') store flow := by
  obtain same : meaning.Runs second = meaning.Runs second' :=
    funext fun store => funext fun flow => propext (same store flow)
  rw [runs_append,runs_append,same]

theorem runs_single : meaning.Runs [statement] store flow ↔ meaning.Executes statement store flow := by
  have same (fuel : Nat) : meaning.run fuel [statement] store = meaning.exec fuel statement store := by
    unfold run runWith
    cases meaning.exec fuel statement store with
    | none => rfl
    | some flow => cases flow <;> rfl
  constructor
  · rintro ⟨fuel,ran⟩
    exact ⟨fuel,same fuel ▸ ran⟩
  · rintro ⟨fuel,ran⟩
    exact ⟨fuel,(same fuel).trans ran⟩

theorem runs_cons : meaning.Runs (statement :: rest) store flow ↔
    ∃ middle, meaning.Executes statement store middle ∧ After (meaning.Runs rest) middle flow := by
  have split : statement :: rest = [statement] ++ rest := rfl
  rw [split,runs_append]
  simp only [runs_single]

end Meaning
end Untangle
