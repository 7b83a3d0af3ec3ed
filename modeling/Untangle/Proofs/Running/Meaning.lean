import Untangle.Tree.Statement

namespace Untangle

-- What plain statements do to a store, and what comparisons, tests, discriminants and values read from
-- it. Only comparisons are bound by a law: an operator and its negation are complementary.
structure Meaning (σ : Type u) (ν : Type v) where
  effect : Statement → σ → σ
  compares : CompareOp → Expr → Expr → σ → Bool
  tests : Expr → σ → Bool
  selects : Expr → σ → Int32
  value : Expr → σ → ν
  isInstance : ν → String → Bool
  complements : ∀ op left right store,
    compares op.negate left right store = !compares op left right store

inductive Outcome (σ : Type u) (ν : Type v) where
  | returned (store : σ) (value : Option ν)
  | threw (store : σ) (exception : ν)

-- How control leaves a piece of code: off its end, by a `break` or a `continue`, or out of the unit.
inductive Flow (σ : Type u) (ν : Type v) where
  | normal (store : σ)
  | leaves (target : Option BreakableId) (store : σ)
  | resumes (target : Option BreakableId) (store : σ)
  | ends (outcome : Outcome σ ν)

variable {σ : Type u} {ν : Type v}

namespace Flow

def andThen (next : σ → Option (Flow σ ν)) : Flow σ ν → Option (Flow σ ν)
  | normal store => next store
  | flow => some flow

-- A construct is where its own breaks end.
def leaving (id : BreakableId) : Flow σ ν → Flow σ ν
  | leaves target store => if target = some id then normal store else leaves target store
  | flow => flow

def round (id : BreakableId) : Flow σ ν → σ ⊕ Flow σ ν
  | normal store => .inl store
  | resumes target store => if target = some id then .inl store else .inr (resumes target store)
  | flow => .inr (flow.leaving id)

theorem round_inl {id : BreakableId} {flow : Flow σ ν} {next : σ} :
    flow.round id = .inl next ↔ flow = .normal next ∨ flow = .resumes (some id) next := by
  cases flow with
  | resumes target store =>
    by_cases own : target = some id <;> simp [round,own]
  | _ => simp [round,leaving]

end Flow

def SwitchArm.select (arms : List SwitchArm) (value : Int32) : List SwitchArm :=
  match arms.dropWhile (value ∉ ·.labels) with
  | [] => arms.dropWhile (!·.isDefault)
  | found => found

def CatchClause.matches (clause : CatchClause) (isInstance : String → Bool) : Bool :=
  clause.types.isEmpty || clause.types.any isInstance

namespace Meaning

mutual
def holds (meaning : Meaning σ ν) (store : σ) : Condition → Bool
  | .compare op left right => meaning.compares op left right store
  | .test value inverted => meaning.tests value store != inverted
  | .conj parts => meaning.allHold store parts
  | .disj parts => meaning.someHolds store parts
  | .not inner => !meaning.holds store inner
  | .constant value => value
def allHold (meaning : Meaning σ ν) (store : σ) : List Condition → Bool
  | [] => true
  | part :: rest => meaning.holds store part && meaning.allHold store rest
def someHolds (meaning : Meaning σ ν) (store : σ) : List Condition → Bool
  | [] => false
  | part :: rest => meaning.holds store part || meaning.someHolds store rest
end

def runWith (step : Statement → σ → Option (Flow σ ν)) : Block → σ → Option (Flow σ ν)
  | [], store => some (.normal store)
  | statement :: rest, store => (step statement store).bind (·.andThen (runWith step rest))

def tested (id : BreakableId) (holds : σ → Bool) (body update : σ → Option (Flow σ ν)) (store : σ) :
    Option (σ ⊕ Flow σ ν) :=
  if holds store then
    (body store).bind fun flow =>
      match flow.round id with
      | .inl next => (update next).map fun
        | .normal last => .inl last
        | other => .inr other
      | .inr done => some (.inr done)
  else some (.inr (.normal store))

def repeated (id : BreakableId) (holds : σ → Bool) (body : σ → Option (Flow σ ν)) (store : σ) :
    Option (σ ⊕ Flow σ ν) :=
  (body store).map fun flow =>
    match flow.round id with
    | .inl next => if holds next then .inl next else .inr (.normal next)
    | .inr done => .inr done

def goOn (again : σ → Option (Flow σ ν)) : σ ⊕ Flow σ ν → Option (Flow σ ν)
  | .inl next => again next
  | .inr flow => some flow

-- Runs one statement. Fuel bounds the depth of nesting and the rounds of loops; `none` means that it
-- ran out.
def exec (meaning : Meaning σ ν) : Nat → Statement → σ → Option (Flow σ ν)
  | 0, _, _ => none
  | fuel + 1, statement, store =>
    let block := runWith (meaning.exec fuel)
    match statement with
    | .branch condition thenBlock elseBlock =>
      block (if meaning.holds store condition then thenBlock else elseBlock.getD []) store
    | .whileLoop id condition body =>
      (tested id (meaning.holds · condition) (block body) (block []) store).bind
        (goOn (meaning.exec fuel statement))
    | .doWhile id condition body =>
      (repeated id (meaning.holds · condition) (block body) store).bind (goOn (meaning.exec fuel statement))
    | .forLoop id (some start) condition update body =>
      block [start,.forLoop id none condition update body] store
    | .forLoop id none condition update body =>
      (tested id (meaning.holds · condition) (block body) (block update.toList) store).bind
        (goOn (meaning.exec fuel statement))
    | .switch id discriminant arms =>
      (block ((SwitchArm.select arms (meaning.selects discriminant store)).flatMap (·.body)) store).map
        (·.leaving id)
    | .jump brk =>
      match brk.kind with
      | .break => some (.leaves brk.target store)
      | .continue => some (.resumes brk.target store)
    | .ret value => some (.ends (.returned store (value.map (meaning.value · store))))
    | .throw exception => some (.ends (.threw store (meaning.value exception store)))
    | .tryCatch body catches =>
      (block body store).bind fun flow =>
        match flow with
        | .ends (.threw store exception) =>
          match catches.find? (·.matches (meaning.isInstance exception)) with
          | some clause => block clause.body store
          | none => some flow
        | flow => some flow
    | plain => some (.normal (meaning.effect plain store))

def run (meaning : Meaning σ ν) (fuel : Nat) : Block → σ → Option (Flow σ ν) :=
  runWith (meaning.exec fuel)

end Meaning
end Untangle
