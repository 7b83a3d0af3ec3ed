import Mathlib
import Untangle.Proofs.Equality.Same
import Untangle.Proofs.Folding.Interpretation

namespace Untangle

-- What an operand may stand for: an integer, a truth value, or a value that is only told from others.
inductive Value (ν : Type) where
  | number (value : Int)
  | truth (value : Bool)
  | other (value : ν)
deriving DecidableEq

namespace Value
variable {ν : Type} [DecidableEq ν]

def compare? : CompareOp → Value ν → Value ν → Option Bool
  | op, number left, number right => some (op.relates left right)
  | .eq, left, right => some (left = right)
  | .ne, left, right => some (left ≠ right)
  | _, _, _ => none

def truth? : Value ν → Option Bool
  | truth value => some value
  | _ => none

theorem compare_negate (op : CompareOp) (left right : Value ν) :
    compare? op.negate left right = (compare? op left right).map (!·) := by
  cases left with
  | number left =>
    cases right with
    | number right => exact congrArg some (op.relates_negate left right)
    | _ => cases op <;> simp [compare?,CompareOp.negate]
  | _ => cases op <;> simp [compare?,CompareOp.negate]

theorem compare_equality {op : CompareOp} (equality : op.isEquality = true) (left right : Value ν) :
    ∃ holds, compare? op left right = some holds := by
  cases op with
  | eq => cases left <;> cases right <;> exact ⟨_,rfl⟩
  | ne => cases left <;> cases right <;> exact ⟨_,rfl⟩
  | _ => cases equality

end Value

-- A run of a condition: the tests that were made, one after the other, each by its place among all there are and by
-- its operands, and what came out unless a test had no answer.
structure Evaluation where
  tests : List (Nat × List Expr)
  result : Option Bool

namespace Evaluation

def opposite (run : Evaluation) : Evaluation := {run with result:=run.result.map (!·)}

def andThen (first rest : Evaluation) : Evaluation :=
  if first.result = some true then ⟨first.tests ++ rest.tests,rest.result⟩ else first

def orElse (first rest : Evaluation) : Evaluation :=
  if first.result = some false then ⟨first.tests ++ rest.tests,rest.result⟩ else first

theorem opposite_opposite (run : Evaluation) : run.opposite.opposite = run := by
  simp [opposite,Function.comp_def]

theorem opposite_andThen (first rest : Evaluation) :
    (first.andThen rest).opposite = first.opposite.orElse rest.opposite := by
  obtain ⟨tests,_ | _ | _⟩ := first <;> rfl

theorem opposite_orElse (first rest : Evaluation) :
    (first.orElse rest).opposite = first.opposite.andThen rest.opposite := by
  obtain ⟨tests,_ | _ | _⟩ := first <;> rfl

end Evaluation

namespace Condition
variable {ν : Type} [DecidableEq ν] {value : Expr → Value ν} {condition : Condition} {parts : List Condition}

mutual
def width : Condition → Nat
  | compare _ _ _ => 1
  | test _ _ => 1
  | conj parts => widthEach parts
  | disj parts => widthEach parts
  | not inner => inner.width
  | constant _ => 0
def widthEach : List Condition → Nat
  | [] => 0
  | part :: rest => part.width + widthEach rest
end

mutual
-- Tests are made from left to right, where the first of them is at a given place.
def evaluate (value : Expr → Value ν) (place : Nat) : Condition → Evaluation
  | compare op left right => ⟨[(place,[left,right])],(value left).compare? op (value right)⟩
  | test tested inverted => ⟨[(place,[tested])],(value tested).truth?.map (· != inverted)⟩
  | conj parts => evaluateAll value place parts
  | disj parts => evaluateAny value place parts
  | not inner => (inner.evaluate value place).opposite
  | constant value => ⟨[],some value⟩
def evaluateAll (value : Expr → Value ν) (place : Nat) : List Condition → Evaluation
  | [] => ⟨[],some true⟩
  | part :: rest => (part.evaluate value place).andThen (evaluateAll value (place + part.width) rest)
def evaluateAny (value : Expr → Value ν) (place : Nat) : List Condition → Evaluation
  | [] => ⟨[],some false⟩
  | part :: rest => (part.evaluate value place).orElse (evaluateAny value (place + part.width) rest)
end

inductive Part : Condition → Condition → Prop where
  | self (condition : Condition) : Part condition condition
  | conj {inner part : Condition} {parts : List Condition} : part ∈ parts → Part inner part → Part inner (.conj parts)
  | disj {inner part : Condition} {parts : List Condition} : part ∈ parts → Part inner part → Part inner (.disj parts)
  | not {inner outer : Condition} : Part inner outer → Part inner (.not outer)

theorem byParts {motive : Condition → Prop} (compare : ∀ op left right, motive (compare op left right))
    (test : ∀ tested inverted, motive (test tested inverted))
    (conj : ∀ parts, (∀ part ∈ parts, motive part) → motive (conj parts))
    (disj : ∀ parts, (∀ part ∈ parts, motive part) → motive (disj parts))
    (not : ∀ inner, motive inner → motive (not inner)) (constant : ∀ value, motive (constant value))
    (condition : Condition) : motive condition := by
  cases condition with
  | compare op left right => exact compare op left right
  | test tested inverted => exact test tested inverted
  | conj parts => exact conj parts fun part _ => byParts compare test conj disj not constant part
  | disj parts => exact disj parts fun part _ => byParts compare test conj disj not constant part
  | not inner => exact not inner (byParts compare test conj disj not constant inner)
  | constant value => exact constant value
termination_by sizeOf condition

theorem width_negate (condition : Condition) : condition.negate.width = condition.width := by
  have each (parts : List Condition) (same : ∀ part ∈ parts, part.negate.width = part.width) :
      widthEach (negateEach parts) = widthEach parts := by
    induction parts with
    | nil => rfl
    | cons part rest ih =>
      obtain ⟨first,others⟩ := List.forall_mem_cons.mp same
      rw [negateEach,widthEach,widthEach,first,ih others]
  induction condition using byParts with
  | conj parts ih => exact each parts ih
  | disj parts ih => exact each parts ih
  | _ => rfl

section
variable (each : ∀ part ∈ parts, ∀ place, part.negate.evaluate value place = (part.evaluate value place).opposite)
include each

theorem evaluateAll_negate (place : Nat) :
    evaluateAny value place (negateEach parts) = (evaluateAll value place parts).opposite := by
  induction parts generalizing place with
  | nil => rfl
  | cons part rest ih =>
    obtain ⟨first,others⟩ := List.forall_mem_cons.mp each
    rw [negateEach,evaluateAny,evaluateAll,first,width_negate,ih others,Evaluation.opposite_andThen]

theorem evaluateAny_negate (place : Nat) :
    evaluateAll value place (negateEach parts) = (evaluateAny value place parts).opposite := by
  induction parts generalizing place with
  | nil => rfl
  | cons part rest ih =>
    obtain ⟨first,others⟩ := List.forall_mem_cons.mp each
    rw [negateEach,evaluateAll,evaluateAny,first,width_negate,ih others,Evaluation.opposite_orElse]

end

theorem evaluate_negate (value : Expr → Value ν) (place : Nat) (condition : Condition) :
    condition.negate.evaluate value place = (condition.evaluate value place).opposite := by
  induction condition using byParts generalizing place with
  | compare op left right =>
    rw [negate,evaluate,evaluate,Value.compare_negate]
    rfl
  | test tested inverted =>
    rw [negate,evaluate,evaluate,Evaluation.opposite,Option.map_map]
    cases inverted <;> simp [Function.comp_def]
  | conj parts ih =>
    rw [negate,evaluate,evaluate]
    exact evaluateAll_negate ih place
  | disj parts ih =>
    rw [negate,evaluate,evaluate]
    exact evaluateAny_negate ih place
  | not inner _ => rw [negate,evaluate,Evaluation.opposite_opposite]
  | constant value => rfl

structure Suits (value : Expr → Value ν) (condition : Condition) : Prop where
  ordered : ∀ op left right, Part (.compare op left right) condition → op.isEquality = false →
    ∃ low high, value left = .number low ∧ value right = .number high
  tested : ∀ tested inverted, Part (.test tested inverted) condition → ∃ holds, value tested = .truth holds

section
variable (each : ∀ part ∈ parts, ∀ place, ∃ holds, (part.evaluate value place).result = some holds)
include each

theorem evaluateAll_some (place : Nat) : ∃ holds, (evaluateAll value place parts).result = some holds := by
  induction parts generalizing place with
  | nil => exact ⟨_,rfl⟩
  | cons part rest ih =>
    obtain ⟨first,others⟩ := List.forall_mem_cons.mp each
    rw [evaluateAll,Evaluation.andThen]
    split
    · exact ih others _
    · exact first place

theorem evaluateAny_some (place : Nat) : ∃ holds, (evaluateAny value place parts).result = some holds := by
  induction parts generalizing place with
  | nil => exact ⟨_,rfl⟩
  | cons part rest ih =>
    obtain ⟨first,others⟩ := List.forall_mem_cons.mp each
    rw [evaluateAny,Evaluation.orElse]
    split
    · exact ih others _
    · exact first place

end

theorem evaluate_some (suits : condition.Suits value) (place : Nat) :
    ∃ holds, (condition.evaluate value place).result = some holds := by
  induction condition using byParts generalizing place with
  | compare op left right =>
    rw [evaluate]
    cases equality : op.isEquality with
    | true => exact Value.compare_equality equality _ _
    | false =>
      obtain ⟨low,high,first,second⟩ := suits.ordered op left right (.self _) equality
      rw [first,second]
      exact ⟨_,rfl⟩
  | test tested inverted =>
    obtain ⟨holds,known⟩ := suits.tested tested inverted (.self _)
    rw [evaluate,known]
    exact ⟨_,rfl⟩
  | conj parts ih =>
    rw [evaluate]
    refine evaluateAll_some (fun part member => ih part member ?_) place
    exact ⟨fun op left right inner => suits.ordered op left right (.conj member inner),
      fun tested inverted inner => suits.tested tested inverted (.conj member inner)⟩
  | disj parts ih =>
    rw [evaluate]
    refine evaluateAny_some (fun part member => ih part member ?_) place
    exact ⟨fun op left right inner => suits.ordered op left right (.disj member inner),
      fun tested inverted inner => suits.tested tested inverted (.disj member inner)⟩
  | not inner ih =>
    obtain ⟨holds,same⟩ := ih ⟨fun op left right part => suits.ordered op left right (.not part),
      fun tested inverted part => suits.tested tested inverted (.not part)⟩ place
    rw [evaluate,Evaluation.opposite,same]
    exact ⟨_,rfl⟩
  | constant value => exact ⟨_,rfl⟩

mutual
def nots : Condition → Nat
  | compare _ _ _ => 0
  | test _ _ => 0
  | conj parts => notsEach parts
  | disj parts => notsEach parts
  | not inner => inner.nots + 1
  | constant _ => 0
def notsEach : List Condition → Nat
  | [] => 0
  | part :: rest => part.nots + notsEach rest
end

theorem notsEach_sum (parts : List Condition) : notsEach parts = (parts.map nots).sum := by
  induction parts with
  | nil => rfl
  | cons part rest ih => rw [notsEach,ih,List.map_cons,List.sum_cons]

theorem notsEach_pos_iff : 0 < notsEach parts ↔ ∃ part ∈ parts, 0 < part.nots := by
  rw [notsEach_sum,List.sum_pos_iff_exists_pos_nat]
  simp only [List.mem_map,exists_exists_and_eq_and]

theorem not_part_conj {inner : Condition} :
    Part (.not inner) (.conj parts) ↔ ∃ part ∈ parts, Part (.not inner) part := by
  constructor
  · intro within
    cases within with
    | conj member within => exact ⟨_,member,within⟩
  · exact fun ⟨_,member,within⟩ => .conj member within

theorem not_part_disj {inner : Condition} :
    Part (.not inner) (.disj parts) ↔ ∃ part ∈ parts, Part (.not inner) part := by
  constructor
  · intro within
    cases within with
    | disj member within => exact ⟨_,member,within⟩
  · exact fun ⟨_,member,within⟩ => .disj member within

theorem nots_pos_iff : 0 < condition.nots ↔ ∃ inner, Part (.not inner) condition := by
  have each (parts : List Condition) (held : ∀ part ∈ parts, 0 < part.nots ↔ ∃ inner, Part (.not inner) part) :
      0 < notsEach parts ↔ ∃ inner, ∃ part ∈ parts, Part (.not inner) part := by
    rw [notsEach_pos_iff]
    constructor
    · rintro ⟨part,member,some_⟩
      obtain ⟨inner,within⟩ := (held part member).mp some_
      exact ⟨inner,part,member,within⟩
    · rintro ⟨inner,part,member,within⟩
      exact ⟨part,member,(held part member).mpr ⟨inner,within⟩⟩
  induction condition using byParts with
  | conj parts ih => simpa only [nots,not_part_conj] using each parts ih
  | disj parts ih => simpa only [nots,not_part_disj] using each parts ih
  | not inner _ => exact ⟨fun _ => ⟨inner,.self _⟩,fun _ => Nat.succ_pos _⟩
  | _ =>
    refine ⟨fun held => absurd held (Nat.lt_irrefl 0),?_⟩
    rintro ⟨_,⟨⟩⟩

theorem nots_erase (condition : Condition) : condition.erase.nots = condition.nots := by
  have each (parts : List Condition) (same : ∀ part ∈ parts, part.erase.nots = part.nots) :
      notsEach (eraseConditions parts) = notsEach parts := by
    rw [notsEach_sum,notsEach_sum,eraseConditions_map,List.map_map]
    exact congrArg List.sum (List.map_congr_left same)
  induction condition using byParts with
  | conj parts ih => exact each parts ih
  | disj parts ih => exact each parts ih
  | not inner ih => exact congrArg (· + 1) ih
  | _ => rfl

theorem nots_negate_le (condition : Condition) : condition.negate.nots ≤ condition.nots := by
  have each (parts : List Condition) (fewer : ∀ part ∈ parts, part.negate.nots ≤ part.nots) :
      notsEach (negateEach parts) ≤ notsEach parts := by
    rw [notsEach_sum,notsEach_sum,negateEach_map,List.map_map]
    exact List.sum_le_sum fewer
  induction condition using byParts with
  | conj parts ih => exact each parts ih
  | disj parts ih => exact each parts ih
  | not inner _ => exact Nat.le_succ _
  | _ => exact Nat.le_refl _

theorem negate_twice_of_plain (plain : condition.nots = 0) : condition.negate.negate = condition := by
  have each (parts : List Condition) (plain : notsEach parts = 0)
      (twice : ∀ part ∈ parts, part.nots = 0 → part.negate.negate = part) :
      negateEach (negateEach parts) = parts := by
    rw [notsEach_sum,List.sum_eq_zero_iff_forall_eq_nat] at plain
    rw [negateEach_map,negateEach_map,List.map_map]
    refine (List.map_congr_left fun part member => ?_).trans (List.map_id _)
    exact twice part member (plain _ (List.mem_map_of_mem member))
  induction condition using byParts with
  | compare op left right => rw [negate,negate,op.negate_negate]
  | test tested inverted => rw [negate,negate,Bool.not_not]
  | conj parts ih => rw [negate,negate,each parts plain ih]
  | disj parts ih => rw [negate,negate,each parts plain ih]
  | not inner _ => cases plain
  | constant value => rw [negate,negate,Bool.not_not]

theorem nots_twice_lt (held : 0 < condition.nots) : condition.negate.negate.nots < condition.nots := by
  have each (parts : List Condition) (held : 0 < notsEach parts)
      (fewer : ∀ part ∈ parts, 0 < part.nots → part.negate.negate.nots < part.nots) :
      notsEach (negateEach (negateEach parts)) < notsEach parts := by
    obtain ⟨part,member,some_⟩ := notsEach_pos_iff.mp held
    rw [notsEach_sum,notsEach_sum,negateEach_map,negateEach_map,List.map_map,List.map_map]
    refine List.sum_lt_sum _ _ (fun part _ => ?_) ⟨part,member,fewer part member some_⟩
    exact Nat.le_trans (nots_negate_le _) (nots_negate_le _)
  induction condition using byParts with
  | conj parts ih => exact each parts held ih
  | disj parts ih => exact each parts held ih
  | not inner _ => exact Nat.lt_succ_of_le (nots_negate_le inner)
  | _ => cases held

-- The complement makes the same tests in the same order, comes to the opposite, and its complement to the same again.
-- It comes to something if what is ordered are integers. But complementing twice gives the condition back just if
-- there is no negation among its parts.
theorem negate_exact (condition : Condition) :
    (∀ (value : Expr → Value ν) (place : Nat),
      (condition.negate.evaluate value place).tests = (condition.evaluate value place).tests ∧
        (condition.negate.evaluate value place).result = (condition.evaluate value place).result.map (!·) ∧
        condition.negate.negate.evaluate value place = condition.evaluate value place ∧
        (condition.Suits value → ∃ holds, (condition.evaluate value place).result = some holds ∧
          (condition.negate.evaluate value place).result = some !holds)) ∧
      (condition.negate.negate.same condition = true ↔ ¬∃ inner, Part (.not inner) condition) := by
  refine ⟨fun value place => ?_,?_⟩
  · have opposite := evaluate_negate value place condition
    refine ⟨congrArg (·.tests) opposite,congrArg (·.result) opposite,?_,fun suits => ?_⟩
    · rw [evaluate_negate,opposite,Evaluation.opposite_opposite]
    · obtain ⟨holds,known⟩ := evaluate_some suits place
      exact ⟨holds,known,by rw [opposite,Evaluation.opposite,known]; rfl⟩
  · rw [← nots_pos_iff,Condition.same,Node.same_iff]
    constructor
    · intro same held
      have same : condition.negate.negate.erase = condition.erase := Node.ofCondition.inj same
      have counts : condition.negate.negate.nots = condition.nots := by
        rw [← nots_erase,same,nots_erase]
      exact absurd counts (Nat.ne_of_lt (nots_twice_lt held))
    · intro plain
      rw [negate_twice_of_plain (Nat.eq_zero_of_not_pos plain)]

def unordered : Condition := .not (.compare .lt (.var ⟨0,some "i",.int⟩) (.literal (.int 3)))

theorem unordered_negate_differs : unordered.Suits (fun _ => (.number 3 : Value Unit)) ∧
    (∃ holds, (unordered.evaluate (fun _ => (.number 3 : Value Unit)) 0).result = some holds ∧
      (unordered.negate.evaluate (fun _ => (.number 3 : Value Unit)) 0).result = some !holds) ∧
    unordered.negate.negate.same unordered = false := by
  obtain ⟨under,twice⟩ := @negate_exact Unit _ unordered
  have suits : unordered.Suits (fun _ => (.number 3 : Value Unit)) := by
    refine ⟨fun _ _ _ _ _ => ⟨3,3,rfl,rfl⟩,fun tested inverted within => ?_⟩
    unfold unordered at within
    cases within with
    | not within => cases within
  refine ⟨suits,(under _ 0).2.2.2 suits,Bool.eq_false_iff.mpr fun same => ?_⟩
  exact twice.mp same ⟨_,.self _⟩

end Condition
end Untangle
