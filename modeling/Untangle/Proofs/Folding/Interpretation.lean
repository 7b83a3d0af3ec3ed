import Untangle.Proofs.Running.Meaning
import Untangle.Tree.Node

namespace Untangle

def CompareOp.relates : CompareOp → Int → Int → Bool
  | eq, left, right => left = right
  | ne, left, right => left ≠ right
  | lt, left, right => left < right
  | le, left, right => left ≤ right
  | gt, left, right => left > right
  | ge, left, right => left ≥ right

theorem CompareOp.relates_flip (op : CompareOp) (left right : Int) : op.flip.relates left right = op.relates right left := by
  cases op <;> simp only [flip,relates,decide_eq_decide] <;> omega

theorem CompareOp.relates_negate (op : CompareOp) (left right : Int) :
    op.negate.relates left right = !op.relates left right := by
  cases op <;> simp only [negate,relates,← decide_not,decide_eq_decide] <;> omega

theorem CompareOp.relates_sign (op : CompareOp) (low high : Int) :
    op.relates (high - low).sign 0 = op.relates high low := by
  have positive : 0 < (high - low).sign ↔ 0 < high - low := Int.sign_pos_iff
  have negative : (high - low).sign < 0 ↔ high - low < 0 := Int.sign_neg_iff
  cases op <;> simp only [relates,decide_eq_decide] <;> omega

def Literal.integer? : Literal → Option Int
  | int value => some value.toInt
  | long value => some value.toInt
  | _ => none

theorem Literal.integer_zero {literal : Literal} (zero : literal.isZero = true) : literal.integer? = some 0 := by
  cases literal <;> simp_all [isZero,integer?]

-- What the nodes of a tree mean. An expression has a value and no effect; any node but a ternary gets it from
-- its form, the values of its operands and the store. Values may be numbers, and those are integers: literals
-- denote what they are written as, a three-way comparison the sign of `right - left`, and operators relate them.
-- Of other values it is known only that an operator and its negation are complementary. An assignment is given
-- the place it writes by the form of its target and the values of the operands there.
structure Interpretation (σ : Type u) (ν : Type) where
  node : Head → List ν → σ → ν
  number? : ν → Option Int
  compares : CompareOp → ν → ν → Bool
  truth : ν → Bool
  selects : ν → Int32
  isInstance : ν → String → Bool
  perform : ν → σ → σ
  assign : Head → List ν → ν → σ → σ
  increment : Local → Int32 → σ → σ
  complements : ∀ op left right, compares op.negate left right = !compares op left right
  relates : ∀ {left right l r}, number? left = some l → number? right = some r →
    ∀ op, compares op left right = op.relates l r
  denotes : ∀ {literal value}, literal.integer? = some value →
    ∀ store, number? (node (.literal literal) [] store) = some value
  signs : ∀ {left right l r}, number? left = some l → number? right = some r →
    ∀ store, number? (node .numberCompare [left,right] store) = some (r - l).sign

namespace Interpretation
variable {σ : Type u} {ν : Type}

mutual
def value (i : Interpretation σ ν) (store : σ) : Expr → ν
  | ⟨kind,_⟩ => i.kindValue store kind
def kindValue (i : Interpretation σ ν) (store : σ) : ExprKind → ν
  | .var v => i.node (.var v) [] store
  | .literal value => i.node (.literal value) [] store
  | .arithmetic op left right => i.node (.arithmetic op) [i.value store left,i.value store right] store
  | .negate operand => i.node .negate [i.value store operand] store
  | .numberCompare left right => i.node .numberCompare [i.value store left,i.value store right] store
  | .instanceOf value type => i.node (.instanceOf type) [i.value store value] store
  | .cast target value => i.node (.cast target) [i.value store value] store
  | .staticField field => i.node (.staticField field) [] store
  | .instanceField receiver field => i.node (.instanceField field) [i.value store receiver] store
  | .element array index => i.node .element [i.value store array,i.value store index] store
  | .arrayLength array => i.node .arrayLength [i.value store array] store
  | .freeCall kind method args => i.node (.freeCall kind method) (i.values store args) store
  | .boundCall kind receiver method args =>
    i.node (.boundCall kind method) (i.value store receiver :: i.values store args) store
  | .new constructor args => i.node (.new constructor) (i.values store args) store
  | .newArray component size => i.node (.newArray component) [i.value store size] store
  | .filledArray component size initial =>
    i.node (.filledArray component) (i.value store size :: i.values store initial) store
  | .ternary condition thenValue elseValue =>
    if i.holds store condition then i.value store thenValue else i.value store elseValue
  | .concat parts => i.node .concat (i.values store parts) store
def values (i : Interpretation σ ν) (store : σ) : List Expr → List ν
  | [] => []
  | expr :: rest => i.value store expr :: i.values store rest
def holds (i : Interpretation σ ν) (store : σ) : Condition → Bool
  | .compare op left right => i.compares op (i.value store left) (i.value store right)
  | .test value inverted => i.truth (i.value store value) != inverted
  | .conj parts => i.allHold store parts
  | .disj parts => i.someHolds store parts
  | .not inner => !i.holds store inner
  | .constant value => value
def allHold (i : Interpretation σ ν) (store : σ) : List Condition → Bool
  | [] => true
  | part :: rest => i.holds store part && i.allHold store rest
def someHolds (i : Interpretation σ ν) (store : σ) : List Condition → Bool
  | [] => false
  | part :: rest => i.holds store part || i.someHolds store rest
end

variable (i : Interpretation σ ν) (store : σ)

@[simp] theorem values_map (exprs : List Expr) : i.values store exprs = exprs.map (i.value store) := by
  induction exprs with
  | nil => rfl
  | cons expr rest ih => rw [values,ih,List.map_cons]

theorem allHold_map (parts : List Condition) : i.allHold store parts = (parts.map (i.holds store)).all id := by
  induction parts with
  | nil => rfl
  | cons part rest ih => rw [allHold,ih,List.map_cons,List.all_cons,id]

theorem someHolds_map (parts : List Condition) : i.someHolds store parts = (parts.map (i.holds store)).any id := by
  induction parts with
  | nil => rfl
  | cons part rest ih => rw [someHolds,ih,List.map_cons,List.any_cons,id]

@[simp] theorem value_ternary (condition : Condition) (thenValue elseValue : Expr) (note : Option Ty) :
    i.value store ⟨.ternary condition thenValue elseValue,note⟩ =
      if i.holds store condition then i.value store thenValue else i.value store elseValue := by
  rw [value,kindValue]

theorem value_node {expr : Expr} (flat : expr.kind.head ≠ .ternary) :
    i.value store expr = i.node expr.kind.head (expr.operands.map (i.value store)) store := by
  obtain ⟨kind,note⟩ := expr
  cases kind with
  | ternary => exact absurd rfl flat
  | _ => simp [value,kindValue,ExprKind.head,Expr.operands,ExprKind.operands]

def meaning : Meaning σ ν where
  effect statement store :=
    match statement with
    | .expr value => i.perform (i.value store value) store
    | .assign target value => i.assign target.kind.head (target.operands.map (i.value store)) (i.value store value) store
    | .increment var amount => i.increment var amount store
    | _ => store
  compares op left right store := i.compares op (i.value store left) (i.value store right)
  tests expr store := i.truth (i.value store expr)
  selects expr store := i.selects (i.value store expr)
  value expr store := i.value store expr
  isInstance := i.isInstance
  complements op _ _ _ := i.complements op _ _

mutual
theorem meaning_holds : (condition : Condition) → i.meaning.holds store condition = i.holds store condition
  | .compare op left right => by rw [Meaning.holds,holds,meaning]
  | .test value inverted => by rw [Meaning.holds,holds,meaning]
  | .conj parts => by rw [Meaning.holds,holds,meaning_allHold parts]
  | .disj parts => by rw [Meaning.holds,holds,meaning_someHolds parts]
  | .not inner => by rw [Meaning.holds,holds,meaning_holds inner]
  | .constant value => by rw [Meaning.holds,holds]
theorem meaning_allHold : (parts : List Condition) → i.meaning.allHold store parts = i.allHold store parts
  | [] => rfl
  | part :: rest => by rw [Meaning.allHold,allHold,meaning_holds part,meaning_allHold rest]
theorem meaning_someHolds : (parts : List Condition) → i.meaning.someHolds store parts = i.someHolds store parts
  | [] => rfl
  | part :: rest => by rw [Meaning.someHolds,someHolds,meaning_holds part,meaning_someHolds rest]
end

end Interpretation
end Untangle
