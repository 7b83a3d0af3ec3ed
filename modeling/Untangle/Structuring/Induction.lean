import Untangle.Tree.Node

namespace Untangle

def Literal.isStep : Literal → Bool
  | .int value => value != 0
  | .long value => value != 0
  | _ => false

def inductionLocal? : Statement → Option UInt16
  | .increment var amount => if amount ≠ 0 then some var.index else none
  | .assign target value =>
    match target.kind, value.kind with
    | .var target, .arithmetic op left right =>
      match left.kind, right.kind with
      | .var source, .literal step =>
        if (op = .add ∨ op = .sub) ∧ step.isStep = true ∧ source.index = target.index then
          some target.index
        else none
      | _, _ => none
    | _, _ => none
  | _ => none

def assignedLocal? : Statement → Option UInt16
  | .assign target _ =>
    match target.kind with
    | .var v => some v.index
    | _ => none
  | _ => none

def Condition.locals (condition : Condition) : List UInt16 :=
  (Node.walk (.ofCondition condition)).filterMap fun node =>
    match node with
    | .ofExpr expr =>
      match expr.kind with
      | .var v => some v.index
      | _ => none
    | _ => none

-- Takes the assignment to a local off the end of a block, if that is what stands there.
def takeStart (out : Block) (index : UInt16) : Option Statement × Block :=
  match out.getLast? with
  | some last => if assignedLocal? last = some index then (some last,out.dropLast) else (none,out)
  | none => (none,out)

structure Recovered where
  start : Statement
  update : Statement
  body : Block
  out : Block

-- Finds the parts of a `for` when the last statement of the body advances a local that the condition
-- reads and the statement before the loop assigns.
def recoverInduction? (condition : Condition) (body out : Block) : Option Recovered := do
  let update ← body.getLast?
  let index ← inductionLocal? update
  let start ← out.getLast?
  if index ∈ condition.locals ∧ assignedLocal? start = some index then
    some ⟨start,update,body.dropLast,out.dropLast⟩
  else none

end Untangle
