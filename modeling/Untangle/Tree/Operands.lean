import Untangle.Tree.Checks

namespace Untangle

def swapAt (items : List Expr) (index : Nat) (new : Expr) : Option (Expr × List Expr) :=
  items[index]?.map fun old => (old,items.set index new)

namespace ExprKind

-- Puts an expression into an operand slot and hands back what was there. No demand is looked at.
def swap (kind : ExprKind) (index : Nat) (new : Expr) : Option (Expr × ExprKind) :=
  match kind, index with
  | arithmetic op left right, 0 => some (left,arithmetic op new right)
  | arithmetic op left right, 1 => some (right,arithmetic op left new)
  | negate operand, 0 => some (operand,negate new)
  | numberCompare left right, 0 => some (left,numberCompare new right)
  | numberCompare left right, 1 => some (right,numberCompare left new)
  | instanceOf value type, 0 => some (value,instanceOf new type)
  | cast target value, 0 => some (value,cast target new)
  | instanceField receiver field, 0 => some (receiver,instanceField new field)
  | element array index, 0 => some (array,element new index)
  | element array index, 1 => some (index,element array new)
  | arrayLength array, 0 => some (array,arrayLength new)
  | freeCall kind method args, n => (swapAt args n new).map fun (old,args) => (old,freeCall kind method args)
  | boundCall kind receiver method args, 0 => some (receiver,boundCall kind new method args)
  | boundCall kind receiver method args, n + 1 =>
    (swapAt args n new).map fun (old,args) => (old,boundCall kind receiver method args)
  | .new constructor args, n => (swapAt args n new).map fun (old,args) => (old,.new constructor args)
  | newArray component size, 0 => some (size,newArray component new)
  | filledArray component size values, 0 => some (size,filledArray component new values)
  | filledArray component size values, n + 1 =>
    (swapAt values n new).map fun (old,values) => (old,filledArray component size values)
  | ternary condition thenValue elseValue, 0 => some (thenValue,ternary condition new elseValue)
  | ternary condition thenValue elseValue, 1 => some (elseValue,ternary condition thenValue new)
  | concat parts, n => (swapAt parts n new).map fun (old,parts) => (old,concat parts)
  | _, _ => none

def expectParam (signature : MethodDescriptor) (index : Nat) (new : Expr) : Except ConstraintError Unit :=
  match signature.params[index]? with
  | some param => expect "args" (paramConstraint param) new
  | none => .ok ()

-- What one slot demands of a newcomer. Only the slots that constrain each other look further.
def admits (kind : ExprKind) (index : Nat) (new : Expr) : Except ConstraintError Unit :=
  match kind, index with
  | arithmetic op _ right, 0 => (arithmetic op new right).check
  | arithmetic op left _, _ => (arithmetic op left new).check
  | negate _, _ => expect "operand" .numeric new
  | numberCompare _ _, 0 => expect "left" .numeric new
  | numberCompare _ _, _ => expect "right" .numeric new
  | instanceOf _ _, _ => expect "value" .reference new
  | cast target _, _ => expect "value" (.ofType target) new
  | instanceField _ _, _ => expect "receiver" .reference new
  | element _ _, 0 => expect "array" .reference new
  | element _ _, _ => expect "index" .numeric new
  | arrayLength _, _ => expect "array" .reference new
  | freeCall _ method _, n => expectParam method.signature n new
  | boundCall _ _ _ _, 0 => expect "receiver" .reference new
  | boundCall _ _ method _, n + 1 => expectParam method.signature n new
  | .new constructor _, n => expectParam constructor.signature n new
  | newArray _ _, _ => expect "size" .numeric new
  | filledArray _ _ _, 0 => expect "size" .numeric new
  | filledArray component _ _, _ => expect "initializer" (.ofType component) new
  | ternary _ _ elseValue, 0 => expectCompatible "ternary" new elseValue
  | ternary _ thenValue _, _ => expectCompatible "ternary" thenValue new
  | concat _, _ => expect "parts" .value new
  | var _, _ => .ok ()
  | literal _, _ => .ok ()
  | staticField _, _ => .ok ()

end ExprKind

namespace Expr

def operand? (expr : Expr) (index : Nat) : Option Expr := expr.operands[index]?

-- Replaces one operand and hands back the detached one. The annotation of the node stays.
def replaceOperand (expr : Expr) (index : Nat) (new : Expr) : Except ConstraintError (Expr × Expr) :=
  match expr.kind.swap index new with
  | none => .error (.operandIndex expr.kind.name index)
  | some (old,kind) =>
    match expr.kind.admits index new with
    | .error cause => .error cause
    | .ok _ => .ok (old,{expr with kind})

end Expr

inductive Slot where
  | left | right | operand | value | receiver | array | index | thenValue | elseValue
  | arg (index : Nat)
  | part (index : Nat)
deriving DecidableEq

def Slot.ofName? (name : String) (index : Nat) : Option Slot :=
  match name with
  | "left" => some left
  | "right" => some right
  | "operand" => some operand
  | "value" => some value
  | "receiver" => some receiver
  | "array" => some array
  | "index" => some Slot.index
  | "then" => some thenValue
  | "else" => some elseValue
  | "arg" => some (arg index)
  | "part" => some (part index)
  | _ => none

namespace ExprKind

def position? : ExprKind → Slot → Option Nat
  | arithmetic _ _ _, .left => some 0
  | arithmetic _ _ _, .right => some 1
  | negate _, .operand => some 0
  | numberCompare _ _, .left => some 0
  | numberCompare _ _, .right => some 1
  | instanceOf _ _, .value => some 0
  | cast _ _, .value => some 0
  | instanceField _ _, .receiver => some 0
  | element _ _, .array => some 0
  | element _ _, .index => some 1
  | arrayLength _, .array => some 0
  | freeCall _ _ _, .arg n => some n
  | boundCall _ _ _ _, .arg n => some (n + 1)
  | .new _ _, .arg n => some n
  | ternary _ _ _, .thenValue => some 0
  | ternary _ _ _, .elseValue => some 1
  | concat _, .part n => some n
  | _, _ => none

end ExprKind

-- Where a slot is counted from one past a receiver, an index error still counts arguments.
def Slot.recount : Slot → ConstraintError → ConstraintError
  | .arg n, .operandIndex node _ => .operandIndex node n
  | _, cause => cause

namespace Expr

-- Fills a named slot; `none` when the node has no slot of that name. A static field refuses a
-- receiver only after looking at it, and a part is looked at before its index.
def fill (expr : Expr) (slot : Slot) (new : Expr) : Option (Except ConstraintError (Expr × Expr)) :=
  match expr.kind, slot with
  | .staticField _, .receiver =>
    some (expectBoth (expect "receiver" .reference new) (.error (.unexpectedReceiver "receiver"))
      |>.map fun _ => (new,expr))
  | .concat _, .part n =>
    some (match expect "parts" .value new with
      | .error cause => .error cause
      | .ok _ => expr.replaceOperand n new)
  | kind, slot =>
    match kind.position? slot with
    | none => none
    | some n => some ((expr.replaceOperand n new).mapError slot.recount)

def setCondition? (expr : Expr) (new : Condition) : Option (Condition × Expr) :=
  match expr.kind with
  | .ternary old thenValue elseValue => some (old,{expr with kind:=.ternary new thenValue elseValue})
  | _ => none

end Expr

namespace Condition

def setLeft? (condition : Condition) (new : Expr) : Option (Except ConstraintError (Expr × Condition)) :=
  match condition with
  | compare op left right => some ((make (compare op new right)).map fun changed => (left,changed))
  | _ => none

def setRight? (condition : Condition) (new : Expr) : Option (Except ConstraintError (Expr × Condition)) :=
  match condition with
  | compare op left right => some ((make (compare op left new)).map fun changed => (right,changed))
  | _ => none

end Condition
end Untangle
