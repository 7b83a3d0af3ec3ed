import Untangle.Tree.Typing

namespace Untangle

def expectType (param : String) (constraint : Constraint) (type : Ty) : Except ConstraintError Unit :=
  if constraint.accepts type.category then .ok () else .error (.category param constraint type)

def expect (param : String) (constraint : Constraint) (expr : Expr) : Except ConstraintError Unit :=
  expectType param constraint expr.type

def Category.agrees (left right : Category) : Bool :=
  left == .unknown || right == .unknown || left == right

-- Two values that may stand for each other. A void side never agrees, a known pair has to share
-- its category.
def expectCompatible (param : String) (left right : Expr) : Except ConstraintError Unit :=
  if left.category ≠ .void ∧ right.category ≠ .void ∧ left.category.agrees right.category then .ok ()
  else .error (.mismatch param left.type right.type)

def expectEach (param : String) (constraint : Constraint) : List Expr → Except ConstraintError Unit
  | [] => .ok ()
  | expr :: rest =>
    match expect param constraint expr with
    | .error cause => .error cause
    | .ok _ => expectEach param constraint rest

def paramConstraint (param : FieldType) : Constraint := .ofType (.ofFieldType param)

def expectParams (param : String) : List FieldType → List Expr → Except ConstraintError Unit
  | declared :: types, expr :: rest =>
    match expect param (paramConstraint declared) expr with
    | .error cause => .error cause
    | .ok _ => expectParams param types rest
  | _, _ => .ok ()

-- The count is compared before any argument is looked at.
def expectArgs (param : String) (signature : MethodDescriptor) (args : List Expr) :
    Except ConstraintError Unit :=
  if signature.params.length = args.length then expectParams param signature.params args
  else .error (.argumentCount param signature.params.length args.length)

def expectBoth (first second : Except ConstraintError Unit) : Except ConstraintError Unit :=
  match first with
  | .error cause => .error cause
  | .ok _ => second

namespace ExprKind

-- What a node demands of its operands; the first unmet demand is reported.
def check : ExprKind → Except ConstraintError Unit
  | var _ => .ok ()
  | literal _ => .ok ()
  | arithmetic op left right =>
    if op.isBitwise then
      expectBoth (expect "left" .numericOrBoolean left)
        (expectBoth (expect "right" .numericOrBoolean right) (expectCompatible "operands" left right))
    else expectBoth (expect "left" .numeric left) (expect "right" .numeric right)
  | negate operand => expect "operand" .numeric operand
  | numberCompare left right => expectBoth (expect "left" .numeric left) (expect "right" .numeric right)
  | instanceOf value type =>
    expectBoth (expect "value" .reference value) (expectType "type" .reference type)
  | cast target value => expect "value" (.ofType target) value
  | staticField _ => .ok ()
  | instanceField receiver _ => expect "receiver" .reference receiver
  | element array index => expectBoth (expect "array" .reference array) (expect "index" .numeric index)
  | arrayLength array => expect "array" .reference array
  | freeCall _ method args => expectArgs "args" method.signature args
  | boundCall _ receiver method args =>
    expectBoth (expect "receiver" .reference receiver) (expectArgs "args" method.signature args)
  | new constructor args => expectArgs "args" constructor.signature args
  | newArray _ size => expect "size" .numeric size
  | filledArray component size values =>
    expectBoth (expect "size" .numeric size) (expectEach "initializer" (.ofType component) values)
  | ternary _ thenValue elseValue => expectCompatible "ternary" thenValue elseValue
  | concat parts => expectEach "parts" .value parts

end ExprKind

namespace Condition

def check : Condition → Except ConstraintError Unit
  | compare op left right =>
    if op.isEquality then
      if left.category.agrees right.category then
        expectBoth (expect "left" .value left) (expect "right" .value right)
      else .error (.mismatch "comparison" left.type right.type)
    else expectBoth (expect "left" .numeric left) (expect "right" .numeric right)
  | test value _ => expect "value" .boolean value
  | _ => .ok ()

def make (condition : Condition) : Except ConstraintError Condition :=
  condition.check.map fun _ => condition

end Condition

def FieldRef.make (owner name descriptor : String) : Except ConstraintError FieldRef :=
  match reads : FieldType.parse descriptor with
  | .error cause => .error (.descriptor "descriptor" cause)
  | .ok type => .ok ⟨owner,name,descriptor,type,reads⟩

def MethodRef.make (owner name descriptor : String) : Except ConstraintError MethodRef :=
  match reads : MethodDescriptor.parse descriptor with
  | .error cause => .error (.descriptor "descriptor" cause)
  | .ok signature => .ok ⟨owner,name,descriptor,signature,reads⟩

def ConstructorRef.make (owner descriptor : String) : Except ConstraintError ConstructorRef :=
  match reads : MethodDescriptor.parse descriptor with
  | .error cause => .error (.descriptor "descriptor" cause)
  | .ok signature => .ok ⟨owner,descriptor,signature,reads⟩

namespace Expr

def make (kind : ExprKind) : Except ConstraintError Expr :=
  kind.check.map fun _ => plain kind

-- A receiver is checked before the descriptor of the field it is read from.
def field (receiver? : Option Expr) (owner name descriptor : String) : Except ConstraintError Expr :=
  match receiver? with
  | none => do make (.staticField (← FieldRef.make owner name descriptor))
  | some receiver => do
    expect "receiver" .reference receiver
    make (.instanceField receiver (← FieldRef.make owner name descriptor))

-- The descriptor is read first, then the presence of a receiver is held against the way of calling.
def call (kind : CallKind) (receiver? : Option Expr) (owner name descriptor : String)
    (args : List Expr) : Except ConstraintError Expr := do
  let method ← MethodRef.make owner name descriptor
  match kind, receiver? with
  | .free free, none => make (.freeCall free method args)
  | .bound bound, some receiver => make (.boundCall bound receiver method args)
  | .free _, some _ => .error (.unexpectedReceiver "receiver")
  | .bound _, none => .error (.missingReceiver "receiver")

def new (owner descriptor : String) (args : List Expr) : Except ConstraintError Expr := do
  make (.new (← ConstructorRef.make owner descriptor) args)

def newArray (component : Ty) (size : Expr) : Option (List Expr) → Except ConstraintError Expr
  | none => make (.newArray component size)
  | some values => make (.filledArray component size values)

end Expr
end Untangle
