import Untangle.Constraint

namespace Untangle

structure Local where
  index : UInt16
  name : Option String
  type : Ty
deriving DecidableEq

-- Floating values are kept as bit patterns, so equality is reflexive also for NaN.
inductive Literal where
  | int (value : Int32)
  | long (value : Int64)
  | float (bits : UInt32)
  | double (bits : UInt64)
  | boolean (value : Bool)
  | string (value : String)
  | null
  | classOf (type : Ty)
deriving DecidableEq

namespace Literal

def type : Literal → Ty
  | int _ => .int
  | long _ => .long
  | float _ => .float
  | double _ => .double
  | boolean _ => .boolean
  | string _ => .string
  | null => .null
  | classOf _ => .object "java/lang/Class"

-- Integral zero of either width; a floating zero does not count.
def isZero : Literal → Bool
  | int value => value == 0
  | long value => value == 0
  | _ => false

end Literal

inductive ArithmeticOp where
  | add | sub | mul | div | rem | shl | shr | ushr | and | or | xor
deriving DecidableEq

namespace ArithmeticOp

def symbol : ArithmeticOp → String
  | add => "+"
  | sub => "-"
  | mul => "*"
  | div => "/"
  | rem => "%"
  | shl => "<<"
  | shr => ">>"
  | ushr => ">>>"
  | and => "&"
  | or => "|"
  | xor => "^"

def all : List ArithmeticOp := [add,sub,mul,div,rem,shl,shr,ushr,and,or,xor]
def ofSymbol? (text : String) : Option ArithmeticOp := all.find? fun op => op.symbol == text

def isBitwise : ArithmeticOp → Bool
  | and => true
  | or => true
  | xor => true
  | _ => false

def isShift : ArithmeticOp → Bool
  | shl => true
  | shr => true
  | ushr => true
  | _ => false

end ArithmeticOp

inductive CompareOp where
  | eq | ne | lt | le | gt | ge
deriving DecidableEq

namespace CompareOp

def negate : CompareOp → CompareOp
  | eq => ne
  | ne => eq
  | lt => ge
  | le => gt
  | gt => le
  | ge => lt

-- The same relation read from the other side.
def flip : CompareOp → CompareOp
  | eq => eq
  | ne => ne
  | lt => gt
  | le => ge
  | gt => lt
  | ge => le

def isEquality : CompareOp → Bool
  | eq => true
  | ne => true
  | _ => false

def symbol : CompareOp → String
  | eq => "=="
  | ne => "!="
  | lt => "<"
  | le => "<="
  | gt => ">"
  | ge => ">="

def all : List CompareOp := [eq,ne,lt,le,gt,ge]
def ofSymbol? (text : String) : Option CompareOp := all.find? fun op => op.symbol == text

theorem negate_negate (op : CompareOp) : op.negate.negate = op := by cases op <;> rfl
theorem flip_flip (op : CompareOp) : op.flip.flip = op := by cases op <;> rfl

end CompareOp

inductive FreeCall where
  | static | dynamic
deriving DecidableEq

inductive BoundCall where
  | virtual | interface | special
deriving DecidableEq

inductive CallKind where
  | free (kind : FreeCall)
  | bound (kind : BoundCall)
deriving DecidableEq

def CallKind.keyword : CallKind → String
  | free .static => "static"
  | free .dynamic => "dynamic"
  | bound .virtual => "virtual"
  | bound .interface => "interface"
  | bound .special => "special"

def CallKind.all : List CallKind :=
  [.free .static,.free .dynamic,.bound .virtual,.bound .interface,.bound .special]
def CallKind.ofKeyword? (text : String) : Option CallKind := all.find? fun kind => kind.keyword == text

-- Names keep their descriptor text together with its reading.
structure FieldRef where
  owner : String
  name : String
  descriptor : String
  type : FieldType
  reads : FieldType.parse descriptor = .ok type
deriving DecidableEq

structure MethodRef where
  owner : String
  name : String
  descriptor : String
  signature : MethodDescriptor
  reads : MethodDescriptor.parse descriptor = .ok signature
deriving DecidableEq

structure ConstructorRef where
  owner : String
  descriptor : String
  signature : MethodDescriptor
  reads : MethodDescriptor.parse descriptor = .ok signature
deriving DecidableEq

-- An expression is a node with an optional type annotation. Nodes hold their operands unchecked;
-- the smart constructors of `Untangle.Tree.Checks` are the checked way in.
mutual
structure Expr where
  kind : ExprKind
  note : Option Ty
inductive ExprKind where
  | var (var : Local)
  | literal (value : Literal)
  | arithmetic (op : ArithmeticOp) (left right : Expr)
  | negate (operand : Expr)
  -- Sign of `right - left`.
  | numberCompare (left right : Expr)
  | instanceOf (value : Expr) (type : Ty)
  | cast (target : Ty) (value : Expr)
  | staticField (field : FieldRef)
  | instanceField (receiver : Expr) (field : FieldRef)
  | element (array index : Expr)
  | arrayLength (array : Expr)
  | freeCall (kind : FreeCall) (method : MethodRef) (args : List Expr)
  | boundCall (kind : BoundCall) (receiver : Expr) (method : MethodRef) (args : List Expr)
  | new (constructor : ConstructorRef) (args : List Expr)
  | newArray (component : Ty) (size : Expr)
  | filledArray (component : Ty) (size : Expr) (values : List Expr)
  | ternary (condition : Condition) (thenValue elseValue : Expr)
  | concat (parts : List Expr)
inductive Condition where
  | compare (op : CompareOp) (left right : Expr)
  | test (value : Expr) (inverted : Bool)
  | conj (parts : List Condition)
  | disj (parts : List Condition)
  | not (inner : Condition)
  | constant (value : Bool)
end

namespace Expr

def plain (kind : ExprKind) : Expr := ⟨kind,none⟩
def annotate (expr : Expr) (type : Ty) : Expr := {expr with note:=some type}

def var (var : Local) : Expr := plain (.var var)
def literal (value : Literal) : Expr := plain (.literal value)

def isAssignable (expr : Expr) : Bool :=
  match expr.kind with
  | .var _ => true
  | .staticField _ => true
  | .instanceField _ _ => true
  | .element _ _ => true
  | _ => false

end Expr

namespace ExprKind

-- Operands in their fixed order. The condition of a ternary is not one of them.
def operands : ExprKind → List Expr
  | var _ => []
  | literal _ => []
  | arithmetic _ left right => [left,right]
  | negate operand => [operand]
  | numberCompare left right => [left,right]
  | instanceOf value _ => [value]
  | cast _ value => [value]
  | staticField _ => []
  | instanceField receiver _ => [receiver]
  | element array index => [array,index]
  | arrayLength array => [array]
  | freeCall _ _ args => args
  | boundCall _ receiver _ args => receiver :: args
  | new _ args => args
  | newArray _ size => [size]
  | filledArray _ size values => size :: values
  | ternary _ thenValue elseValue => [thenValue,elseValue]
  | concat parts => parts

def condition? : ExprKind → Option Condition
  | ternary condition _ _ => some condition
  | _ => none

def name : ExprKind → String
  | var _ => "local"
  | literal _ => "literal"
  | arithmetic _ _ _ => "arithmetic"
  | negate _ => "negate"
  | numberCompare _ _ => "number compare"
  | instanceOf _ _ => "instanceof"
  | cast _ _ => "cast"
  | staticField _ => "field access"
  | instanceField _ _ => "field access"
  | element _ _ => "array access"
  | arrayLength _ => "array length"
  | freeCall _ _ _ => "invoke"
  | boundCall _ _ _ _ => "invoke"
  | new _ _ => "new"
  | newArray _ _ => "new array"
  | filledArray _ _ _ => "new array"
  | ternary _ _ _ => "ternary"
  | concat _ => "string concat"

end ExprKind

def Expr.operands (expr : Expr) : List Expr := expr.kind.operands

namespace Condition

def operands : Condition → List Expr
  | compare _ left right => [left,right]
  | test value _ => [value]
  | _ => []

mutual
-- Logical complement, pushed inwards. A negation wrapper is taken off rather than doubled.
def negate : Condition → Condition
  | compare op left right => compare op.negate left right
  | test value inverted => test value (!inverted)
  | conj parts => disj (negateEach parts)
  | disj parts => conj (negateEach parts)
  | not inner => inner
  | constant value => constant (!value)
def negateEach : List Condition → List Condition
  | [] => []
  | part :: rest => part.negate :: negateEach rest
end

theorem negateEach_map (parts : List Condition) : negateEach parts = parts.map negate := by
  induction parts with
  | nil => rfl
  | cons part rest ih => simp [negateEach,ih]

def conjuncts : Condition → List Condition
  | conj parts => parts
  | single => [single]

def disjuncts : Condition → List Condition
  | disj parts => parts
  | single => [single]

-- Conjunction and disjunction flatten one level on both sides.
def and (left right : Condition) : Condition := conj (left.conjuncts ++ right.conjuncts)
def or (left right : Condition) : Condition := disj (left.disjuncts ++ right.disjuncts)

end Condition
end Untangle
