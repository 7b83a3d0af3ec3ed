import Untangle.Tree.Node

namespace Untangle

-- A rule yields what stands in place of a node, or nothing where it does not apply.

def Condition.doubleNegation? : Condition → Option Condition
  | .not (.not inner) => some inner
  | _ => none

-- A test of a three-way comparison against zero compares the two numbers. The comparison holds the
-- sign of `right - left`, so its operands change places.
def Condition.signTest? : Condition → Option Condition
  | .compare op left right =>
    match left.kind, right.kind with
    | .numberCompare low high, .literal zero => if zero.isZero then some (.compare op high low) else none
    | .literal zero, .numberCompare low high => if zero.isZero then some (.compare op.flip high low) else none
    | _, _ => none
  | _ => none

def builderClasses : List String := ["java/lang/StringBuilder","java/lang/StringBuffer"]

def MethodRef.isBuilderCall (method : MethodRef) (name : String) : Bool :=
  method.name == name && builderClasses.contains method.owner

-- Text that a new builder starts with. A capacity is no text.
def ConstructorRef.seed? (constructor : ConstructorRef) (args : List Expr) : Option (List Expr) :=
  if !builderClasses.contains constructor.owner then none else
  match args, constructor.descriptor with
  | [], _ => some []
  | [seed], "(Ljava/lang/String;)V" => some [seed]
  | [seed], "(Ljava/lang/CharSequence;)V" => some [seed]
  | [_], "(I)V" => some []
  | _, _ => none

def Expr.builderParts? (later : List Expr) : Expr → Option (List Expr)
  | ⟨.boundCall .virtual receiver method [arg],_⟩ =>
    if method.isBuilderCall "append" then receiver.builderParts? (arg :: later) else none
  | ⟨.new constructor args,_⟩ => (constructor.seed? args).map (· ++ later)
  | _ => none

-- Text comes first, or a number would be added instead of written.
def leadWithText (parts : List Expr) : List Expr :=
  if (parts.take 2).any fun part => part.type == .string then parts
  else .literal (.string "") :: parts

def Expr.builderChain? (expr : Expr) : Option Expr :=
  match expr.kind with
  | .boundCall .virtual receiver method [] =>
    if method.isBuilderCall "toString" then
      (receiver.builderParts? []).map fun parts => .plain (.concat (leadWithText parts))
    else none
  | _ => none

-- A branch whose only statement is another branch tests both conditions at once.
def Statement.nestedBranch? : Statement → Option Statement
  | .branch outer [.branch inner body none] none => some (.branch (outer.and inner) body none)
  | _ => none

def Statement.conditionalAssignment? : Statement → Option Statement
  | .branch condition [.assign target thenValue] (some [.assign other elseValue]) =>
    if target.same other then
      let chosen := ExprKind.ternary condition thenValue elseValue
      let merged := Statement.assign target (.plain chosen)
      match chosen.check, merged.check with
      | .ok _, .ok _ => some merged
      | _, _ => none
    else none
  | _ => none

end Untangle
