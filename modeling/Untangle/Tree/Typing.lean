import Untangle.Tree.Expr

namespace Untangle

-- Type of a conditional value from the types of its two branches. Null adopts the other reference,
-- two different references meet at the root class.
def Ty.join (thenType elseType : Ty) : Ty :=
  if thenType = elseType then thenType
  else if thenType = .null ∧ elseType.category = .reference then elseType
  else if elseType = .null ∧ thenType.category = .reference then thenType
  else if thenType = .unknown ∨ elseType = .unknown then .unknown
  else if thenType.category = .numeric then Ty.promoteBinary thenType elseType
  else if thenType.category = .reference then .object objectClass
  else .unknown

def ArithmeticOp.resultType (op : ArithmeticOp) (left right : Ty) : Ty :=
  if op.isShift then left.promoteUnary
  else if op.isBitwise && left.category == .boolean && right.category == .boolean then .boolean
  else Ty.promoteBinary left right

mutual
-- The annotation if there is one, otherwise what the node and its operands give.
def Expr.type : Expr → Ty
  | ⟨_,some type⟩ => type
  | ⟨kind,none⟩ => kind.infer
def ExprKind.infer : ExprKind → Ty
  | .var var => var.type
  | .literal value => value.type
  | .arithmetic op left right => op.resultType left.type right.type
  | .negate operand => operand.type.promoteUnary
  | .numberCompare left _ => left.type
  | .instanceOf _ _ => .boolean
  | .cast target _ => target
  | .staticField field => Ty.ofFieldType field.type
  | .instanceField _ field => Ty.ofFieldType field.type
  | .element array _ => array.type.component
  | .arrayLength _ => .int
  | .freeCall _ method _ => Ty.ofReturnType method.signature.returns
  | .boundCall _ _ method _ => Ty.ofReturnType method.signature.returns
  | .new constructor _ => .object constructor.owner
  | .newArray component _ => .array component
  | .filledArray component _ _ => .array component
  | .ternary _ thenValue elseValue => Ty.join thenValue.type elseValue.type
  | .concat _ => .string
end

def Expr.infer (expr : Expr) : Ty := expr.kind.infer
def Expr.category (expr : Expr) : Category := expr.type.category

theorem Expr.type_annotated (kind : ExprKind) (type : Ty) : Expr.type ⟨kind,some type⟩ = type := by
  simp [Expr.type]
theorem Expr.type_plain (kind : ExprKind) : Expr.type ⟨kind,none⟩ = kind.infer := by
  simp [Expr.type]

end Untangle
