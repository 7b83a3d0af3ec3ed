import Untangle.Inference
import Untangle.Proofs.Equality.Erasure
import Untangle.Proofs.Rebuilding.Steps

namespace Untangle

-- What looking a member up gives: its type, or nothing known of it and a note that it was missed.
def answered : Except ResolveError Ty → Ty
  | .ok type => type
  | .error _ => .unknown

def missing? (finding : Finding) : Except ResolveError Ty → Option Diagnostic
  | .ok _ => none
  | .error cause => some ⟨finding,cause.message,none⟩

namespace Resolver

def fieldAnswer (resolver : Resolver) (field : FieldRef) : Except ResolveError Ty :=
  resolver.fieldType field.owner field.name
def methodAnswer (resolver : Resolver) (method : MethodRef) : Except ResolveError Ty :=
  resolver.returnType method.owner method.name method.descriptor

def meet (resolver : Resolver) (thenType elseType : Ty) : Ty :=
  match thenType, elseType with
  | .object left, .object right =>
    if left = right then Ty.join thenType elseType else .object (resolver.commonSuperclass left right)
  | _, _ => Ty.join thenType elseType

-- The type of an expression by recursion on its operands. What is noted on it or in it is not looked at.
mutual
def reference (resolver : Resolver) : Expr → Ty
  | ⟨kind,_⟩ => resolver.referenceKind kind
def referenceKind (resolver : Resolver) : ExprKind → Ty
  | .var var => var.type
  | .literal value => value.type
  | .arithmetic op left right => op.resultType (resolver.reference left) (resolver.reference right)
  | .negate operand => (resolver.reference operand).promoteUnary
  | .numberCompare left _ => resolver.reference left
  | .instanceOf _ _ => .boolean
  | .cast target _ => target
  | .staticField field => answered (resolver.fieldAnswer field)
  | .instanceField _ field => answered (resolver.fieldAnswer field)
  | .element array _ => (resolver.reference array).component
  | .arrayLength _ => .int
  | .freeCall _ method _ => answered (resolver.methodAnswer method)
  | .boundCall _ _ method _ => answered (resolver.methodAnswer method)
  | .new constructor _ => .object constructor.owner
  | .newArray component _ => .array component
  | .filledArray component _ _ => .array component
  | .ternary _ thenValue elseValue => resolver.meet (resolver.reference thenValue) (resolver.reference elseValue)
  | .concat _ => .string
end

def missed? (resolver : Resolver) : ExprKind → Option Diagnostic
  | .staticField field => missing? .unresolvedField (resolver.fieldAnswer field)
  | .instanceField _ field => missing? .unresolvedField (resolver.fieldAnswer field)
  | .freeCall _ method _ => missing? .unresolvedMethod (resolver.methodAnswer method)
  | .boundCall _ _ method _ => missing? .unresolvedMethod (resolver.methodAnswer method)
  | _ => none

variable {resolver : Resolver}

theorem reference_eq (expr : Expr) : resolver.reference expr = resolver.referenceKind expr.kind := by
  obtain ⟨kind,note⟩ := expr
  rw [reference]

mutual
theorem reference_erase (resolver : Resolver) (expr : Expr) : resolver.reference expr.erase = resolver.reference expr := by
  obtain ⟨kind,note⟩ := expr
  rw [Expr.erase,reference,reference,referenceKind_erase]
theorem referenceKind_erase (resolver : Resolver) (kind : ExprKind) :
    resolver.referenceKind kind.erase = resolver.referenceKind kind := by
  cases kind with
  | arithmetic op left right => simp only [ExprKind.erase,referenceKind,reference_erase resolver]
  | negate operand => simp only [ExprKind.erase,referenceKind,reference_erase resolver]
  | numberCompare left right => simp only [ExprKind.erase,referenceKind,reference_erase resolver]
  | element array index => simp only [ExprKind.erase,referenceKind,reference_erase resolver]
  | ternary condition thenValue elseValue => simp only [ExprKind.erase,referenceKind,reference_erase resolver]
  | _ => simp only [ExprKind.erase,referenceKind]
end

theorem meet_chosen (condition : Condition) (thenValue elseValue : Expr) :
    resolver.chosenType (.ternary condition thenValue elseValue) thenValue.type elseValue.type =
      resolver.meet thenValue.type elseValue.type := rfl

end Resolver

def remember (known : List Diagnostic) (found : Diagnostic) : List Diagnostic :=
  if known.any fun diagnostic => diagnostic.message == found.message then known else known ++ [found]

theorem resolved_outcome (finding : Finding) (answer : Except ResolveError Ty) (known : List Diagnostic) :
    Rebuild.from known (resolved finding answer) =
      (.ok (answered answer),(missing? finding answer).toList.foldl remember known) := by
  cases answer with
  | ok type => rfl
  | error cause =>
    change Rebuild.from known (get >>= _) = (Except.ok Ty.unknown,remember known ⟨finding,cause.message,none⟩)
    have read : Rebuild.from known get = (.ok known,known) := rfl
    rw [from_bind,read,remember]
    dsimp only
    split <;> rfl

namespace Resolver
variable {resolver : Resolver}

theorem typeOf_outcome {kind : ExprKind} (typed : ∀ operand ∈ kind.operands, operand.type = resolver.reference operand)
    (known : List Diagnostic) : Rebuild.from known (resolver.typeOf kind) =
      (.ok (resolver.referenceKind kind),(resolver.missed? kind).toList.foldl remember known) := by
  cases kind with
  | staticField field => exact resolved_outcome _ _ known
  | instanceField receiver field => exact resolved_outcome _ _ known
  | freeCall call method args => exact resolved_outcome _ _ known
  | boundCall call receiver method args => exact resolved_outcome _ _ known
  | ternary condition thenValue elseValue =>
    change (Except.ok (resolver.chosenType _ thenValue.type elseValue.type),known) = _
    rw [meet_chosen,typed thenValue (by simp [ExprKind.operands]),typed elseValue (by simp [ExprKind.operands])]
    rw [referenceKind]
    rfl
  | _ =>
    change (Except.ok (ExprKind.infer _),known) = (Except.ok _,known)
    simp [ExprKind.operands] at typed
    simp [ExprKind.infer,referenceKind,typed]

end Resolver
end Untangle
