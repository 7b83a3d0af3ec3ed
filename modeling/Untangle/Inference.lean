import Untangle.Report.Diagnostic
import Untangle.Report.Event
import Untangle.Resolver
import Untangle.Tree.Rebuild

namespace Untangle

abbrev Annotation (α : Type) := Rebuild (List Diagnostic) α

def resolved (finding : Finding) (answer : Except ResolveError Ty) : Annotation Ty :=
  match answer with
  | .ok type => pure type
  | .error cause => do
    let known ← get
    if known.any fun diagnostic => diagnostic.message == cause.message then pure .unknown
    else do
      set (known ++ [(⟨finding,cause.message,none⟩ : Diagnostic)])
      pure .unknown

namespace Resolver

def chosenType (resolver : Resolver) (kind : ExprKind) (thenType elseType : Ty) : Ty :=
  match thenType, elseType with
  | .object left, .object right =>
    if left = right then kind.infer else .object (resolver.commonSuperclass left right)
  | _, _ => kind.infer

def typeOf (resolver : Resolver) (kind : ExprKind) : Annotation Ty :=
  let field (ref : FieldRef) := resolved .unresolvedField (resolver.fieldType ref.owner ref.name)
  let method (ref : MethodRef) :=
    resolved .unresolvedMethod (resolver.returnType ref.owner ref.name ref.descriptor)
  match kind with
  | .staticField ref => field ref
  | .instanceField _ ref => field ref
  | .freeCall _ ref _ => method ref
  | .boundCall _ _ ref _ => method ref
  | .ternary _ thenValue elseValue => pure (resolver.chosenType kind thenValue.type elseValue.type)
  | _ => pure kind.infer

def annotate (resolver : Resolver) (expr : Expr) : Annotation Expr := do
  let type ← resolver.typeOf expr.kind
  pure (expr.annotate type)

def hooks (resolver : Resolver) : Hooks (List Diagnostic) := ⟨resolver.annotate,pure,pure⟩

end Resolver

structure Inferred where
  body : Block
  diagnostics : List Diagnostic
  events : List Event

-- Annotates every expression. Where a table contradicts a descriptor so far that a node becomes
-- invalid, the whole body stays as it was.
def Block.inferTypes (body : Block) (resolver : Resolver) : Inferred :=
  let (result,found) := Rebuild.from [] (Block.rebuild resolver.hooks body)
  let reported := found.map fun diagnostic => Event.unresolvedMember diagnostic.message
  match result with
  | .ok annotated => ⟨annotated,found,reported ++ [.annotatedTypes found.length]⟩
  | .error cause =>
    let message := "type annotation failed: " ++ cause.message
    ⟨body,found ++ [⟨.inferenceFailed,message,none⟩],reported ++ [.inferenceFailed cause]⟩

end Untangle
