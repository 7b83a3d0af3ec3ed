import Untangle.Folding.Idioms
import Untangle.Report.Diagnostic
import Untangle.Report.Event
import Untangle.Settings.Basic
import Untangle.Tree.Rebuild

namespace Untangle

abbrev FoldPass (α : Type) := Rebuild Nat α

def counted {α : Type} (node : α) (found : Option α) : FoldPass α :=
  match found with
  | none => pure node
  | some folded => do
    modify (· + 1)
    pure folded

def countedChecked {α : Type} (check : α → Except ConstraintError Unit) (node : α) (found : Option α) :
    FoldPass α :=
  match found with
  | none => pure node
  | some folded => do
    let folded ← recheck (check folded) folded
    counted node (some folded)

namespace FoldingSettings

def foldExpr (settings : FoldingSettings) (expr : Expr) : FoldPass Expr :=
  if settings.stringConcat then countedChecked (·.kind.check) expr expr.builderChain? else pure expr

def foldCondition (settings : FoldingSettings) (condition : Condition) : FoldPass Condition := do
  let condition ← if settings.nestedConditions then counted condition condition.doubleNegation?
    else pure condition
  if settings.comparators then countedChecked Condition.check condition condition.signTest?
  else pure condition

def foldStatement (settings : FoldingSettings) (statement : Statement) : FoldPass Statement := do
  let statement ← if settings.ternaries then counted statement statement.conditionalAssignment?
    else pure statement
  if settings.nestedConditions then counted statement statement.nestedBranch? else pure statement

def hooks (settings : FoldingSettings) : Hooks Nat :=
  ⟨settings.foldExpr,settings.foldCondition,fun block => block.mapM settings.foldStatement⟩

end FoldingSettings

-- `passes` counts also the last one, which found nothing to do.
structure Folded where
  body : Block
  passes : Nat
  diagnostics : List Diagnostic
  events : List Event

namespace Folded

def failed (body : Block) (pass : Nat) (cause : ConstraintError) (events : List Event) : Folded :=
  let message := "idiom folding failed in pass " ++ toString pass ++ ": " ++ cause.message
  ⟨body,pass,[⟨.foldFailed,message,none⟩],events ++ [.foldFailed pass cause]⟩

def unfinished (body : Block) (cap : Nat) (events : List Event) : Folded :=
  let message := "idiom folding still changing the tree after " ++ toString cap ++ " passes"
  ⟨body,cap,[⟨.foldCapReached,message,none⟩],events ++ [.foldCapReached cap]⟩

end Folded

-- Passes over the tree until one changes nothing. A pass that fails, and a limit that is reached,
-- leave the tree as it was before the first one.
def foldFrom (settings : FoldingSettings) (unfolded : Block) :
    Nat → Nat → List Event → Block → Folded
  | 0, passed, events, _ => .unfinished unfolded passed events
  | left + 1, passed, events, current =>
    let pass := passed + 1
    match Rebuild.from 0 (Block.rebuild settings.hooks current) with
    | (.error cause,_) => .failed unfolded pass cause events
    | (.ok next,0) => ⟨next,pass,[],events ++ [.foldConverged pass]⟩
    | (.ok next,folds) => foldFrom settings unfolded left pass (events ++ [.foldPass pass folds]) next

def Block.fold (body : Block) (settings : FoldingSettings) : Folded :=
  if settings.enabled then foldFrom settings body (max settings.iterationCap 1) 0 [] body
  else ⟨body,0,[],[]⟩

end Untangle
