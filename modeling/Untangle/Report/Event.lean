import Untangle.Flow.Graph

namespace Untangle

inductive LogLevel where
  | trace | debug | info | warn
deriving DecidableEq

def LogLevel.render : LogLevel → String
  | trace => "TRACE"
  | debug => "DEBUG"
  | info => "INFO"
  | warn => "WARN"

inductive Event where
  | droppedBlock (block : BlockId)
  | structuringLoop (header : BlockId) (shape : String) (blocks : Nat) (exit : Option BlockId)
  | twoWayBranch (block : BlockId) (merge : Option BlockId)
  | switchArms (block : BlockId) (arms : Nat) (merge : Option BlockId)
  | protectedRange (first past : BlockId) (handlers : Nat) (merge : Option BlockId)
  | resolvedJump (block : BlockId) (breakable : BreakableId) (kind : BreakKind) (nested : Bool)
  | structuredGraph (blocks breakables : Nat)
  | foldPass (pass folds : Nat)
  | foldConverged (passes : Nat)
  | foldFailed (pass : Nat) (cause : ConstraintError)
  | foldCapReached (cap : Nat)
  | unresolvedMember (message : String)
  | annotatedTypes (unresolved : Nat)
  | inferenceFailed (cause : ConstraintError)
  | decompiledUnit (unit : String) (statements foldPasses diagnostics : Nat)
  | unitFailed (unit cause : String)
  | finished (units failed : Nat) (parallel : Bool)

namespace Event

def level : Event → LogLevel
  | droppedBlock _ => .debug
  | structuringLoop _ _ _ _ => .debug
  | twoWayBranch _ _ => .trace
  | switchArms _ _ _ => .trace
  | protectedRange _ _ _ _ => .trace
  | resolvedJump _ _ _ _ => .trace
  | structuredGraph _ _ => .debug
  | foldPass _ _ => .trace
  | foldConverged _ => .debug
  | foldFailed _ _ => .warn
  | foldCapReached _ => .warn
  | unresolvedMember _ => .debug
  | annotatedTypes _ => .debug
  | inferenceFailed _ => .warn
  | decompiledUnit _ _ _ _ => .debug
  | unitFailed _ _ => .warn
  | finished _ _ _ => .info

def message : Event → String
  | droppedBlock _ => "dropping unreachable block"
  | structuringLoop _ _ _ _ => "structuring loop"
  | twoWayBranch _ _ => "two-way branch"
  | switchArms _ _ _ => "switch"
  | protectedRange _ _ _ _ => "protected range"
  | resolvedJump _ _ _ _ => "resolved jump"
  | structuredGraph _ _ => "structured block graph"
  | foldPass _ _ => "fold pass"
  | foldConverged _ => "idiom folding converged"
  | foldFailed _ _ => "idiom folding failed; keeping unfolded tree"
  | foldCapReached _ => "idiom folding did not converge; keeping unfolded tree"
  | unresolvedMember message => "unresolved member " ++ message
  | annotatedTypes _ => "annotated expression types"
  | inferenceFailed _ => "type annotation produced an invalid node; leaving body unannotated"
  | decompiledUnit _ _ _ _ => "decompiled unit"
  | unitFailed _ _ => "unit failed to decompile"
  | finished _ _ _ => "decompilation finished"

def optionalBlock : Option BlockId → String
  | none => "None"
  | some block => "Some(BlockId(" ++ toString block ++ "))"

def breakKind : BreakKind → String
  | .break => "Break"
  | .continue => "Continue"

def flag (value : Bool) : String := if value then "true" else "false"

def fields : Event → List (String × String)
  | droppedBlock block => [("block",blockLabel block)]
  | structuringLoop header shape blocks exit =>
    [("header",blockLabel header),("shape",QuoteStyle.message.quote shape),("blocks",toString blocks),
      ("exit",optionalBlock exit)]
  | twoWayBranch block merge => [("block",blockLabel block),("merge",optionalBlock merge)]
  | switchArms block arms merge =>
    [("block",blockLabel block),("arms",toString arms),("merge",optionalBlock merge)]
  | protectedRange first past handlers merge =>
    [("start",blockLabel first),("end",blockLabel past),("handlers",toString handlers),
      ("merge",optionalBlock merge)]
  | resolvedJump block breakable kind nested =>
    [("block",blockLabel block),("breakable",breakableLabel breakable),("kind",breakKind kind),
      ("nested",flag nested)]
  | structuredGraph blocks breakables => [("blocks",toString blocks),("breakables",toString breakables)]
  | foldPass pass folds => [("pass",toString pass),("rewrites",toString folds)]
  | foldConverged passes => [("passes",toString passes)]
  | foldFailed pass cause => [("pass",toString pass),("error",cause.message)]
  | foldCapReached cap => [("cap",toString cap)]
  | unresolvedMember _ => []
  | annotatedTypes unresolved => [("unresolved",toString unresolved)]
  | inferenceFailed cause => [("error",cause.message)]
  | decompiledUnit unit statements foldPasses diagnostics =>
    [("unit",unit),("statements",toString statements),("fold_passes",toString foldPasses),
      ("diagnostics",toString diagnostics)]
  | unitFailed unit cause => [("unit",unit),("error",cause)]
  | finished units failed parallel =>
    [("units",toString units),("failed",toString failed),("parallel",flag parallel)]

def render (event : Event) : String :=
  event.level.render ++ " nova.decompile: " ++ event.message ++
    String.join (event.fields.map fun (name,value) => " " ++ name ++ "=" ++ value)

end Event
end Untangle
