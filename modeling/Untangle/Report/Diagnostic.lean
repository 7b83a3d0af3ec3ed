import Untangle.Flow.Graph

namespace Untangle

inductive Severity where
  | error | warning | info
deriving DecidableEq

def Severity.render : Severity → String
  | error => "error"
  | warning => "warning"
  | info => "info"

inductive Finding where
  | unreachableBlock | foldCapReached | foldFailed | unresolvedField | unresolvedMethod | inferenceFailed
deriving DecidableEq

namespace Finding

def code : Finding → String
  | unreachableBlock => "DECOMPILE_UNREACHABLE"
  | foldCapReached => "DECOMPILE_FOLD_CAP"
  | foldFailed => "DECOMPILE_FOLD_FAILED"
  | unresolvedField => "DECOMPILE_UNRESOLVED_FIELD"
  | unresolvedMethod => "DECOMPILE_UNRESOLVED_METHOD"
  | inferenceFailed => "DECOMPILE_INFER_FAILED"

def severity : Finding → Severity
  | unreachableBlock => .info
  | _ => .warning

end Finding

structure Diagnostic where
  finding : Finding
  message : String
  block : Option BlockId
deriving DecidableEq

def Diagnostic.render (diagnostic : Diagnostic) : String :=
  diagnostic.finding.severity.render ++ "[" ++ diagnostic.finding.code ++ "]: " ++ diagnostic.message ++
    match diagnostic.block with
    | none => ""
    | some block => " (at " ++ blockLabel block ++ ")"

end Untangle
