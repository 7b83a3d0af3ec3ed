import Untangle.Breaks.Registry
import Untangle.Flow.Graph

namespace Untangle

inductive StructureError where
  | irreducible (block : BlockId)
  | ambiguousLoop (header : BlockId)
  | unresolvedJump (source target : BlockId)
  | structuredTwice (block : BlockId)
  | overlappingHandlers (block : BlockId)
  | interleavedHandlers (block : BlockId)
  | unstructured (block : BlockId)
  | constraint (block : BlockId) (cause : ConstraintError)
  | registry (block : BlockId) (cause : RegistryError)
  | invalidBreaks (cause : RegistryError)
  | graph (cause : FlowError)
deriving DecidableEq

namespace StructureError

def message : StructureError → String
  | irreducible block => (FlowError.irreducible block).message
  | ambiguousLoop header => (FlowError.ambiguousLoop header).message
  | unresolvedJump source target =>
    "jump from " ++ blockLabel source ++ " to " ++ blockLabel target ++ " leaves every enclosing construct"
  | structuredTwice block => blockLabel block ++ " was structured twice"
  | overlappingHandlers block => "exception ranges overlap without nesting at " ++ blockLabel block
  | interleavedHandlers block =>
    "handler " ++ blockLabel block ++ " resumes after another handler of the same range"
  | unstructured block => blockLabel block ++ " is reachable but was never structured"
  | constraint block cause => "invalid node built for " ++ blockLabel block ++ ": " ++ cause.message
  | registry block cause => "break registration failed at " ++ blockLabel block ++ ": " ++ cause.message
  | invalidBreaks cause => "structured tree has inconsistent breaks: " ++ cause.message
  | graph cause => cause.message

def block? : StructureError → Option BlockId
  | irreducible block => some block
  | ambiguousLoop header => some header
  | unresolvedJump source _ => some source
  | structuredTwice block => some block
  | overlappingHandlers block => some block
  | interleavedHandlers block => some block
  | unstructured block => some block
  | constraint block _ => some block
  | registry block _ => some block
  | invalidBreaks _ => none
  | graph _ => none

def ofFlow : FlowError → StructureError
  | .irreducible block => irreducible block
  | .ambiguousLoop header => ambiguousLoop header
  | cause => graph cause

end StructureError
end Untangle
