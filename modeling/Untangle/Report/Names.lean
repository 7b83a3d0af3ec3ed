import Untangle.Resolver
import Untangle.Structuring.Error

namespace Untangle

-- Every fault has a short name besides its message. A fault that wraps another one keeps the name of
-- the inner one apart.
def DescriptorError.name : DescriptorError → String
  | unexpectedEnd _ => "UnexpectedEnd"
  | trailingInput _ _ => "TrailingInput"
  | voidNotAllowed _ => "VoidNotAllowed"
  | invalidDescriptor _ => "InvalidDescriptor"

def ConstraintError.name : ConstraintError → String
  | category _ _ _ => "Category"
  | notAssignable _ => "NotAssignable"
  | descriptor _ _ => "Descriptor"
  | argumentCount _ _ _ => "ArgumentCount"
  | missingReceiver _ => "MissingReceiver"
  | unexpectedReceiver _ => "UnexpectedReceiver"
  | operandIndex _ _ => "OperandIndex"
  | mismatch _ _ _ => "Mismatch"
  | duplicateLabel _ => "DuplicateLabel"
  | duplicateDefault => "DuplicateDefault"

def RegistryError.name : RegistryError → String
  | unknownBreakable _ => "UnknownBreakable"
  | alreadyTargeted _ _ _ => "AlreadyTargeted"
  | continueTargetsSwitch _ _ => "ContinueTargetsSwitch"
  | kindChange _ _ => "KindChange"
  | unregistered _ => "Unregistered"
  | notEnclosing _ _ => "NotEnclosing"
  | inconsistent _ _ _ => "Inconsistent"
  | staleBreak _ _ => "StaleBreak"
  | duplicateBreak _ => "DuplicateBreak"

def ResolveError.name : ResolveError → String
  | fieldNotFound _ _ => "FieldNotFound"
  | methodNotFound _ _ _ => "MethodNotFound"
  | classNotFound _ => "ClassNotFound"

def FlowError.name : FlowError → String
  | emptyGraph => "EmptyGraph"
  | targetOutOfRange _ _ => "TargetOutOfRange"
  | duplicateCase _ _ => "DuplicateCase"
  | invalidRange _ _ _ => "InvalidHandlerRange"
  | handlerInsideRange _ _ => "HandlerInsideRange"
  | irreducible _ => "Irreducible"
  | ambiguousLoop _ => "AmbiguousLoop"

namespace StructureError

def name : StructureError → String
  | irreducible _ => "Irreducible"
  | ambiguousLoop _ => "AmbiguousLoop"
  | unresolvedJump _ _ => "UnresolvedJump"
  | structuredTwice _ => "BlockStructuredTwice"
  | overlappingHandlers _ => "OverlappingHandlers"
  | interleavedHandlers _ => "InterleavedHandlers"
  | unstructured _ => "Unstructured"
  | constraint _ _ => "Constraint"
  | registry _ _ => "Registry"
  | invalidBreaks _ => "InvalidBreaks"
  | graph _ => "Graph"

def inner? : StructureError → Option String
  | constraint _ cause => some cause.name
  | registry _ cause => some cause.name
  | invalidBreaks cause => some cause.name
  | graph cause => some cause.name
  | _ => none

end StructureError
end Untangle
