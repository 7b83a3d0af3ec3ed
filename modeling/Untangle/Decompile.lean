import Untangle.Folding
import Untangle.Inference
import Untangle.Structuring

namespace Untangle

structure CodeUnit where
  name : String
  graph : BlockGraph

structure Decompiled where
  name : String
  body : Block
  registry : Registry
  diagnostics : List Diagnostic

structure UnitFailure where
  unit : String
  cause : StructureError
deriving DecidableEq

def UnitFailure.message (failure : UnitFailure) : String :=
  "failed to decompile " ++ ticked failure.unit ++ ": " ++ failure.cause.message

abbrev UnitOutcome := Except UnitFailure Decompiled

def CodeUnit.decompile (unit : CodeUnit) (resolver : Resolver) (settings : DecompileSettings) :
    UnitOutcome × List Event :=
  match unit.graph.structureLogged settings.structuring with
  | (.error cause,events) => (.error ⟨unit.name,cause⟩,events)
  | (.ok structured,events) =>
    let folded := structured.body.fold settings.folding
    let inferred := folded.body.inferTypes resolver
    let diagnostics := structured.diagnostics ++ folded.diagnostics ++ inferred.diagnostics
    let finished := Event.decompiledUnit unit.name inferred.body.length folded.passes diagnostics.length
    (.ok ⟨unit.name,inferred.body,structured.registry,diagnostics⟩,
      events ++ folded.events ++ inferred.events ++ [finished])

def UnitOutcome.failure? : UnitOutcome → Option UnitFailure
  | .error failure => some failure
  | .ok _ => none

-- Every unit has its outcome in order; one that fails does not stop the others. Failures are logged
-- after all units are done.
def decompileAll (units : List CodeUnit) (resolver : Resolver) (settings : DecompileSettings) :
    List UnitOutcome × List Event :=
  let results := units.map fun unit => unit.decompile resolver settings
  let outcomes := results.map (·.1)
  let failures := outcomes.filterMap UnitOutcome.failure?
  (outcomes,results.flatMap (·.2) ++
    failures.map (fun failure => .unitFailed failure.unit failure.cause.message) ++
    [.finished units.length failures.length settings.parallelUnits])

end Untangle
