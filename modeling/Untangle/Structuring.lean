import Untangle.Report.Diagnostic
import Untangle.Structuring.Constructs

namespace Untangle

structure Structured where
  body : Block
  registry : Registry
  diagnostics : List Diagnostic

def Structured.unreachable (block : BlockId) : Diagnostic :=
  ⟨.unreachableBlock,blockLabel block ++ " is unreachable and was dropped",some block⟩

-- A bare return at the very end says nothing.
def withoutTrailingReturn (body : Block) : Block :=
  match body.getLast? with
  | some (.ret none) => body.dropLast
  | _ => body

namespace Survey

def dropped (survey : Survey) : List BlockId := survey.graph.ids.filter (!survey.isLive ·)

def untaken? (survey : Survey) (taken : List BlockId) : Option BlockId :=
  survey.graph.ids.find? fun block => survey.isLive block && block ∉ taken

def emitAll (survey : Survey) : Emission Block := do
  let scope : Scope := ⟨survey.graph.ids.filter survey.isLive,[]⟩
  survey.emitFrom survey.fuel scope survey.graph.entry none []

def complete (survey : Survey) (progress : Progress) (emitted : Block) :
    Except StructureError Structured := do
  match survey.untaken? progress.taken with
  | some block => .error (.unstructured block)
  | none =>
    let body := withoutTrailingReturn emitted
    if survey.settings.validateBreaks then
      (validateBreaks body progress.registry).mapError StructureError.invalidBreaks
    .ok ⟨body,progress.registry,survey.dropped.map Structured.unreachable⟩

def structured (survey : Survey) : Except StructureError Structured × List Event :=
  let start := {Progress.start with events:=survey.dropped.map .droppedBlock}
  let (emitted,progress) := StateT.run (ExceptT.run survey.emitAll) start
  match emitted.bind (survey.complete progress) with
  | .error cause => (.error cause,progress.events)
  | .ok result =>
    let size := survey.graph.size
    (.ok result,progress.events ++ [.structuredGraph size progress.registry.breakables.length])

end Survey

namespace BlockGraph

def structureLogged (graph : BlockGraph) (settings : StructuringSettings) :
    Except StructureError Structured × List Event :=
  match Survey.make graph settings with
  | .error cause => (.error cause,[])
  | .ok survey => survey.structured

def structured (graph : BlockGraph) (settings : StructuringSettings) :
    Except StructureError Structured :=
  (graph.structureLogged settings).1

end BlockGraph
end Untangle
