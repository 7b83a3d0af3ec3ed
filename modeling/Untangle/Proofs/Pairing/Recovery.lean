import Untangle.Proofs.Pairing.Emitters

namespace Untangle

theorem Structured.Twin.symm {equal : Prop} {one two : Structured} (twin : Structured.Twin equal one two) :
    Structured.Twin equal two one :=
  ⟨twin.body.symm,twin.registry.symm,twin.diagnostics.symm⟩

namespace Survey

def recovering (survey : Survey) (recover : Bool) : Survey :=
  {survey with settings:={survey.settings with recoverForLoops:=recover}}

theorem recovering_twin (survey : Survey) {first second : Bool} (less : first = second ∨ second = false) :
    Survey.Twin False (fun _ => True) (survey.recovering first) (survey.recovering second) where
  recovers := less.imp id fun off => ⟨id,off⟩
  validates := rfl
  size := rfl
  live := rfl
  loops := rfl
  tries := rfl
  entry := trivial
  lives _ _ := trivial
  latches _ _ _ _ := trivial
  handlers _ _ _ _ := trivial
  statements _ _ := rfl
  terminator _ _ := rfl
  mergePoint _ _ _ _ _ := rfl
  armOrder _ _ := rfl
  classify _ _ _ := rfl
  absorb _ _ loop _ _ := by
    have above (block : BlockId) : (survey.recovering first).above? block = (survey.recovering second).above? block :=
      rfl
    unfold absorb sideBlocks effectivelyDominates
    simp only [climbsTo_eq above]
    rfl
  updateBlock _ _ _ := rfl
  tryMerge _ _ := rfl

theorem recoverings_together (survey : Survey) (first second : Bool) :
    Tally (Structured.Twin False) (survey.recovering first).structured.1 (survey.recovering second).structured.1 := by
  by_cases less : first = second ∨ second = false
  · exact structured_together (survey.recovering_twin less)
  · have more : second = first ∨ first = false := by
      cases first <;> cases second <;> simp at less ⊢
    exact (structured_together (survey.recovering_twin more)).symm fun _ _ twin => twin.symm

theorem make_recovering (graph : BlockGraph) (settings : StructuringSettings) (recover : Bool) :
    make graph {settings with recoverForLoops:=recover} =
      (make graph settings).map fun survey => survey.recovering recover := by
  unfold make
  dsimp only
  cases (LoopForest.compute graph graph.dominance graph.order).mapError StructureError.ofFlow with
  | error cause => rfl
  | ok loops =>
    cases TryRegion.group graph.table with
    | error cause => rfl
    | ok tries => rfl

end Survey

-- Whether loops are recovered never decides between success and failure, nor what the tree says: with
-- every `for` written out it is the same, and so is what is known of its breaks.
theorem BlockGraph.structured_recovering (graph : BlockGraph) (settings : StructuringSettings) (recover : Bool) :
    Tally (fun one two => unfoldBlock one.body = unfoldBlock two.body ∧
        Registry.Twin False one.registry two.registry ∧ one.diagnostics = two.diagnostics)
      (graph.structured settings) (graph.structured {settings with recoverForLoops:=recover}) := by
  unfold structured structureLogged
  rw [Survey.make_recovering graph settings recover]
  cases made : Survey.make graph settings with
  | error cause => exact rfl
  | ok survey =>
    have itself := Survey.make_recovering graph settings settings.recoverForLoops
    have same : survey = survey.recovering settings.recoverForLoops :=
      Except.ok.inj (made.symm.trans (itself.trans (congrArg _ made)))
    have twins := survey.recoverings_together settings.recoverForLoops recover
    rw [← same] at twins
    exact twins.mono fun _ _ twin => ⟨twin.body.unfolds,twin.registry,twin.diagnostics⟩

end Untangle
