import Untangle.Proofs.Emission.Gives

namespace Untangle
namespace Emission

def Settles (done : α → Progress → Prop) (excuse : StructureError → Prop) :
    Except StructureError α × Progress → Prop
  | (.ok result,after) => done result after
  | (.error cause,_) => excuse cause

-- The emission either goes through with what `done` says, or fails for an excused cause.
def Ends (emission : Emission α) (before : Progress) (done : α → Progress → Prop)
    (excuse : StructureError → Prop) : Prop :=
  Settles done excuse (StateT.run (ExceptT.run emission) before)

variable {emission : Emission α} {before : Progress} {done other : α → Progress → Prop}
  {excuse : StructureError → Prop}

theorem Ends.mono (ends : Ends emission before done excuse)
    (more : ∀ result after, Gives emission before result after → done result after → other result after) :
    Ends emission before other excuse := by
  unfold Ends at *
  rcases run : StateT.run (ExceptT.run emission) before with ⟨cause | result,after⟩
  · rw [run] at ends
    exact ends
  · rw [run] at ends
    exact more result after run ends

theorem Ends.holds {result : α} {after : Progress} (ends : Ends emission before done excuse)
    (gives : Gives emission before result after) : done result after := by
  unfold Ends at ends
  rwa [show StateT.run (ExceptT.run emission) before = _ from gives] at ends

theorem ends_bind {first : Emission α} {next : α → Emission β} {done : β → Progress → Prop} :
    Ends (first >>= next) before done excuse ↔
      Ends first before (fun value middle => Ends (next value) middle done excuse) excuse := by
  unfold Ends
  rw [ExceptT.run_bind,StateT.run_bind]
  change Settles done excuse (match StateT.run (ExceptT.run first) before with
    | (outcome,middle) => _) ↔ _
  rcases StateT.run (ExceptT.run first) before with ⟨cause | value,middle⟩ <;> rfl

theorem ends_get {rest : Progress → Emission α} :
    Ends (get >>= rest) before done excuse ↔ Ends (rest before) before done excuse := Iff.rfl

theorem ends_set {value : Progress} {done : PUnit → Progress → Prop} :
    Ends (set value) before done excuse ↔ done () value := Iff.rfl

def Excused (excuse : StructureError → Prop) (emission : Emission α) : Prop :=
  ∀ before, Ends emission before (fun _ _ => True) excuse

theorem excused_pure {value : α} : Excused excuse (pure value) := fun _ => trivial

theorem excused_throw {cause : StructureError} (known : excuse cause) :
    Excused excuse (throw cause : Emission α) := fun _ => known

theorem excused_get {rest : Progress → Emission α} (further : ∀ before, Excused excuse (rest before)) :
    Excused excuse (get >>= rest) := fun before => further before before

theorem excused_bind {first : Emission α} {next : α → Emission β} (start : Excused excuse first)
    (further : ∀ value, Excused excuse (next value)) : Excused excuse (first >>= next) := by
  intro before
  rw [ends_bind]
  exact (start before).mono fun value middle _ _ => further value middle

theorem excused_modify {change : Progress → Progress} : Excused excuse (modify change) := fun _ => trivial

theorem excused_set {value : Progress} : Excused excuse (set value) := fun _ => trivial

end Emission

theorem Survey.structured_fails {survey : Survey} {cause : StructureError} {done : Block → Progress → Prop}
    {excuse : StructureError → Prop}
    (ends : Emission.Ends survey.emitAll {Progress.start with events:=survey.dropped.map .droppedBlock} done excuse)
    (failed : survey.structured.1 = .error cause) :
    excuse cause ∨ ∃ events emitted progress,
      Emission.Gives survey.emitAll {Progress.start with events} emitted progress ∧ done emitted progress ∧
        survey.complete progress emitted = .error cause := by
  unfold structured at failed
  dsimp only at failed
  unfold Emission.Ends at ends
  rcases run : StateT.run (ExceptT.run survey.emitAll)
    {Progress.start with events:=survey.dropped.map .droppedBlock} with ⟨fault | emitted,progress⟩
  · rw [run] at failed ends
    simp only [Except.bind] at failed
    cases failed
    exact Or.inl ends
  · rw [run] at failed ends
    refine Or.inr ⟨_,emitted,progress,run,ends,?_⟩
    cases finished : survey.complete progress emitted with
    | error fault =>
      simp only [Except.bind,finished] at failed
      exact failed
    | ok built => simp [Except.bind,finished] at failed

end Untangle
