import Mathlib.Data.List.Forall2
import Untangle.Breaks.Validation

namespace Untangle

-- Both succeed with results that go together, or both fail for the same reason.
def Tally (related : α → β → Prop) : Except ε α → Except ε β → Prop
  | .ok one, .ok two => related one two
  | .error one, .error two => one = two
  | _, _ => False

theorem Tally.symm {related : α → β → Prop} {other : β → α → Prop} {one : Except ε α} {two : Except ε β}
    (tally : Tally related one two) (turned : ∀ value value', related value value' → other value' value) :
    Tally other two one := by
  cases one <;> cases two
  · exact Eq.symm tally
  · exact tally.elim
  · exact tally.elim
  · exact turned _ _ tally

theorem Tally.mono {related other : α → β → Prop} {one : Except ε α} {two : Except ε β}
    (tally : Tally related one two) (more : ∀ value value', related value value' → other value value') :
    Tally other one two := by
  cases one <;> cases two
  · exact tally
  · exact tally
  · exact tally
  · exact more _ _ tally

def BreakableKind.TestsFirst (kind : BreakableKind) : Prop := kind = .whileLoop ∨ kind = .forLoop

-- One breakable in two registries. Unless they have to be equal, a plain loop may be a `for` in the other.
structure BreakableEntry.Twin (equal : Prop) (one two : BreakableEntry) : Prop where
  breaks : one.breaks = two.breaks
  kind : one.kind = two.kind ∨ ¬equal ∧ one.kind.TestsFirst ∧ two.kind.TestsFirst

namespace Registry

structure Twin (equal : Prop) (one two : Registry) : Prop where
  breakables : List.Forall₂ (BreakableEntry.Twin equal) one.breakables two.breakables
  kinds : one.kinds = two.kinds
  targets : one.targets = two.targets

def TestsFirst (registry : Registry) (id : BreakableId) : Prop :=
  ∃ kind, registry.kind? id = some kind ∧ kind.TestsFirst

def Keeps (before after : Registry) : Prop := ∀ id, before.TestsFirst id → after.TestsFirst id

theorem keeps_refl (registry : Registry) : Keeps registry registry := fun _ known => known

theorem keeps_trans {first second third : Registry} (one : Keeps first second) (two : Keeps second third) :
    Keeps first third := fun id known => two id (one id known)

variable {equal : Prop} {one two registry changed : Registry} {id target : BreakableId} {brk : Break}
  {kind : BreakableKind}

theorem declare_keeps (registry : Registry) (kind : BreakableKind) : Keeps registry (registry.declare kind).2 := by
  rintro id ⟨known,at_,tests⟩
  refine ⟨known,?_,tests⟩
  unfold kind? declare at *
  obtain ⟨entry,listed,same⟩ := Option.map_eq_some_iff.mp at_
  rw [List.getElem?_append_left (List.getElem?_eq_some_iff.mp listed).1,listed,Option.map_some,same]

theorem setKind_keeps (done : registry.setKind id .forLoop = .ok changed) : Keeps registry changed := by
  unfold setKind at done
  split at done
  · cases done
  split at done
  · cases done
  cases done
  rintro other ⟨known,at_,tests⟩
  unfold TestsFirst kind? modifyEntry at *
  obtain ⟨entry,listed,rfl⟩ := Option.map_eq_some_iff.mp at_
  rw [List.getElem?_modify,listed]
  by_cases here : id = other
  · exact ⟨_,by simp [here],Or.inr rfl⟩
  · exact ⟨_,by simp [here],tests⟩

theorem link_kind (registry : Registry) (target : BreakableId) (brk : Break) (id : BreakableId) :
    (registry.link target brk).1.kind? id = registry.kind? id := by
  unfold kind? link modifyEntry
  dsimp only
  rw [List.getElem?_modify]
  by_cases here : target = id
  · cases registry.breakables[id]? <;> simp [here]
  · simp [here]

theorem register_keeps {known : Break} (done : registry.register target brk = .ok (changed,known)) :
    Keeps registry changed := by
  unfold register at done
  split at done
  · cases done
  split at done
  · cases done
    rintro id ⟨kind,at_,tests⟩
    exact ⟨kind,(link_kind registry target brk id).trans at_,tests⟩
  · split at done
    · cases done
      exact keeps_refl _
    · cases done

namespace Twin

theorem refl (equal : Prop) (registry : Registry) : Twin equal registry registry :=
  ⟨List.forall₂_same.mpr fun _ _ => ⟨rfl,Or.inl rfl⟩,rfl,rfl⟩

theorem eq (twin : Twin equal one two) (has : equal) : one = two := by
  obtain ⟨breakables,kinds,targets⟩ := twin
  have same : one.breakables = two.breakables := by
    refine List.forall₂_eq_eq_eq ▸ breakables.imp ?_
    rintro ⟨kind,breaks⟩ ⟨kind',breaks'⟩ ⟨rfl,rfl | ⟨not,_⟩⟩
    · rfl
    · exact absurd has not
  cases one
  cases two
  cases same
  cases kinds
  cases targets
  rfl

theorem lookup (twin : Twin equal one two) (id : BreakableId) :
    (one.breakables[id]? = none ∧ two.breakables[id]? = none) ∨
      ∃ entry entry', one.breakables[id]? = some entry ∧ two.breakables[id]? = some entry' ∧
        BreakableEntry.Twin equal entry entry' := by
  have length := twin.breakables.length_eq
  by_cases inside : id < one.breakables.length
  · have within : id < two.breakables.length := length ▸ inside
    exact Or.inr ⟨_,_,List.getElem?_eq_getElem inside,List.getElem?_eq_getElem within,
      twin.breakables.get inside within⟩
  · have outside : two.breakables.length ≤ id := length ▸ Nat.not_lt.mp inside
    exact Or.inl ⟨List.getElem?_eq_none (Nat.not_lt.mp inside),List.getElem?_eq_none outside⟩

theorem breaks_eq (twin : Twin equal one two) (id : BreakableId) : one.breaks id = two.breaks id := by
  unfold breaks
  rcases twin.lookup id with ⟨first,second⟩ | ⟨entry,entry',first,second,entries⟩
  · rw [first,second]
  · rw [first,second]
    exact entries.breaks

theorem hasContinue_eq (twin : Twin equal one two) (id : BreakableId) : one.hasContinue id = two.hasContinue id := by
  unfold hasContinue
  rw [twin.breaks_eq,twin.kinds]

theorem switches_iff (twin : Twin equal one two) (id : BreakableId) :
    one.kind? id = some .switch ↔ two.kind? id = some .switch := by
  unfold kind?
  rcases twin.lookup id with ⟨first,second⟩ | ⟨entry,entry',first,second,entries⟩
  · rw [first,second]
  · rw [first,second,Option.map_some,Option.map_some,Option.some.injEq,Option.some.injEq]
    rcases entries.kind with same | ⟨_,tests,tests'⟩
    · rw [same]
    · rcases tests with first | first <;> rcases tests' with second | second <;> rw [first,second] <;> decide

theorem meet_eq (twin : Twin equal one two) (walk : BreakWalk) (enclosing : List BreakableId) (brk : Break) :
    walk.meet one enclosing brk = walk.meet two enclosing brk := by
  unfold BreakWalk.meet targetOf?
  rw [twin.targets]
  simp only [twin.breaks_eq,twin.switches_iff]

theorem declare (twin : Twin equal one two) (kind : BreakableKind) :
    (one.declare kind).1 = (two.declare kind).1 ∧ Twin equal (one.declare kind).2 (two.declare kind).2 :=
  ⟨twin.breakables.length_eq,
    ⟨List.rel_append twin.breakables (.cons ⟨rfl,Or.inl rfl⟩ .nil),twin.kinds,twin.targets⟩⟩

theorem newBreak (twin : Twin equal one two) (kind : BreakKind) :
    (one.newBreak kind).1 = (two.newBreak kind).1 ∧ Twin equal (one.newBreak kind).2 (two.newBreak kind).2 := by
  unfold Registry.newBreak
  rw [twin.kinds]
  exact ⟨rfl,twin.breakables,rfl,twin.targets⟩

theorem checkTarget_eq (twin : Twin equal one two) (target : BreakableId) (brk : Break) :
    one.checkTarget target brk = two.checkTarget target brk := by
  unfold checkTarget kind?
  rcases twin.lookup target with ⟨first,second⟩ | ⟨entry,entry',first,second,entries⟩
  · rw [first,second]
  · rw [first,second,Option.map_some,Option.map_some]
    rcases entries.kind with same | ⟨_,tests,tests'⟩
    · rw [same]
    · rcases tests with first | first <;> rcases tests' with second | second <;> rw [first,second] <;> rfl

theorem modify {breakables breakables' : List BreakableEntry} {change change' : BreakableEntry → BreakableEntry}
    (twins : List.Forall₂ (BreakableEntry.Twin equal) breakables breakables')
    (apply_ : ∀ entry entry', breakables[id]? = some entry → BreakableEntry.Twin equal entry entry' →
      BreakableEntry.Twin equal (change entry) (change' entry')) :
    List.Forall₂ (BreakableEntry.Twin equal) (breakables.modify id change) (breakables'.modify id change') := by
  induction twins generalizing id with
  | nil => simp
  | @cons entry entry' rest rest' first others ih =>
    cases id with
    | zero => exact .cons (apply_ entry entry' rfl first) others
    | succ id =>
      rw [List.modify_succ_cons,List.modify_succ_cons]
      exact .cons first (ih fun entry entry' listed => apply_ entry entry' (by simpa using listed))

theorem register (twin : Twin equal one two) (target : BreakableId) (brk : Break) :
    Tally (fun done done' => Twin equal done.1 done'.1 ∧ done.2 = done'.2) (one.register target brk)
      (two.register target brk) := by
  unfold Registry.register
  rw [twin.checkTarget_eq]
  cases two.checkTarget target brk with
  | error cause => exact rfl
  | ok _ =>
    cases brk.target with
    | none =>
      refine ⟨⟨modify twin.breakables fun entry entry' _ entries => ⟨?_,entries.kind⟩,twin.kinds,?_⟩,rfl⟩
      · simp [entries.breaks]
      · simp [link,modifyEntry,twin.targets]
    | some current =>
      by_cases same : current = target
      · simp only [same,if_true]
        exact ⟨twin,rfl⟩
      · simp only [same,if_false]
        exact rfl

theorem setKind (twin : Twin equal one two) (id : BreakableId) :
    Tally (Twin equal) (one.setKind id .forLoop) (two.setKind id .forLoop) := by
  unfold Registry.setKind
  rcases twin.lookup id with ⟨first,second⟩ | ⟨entry,entry',first,second,entries⟩
  · rw [first,second]
    exact rfl
  · rw [first,second]
    exact ⟨modify twin.breakables fun _ _ _ entries => ⟨entries.breaks,Or.inl rfl⟩,twin.kinds,twin.targets⟩

theorem setKind_left (twin : Twin equal one two) (free : ¬equal) (tests : one.TestsFirst id) :
    ∃ changed, one.setKind id .forLoop = .ok changed ∧ Twin equal changed two := by
  obtain ⟨kind,at_,tests⟩ := tests
  obtain ⟨entry,listed,rfl⟩ := Option.map_eq_some_iff.mp at_
  unfold Registry.setKind
  rw [listed]
  refine ⟨_,rfl,?_,twin.kinds,twin.targets⟩
  have turned : List.Forall₂ (BreakableEntry.Twin equal)
      (one.breakables.modify id fun entry => {entry with kind:=.forLoop})
      (two.breakables.modify id fun entry => entry) := by
    refine modify twin.breakables fun found other at_ entries => ⟨entries.breaks,Or.inr ⟨free,Or.inr rfl,?_⟩⟩
    cases listed.symm.trans at_
    rcases entries.kind with same | ⟨_,_,tests'⟩
    · exact same ▸ tests
    · exact tests'
  exact List.modify_id id two.breakables ▸ turned

theorem symm (twin : Twin equal one two) : Twin equal two one := by
  refine ⟨.flip (twin.breakables.imp fun entry entry' entries => ⟨entries.breaks.symm,?_⟩),twin.kinds.symm,
    twin.targets.symm⟩
  rcases entries.kind with same | ⟨free,tests,tests'⟩
  · exact Or.inl same.symm
  · exact Or.inr ⟨free,tests',tests⟩

end Twin
end Registry
end Untangle
