import Mathlib.Data.List.Induction
import Untangle.Proofs.Protection.Regions

namespace Untangle

-- An exception comes with the classes that it is an instance of. No class catches them all.
def ProtectedRange.catches (row : ProtectedRange) (known : String → Bool) : Bool := row.caught.all known

def CatchGroup.catches (group : CatchGroup) (known : String → Bool) : Bool :=
  group.caught.isEmpty || group.caught.any known

def firstRow? (table : List ProtectedRange) (block : BlockId) (known : String → Bool) : Option BlockId :=
  (table.find? fun row => row.covers block && row.catches known).map (·.handler)

def firstClause? (clauses : List CatchGroup) (known : String → Bool) : Option BlockId :=
  (clauses.find? (·.catches known)).map (·.handler)

namespace CatchGroup
variable {group : CatchGroup} {known : String → Bool}

def Full (group : CatchGroup) : Prop := group.catchAll = true ∨ group.types ≠ []

theorem catches_iff (full : group.Full) : group.catches known = (group.catchAll || group.types.any known) := by
  unfold catches caught
  cases all : group.catchAll with
  | true => simp
  | false =>
    have some : group.types ≠ [] := by simpa [Full,all] using full
    simp [some]

theorem full_add (full : group.Full) (caught : Option String) : (group.add caught).Full := by
  unfold add
  split
  · exact Or.inl rfl
  · split
    · exact full
    · exact Or.inr (by simp)

theorem catches_add (full : group.Full) (caught : Option String) :
    (group.add caught).catches known = (group.catches known || caught.all known) := by
  rw [catches_iff (full_add full caught),catches_iff full]
  unfold add
  cases caught with
  | none => simp
  | some type =>
    dsimp only
    split
    · rename_i listed
      cases holds : known type with
      | true =>
        have any : group.types.any known = true := List.any_eq_true.mpr ⟨type,listed,holds⟩
        simp [any]
      | false => simp [holds]
    · simp [Bool.or_assoc]

theorem full_start (handler : BlockId) (caught : Option String) : ((start handler).add caught).Full := by
  cases caught with
  | none => exact Or.inl rfl
  | some type => exact Or.inr (by simp [add,start])

theorem catches_start (handler : BlockId) (caught : Option String) :
    ((start handler).add caught).catches known = caught.all known := by
  cases caught with
  | none => rfl
  | some type => simp [add,start,catches,CatchGroup.caught]

end CatchGroup

namespace TryRegion
variable {row : ProtectedRange} {rows table : List ProtectedRange} {clauses clauses' : List CatchGroup}
  {regions regions' : List TryRegion} {known : String → Bool} {block : BlockId}

theorem firstClause_add (added : addClause row clauses = .ok clauses') (full : ∀ group ∈ clauses, group.Full) :
    (∀ group ∈ clauses', group.Full) ∧ ∀ known, firstClause? clauses' known =
      (firstClause? clauses known).or (if row.catches known = true then some row.handler else none) := by
  unfold firstClause?
  rcases addClause_splits added with ⟨front,last,splits,same,splits'⟩ | splits'
  · subst splits splits'
    have whole : last.Full := full last (by simp)
    constructor
    · intro group member
      rcases List.mem_append.mp member with earlier | changed
      · exact full group (List.mem_append_left _ earlier)
      · cases List.mem_singleton.mp changed
        exact CatchGroup.full_add whole _
    · intro known
      rw [List.find?_append,List.find?_append]
      cases front.find? (·.catches known) with
      | some found => rfl
      | none =>
        simp only [Option.none_or,List.find?_singleton,CatchGroup.catches_add whole]
        change _ = ((if last.catches known then some last else none).map (·.handler)).or
          (if row.caught.all known = true then some row.handler else none)
        cases last.catches known <;> cases row.caught.all known <;> simp [handler_add,same]
  · subst splits'
    constructor
    · intro group member
      rcases List.mem_append.mp member with earlier | new
      · exact full group earlier
      · cases List.mem_singleton.mp new
        exact CatchGroup.full_start _ _
    · intro known
      rw [List.find?_append,List.find?_singleton,CatchGroup.catches_start]
      cases clauses.find? (·.catches known) with
      | some found => rfl
      | none =>
        change (if row.caught.all known then _ else none).map _ = _
        unfold ProtectedRange.catches
        cases row.caught.all known <;> simp [handler_add,CatchGroup.start]

theorem firstClause_of_rows (made : clausesOf rows = .ok clauses) : (∀ group ∈ clauses, group.Full) ∧
    ∀ known, firstClause? clauses known = (rows.find? (·.catches known)).map (·.handler) := by
  induction rows using List.reverseRecOn generalizing clauses with
  | nil =>
    cases made
    exact ⟨by simp,fun _ => rfl⟩
  | append_singleton rows row ih =>
    obtain ⟨earlier,first,added⟩ := clausesOf_grown made
    obtain ⟨full,caught⟩ := ih first
    obtain ⟨full,last⟩ := firstClause_add added full
    refine ⟨full,fun known => ?_⟩
    rw [last,caught,List.find?_append,List.find?_singleton]
    cases rows.find? (·.catches known) with
    | some found => rfl
    | none => cases row.catches known <;> rfl

end TryRegion
end Untangle
