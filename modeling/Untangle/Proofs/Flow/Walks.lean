import Mathlib.Logic.Relation
import Mathlib.Tactic.ByContra
import Untangle.Proofs.Flow.Reach

namespace Untangle
open Relation

def Step (size : Nat) (next : Nat → List Nat) (source target : Nat) : Prop :=
  target < size ∧ target ∈ next source

-- A walk of any length that never meets a node, not even at its ends.
def Clear (size : Nat) (next : Nat → List Nat) (avoided source target : Nat) : Prop :=
  source ≠ avoided ∧
    ReflTransGen (fun one two => Step size next one two ∧ two ≠ avoided) source target

variable {size a b h source middle target root node : Nat} {next : Nat → List Nat} {roots : List Nat}

namespace Clear

theorem stay (apart : source ≠ a) : Clear size next a source source := ⟨apart,.refl⟩

theorem apart (clear : Clear size next a source target) : target ≠ a := by
  obtain ⟨start,walk⟩ := clear
  cases walk with
  | refl => exact start
  | tail _ last => exact last.2

theorem step (clear : Clear size next a source middle) (leads : Step size next middle target)
    (other : target ≠ a) : Clear size next a source target :=
  ⟨clear.1,clear.2.tail ⟨leads,other⟩⟩

theorem after (apart : source ≠ a) (leads : Step size next source middle)
    (clear : Clear size next a middle target) : Clear size next a source target :=
  ⟨apart,.head ⟨leads,clear.1⟩ clear.2⟩

theorem trans (first : Clear size next a source middle) (second : Clear size next a middle target) :
    Clear size next a source target :=
  ⟨first.1,first.2.trans second.2⟩

theorem through (clear : Clear size next h source target) (a : Nat) :
    Clear size next a source target ∨ Clear size next h a target := by
  obtain ⟨start,walk⟩ := clear
  induction walk with
  | refl =>
    by_cases same : source = a
    · exact Or.inr (same ▸ .stay start)
    · exact Or.inl (.stay same)
  | @tail middle target _ last ih =>
    rcases ih with other | onward
    · by_cases same : target = a
      · exact Or.inr (same ▸ .stay last.2)
      · exact Or.inl (other.step last.1 same)
    · exact Or.inr (onward.step last.1 last.2)

theorem toward (clear : Clear size next h source target) (a : Nat) :
    Clear size next a source target ∨ Clear size next h source a := by
  obtain ⟨start,walk⟩ := clear
  induction walk with
  | refl =>
    by_cases same : source = a
    · exact Or.inr (same ▸ .stay start)
    · exact Or.inl (.stay same)
  | @tail middle target before last ih =>
    rcases ih with other | found
    · by_cases same : target = a
      · exact Or.inr ⟨start,same ▸ before.tail last⟩
      · exact Or.inl (other.step last.1 same)
    · exact Or.inr found

end Clear

theorem leaves_last (walk : ReflTransGen (Step size next) a target) (other : target ≠ a) :
    ∃ first, Step size next a first ∧ Clear size next a first target := by
  induction walk with
  | refl => exact absurd rfl other
  | @tail middle target _ last ih =>
    by_cases same : middle = a
    · exact ⟨target,same ▸ last,.stay other⟩
    · obtain ⟨first,leads,clear⟩ := ih same
      exact ⟨first,leads,clear.step last other⟩

theorem clear_to_either (apart : a ≠ b) (walk : ReflTransGen (Step size next) source a) :
    Clear size next b source a ∨ Clear size next a source b := by
  have all {target : Nat} (walk : ReflTransGen (Step size next) source target) :
      (Clear size next a source target ∧ Clear size next b source target) ∨
        Clear size next b source a ∨ Clear size next a source b := by
    induction walk with
    | refl =>
      by_cases first : source = a
      · exact Or.inr (Or.inl (first ▸ .stay (first ▸ apart)))
      · by_cases second : source = b
        · exact Or.inr (Or.inr (second ▸ .stay (second ▸ apart.symm)))
        · exact Or.inl ⟨.stay first,.stay second⟩
    | @tail middle target _ last ih =>
      rcases ih with ⟨ofFirst,ofSecond⟩ | found
      · by_cases first : target = a
        · exact Or.inr (Or.inl (first ▸ ofSecond.step last (first ▸ apart)))
        · by_cases second : target = b
          · exact Or.inr (Or.inr (second ▸ ofFirst.step last (second ▸ apart.symm)))
          · exact Or.inl ⟨ofFirst.step last first,ofSecond.step last second⟩
      · exact Or.inr found
  rcases all walk with ⟨impossible,_⟩ | found
  · exact absurd rfl impossible.apart
  · exact found

theorem clear_from_either (apart : a ≠ b) (fromA : target ≠ a) (fromB : target ≠ b)
    (walk : ReflTransGen (Step size next) a target) :
    Clear size next b a target ∨ Clear size next a b target := by
  have all {source : Nat} (walk : ReflTransGen (Step size next) source target) :
      (Clear size next a source target ∧ Clear size next b source target) ∨
        Clear size next b a target ∨ Clear size next a b target := by
    induction walk using ReflTransGen.head_induction_on with
    | refl => exact Or.inl ⟨.stay fromA,.stay fromB⟩
    | @head source middle leads _ ih =>
      rcases ih with ⟨ofFirst,ofSecond⟩ | found
      · by_cases first : source = a
        · exact Or.inr (Or.inl (first ▸ .after (first ▸ apart) leads ofSecond))
        · by_cases second : source = b
          · exact Or.inr (Or.inr (second ▸ .after (second ▸ apart.symm) leads ofFirst))
          · exact Or.inl ⟨.after first leads ofFirst,.after second leads ofSecond⟩
      · exact Or.inr found
  rcases all walk with ⟨impossible,_⟩ | found
  · exact absurd rfl impossible.1
  · exact found

namespace Reaches

theorem iff_walk : Reaches size next roots node ↔
    ∃ root ∈ roots, root < size ∧ ReflTransGen (Step size next) root node := by
  constructor
  · intro reaches
    induction reaches with
    | root inside member => exact ⟨_,member,inside,.refl⟩
    | edge _ inside leads ih =>
      obtain ⟨root,member,bound,walk⟩ := ih
      exact ⟨root,member,bound,walk.tail ⟨inside,leads⟩⟩
  · rintro ⟨root,member,bound,walk⟩
    induction walk with
    | refl => exact .root bound member
    | tail _ last ih => exact .edge ih last.1 last.2

theorem walk (reaches : Reaches size next roots source) (onward : ReflTransGen (Step size next) source target) :
    Reaches size next roots target := by
  obtain ⟨root,member,bound,walk⟩ := iff_walk.mp reaches
  exact iff_walk.mpr ⟨root,member,bound,walk.trans onward⟩

theorem iff_clear :
    Reaches size (fun id => (next id).filter (· ≠ a)) (roots.filter (· ≠ a)) node ↔
      ∃ root ∈ roots, root < size ∧ Clear size next a root node := by
  rw [iff_walk]
  constructor
  · rintro ⟨root,member,bound,walk⟩
    obtain ⟨listed,apart⟩ := List.mem_filter.mp member
    refine ⟨root,listed,bound,of_decide_eq_true apart,ReflTransGen.mono ?_ _ _ walk⟩
    rintro one two ⟨inside,leads⟩
    obtain ⟨leads,apart⟩ := List.mem_filter.mp leads
    exact ⟨⟨inside,leads⟩,of_decide_eq_true apart⟩
  · rintro ⟨root,listed,bound,apart,walk⟩
    refine ⟨root,List.mem_filter.mpr ⟨listed,decide_eq_true apart⟩,bound,ReflTransGen.mono ?_ _ _ walk⟩
    rintro one two ⟨⟨inside,leads⟩,apart⟩
    exact ⟨inside,List.mem_filter.mpr ⟨leads,decide_eq_true apart⟩⟩

end Reaches

end Untangle
