import Untangle.Tree.Checks

namespace Untangle

-- What may stand for a type without a check noticing: the type itself, nothing known, or a class where there
-- was a reference.
inductive Ty.Softens : Ty → Ty → Prop
  | same (type : Ty) : Softens type type
  | unknown (type : Ty) : Softens type .unknown
  | object {type : Ty} (name : String) : type.category = .reference → Softens type (.object name)

namespace Ty
variable {type left right left' right' : Ty}

theorem category_unknown : type.category = .unknown ↔ type = .unknown := by
  cases type with
  | primitive base => cases base <;> simp [category]
  | _ => simp [category]

theorem Softens.category (softens : Softens left right) :
    right.category = left.category ∨ right = .unknown := by
  cases softens with
  | same => exact Or.inl rfl
  | unknown => exact Or.inr rfl
  | object name reference => exact Or.inl reference.symm

theorem Softens.trans {one two three : Ty} (first : Softens one two) (second : Softens two three) :
    Softens one three := by
  cases second with
  | same => exact first
  | unknown => exact .unknown _
  | object name reference =>
    rcases first.category with same | rfl
    · exact .object name (same ▸ reference)
    · cases reference

theorem Softens.scalar (softens : Softens left right) (apart : left.category ≠ .reference) :
    right = left ∨ right = .unknown := by
  cases softens with
  | same => exact Or.inl rfl
  | unknown => exact Or.inr rfl
  | object name reference => exact absurd reference apart

theorem Softens.accepts {constraint : Constraint} (softens : Softens left right)
    (accepted : constraint.accepts left.category = true) : constraint.accepts right.category = true := by
  rcases softens.category with same | rfl
  · rwa [same]
  · exact constraint.accepts_unknown

theorem Softens.component (softens : Softens left right) : Softens left.component right.component := by
  cases softens with
  | same => exact .same _
  | unknown => exact .unknown _
  | object name reference => exact .unknown _

theorem Softens.promoteUnary (softens : Softens left right) (apart : left.category ≠ .reference) :
    Softens left.promoteUnary right.promoteUnary := by
  rcases softens.scalar apart with rfl | rfl
  · exact .same _
  · exact .unknown _

theorem promoteBinary_unknown_left (right : Ty) : promoteBinary .unknown right = .unknown := rfl

theorem promoteBinary_unknown_right (left : Ty) : promoteBinary left .unknown = .unknown := by
  unfold promoteBinary
  split
  · rename_i absent
    cases absent
  · rfl

theorem join_unknown_left (right : Ty) : join .unknown right = .unknown := by
  unfold join
  split
  · rfl
  · simp

theorem join_unknown_right (left : Ty) : join left .unknown = .unknown := by
  unfold join
  split
  · assumption
  · simp [category]

theorem reference_known (reference : type.category = .reference) : type ≠ .unknown := by
  rintro rfl
  cases reference

theorem join_references (first : left.category = .reference) (second : right.category = .reference) :
    join left right = left ∨ join left right = right ∨ join left right = .object objectClass := by
  unfold join
  split
  · exact Or.inl rfl
  split
  · exact Or.inr (Or.inl rfl)
  split
  · exact Or.inl rfl
  rw [if_neg fun either => either.elim (reference_known first) (reference_known second),first]
  exact Or.inr (Or.inr rfl)

theorem join_reference (first : left.category = .reference) (second : right.category = .reference) :
    (join left right).category = .reference := by
  rcases join_references first second with same | same | same <;> rw [same]
  · exact first
  · exact second
  · rfl

theorem join_object_left (name : String) (reference : right.category = .reference) :
    ∃ common, join (.object name) right = .object common := by
  cases right with
  | primitive base => cases base <;> cases reference
  | null => exact ⟨name,rfl⟩
  | array component => exact ⟨objectClass,rfl⟩
  | object other =>
    have named : (object name).category = .reference := rfl
    rcases join_references named reference with same | same | same <;> exact ⟨_,same⟩
  | void => cases reference
  | unknown => cases reference

theorem join_object_right (name : String) (reference : left.category = .reference) :
    ∃ common, join left (.object name) = .object common := by
  cases left with
  | primitive base => cases base <;> cases reference
  | null => exact ⟨name,rfl⟩
  | array component => exact ⟨objectClass,rfl⟩
  | object other =>
    have named : (object name).category = .reference := rfl
    rcases join_references reference named with same | same | same <;> exact ⟨_,same⟩
  | void => cases reference
  | unknown => cases reference

theorem agrees_comm (one two : Category) : one.agrees two = two.agrees one := by
  cases one <;> cases two <;> rfl

theorem agrees_reference {category : Category} (agree : category.agrees .reference = true) :
    category = .unknown ∨ category = .reference := by
  cases category <;> simp [Category.agrees] at agree ⊢

theorem Softens.join (first : Softens left left') (second : Softens right right')
    (agree : left.category.agrees right.category = true) : Softens (left.join right) (left'.join right') := by
  cases first with
  | unknown =>
    rw [join_unknown_left]
    exact .unknown _
  | same =>
    cases second with
    | same => exact .same _
    | unknown =>
      rw [join_unknown_right]
      exact .unknown _
    | object name reference =>
      rcases agrees_reference (reference ▸ agree) with unclear | clear
      · rw [category_unknown.mp unclear,join_unknown_left,join_unknown_left]
        exact .same _
      · obtain ⟨common,same⟩ := join_object_right name clear
        rw [same]
        exact .object common (join_reference clear reference)
  | object name reference =>
    rw [reference,agrees_comm] at agree
    rcases agrees_reference agree with unclear | clear
    · rcases second.scalar (by simp [unclear]) with rfl | rfl
      · rw [category_unknown.mp unclear,join_unknown_right,join_unknown_right]
        exact .same _
      · rw [join_unknown_right]
        exact .unknown _
    · rcases second.category with kept | rfl
      · obtain ⟨common,same⟩ := join_object_left name (kept.trans clear)
        rw [same]
        exact .object common (join_reference reference clear)
      · rw [join_unknown_right]
        exact .unknown _

theorem Softens.resultType (op : ArithmeticOp) (first : Softens left left') (second : Softens right right')
    (apart : left.category ≠ .reference) (apart' : right.category ≠ .reference) :
    Softens (op.resultType left right) (op.resultType left' right') := by
  unfold ArithmeticOp.resultType
  cases op.isShift with
  | true => exact first.promoteUnary apart
  | false =>
    simp only [Bool.false_eq_true,if_false]
    rcases first.scalar apart with rfl | rfl
    · rcases second.scalar apart' with rfl | rfl
      · exact .same _
      · simp [Ty.category,promoteBinary_unknown_right,Softens.unknown]
    · simp [Ty.category,promoteBinary_unknown_left,Softens.unknown]

end Ty
end Untangle
