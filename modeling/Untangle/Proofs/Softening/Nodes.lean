import Untangle.Proofs.Softening.Types
import Untangle.Proofs.WellFormed.Checked

namespace Untangle

structure Expr.Softens (old new : Expr) : Prop where
  type : old.type.Softens new.type
  assignable : new.isAssignable = old.isAssignable

theorem Expr.Softens.refl (expr : Expr) : expr.Softens expr := ⟨.same _,rfl⟩

theorem Expr.Softens.trans {one two three : Expr} (first : one.Softens two) (second : two.Softens three) :
    one.Softens three :=
  ⟨first.type.trans second.type,second.assignable.trans first.assignable⟩

-- What holds no value of its own may stand for anything of its sort.
inductive Node.Softens : Node → Node → Prop
  | expr {old new : Expr} : old.Softens new → Softens (.ofExpr old) (.ofExpr new)
  | condition (old new : Condition) : Softens (.ofCondition old) (.ofCondition new)
  | statement (old new : Statement) : Softens (.ofStatement old) (.ofStatement new)

section
variable {param : String} {constraint : Constraint} {old new left right left' right' : Expr} {olds news : List Expr}

theorem expect_ok : expect param constraint old = .ok () ↔ constraint.accepts old.type.category = true := by
  unfold expect expectType
  split <;> simp_all

theorem Expr.Softens.expect (softens : old.Softens new) (held : expect param constraint old = .ok ()) :
    Untangle.expect param constraint new = .ok () :=
  expect_ok.mpr (softens.type.accepts (expect_ok.mp held))

theorem expect_scalar (held : expect param constraint old = .ok ())
    (closed : constraint.accepts .reference = false) : old.type.category ≠ .reference := by
  intro reference
  rw [expect_ok,reference,closed] at held
  cases held

theorem Expr.Softens.agrees (first : left.Softens left') (second : right.Softens right')
    (agree : left.category.agrees right.category = true) : left'.category.agrees right'.category = true := by
  unfold Expr.category at agree ⊢
  rcases first.type.category with same | gone
  · rcases second.type.category with same' | gone
    · rwa [same,same']
    · rw [gone,Ty.agrees_comm]
      rfl
  · rw [gone]
    rfl

theorem Expr.Softens.present (softens : old.Softens new) (present : old.category ≠ .void) :
    new.category ≠ .void := by
  unfold Expr.category at present ⊢
  rcases softens.type.category with same | gone
  · rwa [same]
  · rw [gone]
    exact nofun

theorem expectCompatible_ok : expectCompatible param left right = .ok () ↔
    left.category ≠ .void ∧ right.category ≠ .void ∧ left.category.agrees right.category = true := by
  unfold expectCompatible
  split <;> simp_all

theorem Expr.Softens.expectCompatible (first : left.Softens left') (second : right.Softens right')
    (held : expectCompatible param left right = .ok ()) : Untangle.expectCompatible param left' right' = .ok () := by
  obtain ⟨here,there,agree⟩ := expectCompatible_ok.mp held
  exact expectCompatible_ok.mpr ⟨first.present here,second.present there,first.agrees second agree⟩

theorem expectEach_cons : expectEach param constraint (old :: olds) = .ok () ↔
    expect param constraint old = .ok () ∧ expectEach param constraint olds = .ok () := by
  rw [expectEach]
  cases expect param constraint old <;> simp

theorem expectEach_softened (each : List.Forall₂ Expr.Softens olds news)
    (held : expectEach param constraint olds = .ok ()) : expectEach param constraint news = .ok () := by
  induction each with
  | nil => rfl
  | cons softens _ ih =>
    obtain ⟨first,rest⟩ := expectEach_cons.mp held
    exact expectEach_cons.mpr ⟨softens.expect first,ih rest⟩

theorem expectParams_cons {declared : FieldType} {types : List FieldType} :
    expectParams param (declared :: types) (old :: olds) = .ok () ↔
      expect param (paramConstraint declared) old = .ok () ∧ expectParams param types olds = .ok () := by
  rw [expectParams]
  cases expect param (paramConstraint declared) old <;> simp

theorem expectParams_softened {types : List FieldType} (each : List.Forall₂ Expr.Softens olds news)
    (held : expectParams param types olds = .ok ()) : expectParams param types news = .ok () := by
  induction each generalizing types with
  | nil => cases types <;> rfl
  | cons softens _ ih =>
    cases types with
    | nil => rfl
    | cons declared types =>
      obtain ⟨first,rest⟩ := expectParams_cons.mp held
      exact expectParams_cons.mpr ⟨softens.expect first,ih rest⟩

theorem expectArgs_softened {signature : MethodDescriptor} (each : List.Forall₂ Expr.Softens olds news)
    (held : expectArgs param signature olds = .ok ()) : expectArgs param signature news = .ok () := by
  obtain ⟨long,rest⟩ := expectArgs_ok.mp held
  exact expectArgs_ok.mpr ⟨long.trans each.length_eq,expectParams_softened each rest⟩

end

section
variable {parts : List Node}

theorem softened_exprs {exprs : List Expr} (each : List.Forall₂ Node.Softens (exprs.map .ofExpr) parts) :
    ∃ news, parts = news.map .ofExpr ∧ List.Forall₂ Expr.Softens exprs news := by
  induction exprs generalizing parts with
  | nil =>
    cases each
    exact ⟨[],rfl,.nil⟩
  | cons expr rest ih =>
    rcases each with _ | ⟨⟨softens⟩,later⟩
    obtain ⟨news,rfl,others⟩ := ih later
    exact ⟨_ :: news,rfl,.cons softens others⟩

theorem ExprKind.softened_operands {kind : ExprKind} (bare : kind.condition? = none)
    (each : List.Forall₂ Node.Softens kind.children parts) :
    ∃ news, parts = news.map .ofExpr ∧ List.Forall₂ Expr.Softens kind.operands news := by
  rw [children,bare] at each
  exact softened_exprs each

theorem ExprKind.softened (kind : ExprKind) (held : kind.check = .ok ())
    (each : List.Forall₂ Node.Softens kind.children parts) :
    (kind.withChildren parts).check = .ok () ∧ kind.infer.Softens (kind.withChildren parts).infer := by
  cases kind with
  | var v =>
    cases each
    exact ⟨rfl,.same _⟩
  | literal value =>
    cases each
    exact ⟨rfl,.same _⟩
  | staticField field =>
    cases each
    exact ⟨rfl,.same _⟩
  | arithmetic op left right =>
    obtain ⟨_,rfl,operands⟩ := softened_operands rfl each
    rcases operands with _ | ⟨first,_ | ⟨second,_ | _⟩⟩
    simp only [check,withChildren,List.map_cons,List.map_nil,infer] at held ⊢
    split at held
    · obtain ⟨here,there,fits⟩ := (expectBoth_ok.trans (and_congr_right fun _ => expectBoth_ok)).mp held
      rw [if_pos ‹_›]
      have alike := first.expectCompatible second fits
      exact ⟨expectBoth_ok.mpr ⟨first.expect here,expectBoth_ok.mpr ⟨second.expect there,alike⟩⟩,
        first.type.resultType op second.type (expect_scalar here rfl) (expect_scalar there rfl)⟩
    · obtain ⟨here,there⟩ := expectBoth_ok.mp held
      rw [if_neg ‹_›]
      exact ⟨expectBoth_ok.mpr ⟨first.expect here,second.expect there⟩,
        first.type.resultType op second.type (expect_scalar here rfl) (expect_scalar there rfl)⟩
  | negate operand =>
    obtain ⟨_,rfl,operands⟩ := softened_operands rfl each
    rcases operands with _ | ⟨softens,_ | _⟩
    simp only [check,withChildren,List.map_cons,List.map_nil,infer] at held ⊢
    exact ⟨softens.expect held,softens.type.promoteUnary (expect_scalar held rfl)⟩
  | numberCompare left right =>
    obtain ⟨_,rfl,operands⟩ := softened_operands rfl each
    rcases operands with _ | ⟨first,_ | ⟨second,_ | _⟩⟩
    simp only [check,withChildren,List.map_cons,List.map_nil,infer] at held ⊢
    obtain ⟨here,there⟩ := expectBoth_ok.mp held
    exact ⟨expectBoth_ok.mpr ⟨first.expect here,second.expect there⟩,first.type⟩
  | instanceOf value type =>
    obtain ⟨_,rfl,operands⟩ := softened_operands rfl each
    rcases operands with _ | ⟨softens,_ | _⟩
    obtain ⟨here,there⟩ := expectBoth_ok.mp held
    exact ⟨expectBoth_ok.mpr ⟨softens.expect here,there⟩,.same _⟩
  | cast target value =>
    obtain ⟨_,rfl,operands⟩ := softened_operands rfl each
    rcases operands with _ | ⟨softens,_ | _⟩
    exact ⟨softens.expect held,.same _⟩
  | instanceField receiver field =>
    obtain ⟨_,rfl,operands⟩ := softened_operands rfl each
    rcases operands with _ | ⟨softens,_ | _⟩
    exact ⟨softens.expect held,.same _⟩
  | element array index =>
    obtain ⟨_,rfl,operands⟩ := softened_operands rfl each
    rcases operands with _ | ⟨first,_ | ⟨second,_ | _⟩⟩
    simp only [check,withChildren,List.map_cons,List.map_nil,infer] at held ⊢
    obtain ⟨here,there⟩ := expectBoth_ok.mp held
    exact ⟨expectBoth_ok.mpr ⟨first.expect here,second.expect there⟩,first.type.component⟩
  | arrayLength array =>
    obtain ⟨_,rfl,operands⟩ := softened_operands rfl each
    rcases operands with _ | ⟨softens,_ | _⟩
    exact ⟨softens.expect held,.same _⟩
  | freeCall call method args =>
    obtain ⟨news,rfl,operands⟩ := softened_operands rfl each
    simp only [check,withChildren,exprsOf_map,infer] at held ⊢
    exact ⟨expectArgs_softened operands held,.same _⟩
  | boundCall call receiver method args =>
    obtain ⟨_,rfl,operands⟩ := softened_operands rfl each
    rcases operands with _ | ⟨softens,others⟩
    simp only [check,withChildren,List.map_cons,exprsOf_map,infer] at held ⊢
    obtain ⟨here,there⟩ := expectBoth_ok.mp held
    exact ⟨expectBoth_ok.mpr ⟨softens.expect here,expectArgs_softened others there⟩,.same _⟩
  | new constructor args =>
    obtain ⟨news,rfl,operands⟩ := softened_operands rfl each
    simp only [check,withChildren,exprsOf_map,infer] at held ⊢
    exact ⟨expectArgs_softened operands held,.same _⟩
  | newArray component size =>
    obtain ⟨_,rfl,operands⟩ := softened_operands rfl each
    rcases operands with _ | ⟨softens,_ | _⟩
    exact ⟨softens.expect held,.same _⟩
  | filledArray component size values =>
    obtain ⟨_,rfl,operands⟩ := softened_operands rfl each
    rcases operands with _ | ⟨softens,others⟩
    simp only [check,withChildren,List.map_cons,exprsOf_map,infer] at held ⊢
    obtain ⟨here,there⟩ := expectBoth_ok.mp held
    exact ⟨expectBoth_ok.mpr ⟨softens.expect here,expectEach_softened others there⟩,.same _⟩
  | ternary condition thenValue elseValue =>
    rcases each with _ | ⟨⟨_,condition'⟩,others⟩
    have others : List.Forall₂ Node.Softens ([thenValue,elseValue].map .ofExpr) _ := others
    obtain ⟨_,rfl,operands⟩ := softened_exprs others
    rcases operands with _ | ⟨first,_ | ⟨second,_ | _⟩⟩
    simp only [check,withChildren,List.map_cons,List.map_nil,infer] at held ⊢
    exact ⟨first.expectCompatible second held,first.type.join second.type (expectCompatible_ok.mp held).2.2⟩
  | concat parts =>
    obtain ⟨news,rfl,operands⟩ := softened_operands rfl each
    simp only [check,withChildren,exprsOf_map,infer] at held ⊢
    exact ⟨expectEach_softened operands held,.same _⟩

theorem Condition.softened (condition : Condition) (held : condition.check = .ok ())
    (each : List.Forall₂ Node.Softens condition.children parts) : (condition.withChildren parts).check = .ok () := by
  cases condition with
  | compare op left right =>
    rcases each with _ | ⟨⟨first⟩,_ | ⟨⟨second⟩,_ | _⟩⟩
    simp only [check,withChildren] at held ⊢
    split at held
    · split at held
      · rename_i equality agree
        obtain ⟨here,there⟩ := expectBoth_ok.mp held
        rw [if_pos equality,if_pos (first.agrees second agree)]
        exact expectBoth_ok.mpr ⟨first.expect here,second.expect there⟩
      · cases held
    · rename_i ordering
      obtain ⟨here,there⟩ := expectBoth_ok.mp held
      rw [if_neg ordering]
      exact expectBoth_ok.mpr ⟨first.expect here,second.expect there⟩
  | test value inverted =>
    rcases each with _ | ⟨⟨softens⟩,_ | _⟩
    exact softens.expect held
  | not inner =>
    rcases each with _ | ⟨⟨_⟩,_ | _⟩
    rfl
  | _ => rfl

theorem Statement.softened (statement : Statement) (held : statement.check = .ok ())
    (each : List.Forall₂ Node.Softens statement.parts parts) : (statement.withParts parts).demand = .ok () := by
  cases statement with
  | assign target value =>
    rcases each with _ | ⟨⟨first⟩,_ | ⟨⟨second⟩,_ | _⟩⟩
    simp only [demand,withParts,check] at held ⊢
    split at held
    · rename_i assignable
      obtain ⟨here,there⟩ := expectBoth_ok.mp held
      rw [if_pos (first.assignable.trans assignable)]
      exact expectBoth_ok.mpr ⟨second.expect here,first.expectCompatible second there⟩
    · cases held
  | switch id discriminant arms =>
    rcases each with _ | ⟨⟨softens⟩,_ | _⟩
    exact softens.expect (expectBoth_ok.mp held).1
  | throw exception =>
    rcases each with _ | ⟨⟨softens⟩,_ | _⟩
    exact softens.expect held
  | _ =>
    unfold withParts
    split <;> first | rfl | contradiction

theorem Node.softened {node : Node} (valid : node.Valid) (each : List.Forall₂ Node.Softens node.parts parts) :
    (node.withParts parts).demand = .ok () := by
  cases node with
  | ofExpr expr => exact (expr.kind.softened valid each).1
  | ofCondition condition => exact condition.softened valid each
  | ofStatement statement => exact statement.softened valid each

end
end Untangle
