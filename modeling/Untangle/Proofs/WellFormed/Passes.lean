import Untangle.Proofs.Folding.Rules
import Untangle.Proofs.WellFormed.Checked

namespace Untangle
open Rebuild

variable {allowed : Expr → Prop}

structure Foldable (allowed : Expr → Prop) : Prop where
  refills : Refills allowed
  text : allowed (.literal (.string ""))
  concat {parts : List Expr} : (ExprKind.concat parts).check = .ok () → allowed (.plain (.concat parts))
  ternary {condition : Condition} {thenValue elseValue : Expr} :
    (ExprKind.ternary condition thenValue elseValue).check = .ok () →
    allowed (.plain (.ternary condition thenValue elseValue))

theorem foldable_valid : Foldable Expr.Valid where
  refills := refills_valid
  text := rfl
  concat := id
  ternary := id

section
variable {kind : ExprKind} {note : Option Ty}

theorem Expr.built_operands : (Node.ofExpr ⟨kind,note⟩).Built allowed ↔ allowed ⟨kind,note⟩ ∧
    (∀ condition, kind.condition? = some condition → (Node.ofCondition condition).Built allowed) ∧
    ∀ operand ∈ kind.operands, (Node.ofExpr operand).Built allowed := by
  rw [Node.built_children]
  simp only [Node.children,ExprKind.children,List.forall_mem_append,List.forall_mem_map,Option.mem_toList]
  exact Iff.rfl

end

theorem Expr.builderParts_built {expr : Expr} {later parts : List Expr}
    (collected : expr.Collects later parts) (formed : (Node.ofExpr expr).Built allowed)
    (behind : ∀ part ∈ later, (Node.ofExpr part).Built allowed) : ∀ part ∈ parts, (Node.ofExpr part).Built allowed := by
  induction collected with
  | append appends _ ih =>
    obtain ⟨receives,appended⟩ := List.forall_mem_cons.mp (built_operands.mp formed).2.2
    exact ih receives (List.forall_mem_cons.mpr ⟨appended _ List.mem_cons_self,behind⟩)
  | start seeds =>
    have inside := (built_operands.mp formed).2.2
    exact List.forall_mem_append.mpr
      ⟨fun part member => inside part ((ConstructorRef.seed_sublist seeds).subset member),behind⟩

theorem leadWithText_built (foldable : Foldable allowed) {parts : List Expr}
    (formed : ∀ part ∈ parts, (Node.ofExpr part).Built allowed) :
    ∀ part ∈ leadWithText parts, (Node.ofExpr part).Built allowed := by
  unfold leadWithText
  split
  · exact formed
  · refine List.forall_mem_cons.mpr ⟨Expr.built_operands.mpr ⟨foldable.text,?_,?_⟩,formed⟩ <;>
      simp [ExprKind.condition?,ExprKind.operands]

theorem Expr.builderChain_built (foldable : Foldable allowed) {expr folded : Expr}
    (found : expr.builderChain? = some folded)
    (held : folded.kind.check = .ok ()) (formed : (Node.ofExpr expr).Built allowed) :
    (Node.ofExpr folded).Built allowed := by
  obtain ⟨receiver,method,note,parts,rfl,_,collected,rfl⟩ := builderChain_some found
  have receives := (built_operands.mp formed).2.2 receiver List.mem_cons_self
  refine built_operands.mpr ⟨foldable.concat held,by simp [ExprKind.condition?],?_⟩
  exact leadWithText_built foldable (builderParts_built collected receives (by simp))

namespace Condition
variable {condition folded : Condition}

theorem doubleNegation_built (found : condition.doubleNegation? = some folded)
    (formed : (Node.ofCondition condition).Built allowed) : (Node.ofCondition folded).Built allowed := by
  obtain rfl := doubleNegation_some.mp found
  exact built_not.mp (built_not.mp formed)

theorem signTest_built (found : condition.signTest? = some folded) (held : folded.check = .ok ())
    (formed : (Node.ofCondition condition).Built allowed) : (Node.ofCondition folded).Built allowed := by
  have compared {low high : Expr} {note : Option Ty}
      (formed : (Node.ofExpr ⟨.numberCompare low high,note⟩).Built allowed) :
      (Node.ofExpr high).Built allowed ∧ (Node.ofExpr low).Built allowed := by
    obtain ⟨first,second⟩ := List.forall_mem_cons.mp (Expr.built_operands.mp formed).2.2
    exact ⟨second high List.mem_cons_self,first⟩
  obtain ⟨op,low,high,zero,_,_,_,⟨rfl,rfl⟩ | ⟨rfl,rfl⟩⟩ := signTest_some found
  · exact built_compare.mpr ⟨held,compared (built_compare.mp formed).2.1⟩
  · exact built_compare.mpr ⟨held,compared (built_compare.mp formed).2.2⟩

theorem conjuncts_built (formed : (Node.ofCondition condition).Built allowed) :
    ∀ part ∈ condition.conjuncts, (Node.ofCondition part).Built allowed := by
  unfold conjuncts
  split
  · exact built_conj.mp formed
  · exact List.forall_mem_singleton.mpr formed

theorem and_built {left right : Condition} (first : (Node.ofCondition left).Built allowed)
    (second : (Node.ofCondition right).Built allowed) : (Node.ofCondition (left.and right)).Built allowed :=
  built_conj.mpr (List.forall_mem_append.mpr ⟨conjuncts_built first,conjuncts_built second⟩)

end Condition

namespace Statement
variable {statement folded : Statement} {condition : Condition} {thenBlock elseBlock : Block} {target value : Expr}

@[simp] theorem built_branch {condition : Condition} {thenBlock : Block} {elseBlock : Option Block} :
    (Node.ofStatement (.branch condition thenBlock elseBlock)).Built allowed ↔
      (Node.ofCondition condition).Built allowed ∧ Block.Built allowed thenBlock ∧
        ∀ block, elseBlock = some block → Block.Built allowed block := by
  rw [Node.built_parts]
  simp [Node.Meets,check,Node.parts,parts,Node.blocks,childBlocks]

@[simp] theorem built_assign {target value : Expr} : (Node.ofStatement (.assign target value)).Built allowed ↔
    (assign target value).check = .ok () ∧ (Node.ofExpr target).Built allowed ∧ (Node.ofExpr value).Built allowed := by
  rw [Node.built_parts]
  simp [Node.Meets,Node.parts,parts,Node.blocks,childBlocks]

theorem nestedBranch_built (found : statement.nestedBranch? = some folded)
    (formed : (Node.ofStatement statement).Built allowed) : (Node.ofStatement folded).Built allowed := by
  obtain ⟨outer,inner,body,rfl,rfl⟩ := nestedBranch_some found
  simp only [built_branch,Block.built_cons,Block.built_nil,reduceCtorEq,false_implies,implies_true,
    and_true] at formed ⊢
  exact ⟨Condition.and_built formed.1 formed.2.1,formed.2.2⟩

theorem conditionalAssignment_built (foldable : Foldable allowed)
    (found : statement.conditionalAssignment? = some folded)
    (formed : (Node.ofStatement statement).Built allowed) : (Node.ofStatement folded).Built allowed := by
  obtain ⟨condition,target,thenValue,other,elseValue,rfl,_,chosen,rfl,merged⟩ := conditionalAssignment_some found
  simp only [built_branch,Block.built_cons,Block.built_nil,Option.some.injEq,forall_eq',
    built_assign,and_true] at formed ⊢
  obtain ⟨tested,⟨_,place,first⟩,_,_,second⟩ := formed
  refine ⟨merged,place,Expr.built_operands.mpr ⟨foldable.ternary chosen,?_,?_⟩⟩
  · simpa [ExprKind.condition?] using tested
  · simpa [ExprKind.operands] using ⟨first,second⟩

end Statement

theorem FoldingSettings.hooks_uphold (settings : FoldingSettings) (foldable : Foldable allowed) :
    settings.hooks.Upholds allowed where
  expr expr formed := by
    refine yields_optional formed (yields_countedChecked formed fun folded found held => ?_)
    exact Expr.builderChain_built foldable found held formed
  condition condition formed := by
    change Yields (settings.foldCondition condition) _
    rw [foldCondition_steps]
    have first : Yields (counted condition condition.doubleNegation?)
        fun single => (Node.ofCondition single).Built allowed :=
      yields_counted formed fun folded found => Condition.doubleNegation_built found formed
    refine yields_bind (yields_optional formed first) fun single here => ?_
    refine yields_optional here (yields_countedChecked here fun folded found held => ?_)
    exact Condition.signTest_built found held here
  block block formed := by
    have each (statement : Statement) (member : statement ∈ block) :
        Yields (settings.foldStatement statement) fun folded => (Node.ofStatement folded).Built allowed := by
      have here := Block.built_statements.mp formed statement member
      have first : Yields (counted statement statement.conditionalAssignment?)
          fun chosen => (Node.ofStatement chosen).Built allowed :=
        yields_counted here fun folded found => Statement.conditionalAssignment_built foldable found here
      rw [foldStatement_steps]
      refine yields_bind (yields_optional here first) fun chosen kept => ?_
      refine yields_optional kept (yields_counted kept fun folded found => ?_)
      exact Statement.nestedBranch_built found kept
    refine yields_mono (yields_mapM each) fun folded whole => ?_
    exact Block.built_statements.mpr (forall₂_right whole)

theorem Resolver.hooks_uphold (resolver : Resolver) : resolver.hooks.Upholds Expr.Valid where
  expr expr formed := by
    obtain ⟨kind,note⟩ := expr
    exact yields_after fun type => yields_pure ((Expr.valid_noted _ _).mp formed)
  condition condition formed := yields_pure formed
  block block formed := yields_pure formed

theorem fold_built {body : Block} (settings : FoldingSettings) (foldable : Foldable allowed)
    (formed : Block.Built allowed body) : Block.Built allowed (body.fold settings).body :=
  fold_keeps (fun _ here => Block.rebuild_built (settings.hooks_uphold foldable) foldable.refills here) formed

theorem fold_wellFormed {body : Block} (settings : FoldingSettings) (formed : Block.WellFormed body) :
    Block.WellFormed (body.fold settings).body :=
  Block.wellFormed_built.mpr (fold_built settings foldable_valid (Block.wellFormed_built.mp formed))

theorem inferTypes_wellFormed {body : Block} (resolver : Resolver) (formed : Block.WellFormed body) :
    Block.WellFormed (body.inferTypes resolver).body := by
  rw [Block.wellFormed_built] at formed ⊢
  have kept := Block.rebuild_built resolver.hooks_uphold refills_valid formed []
  unfold Block.inferTypes
  rcases run : Rebuild.from [] (Block.rebuild resolver.hooks body) with ⟨cause | annotated,found⟩
  · exact formed
  · exact kept annotated found run

end Untangle
