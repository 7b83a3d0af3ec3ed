import Untangle.Proofs.Folding.Load

namespace Untangle

theorem Expr.load_children {kind : ExprKind} {note : Option Ty} :
    (Node.ofExpr ⟨kind,note⟩).load = (if kind.head.counts then 1 else 0) + loads kind.children :=
  Node.load_children _

theorem Condition.load_children (condition : Condition) :
    (Node.ofCondition condition).load = (if condition.head.counts then 1 else 0) + loads condition.children :=
  Node.load_children _

theorem Statement.load_parts (statement : Statement) : (Node.ofStatement statement).load =
    (if statement.head.counts then 1 else 0) + (loads statement.parts + (statement.childBlocks.map Block.load).sum) :=
  Node.load_parts _

theorem loads_sublist {some all : List Node} (sub : some.Sublist all) : loads some ≤ loads all := by
  induction sub with
  | slnil => exact Nat.le_refl _
  | cons _ _ ih =>
    rw [loads_cons]
    omega
  | cons_cons _ _ ih =>
    rw [loads_cons,loads_cons]
    omega

theorem Expr.load_builderParts {expr : Expr} {later parts : List Expr} (collected : expr.Collects later parts) :
    loads (parts.map .ofExpr) ≤ (Node.ofExpr expr).load + loads (later.map .ofExpr) := by
  induction collected with
  | append appends _ ih =>
    simp only [List.map_cons,loads_cons] at ih
    simp only [Expr.load_children,ExprKind.children,ExprKind.condition?,ExprKind.operands,Option.toList_none,
      List.map_nil,List.nil_append,List.map_cons,loads_cons,loads_nil]
    omega
  | start seeds =>
    have given := loads_sublist ((ConstructorRef.seed_sublist seeds).map .ofExpr)
    simp only [List.map_append,loads_append,Expr.load_children,ExprKind.children,ExprKind.condition?,
      ExprKind.operands,Option.toList_none,List.map_nil,List.nil_append]
    omega

theorem load_leadWithText (parts : List Expr) : loads ((leadWithText parts).map .ofExpr) = loads (parts.map .ofExpr) := by
  unfold leadWithText
  split
  · rfl
  · simp [Expr.literal,Expr.plain,Expr.load_children,ExprKind.head,Head.counts,ExprKind.children,ExprKind.operands,
      ExprKind.condition?]

theorem Expr.builderChain_saves {expr folded : Expr} (found : expr.builderChain? = some folded) :
    (Node.ofExpr folded).load + 1 ≤ (Node.ofExpr expr).load := by
  obtain ⟨receiver,method,note,parts,rfl,_,collected,rfl⟩ := builderChain_some found
  have collects := load_builderParts collected
  simp only [Expr.plain,Expr.load_children,ExprKind.head,Head.counts,ExprKind.children,ExprKind.condition?,
    ExprKind.operands,Option.toList_none,List.map_nil,List.nil_append,List.map_cons,loads_cons,loads_nil,
    load_leadWithText] at collects ⊢
  simp at collects ⊢
  omega

theorem Condition.doubleNegation_saves {condition folded : Condition} (found : condition.doubleNegation? = some folded) :
    (Node.ofCondition folded).load + 1 ≤ (Node.ofCondition condition).load := by
  obtain rfl := doubleNegation_some.mp found
  have twice : (Node.ofCondition (.not (.not folded))).load = (Node.ofCondition folded).load + 2 := by
    simp [Condition.load_children (.not _),head,Head.counts,children]
    omega
  omega

theorem Condition.signTest_saves {condition folded : Condition} (found : condition.signTest? = some folded) :
    (Node.ofCondition folded).load + 1 ≤ (Node.ofCondition condition).load := by
  obtain ⟨op,low,high,zero,_,_,_,⟨rfl,rfl⟩ | ⟨rfl,rfl⟩⟩ := signTest_some found <;>
    simp [Condition.load_children (.compare _ _ _),head,Head.counts,children,operands,Expr.load_children,
      ExprKind.head,ExprKind.children,ExprKind.condition?,ExprKind.operands] <;>
    omega

theorem Condition.load_conjuncts (condition : Condition) :
    loads (condition.conjuncts.map .ofCondition) = (Node.ofCondition condition).load := by
  unfold conjuncts
  split
  · simp [Condition.load_children (.conj _),head,Head.counts,children]
  · simp

theorem Statement.nestedBranch_saves {statement folded : Statement} (found : statement.nestedBranch? = some folded) :
    (Node.ofStatement folded).load + 1 ≤ (Node.ofStatement statement).load := by
  obtain ⟨outer,inner,body,rfl,rfl⟩ := nestedBranch_some found
  have both : (Node.ofCondition (outer.and inner)).load =
      (Node.ofCondition outer).load + (Node.ofCondition inner).load := by
    rw [← outer.load_conjuncts,← inner.load_conjuncts,← loads_append,← List.map_append]
    simp [Condition.and,Condition.load_children (.conj _),Condition.head,Head.counts,Condition.children]
  simp [Statement.load_parts,head,Head.counts,parts,childBlocks,both]
  omega

theorem Statement.conditionalAssignment_saves {statement folded : Statement}
    (found : statement.conditionalAssignment? = some folded) :
    (Node.ofStatement folded).load + 1 ≤ (Node.ofStatement statement).load := by
  obtain ⟨condition,target,thenValue,other,elseValue,rfl,_,_,rfl,_⟩ := conditionalAssignment_some found
  simp [Statement.load_parts,head,Head.counts,parts,childBlocks,Expr.plain,Expr.load_children,
    ExprKind.head,ExprKind.children,ExprKind.condition?,ExprKind.operands]
  omega

end Untangle
