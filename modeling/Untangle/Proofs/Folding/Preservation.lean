import Mathlib
import Untangle.Proofs.Faithful.Preservation
import Untangle.Proofs.Folding.Replacing
import Untangle.Proofs.Folding.Rules

namespace Untangle
open Meaning Rebuild

namespace Interpretation
variable {σ : Type u} {ν : Type} {i : Interpretation σ ν}

variable {condition folded : Condition} {statement chosen : Statement}

theorem numeric_condition : (Node.ofCondition condition).Throughout i.Numeric ↔
    ∀ child ∈ condition.children, child.Throughout i.Numeric :=
  Node.throughout_children.trans (and_iff_right trivial)

theorem numeric_statement {statement : Statement} : (Node.ofStatement statement).Throughout i.Numeric ↔
    (∀ part ∈ statement.parts, part.Throughout i.Numeric) ∧
      ∀ block ∈ statement.childBlocks, Block.Throughout i.Numeric block :=
  Node.throughout_parts.trans (and_iff_right trivial)

theorem doubleNegation_replaces (found : condition.doubleNegation? = some folded)
    (numeric : (Node.ofCondition condition).Throughout i.Numeric) :
    i.Replaces (.ofCondition condition) (.ofCondition folded) := by
  obtain rfl := Condition.doubleNegation_some.mp found
  refine ⟨?_,.condition fun store => ?_⟩
  · simpa [numeric_condition,Condition.children] using numeric
  · rw [holds,holds,Bool.not_not]

theorem zero_denotes {zero : Literal} {note : Option Ty} (isZero : zero.isZero = true) (store : σ) :
    i.number? (i.value store ⟨.literal zero,note⟩) = some 0 :=
  i.denotes (Literal.integer_zero isZero) store

theorem sign_replaces {op : CompareOp} {low high : Expr} {note : Option Ty}
    (numeric : (Node.ofExpr ⟨.numberCompare low high,note⟩).Throughout i.Numeric)
    (tests : ∀ store l h, i.number? (i.value store ⟨.numberCompare low high,note⟩) = some (h - l).sign →
      i.holds store condition = op.relates h l) :
    i.Replaces (.ofCondition condition) (.ofCondition (.compare op high low)) := by
  obtain ⟨here,inside⟩ := Node.throughout_children.mp numeric
  have less : (Node.ofExpr low).Throughout i.Numeric := inside _ (.head _)
  have more : (Node.ofExpr high).Throughout i.Numeric := inside _ (.tail _ (.head _))
  refine ⟨numeric_condition.mpr (by simpa [Condition.children,Condition.operands] using ⟨more,less⟩),
    .condition fun store => ?_⟩
  obtain ⟨l,first⟩ := Option.isSome_iff_exists.mp (here rfl store _ (.head _))
  obtain ⟨h,second⟩ := Option.isSome_iff_exists.mp (here rfl store _ (.tail _ (.head _)))
  rw [holds,i.relates second first,tests store l h (i.signs first second store)]

theorem signTest_replaces (found : condition.signTest? = some folded)
    (numeric : (Node.ofCondition condition).Throughout i.Numeric) :
    i.Replaces (.ofCondition condition) (.ofCondition folded) := by
  obtain ⟨op,low,high,zero,note,note',isZero,⟨rfl,rfl⟩ | ⟨rfl,rfl⟩⟩ := Condition.signTest_some found
  · refine sign_replaces (numeric_condition.mp numeric _ (.head _)) fun store l h sign => ?_
    rw [holds,i.relates sign (zero_denotes isZero store),op.relates_sign]
  · refine sign_replaces (numeric_condition.mp numeric _ (.tail _ (.head _))) fun store l h sign => ?_
    rw [holds,i.relates (zero_denotes isZero store) sign,← op.relates_flip,op.flip.relates_sign]

theorem holds_conjuncts (store : σ) (condition : Condition) :
    (condition.conjuncts.map (i.holds store)).all id = i.holds store condition := by
  unfold Condition.conjuncts
  split
  · rw [holds,allHold_map]
  · simp

theorem holds_and (store : σ) (left right : Condition) :
    i.holds store (left.and right) = (i.holds store left && i.holds store right) := by
  rw [Condition.and,holds,allHold_map,List.map_append,List.all_append,holds_conjuncts,holds_conjuncts]

theorem numeric_conjuncts (numeric : (Node.ofCondition condition).Throughout i.Numeric) :
    ∀ part ∈ condition.conjuncts, (Node.ofCondition part).Throughout i.Numeric := by
  unfold Condition.conjuncts
  split
  · simpa [numeric_condition,Condition.children] using numeric
  · exact List.forall_mem_singleton.mpr numeric

@[simp] theorem numeric_branch {condition : Condition} {thenBlock : Block} {elseBlock : Option Block} :
    (Node.ofStatement (.branch condition thenBlock elseBlock)).Throughout i.Numeric ↔
      (Node.ofCondition condition).Throughout i.Numeric ∧ Block.Throughout i.Numeric thenBlock ∧
        ∀ block ∈ elseBlock, Block.Throughout i.Numeric block := by
  rw [numeric_statement]
  simp [Statement.parts,Statement.childBlocks]

@[simp] theorem numeric_assign {target value : Expr} : (Node.ofStatement (.assign target value)).Throughout i.Numeric ↔
    (Node.ofExpr target).Throughout i.Numeric ∧ (Node.ofExpr value).Throughout i.Numeric := by
  rw [numeric_statement]
  simp [Statement.parts,Statement.childBlocks]

theorem nestedBranch_replaces (found : statement.nestedBranch? = some chosen)
    (numeric : (Node.ofStatement statement).Throughout i.Numeric) :
    i.Replaces (.ofStatement statement) (.ofStatement chosen) := by
  obtain ⟨outer,inner,body,rfl,rfl⟩ := Statement.nestedBranch_some found
  constructor
  · simp only [numeric_branch,Block.throughout_cons,Option.not_mem_none,false_implies,implies_true,
      and_true] at numeric ⊢
    obtain ⟨first,⟨second,inside⟩,_⟩ := numeric
    refine ⟨numeric_condition.mpr fun part member => ?_,inside⟩
    obtain ⟨part,there,rfl⟩ := List.mem_map.mp member
    rcases List.mem_append.mp there with left | right
    · exact numeric_conjuncts first part left
    · exact numeric_conjuncts second part right
  · apply Alike.statement
    funext store flow
    rw [eq_iff_iff,executes_branch,executes_branch,meaning_holds,meaning_holds,holds_and]
    cases i.holds store outer with
    | false => rfl
    | true =>
      refine Iff.trans ?_ runs_single.symm
      rw [executes_branch,meaning_holds]
      rfl

theorem executes_assign {target value value' : Expr} {store : σ} {flow : Flow σ ν}
    (same : i.value store value' = i.value store value) : i.meaning.Executes (.assign target value') store flow ↔
      i.meaning.Executes (.assign target value) store flow := by
  rw [executes_plain rfl,executes_plain rfl]
  simp only [meaning,same]

theorem conditionalAssignment_replaces (found : statement.conditionalAssignment? = some chosen)
    (numeric : (Node.ofStatement statement).Throughout i.Numeric) :
    i.Replaces (.ofStatement statement) (.ofStatement chosen) := by
  obtain ⟨condition,target,thenValue,other,elseValue,rfl,same,_,rfl,_⟩ := Statement.conditionalAssignment_some found
  simp only [numeric_branch,Block.throughout_cons,numeric_assign,Option.mem_some,forall_eq'] at numeric
  obtain ⟨tested,⟨⟨place,first⟩,_⟩,⟨_,second⟩,_⟩ := numeric
  constructor
  · refine numeric_assign.mpr ⟨place,Node.throughout_children.mpr ⟨fun compares => ?_,?_⟩⟩
    · cases compares
    · simpa [Expr.plain,Node.children,ExprKind.children,ExprKind.condition?,ExprKind.operands] using
        ⟨tested,first,second⟩
  · apply Alike.statement
    funext store flow
    rw [eq_iff_iff,executes_branch,meaning_holds]
    cases tests : i.holds store condition with
    | true =>
      refine Iff.trans (executes_assign ?_) runs_single.symm
      rw [Expr.plain,value_ternary,if_pos tests]
    | false =>
      refine Iff.trans ?_ runs_single.symm
      rw [assign_alike (same_alike same) (alike_self (.ofExpr elseValue))]
      apply executes_assign
      rw [Expr.plain,value_ternary,tests]
      rfl

theorem folding_preserved {settings : FoldingSettings} (apart : settings.stringConcat = false) :
    i.Preserved settings.hooks where
  expr expr numeric := by
    change Yields (settings.foldExpr expr) _
    rw [FoldingSettings.foldExpr,apart]
    exact yields_pure (replaces_self numeric)
  condition condition numeric := by
    change Yields (settings.foldCondition condition) _
    rw [FoldingSettings.foldCondition_steps]
    have single : Yields (counted condition condition.doubleNegation?) fun single =>
        i.Replaces (.ofCondition condition) (.ofCondition single) :=
      yields_counted (replaces_self numeric) fun _ found => doubleNegation_replaces found numeric
    refine yields_bind (yields_optional (replaces_self numeric) single) fun single here => ?_
    refine yields_optional here (yields_countedChecked here fun folded found _ => ?_)
    exact here.trans (signTest_replaces found here.numeric)
  block block numeric := by
    rw [Block.throughout_statements] at numeric
    have each (statement : Statement) (member : statement ∈ block) : Yields (settings.foldStatement statement)
        fun folded => i.Replaces (.ofStatement statement) (.ofStatement folded) := by
      have self := replaces_self (numeric statement member)
      have chosen : Yields (counted statement statement.conditionalAssignment?) fun chosen =>
          i.Replaces (.ofStatement statement) (.ofStatement chosen) :=
        yields_counted self fun _ found => conditionalAssignment_replaces found self.numeric
      rw [FoldingSettings.foldStatement_steps]
      refine yields_bind (yields_optional self chosen) fun chosen here => ?_
      refine yields_optional here (yields_counted here fun folded found => ?_)
      exact here.trans (nestedBranch_replaces found here.numeric)
    exact yields_mono (yields_mapM each) fun _ => replaces_statements

end Interpretation

variable {σ : Type u} {ν : Type}

-- Folding changes nothing that a body does: from every store it runs as it did before, or on forever as it
-- did before.
theorem fold_preserves_meaning {settings : FoldingSettings} (apart : settings.stringConcat = false)
    (i : Interpretation σ ν) {body : Block} (numeric : Block.Throughout i.Numeric body) (store : σ) :
    (∀ flow, i.meaning.Runs (body.fold settings).body store flow ↔ i.meaning.Runs body store flow) ∧
    (i.meaning.Diverges (body.fold settings).body store ↔ i.meaning.Diverges body store) := by
  have keeps (old : Block) (replaces : i.ReplacesBlock body old) :
      Yields (old.rebuild settings.hooks) (i.ReplacesBlock body) :=
    yields_mono ((Interpretation.folding_preserved apart).rebuild replaces.numeric) fun _ later => replaces.trans later
  have same := (fold_keeps keeps ⟨numeric,rfl⟩).runs
  rw [diverges_iff,diverges_iff,same]
  exact ⟨fun _ => Iff.rfl,Iff.rfl⟩

namespace Climbing

def x : Local := ⟨0,some "x",.int⟩
def y : Local := ⟨1,some "y",.int⟩

def pairs : Interpretation (Int × Int) Int where
  node head args store :=
    match head, args with
    | .var v, _ => if v = x then store.1 else store.2
    | .literal literal, _ => literal.integer?.getD 0
    | .numberCompare, [left,right] => (right - left).sign
    | _, _ => 0
  number? := some
  compares := CompareOp.relates
  truth value := value ≠ 0
  selects := Int32.ofInt
  isInstance _ _ := false
  perform _ store := store
  assign head _ value store := if head = .var x then (value,store.2) else (store.1,value)
  increment v amount store := if v = x then (store.1 + amount.toInt,store.2) else (store.1,store.2 + amount.toInt)
  complements op left right := op.relates_negate left right
  relates left right op := by
    cases left
    cases right
    rfl
  denotes denoted _ := congrArg (fun found => some (found.getD 0)) denoted
  signs left right store := by
    cases left
    cases right
    rfl

def settings : FoldingSettings := {FoldingSettings.default with stringConcat:=false}

def body : Block :=
  [.whileLoop 0 (.not (.not (.compare .lt (.literal (.int 0)) (.plain (.numberCompare (.var x) (.literal (.int 3)))))))
    [.branch (.compare .lt (.var y) (.literal (.int 4)))
      [.branch (.compare .gt (.var x) (.literal (.int 0))) [.increment y 2] none] none,
    .branch (.compare .eq (.plain (.numberCompare (.var x) (.var y))) (.literal (.long 0)))
      [.assign (.var y) (.literal (.int 1))] (some [.assign (.var y) (.var y)]),
    .increment x 1],
  .ret (some (.var y))]

def folded : Block :=
  [.whileLoop 0 (.compare .gt (.literal (.int 3)) (.var x))
    [.branch (.conj [.compare .lt (.var y) (.literal (.int 4)),.compare .gt (.var x) (.literal (.int 0))])
      [.increment y 2] none,
    .assign (.var y) (.plain (.ternary (.compare .eq (.var y) (.var x)) (.literal (.int 1)) (.var y))),
    .increment x 1],
  .ret (some (.var y))]

end Climbing

theorem climbing_preserves_meaning : Climbing.settings.stringConcat = false ∧
    Block.Throughout Climbing.pairs.Numeric Climbing.body ∧
    (Climbing.body.fold Climbing.settings).body = Climbing.folded ∧
    Climbing.pairs.meaning.Runs Climbing.folded (0,0) (.ends (.returned (3,5) (some 5))) ∧
    ¬Climbing.pairs.meaning.Diverges Climbing.folded (0,0) := by
  have numeric : Block.Throughout Climbing.pairs.Numeric Climbing.body := by
    intro node _
    cases node with
    | ofExpr expr => exact fun _ _ _ _ => rfl
    | _ => trivial
  have same : (Climbing.body.fold Climbing.settings).body = Climbing.folded := by cbv
  have apart : Climbing.settings.stringConcat = false := rfl
  obtain ⟨runs,diverges⟩ := fold_preserves_meaning apart Climbing.pairs numeric (0,0)
  have ran : Climbing.pairs.meaning.Runs Climbing.body (0,0) (.ends (.returned (3,5) (some 5))) := ⟨20,by cbv⟩
  rw [same] at runs diverges
  exact ⟨apart,numeric,same,(runs _).mpr ran,fun never => diverges_iff.mp (diverges.mp never) _ ran⟩

end Untangle
