import Untangle.Proofs.Folding.Interpretation
import Untangle.Proofs.Running.Congruence

namespace Untangle
open Meaning

def Head.sort : Head → NodeSort
  | .compare _ => .condition
  | .test _ => .condition
  | .conj => .condition
  | .disj => .condition
  | .not => .condition
  | .constant _ => .condition
  | .expr => .statement
  | .assign => .statement
  | .increment _ _ => .statement
  | .branch _ _ => .statement
  | .whileLoop => .statement
  | .doWhile => .statement
  | .forLoop _ _ => .statement
  | .switch _ => .statement
  | .jump _ _ => .statement
  | .ret => .statement
  | .throw => .statement
  | .tryCatch _ _ => .statement
  | _ => .expr

theorem Node.sort_head (node : Node) : node.head.sort = node.sort := by
  cases node with
  | ofExpr expr =>
    obtain ⟨kind,note⟩ := expr
    cases kind <;> rfl
  | ofCondition condition => cases condition <;> rfl
  | ofStatement statement => cases statement <;> rfl

namespace ExprKind
variable {kind : ExprKind}

theorem head_ternary : kind.head = .ternary ↔
    ∃ condition thenValue elseValue, kind = .ternary condition thenValue elseValue := by
  cases kind <;> simp [head]

theorem children_flat (flat : kind.head ≠ .ternary) : kind.children = kind.operands.map .ofExpr := by
  cases kind with
  | ternary => exact absurd rfl flat
  | _ => rfl

end ExprKind

namespace Interpretation
variable {σ : Type u} {ν : Type}

-- Nodes that mean the same in every store. Expressions have the same form also, and their operands the same
-- values, as the place that an assignment writes depends on both.
inductive Alike (i : Interpretation σ ν) : Node → Node → Prop where
  | expr {old new : Expr} : new.kind.head = old.kind.head →
    (∀ store, new.operands.map (i.value store) = old.operands.map (i.value store)) →
    (∀ store, i.value store new = i.value store old) → Alike i (.ofExpr old) (.ofExpr new)
  | condition {old new : Condition} : (∀ store, i.holds store new = i.holds store old) →
    Alike i (.ofCondition old) (.ofCondition new)
  | statement {old new : Statement} : i.meaning.Executes new = i.meaning.Executes old →
    Alike i (.ofStatement old) (.ofStatement new)

variable {i : Interpretation σ ν}

theorem alike_self (node : Node) : i.Alike node node := by
  cases node with
  | ofExpr expr => exact .expr rfl (fun _ => rfl) fun _ => rfl
  | ofCondition condition => exact .condition fun _ => rfl
  | ofStatement statement => exact .statement rfl

theorem Alike.trans {first second third : Node} (here : i.Alike first second) (there : i.Alike second third) :
    i.Alike first third := by
  cases here with
  | expr head operands value =>
    cases there with
    | expr head' operands' value' =>
      exact .expr (head'.trans head) (fun store => (operands' store).trans (operands store))
        fun store => (value' store).trans (value store)
  | condition holds =>
    cases there with
    | condition holds' => exact .condition fun store => (holds' store).trans (holds store)
  | statement executes =>
    cases there with
    | statement executes' => exact .statement (executes'.trans executes)

theorem Alike.sort {old new : Node} (alike : i.Alike old new) : new.sort = old.sort := by
  cases alike <;> rfl

theorem alike_condition_iff {old new : Condition} : i.Alike (.ofCondition old) (.ofCondition new) ↔
    ∀ store, i.holds store new = i.holds store old := by
  constructor
  · intro alike
    cases alike with
    | condition holds => exact holds
  · exact .condition

theorem map_alike {of : α → Node} {read : α → β} (reads : ∀ {old new}, i.Alike (of old) (of new) → read new = read old)
    {old new : List α} (each : List.Forall₂ i.Alike (old.map of) (new.map of)) : new.map read = old.map read := by
  rw [List.forall₂_map_left_iff,List.forall₂_map_right_iff] at each
  induction each with
  | nil => rfl
  | cons here _ ih => rw [List.map_cons,List.map_cons,reads here,ih]

theorem values_alike {old new : List Expr} (each : List.Forall₂ i.Alike (old.map .ofExpr) (new.map .ofExpr)) (store : σ) :
    new.map (i.value store) = old.map (i.value store) := by
  refine map_alike (fun alike => ?_) each
  cases alike with
  | expr _ _ value => exact value store

theorem holds_alike {old new : List Condition}
    (each : List.Forall₂ i.Alike (old.map .ofCondition) (new.map .ofCondition)) (store : σ) :
    new.map (i.holds store) = old.map (i.holds store) :=
  map_alike (fun alike => alike_condition_iff.mp alike store) each

theorem alike_expr {old new : Expr} (head : new.kind.head = old.kind.head)
    (each : List.Forall₂ i.Alike old.kind.children new.kind.children) : i.Alike (.ofExpr old) (.ofExpr new) := by
  by_cases ternary : old.kind.head = .ternary
  · obtain ⟨kind,note⟩ := old
    obtain ⟨kind',note'⟩ := new
    obtain ⟨condition,thenValue,elseValue,rfl⟩ := ExprKind.head_ternary.mp ternary
    obtain ⟨condition',thenValue',elseValue',rfl⟩ := ExprKind.head_ternary.mp (head.trans ternary)
    obtain _ | ⟨_ | tested,others⟩ := each
    have values (store : σ) : [thenValue',elseValue'].map (i.value store) = [thenValue,elseValue].map (i.value store) :=
      values_alike others store
    refine .expr head values fun store => ?_
    obtain ⟨first,second⟩ := List.cons_eq_cons.mp (values store)
    obtain ⟨second,_⟩ := List.cons_eq_cons.mp second
    rw [value_ternary,value_ternary,tested,first,second]
  · have ternary' : new.kind.head ≠ .ternary := by rwa [head]
    rw [ExprKind.children_flat ternary,ExprKind.children_flat ternary'] at each
    refine .expr head (values_alike each) fun store => ?_
    rw [value_node i store ternary,value_node i store ternary',head]
    exact congrArg (i.node _ · store) (values_alike each store)

theorem alike_condition {old new : Condition} (head : new.head = old.head)
    (each : List.Forall₂ i.Alike old.children new.children) : i.Alike (.ofCondition old) (.ofCondition new) := by
  refine .condition fun store => ?_
  cases old with
  | compare op left right =>
    cases new <;> cases head
    obtain _ | ⟨⟨_,_,first⟩,_ | ⟨⟨_,_,second⟩,_⟩⟩ := each
    rw [holds,holds,first,second]
  | test value inverted =>
    cases new <;> cases head
    obtain _ | ⟨⟨_,_,same⟩,_⟩ := each
    rw [holds,holds,same]
  | conj parts =>
    cases new <;> cases head
    rw [holds,holds,allHold_map,allHold_map,holds_alike each store]
  | disj parts =>
    cases new <;> cases head
    rw [holds,holds,someHolds_map,someHolds_map,holds_alike each store]
  | not inner =>
    cases new <;> cases head
    obtain _ | ⟨_ | same,_⟩ := each
    rw [holds,holds,same]
  | constant value =>
    cases new <;> cases head
    rfl

theorem children_read {node child : Node} (read : node.sort ≠ .statement) (member : child ∈ node.children) :
    child.sort ≠ .statement := by
  cases node with
  | ofExpr expr =>
    simp only [Node.children,ExprKind.children,List.mem_append,List.mem_map] at member
    obtain ⟨_,_,rfl⟩ | ⟨_,_,rfl⟩ := member <;> simp
  | ofCondition condition =>
    cases condition <;> simp [Node.children,Condition.children,Condition.operands] at member <;> grind [Node.sort]
  | ofStatement statement => exact absurd rfl read

-- Equal trees mean the same. Statements are left out, since breaks are compared without their targets.
theorem samePairs_alike {pairs : List (Node × Node)} (same : samePairs pairs = true)
    (read : ∀ pair ∈ pairs, pair.1.sort ≠ .statement) : ∀ pair ∈ pairs, i.Alike pair.1 pair.2 := by
  induction pairs using samePairs.induct with
  | case1 => simp
  | case2 a b rest equal ih =>
    obtain ⟨head,long⟩ := equal
    rw [samePairs,if_pos ⟨head,long⟩] at same
    obtain ⟨here,later⟩ := List.forall_mem_cons.mp read
    have inside (pair : Node × Node) (member : pair ∈ a.children.zip b.children) : pair.1.sort ≠ .statement :=
      children_read here (List.of_mem_zip member).1
    have each := ih same (List.forall_mem_append.mpr ⟨inside,later⟩)
    obtain ⟨children,others⟩ := List.forall_mem_append.mp each
    refine List.forall_mem_cons.mpr ⟨?_,others⟩
    have alike : List.Forall₂ i.Alike a.children b.children :=
      List.forall₂_iff_zip.mpr ⟨long,fun member => children _ member⟩
    have sort : a.sort = b.sort := by rw [← a.sort_head,← b.sort_head,head]
    cases a with
    | ofExpr expr =>
      obtain ⟨other,rfl⟩ := Node.sort_expr.mp sort.symm
      exact alike_expr head.symm alike
    | ofCondition condition =>
      obtain ⟨other,rfl⟩ := Node.sort_condition.mp sort.symm
      exact alike_condition head.symm alike
    | ofStatement statement => exact absurd rfl here
  | case3 a b rest other =>
    rw [samePairs,if_neg other] at same
    cases same

theorem same_alike {old new : Expr} (same : old.same new = true) : i.Alike (.ofExpr old) (.ofExpr new) := by
  have read : ∀ pair ∈ [(Node.ofExpr old,Node.ofExpr new)], pair.1.sort ≠ .statement :=
    List.forall_mem_singleton.mpr (by simp)
  exact samePairs_alike same read _ (List.mem_singleton.mpr rfl)

theorem meaning_alike {old new : Condition} (alike : i.Alike (.ofCondition old) (.ofCondition new)) (store : σ) :
    i.meaning.holds store new = i.meaning.holds store old := by
  rw [meaning_holds,meaning_holds]
  exact alike_condition_iff.mp alike store

theorem value_alike {old new : Expr} (alike : i.Alike (.ofExpr old) (.ofExpr new)) (store : σ) :
    i.value store new = i.value store old := by
  cases alike with
  | expr _ _ value => exact value store

theorem executes_alike {old new : Statement} (alike : i.Alike (.ofStatement old) (.ofStatement new)) :
    i.meaning.Executes new = i.meaning.Executes old := by
  cases alike with
  | statement executes => exact executes

theorem plain_alike {old new : Statement} (plain : old.isPlain = true) (plain' : new.isPlain = true)
    (effects : ∀ store, i.meaning.effect new store = i.meaning.effect old store) :
    i.meaning.Executes new = i.meaning.Executes old := by
  funext store flow
  rw [eq_iff_iff,executes_plain plain,executes_plain plain',effects]

theorem expr_alike {old new : Expr} (alike : i.Alike (.ofExpr old) (.ofExpr new)) :
    i.meaning.Executes (.expr new) = i.meaning.Executes (.expr old) := by
  apply plain_alike rfl rfl
  intro store
  exact congrArg (i.perform · store) (value_alike alike store)

theorem assign_alike {target target' value value' : Expr} (place : i.Alike (.ofExpr target) (.ofExpr target'))
    (alike : i.Alike (.ofExpr value) (.ofExpr value')) :
    i.meaning.Executes (.assign target' value') = i.meaning.Executes (.assign target value) := by
  apply plain_alike rfl rfl
  intro store
  cases place with
  | expr head operands _ => simp only [meaning,head,operands store,value_alike alike store]

theorem forParts_alike {id : BreakableId} {start update : Option Statement} {condition : Condition} {body : Block}
    {parts : List Node} (each : List.Forall₂ i.Alike (Statement.forLoop id start condition update body).parts parts) :
    i.meaning.Executes ((Statement.forLoop id start condition update body).withParts parts) =
      i.meaning.Executes (.forLoop id start condition update body) := by
  cases start with
  | none =>
    obtain _ | ⟨same,updates⟩ := each
    obtain ⟨condition',rfl⟩ := Node.sort_condition.mp same.sort
    cases update with
    | none =>
      cases updates
      exact executes_for_congr .none (meaning_alike same) rfl rfl
    | some update =>
      obtain _ | ⟨again,⟨⟩⟩ := updates
      obtain ⟨update',rfl⟩ := Node.sort_statement.mp again.sort
      exact executes_for_congr .none (meaning_alike same) (runs_cons_congr (executes_alike again) rfl) rfl
  | some start =>
    obtain _ | ⟨first,_ | ⟨same,updates⟩⟩ := each
    obtain ⟨start',rfl⟩ := Node.sort_statement.mp first.sort
    obtain ⟨condition',rfl⟩ := Node.sort_condition.mp same.sort
    cases update with
    | none =>
      cases updates
      exact executes_for_congr (.some (executes_alike first)) (meaning_alike same) rfl rfl
    | some update =>
      obtain _ | ⟨again,⟨⟩⟩ := updates
      obtain ⟨update',rfl⟩ := Node.sort_statement.mp again.sort
      exact executes_for_congr (.some (executes_alike first)) (meaning_alike same)
        (runs_cons_congr (executes_alike again) rfl) rfl

theorem executes_withParts {statement : Statement} {parts : List Node}
    (each : List.Forall₂ i.Alike statement.parts parts) :
    i.meaning.Executes (statement.withParts parts) = i.meaning.Executes statement := by
  cases statement with
  | expr value =>
    obtain _ | ⟨same,⟨⟩⟩ := each
    obtain ⟨value',rfl⟩ := Node.sort_expr.mp same.sort
    exact expr_alike same
  | assign target value =>
    obtain _ | ⟨place,_ | ⟨same,⟨⟩⟩⟩ := each
    obtain ⟨target',rfl⟩ := Node.sort_expr.mp place.sort
    obtain ⟨value',rfl⟩ := Node.sort_expr.mp same.sort
    exact assign_alike place same
  | branch condition thenBlock elseBlock =>
    obtain _ | ⟨same,⟨⟩⟩ := each
    obtain ⟨condition',rfl⟩ := Node.sort_condition.mp same.sort
    exact executes_branch_congr (meaning_alike same) rfl rfl
  | whileLoop id condition body =>
    obtain _ | ⟨same,⟨⟩⟩ := each
    obtain ⟨condition',rfl⟩ := Node.sort_condition.mp same.sort
    exact executes_while_congr (meaning_alike same) rfl
  | doWhile id condition body =>
    obtain _ | ⟨same,⟨⟩⟩ := each
    obtain ⟨condition',rfl⟩ := Node.sort_condition.mp same.sort
    exact executes_doWhile_congr (meaning_alike same) rfl
  | forLoop id start condition update body => exact forParts_alike each
  | switch id discriminant arms =>
    obtain _ | ⟨same,⟨⟩⟩ := each
    obtain ⟨discriminant',rfl⟩ := Node.sort_expr.mp same.sort
    exact executes_switch_congr (fun store => congrArg i.selects (value_alike same store))
      (List.forall₂_same.mpr fun _ _ => ⟨rfl,rfl⟩)
  | ret value =>
    cases value with
    | none =>
      cases each
      rfl
    | some value =>
      obtain _ | ⟨same,⟨⟩⟩ := each
      obtain ⟨value',rfl⟩ := Node.sort_expr.mp same.sort
      funext store flow
      rw [eq_iff_iff,Statement.withParts,executes_ret,executes_ret]
      exact iff_of_eq (congrArg (fun value => flow = .ends (.returned store (some value))) (value_alike same store))
  | throw exception =>
    obtain _ | ⟨same,⟨⟩⟩ := each
    obtain ⟨exception',rfl⟩ := Node.sort_expr.mp same.sort
    funext store flow
    rw [eq_iff_iff,Statement.withParts,executes_throw,executes_throw]
    exact iff_of_eq (congrArg (fun value => flow = .ends (.threw store value)) (value_alike same store))
  | _ =>
    cases each
    rfl

theorem alike_filled {node : Node} {parts : List Node} {blocks : List Block} (fits : Fits node.parts parts)
    (each : List.Forall₂ i.Alike node.parts parts)
    (inside : List.Forall₂ (fun old new => i.meaning.Runs new = i.meaning.Runs old) node.blocks blocks) :
    i.Alike node ((node.withParts parts).withBlocks blocks) := by
  cases node with
  | ofExpr expr =>
    apply alike_expr (expr.kind.head_withChildren parts)
    exact (ExprKind.children_withChildren fits).symm ▸ each
  | ofCondition condition =>
    apply alike_condition (condition.head_withChildren parts)
    exact (Condition.children_withChildren fits).symm ▸ each
  | ofStatement statement =>
    apply Alike.statement
    refine (executes_withBlocks ?_).trans (executes_withParts each)
    rw [statement.childBlocks_withParts]
    exact inside

end Interpretation
end Untangle
