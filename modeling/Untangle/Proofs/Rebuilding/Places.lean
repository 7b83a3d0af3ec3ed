import Mathlib.Data.Prod.Basic
import Mathlib.Logic.Relation
import Untangle.Proofs.Rebuilding.Steps

namespace Untangle

namespace Rebuild
variable {σ : Type}

-- What a pass makes and where it ends. Why it failed, if it did, is left out.
def outcome (pass : Rebuild σ α) (state : σ) : Option (α × σ) :=
  match Rebuild.from state pass with
  | (.ok result,final) => some (result,final)
  | (.error _,_) => none

variable {pass first second : Rebuild σ α} {next next' : α → Rebuild σ β}

theorem outcome_some {result : α} {state final : σ} :
    pass.outcome state = some (result,final) ↔ Rebuild.from state pass = (.ok result,final) := by
  unfold outcome
  rcases Rebuild.from state pass with ⟨cause | value,middle⟩ <;> simp

theorem outcome_bind (state : σ) :
    (first >>= next).outcome state = (first.outcome state).bind fun reached => (next reached.1).outcome reached.2 := by
  unfold outcome
  rw [from_bind]
  rcases Rebuild.from state first with ⟨cause | value,middle⟩ <;> rfl

theorem outcome_map (wrap : α → β) (state : σ) :
    (wrap <$> pass).outcome state = (pass.outcome state).map (Prod.map wrap id) := by
  rw [map_eq_pure_bind,outcome_bind]
  cases pass.outcome state <;> rfl

theorem bind_congr {sure : α → Prop} (same : first.outcome = second.outcome) (known : Yields second sure)
    (further : ∀ value, sure value → (next value).outcome = (next' value).outcome) :
    (first >>= next).outcome = (second >>= next').outcome := by
  funext state
  rw [outcome_bind,outcome_bind,same]
  rcases run : second.outcome state with _ | ⟨value,middle⟩
  · rfl
  · exact congrFun (further value (known state value middle (outcome_some.mp run))) middle

theorem bind_alike (same : first.outcome = second.outcome) (further : ∀ value, (next value).outcome = (next' value).outcome) :
    (first >>= next).outcome = (second >>= next').outcome :=
  bind_congr same (yields_any second) fun value _ => further value

theorem map_alike_iff {wrap : α → β} (apart : Function.Injective wrap) :
    (wrap <$> first).outcome = (wrap <$> second).outcome ↔ first.outcome = second.outcome := by
  simp only [funext_iff,outcome_map]
  exact forall_congr' fun state => (Option.map_injective (apart.prodMap Function.injective_id)).eq_iff

theorem recheck_alike {demand demand' : Except ConstraintError Unit} (alike : demand = .ok () ↔ demand' = .ok ())
    (value : α) : (recheck (σ := σ) demand value).outcome = (recheck demand' value).outcome := by
  cases demand with
  | error cause =>
    cases demand' with
    | error cause' => rfl
    | ok _ => cases alike.mpr rfl
  | ok _ =>
    obtain rfl := alike.mp rfl
    rfl

theorem mapM_alike {pass : α → Rebuild σ β} {olds news : List α}
    (each : List.Forall₂ (fun old new => (pass new).outcome = (pass old).outcome) olds news) :
    (news.mapM pass).outcome = (olds.mapM pass).outcome := by
  induction each with
  | nil => rfl
  | cons same _ ih =>
    rw [List.mapM_cons,List.mapM_cons]
    exact bind_alike same fun _ => bind_alike ih fun _ => rfl

end Rebuild

theorem ExprKind.withChildren_again {kind : ExprKind} {nodes : List Node} (fits : Fits kind.children nodes)
    (others : List Node) : (kind.withChildren others).withChildren nodes = kind.withChildren nodes := by
  fun_cases withChildren kind others with
  | case10 =>
    obtain ⟨_,_,rfl,same,_⟩ := fits_cons.mp fits
    obtain ⟨_,rfl⟩ := Node.sort_expr.mp same
    rfl
  | case13 =>
    obtain ⟨_,_,rfl,same,_⟩ := fits_cons.mp fits
    obtain ⟨_,rfl⟩ := Node.sort_expr.mp same
    rfl
  | case16 => rfl
  | _ =>
    simp [children,condition?,operands] at fits
    grind [withChildren]

theorem Condition.withChildren_again {condition : Condition} {nodes : List Node} (fits : Fits condition.children nodes)
    (others : List Node) : (condition.withChildren others).withChildren nodes = condition.withChildren nodes := by
  fun_cases withChildren condition others with
  | case6 => rfl
  | _ =>
    simp [children,operands] at fits
    grind [withChildren]

namespace Statement
variable {statement : Statement} {nodes : List Node} {blocks : List Block}

theorem withParts_again (fits : Fits statement.parts nodes) (others : List Node) :
    (statement.withParts others).withParts nodes = statement.withParts nodes := by
  fun_cases withParts statement others with
  | case13 => rfl
  | _ =>
    simp [parts] at fits
    grind [withParts]

theorem withBlocks_withParts (fits : Fits statement.parts nodes) (long : blocks.length = statement.childBlocks.length) :
    (statement.withBlocks blocks).withParts nodes = (statement.withParts nodes).withBlocks blocks := by
  cases statement with
  | branch condition thenBlock elseBlock =>
    obtain ⟨node,rest,rfl,same,none⟩ := fits_cons.mp fits
    obtain ⟨condition,rfl⟩ := Node.sort_condition.mp same
    obtain rfl := fits_nil.mp none
    cases elseBlock with
    | none =>
      obtain ⟨block,rfl⟩ := List.length_eq_one_iff.mp long
      rfl
    | some elseBlock =>
      obtain ⟨first,second,rfl⟩ := List.length_eq_two.mp long
      rfl
  | tryCatch body catches =>
    obtain ⟨block,rest,rfl⟩ := List.exists_cons_of_length_eq_add_one long
    cases fits_nil.mp fits
    rfl
  | ret value => cases value <;> simp [parts] at fits <;> grind [withParts,withBlocks]
  | switch id discriminant arms =>
    simp [parts] at fits
    grind [withParts,withBlocks]
  | forLoop id start condition update body =>
    obtain ⟨block,rfl⟩ := List.length_eq_one_iff.mp long
    cases start <;> cases update <;> simp [parts] at fits <;> grind [withParts,withBlocks]
  | whileLoop id condition body =>
    obtain ⟨block,rfl⟩ := List.length_eq_one_iff.mp long
    simp [parts] at fits
    grind [withParts,withBlocks]
  | doWhile id condition body =>
    obtain ⟨block,rfl⟩ := List.length_eq_one_iff.mp long
    simp [parts] at fits
    grind [withParts,withBlocks]
  | _ =>
    obtain rfl := List.eq_nil_of_length_eq_zero long
    simp [parts] at fits
    grind [withParts,withBlocks]

theorem zipWith_put_again {put : α → β → α} (forgets : ∀ item other new, put (put item other) new = put item new)
    {items : List α} {others : List β} (long : others.length = items.length) (news : List β) :
    (items.zipWith put others).zipWith put news = items.zipWith put news := by
  induction items generalizing others news with
  | nil => simp
  | cons item rest ih =>
    obtain ⟨other,others,rfl⟩ := List.exists_cons_of_length_eq_add_one long
    cases news with
    | nil => rfl
    | cons new news => simp [forgets,ih (Nat.succ.inj long)]

theorem withBlocks_again {others : List Block} (there : others.length = statement.childBlocks.length)
    (long : blocks.length = statement.childBlocks.length) :
    (statement.withBlocks others).withBlocks blocks = statement.withBlocks blocks := by
  fun_cases withBlocks statement others with
  | case6 id discriminant arms =>
    have count : others.length = arms.length := by simpa [childBlocks] using there
    have again : replaceBodies (replaceBodies arms others) blocks = replaceBodies arms blocks := by
      refine zipWith_put_again (fun _ _ _ => ?_) count blocks
      rfl
    exact congrArg (switch id discriminant) again
  | case7 _ catches body bodies =>
    obtain ⟨block,rest,rfl⟩ := List.exists_cons_of_length_eq_add_one long
    have count : bodies.length = catches.length := by simpa [childBlocks] using there
    have again : (catches.zipWith (fun clause body => {clause with body}) bodies).zipWith
        (fun clause body => {clause with body}) rest = catches.zipWith (fun clause body => {clause with body}) rest := by
      refine zipWith_put_again (fun _ _ _ => ?_) count rest
      rfl
    exact congrArg (tryCatch block) again
  | case8 => rfl
  | case2 =>
    obtain ⟨thenBlock,elseBlock,rfl⟩ := List.length_eq_two.mp long
    rfl
  | _ =>
    obtain ⟨block,rfl⟩ := List.length_eq_one_iff.mp long
    rfl

theorem demand_withBlocks (statement : Statement) (blocks : List Block) :
    (statement.withBlocks blocks).demand = statement.demand := by
  unfold withBlocks
  split <;> rfl

end Statement

namespace Node
variable {node : Node} {parts : List Node} {blocks : List Block}

theorem withParts_again (fits : Fits node.parts parts) (others : List Node) :
    (node.withParts others).withParts parts = node.withParts parts := by
  cases node with
  | ofExpr expr => exact congrArg (fun kind => ofExpr ⟨kind,expr.note⟩) (ExprKind.withChildren_again fits others)
  | ofCondition condition => exact congrArg ofCondition (Condition.withChildren_again fits others)
  | ofStatement statement => exact congrArg ofStatement (Statement.withParts_again fits others)

theorem withBlocks_withParts (fits : Fits node.parts parts) (long : blocks.length = node.blocks.length) :
    (node.withBlocks blocks).withParts parts = (node.withParts parts).withBlocks blocks := by
  cases node with
  | ofStatement statement => exact congrArg ofStatement (Statement.withBlocks_withParts fits long)
  | _ => rfl

theorem withBlocks_again {others : List Block} (there : others.length = node.blocks.length)
    (long : blocks.length = node.blocks.length) :
    (node.withBlocks others).withBlocks blocks = node.withBlocks blocks := by
  cases node with
  | ofStatement statement => exact congrArg ofStatement (Statement.withBlocks_again there long)
  | _ => rfl

theorem demand_withBlocks (node : Node) (blocks : List Block) : (node.withBlocks blocks).demand = node.demand := by
  cases node with
  | ofStatement statement => exact statement.demand_withBlocks blocks
  | _ => rfl

-- The second tree is the first one with one node put in place of another, at any depth.
inductive Inside (rel : Node → Node → Prop) : Node → Node → Prop where
  | here {old new : Node} : rel old new → Inside rel old new
  | part {node old new : Node} {before after : List Node} : node.parts = before ++ old :: after →
    Inside rel old new → Inside rel node (node.withParts (before ++ new :: after))
  | inner {node : Node} {old new : Statement} {above below : Block} {before after : List Block} :
    node.blocks = before ++ (above ++ old :: below) :: after → Inside rel (.ofStatement old) (.ofStatement new) →
    Inside rel node (node.withBlocks (before ++ (above ++ new :: below) :: after))

end Node

inductive Block.Inside (rel : Node → Node → Prop) : Block → Block → Prop where
  | at {old new : Statement} (above below : Block) : Node.Inside rel (.ofStatement old) (.ofStatement new) →
    Block.Inside rel (above ++ old :: below) (above ++ new :: below)

section
open Rebuild
variable {σ : Type} {hooks : Hooks σ}

-- Two nodes that a pass takes to the same tree, or fails on both. The same of blocks.
def Hooks.Agree (hooks : Hooks σ) (old new : Node) : Prop := (new.rebuild hooks).outcome = (old.rebuild hooks).outcome
def Hooks.AgreeOn (hooks : Hooks σ) (old new : Block) : Prop := (new.rebuild hooks).outcome = (old.rebuild hooks).outcome

theorem Hooks.agree_refl (hooks : Hooks σ) (node : Node) : hooks.Agree node node := rfl
theorem Hooks.agreeOn_refl (hooks : Hooks σ) (block : Block) : hooks.AgreeOn block block := rfl

theorem Block.rebuild_agrees {old new : Block}
    (each : List.Forall₂ (fun a b => hooks.Agree (.ofStatement a) (.ofStatement b)) old new) : hooks.AgreeOn old new := by
  unfold Hooks.AgreeOn
  rw [Block.rebuild_step,Block.rebuild_step]
  refine bind_alike (mapM_alike (each.imp fun a b same => ?_)) fun _ => rfl
  exact (map_alike_iff fun _ _ => Node.ofStatement.inj).mp same

theorem Node.fits_rebuilt (nodes : List Node) : Yields (nodes.mapM (Node.rebuild hooks)) (Fits nodes) :=
  yields_mono (yields_mapM fun child _ => child.rebuild_sort) fun _ => fits_forall₂

theorem Node.rebuild_agrees {node : Node} {parts : List Node} {blocks : List Block} (fits : Fits node.parts parts)
    (each : List.Forall₂ hooks.Agree node.parts parts) (inside : List.Forall₂ hooks.AgreeOn node.blocks blocks) :
    hooks.Agree node ((node.withParts parts).withBlocks blocks) := by
  have there : blocks.length = (node.withParts parts).blocks.length := by
    rw [node.blocks_withParts]
    exact inside.length_eq.symm
  unfold Hooks.Agree
  rw [rebuild_step,rebuild_step,parts_withBlocks,parts_withParts fits,blocks_withBlocks there]
  refine bind_congr (mapM_alike each) (fits_rebuilt node.parts) fun news fitting => ?_
  have again : Fits (node.withParts parts).parts news := by
    rw [parts_withParts fits]
    exact fitting.trans fits.symm
  rw [withBlocks_withParts again there,withParts_again fitting,demand_withBlocks]
  refine bind_alike rfl fun _ => bind_congr (mapM_alike inside) (yields_length node.blocks) fun others long => ?_
  rw [blocks_withParts,← node.blocks_withParts news] at there
  rw [← node.blocks_withParts news] at long
  rw [withBlocks_again there long]

theorem forall₂_at {rel : α → α → Prop} (refl : ∀ item, rel item item) {old new : α} (related : rel old new)
    (before after : List α) : List.Forall₂ rel (before ++ old :: after) (before ++ new :: after) :=
  List.rel_append (List.forall₂_same.mpr fun item _ => refl item)
    (.cons related (List.forall₂_same.mpr fun item _ => refl item))

theorem Block.rebuild_at {old new : Statement} (agree : hooks.Agree (.ofStatement old) (.ofStatement new))
    (above below : Block) : hooks.AgreeOn (above ++ old :: below) (above ++ new :: below) := by
  apply Block.rebuild_agrees
  apply forall₂_at
  · exact fun statement => hooks.agree_refl (.ofStatement statement)
  · exact agree

variable {rel : Node → Node → Prop} {old new : Node}

theorem Node.rebuild_inside (sorts : ∀ old new, rel old new → new.sort = old.sort)
    (agree : ∀ old new, rel old new → hooks.Agree old new) (inside : Node.Inside rel old new) :
    hooks.Agree old new ∧ new.sort = old.sort := by
  induction inside with
  | here related => exact ⟨agree _ _ related,sorts _ _ related⟩
  | @part node old new before after held _ ih =>
    refine ⟨?_,sort_withParts _ _⟩
    have there : Fits node.parts (before ++ new :: after) := by
      rw [Fits,held,List.map_append,List.map_append,List.map_cons,List.map_cons,ih.2]
    have each : List.Forall₂ hooks.Agree node.parts (before ++ new :: after) := by
      rw [held]
      exact forall₂_at hooks.agree_refl ih.1 before after
    have agrees := rebuild_agrees there each (List.forall₂_same.mpr fun block _ => hooks.agreeOn_refl block)
    rwa [← node.blocks_withParts,withBlocks_self] at agrees
  | @inner node old new above below before after held _ ih =>
    refine ⟨?_,sort_withBlocks _ _⟩
    have here := Block.rebuild_at ih.1 above below
    have inside : List.Forall₂ hooks.AgreeOn node.blocks (before ++ (above ++ new :: below) :: after) := by
      rw [held]
      exact forall₂_at hooks.agreeOn_refl here before after
    have agrees := rebuild_agrees rfl (List.forall₂_same.mpr fun part _ => hooks.agree_refl part) inside
    rwa [withParts_self] at agrees

theorem Block.rebuild_inside (sorts : ∀ old new, rel old new → new.sort = old.sort)
    (agree : ∀ old new, rel old new → hooks.Agree old new) {old new : Block} (inside : Block.Inside rel old new) :
    hooks.AgreeOn old new := by
  cases inside with
  | «at» above below within =>
    exact Block.rebuild_at (Node.rebuild_inside sorts agree within).1 above below

theorem Block.rebuild_exchanged (sorts : ∀ old new, rel old new → new.sort = old.sort)
    (agree : ∀ old new, rel old new → hooks.Agree old new) {old new : Block}
    (exchanged : Relation.EqvGen (Block.Inside rel) old new) : hooks.AgreeOn old new := by
  induction exchanged with
  | rel old new inside => exact Block.rebuild_inside sorts agree inside
  | refl block => rfl
  | symm one two _ ih => exact ih.symm
  | trans one two three _ _ first second => exact second.trans first

end
end Untangle
