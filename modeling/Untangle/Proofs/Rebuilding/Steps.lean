import Mathlib.Data.List.Forall2
import Untangle.Proofs.Breaks.Passes
import Untangle.Proofs.Rebuilding.Parts
import Untangle.Proofs.Rebuilding.Walk

namespace Untangle
open Rebuild

def Statement.demand : Statement → Except ConstraintError Unit
  | assign target value => (assign target value).check
  | switch _ discriminant _ => expect "discriminant" .numeric discriminant
  | throw exception => (throw exception).check
  | _ => .ok ()

def Node.demand : Node → Except ConstraintError Unit
  | ofExpr expr => expr.kind.check
  | ofCondition condition => condition.check
  | ofStatement statement => statement.demand

section
variable {σ : Type}

def Node.rebuild (hooks : Hooks σ) : Node → Rebuild σ Node
  | ofExpr expr => Node.ofExpr <$> expr.rebuild hooks
  | ofCondition condition => Node.ofCondition <$> condition.rebuild hooks
  | ofStatement statement => Node.ofStatement <$> statement.rebuild hooks

def Hooks.node (hooks : Hooks σ) : Node → Rebuild σ Node
  | .ofExpr expr => Node.ofExpr <$> hooks.expr expr
  | .ofCondition condition => Node.ofCondition <$> hooks.condition condition
  | .ofStatement statement => pure (.ofStatement statement)

variable {hooks : Hooks σ}

theorem recheck_bind {α β : Type} (demand : Except ConstraintError Unit) (node : α) (next : α → Rebuild σ β) :
    recheck demand node >>= next = recheck demand () >>= fun _ => next node := by
  cases demand <;> rfl

theorem recheck_map {α : Type} (demand : Except ConstraintError Unit) (wrap : Unit → α) :
    wrap <$> recheck (σ := σ) demand () = recheck demand (wrap ()) := by
  cases demand <;> rfl

theorem recheck_ok {α : Type} (node : α) : recheck (σ := σ) (.ok ()) node = pure node := rfl

theorem from_bind {α β : Type} {first : Rebuild σ α} {next : α → Rebuild σ β} (state : σ) :
    Rebuild.from state (first >>= next) = match Rebuild.from state first with
      | (.ok value,middle) => Rebuild.from middle (next value)
      | (.error cause,middle) => (.error cause,middle) := by
  unfold Rebuild.from
  rw [ExceptT.run_bind,StateT.run_bind]
  rcases StateT.run (ExceptT.run first) state with ⟨cause | value,middle⟩ <;> rfl

theorem rebuildExprs_mapM (exprs : List Expr) : rebuildExprs hooks exprs = exprs.mapM (Expr.rebuild hooks) := by
  induction exprs with
  | nil => rfl
  | cons expr rest ih => rw [rebuildExprs,List.mapM_cons,ih]

theorem rebuildConditions_mapM (parts : List Condition) :
    rebuildConditions hooks parts = parts.mapM (Condition.rebuild hooks) := by
  induction parts with
  | nil => rfl
  | cons part rest ih => rw [rebuildConditions,List.mapM_cons,ih]

theorem rebuildStatements_mapM (block : List Statement) :
    rebuildStatements hooks block = block.mapM (Statement.rebuild hooks) := by
  induction block with
  | nil => rfl
  | cons statement rest ih => rw [rebuildStatements,List.mapM_cons,ih]

theorem mapM_wrapped {α β : Type} (of : β → Node) (wrap : α → Node) (rebuild : α → Rebuild σ β)
    (here : ∀ item, (wrap item).rebuild hooks = of <$> rebuild item) (items : List α) :
    (items.map wrap).mapM (Node.rebuild hooks) = List.map of <$> items.mapM rebuild := by
  induction items with
  | nil => simp
  | cons item rest ih => simp [here,ih]

theorem rebuild_exprs (exprs : List Expr) :
    (exprs.map .ofExpr).mapM (Node.rebuild hooks) = List.map .ofExpr <$> rebuildExprs hooks exprs := by
  rw [rebuildExprs_mapM]
  exact mapM_wrapped _ _ _ (fun _ => rfl) exprs

theorem rebuild_conditions (parts : List Condition) :
    (parts.map .ofCondition).mapM (Node.rebuild hooks) = List.map .ofCondition <$> rebuildConditions hooks parts := by
  rw [rebuildConditions_mapM]
  exact mapM_wrapped _ _ _ (fun _ => rfl) parts

theorem ExprKind.rebuild_parts (kind : ExprKind) : kind.rebuild hooks = (do
    let parts ← kind.children.mapM (Node.rebuild hooks)
    recheck (kind.withChildren parts).check (kind.withChildren parts)) := by
  cases kind <;>
    simp only [ExprKind.rebuild,children,condition?,operands,Option.toList_none,Option.toList_some,List.map_nil,
      List.map_cons,List.nil_append,List.cons_append,List.append_nil,List.mapM_nil,List.mapM_cons,Node.rebuild,
      rebuild_exprs,withChildren,exprsOf_map,ExprKind.check,recheck_ok,bind_pure_comp,map_pure,Functor.map_map,
      bind_map_left,map_bind,bind_assoc]

theorem Condition.rebuild_parts (condition : Condition) : condition.rebuild hooks = (do
    let parts ← condition.children.mapM (Node.rebuild hooks)
    recheck (condition.withChildren parts).check ()
    hooks.condition (condition.withChildren parts)) := by
  cases condition <;>
    simp only [Condition.rebuild,children,operands,List.map_nil,List.map_cons,List.mapM_nil,List.mapM_cons,Node.rebuild,
      rebuild_conditions,withChildren,conditionsOf_map,Condition.check,recheck_ok,← recheck_bind,bind_pure_comp,
      map_pure,pure_bind,Functor.map_map,bind_map_left,bind_assoc]

theorem rebuildArms_mapM (arms : List SwitchArm) : rebuildArms hooks arms =
    Statement.replaceBodies arms <$> (arms.map (·.body)).mapM (Block.rebuild hooks) := by
  induction arms with
  | nil => simp [rebuildArms,Statement.replaceBodies]
  | cons arm rest ih =>
    obtain ⟨labels,body⟩ := arm
    simp [rebuildArms,ih,Block.rebuild,Statement.replaceBodies,-List.mapM_map]

theorem rebuildCatches_mapM (catches : List CatchClause) : rebuildCatches hooks catches =
    catches.zipWith (fun clause body => {clause with body}) <$>
      (catches.map (·.body)).mapM (Block.rebuild hooks) := by
  induction catches with
  | nil => simp [rebuildCatches]
  | cons clause rest ih =>
    obtain ⟨types,body⟩ := clause
    simp [rebuildCatches,ih,Block.rebuild,-List.mapM_map]

theorem Statement.rebuild_parts (statement : Statement) : statement.rebuild hooks = (do
    let parts ← statement.parts.mapM (Node.rebuild hooks)
    recheck (statement.withParts parts).demand ()
    let blocks ← statement.childBlocks.mapM (Block.rebuild hooks)
    pure ((statement.withParts parts).withBlocks blocks)) := by
  cases statement with
  | branch condition thenBlock elseBlock =>
    cases elseBlock <;>
      simp only [Statement.rebuild,parts,childBlocks,List.mapM_cons,List.mapM_nil,Option.toList_none,
        Option.toList_some,Node.rebuild,Block.rebuild,bind_pure_comp,map_pure,Functor.map_map,bind_map_left,map_bind,
        bind_assoc] <;> rfl
  | forLoop id start condition update body =>
    cases start <;> cases update <;>
      simp only [Statement.rebuild,parts,childBlocks,Option.toList_none,Option.toList_some,List.map_nil,List.map_cons,
        List.nil_append,List.cons_append,List.mapM_cons,List.mapM_nil,Node.rebuild,Block.rebuild,bind_pure_comp,map_pure,
        Functor.map_map,bind_map_left,map_bind,bind_assoc,pure_bind] <;> rfl
  | ret value =>
    cases value <;>
      simp only [Statement.rebuild,parts,childBlocks,Option.toList_none,Option.toList_some,List.map_nil,List.map_cons,
        List.mapM_cons,List.mapM_nil,Node.rebuild,bind_pure_comp,map_pure,Functor.map_map,bind_map_left,pure_bind] <;> rfl
  | switch id discriminant arms =>
    simp only [Statement.rebuild,parts,childBlocks,rebuildArms_mapM,List.mapM_cons,List.mapM_nil,Node.rebuild,
      bind_pure_comp,map_pure,Functor.map_map,bind_map_left]
    exact congrArg _ (funext fun _ => recheck_bind _ _ _)
  | tryCatch body catches =>
    simp only [Statement.rebuild,parts,childBlocks,rebuildCatches_mapM,List.mapM_cons,List.mapM_nil,Block.rebuild,
      bind_pure_comp,Functor.map_map,map_bind,bind_assoc,pure_bind]
    rfl
  | _ =>
    simp only [Statement.rebuild,parts,childBlocks,List.mapM_cons,List.mapM_nil,Node.rebuild,Block.rebuild,
      bind_pure_comp,map_pure,Functor.map_map,bind_map_left,map_bind,bind_assoc,pure_bind,recheck_map]
    rfl

theorem Node.rebuild_step (node : Node) : node.rebuild hooks = (do
    let parts ← node.parts.mapM (Node.rebuild hooks)
    recheck (node.withParts parts).demand ()
    let blocks ← node.blocks.mapM (Block.rebuild hooks)
    hooks.node ((node.withParts parts).withBlocks blocks)) := by
  cases node with
  | ofExpr expr =>
    obtain ⟨kind,note⟩ := expr
    simp [Node.rebuild,Expr.rebuild,kind.rebuild_parts,parts,children,withParts,demand,blocks,withBlocks,Hooks.node]
    exact congrArg _ (funext fun _ => recheck_bind _ _ _)
  | ofCondition condition =>
    simp [Node.rebuild,condition.rebuild_parts,parts,children,withParts,demand,blocks,withBlocks,Hooks.node]
  | ofStatement statement =>
    simp [Node.rebuild,statement.rebuild_parts,parts,withParts,demand,blocks,withBlocks,Hooks.node]

theorem Block.rebuild_step (block : Block) : block.rebuild hooks = (do
    hooks.block (← block.mapM (Statement.rebuild hooks))) := by
  rw [Block.rebuild,rebuildStatements_mapM]

end

namespace Rebuild
variable {σ α β : Type}

theorem yields_map {pass : Rebuild σ α} {wrap : α → β} {good : β → Prop} :
    Yields (wrap <$> pass) good ↔ Yields pass fun result => good (wrap result) := by
  constructor
  · intro here state result final same
    refine here state (wrap result) final ?_
    unfold Rebuild.from at same ⊢
    rw [ExceptT.run_map,StateT.run_map,same]
    rfl
  · intro here
    rw [map_eq_pure_bind]
    exact yields_bind here fun result => yields_pure

theorem yields_both {pass : Rebuild σ α} {good well : α → Prop} (first : Yields pass good) (second : Yields pass well) :
    Yields pass fun result => good result ∧ well result :=
  fun state result final same => ⟨first state result final same,second state result final same⟩

theorem yields_mono {pass : Rebuild σ α} {good well : α → Prop} (here : Yields pass good)
    (implies : ∀ result, good result → well result) : Yields pass well :=
  fun state result final same => implies result (here state result final same)

theorem yields_under {premise : Prop} {pass : Rebuild σ α} {good : α → Prop}
    (here : premise → Yields pass good) : Yields pass fun result => premise → good result :=
  fun state result final same holds => here holds state result final same

theorem yields_held {demand : Except ConstraintError Unit} :
    Yields (recheck (σ := σ) demand ()) fun _ => demand = .ok () := by
  cases demand with
  | error cause => exact yields_throw
  | ok value => exact yields_pure rfl

theorem yields_mapM {rel : α → β → Prop} {pass : α → Rebuild σ β} {items : List α}
    (each : ∀ item ∈ items, Yields (pass item) (rel item)) :
    Yields (items.mapM pass) (List.Forall₂ rel items) := by
  induction items with
  | nil => exact yields_pure .nil
  | cons item rest ih =>
    rw [List.mapM_cons]
    refine yields_bind (each item List.mem_cons_self) fun first here => ?_
    refine yields_bind (ih fun other later => each other (List.mem_cons_of_mem _ later)) fun others there => ?_
    exact yields_pure (.cons here there)

theorem yields_length {pass : α → Rebuild σ β} (items : List α) :
    Yields (items.mapM pass) fun news => news.length = items.length :=
  yields_mono (yields_mapM fun item _ => yields_any (pass item)) fun _ each => each.length_eq.symm

end Rebuild

-- What each step of a rebuild does to a relation between old and new: a hook that meets a node between its
-- rebuilt children extends it to the node, and the one for blocks from the statements to the block.
structure Hooks.Carry {σ : Type} (hooks : Hooks σ) (rel : Node → Node → Prop) (blockRel : Block → Block → Prop) :
    Prop where
  node {node : Node} {parts : List Node} {blocks : List Block} :
    Fits node.parts parts → List.Forall₂ rel node.parts parts → (node.withParts parts).demand = .ok () →
    List.Forall₂ blockRel node.blocks blocks →
    Yields (hooks.node ((node.withParts parts).withBlocks blocks)) (rel node)
  block {old new : Block} : List.Forall₂ (fun a b => rel (.ofStatement a) (.ofStatement b)) old new →
    Yields (hooks.block new) (blockRel old)

section
variable {σ : Type} {hooks : Hooks σ} {rel : Node → Node → Prop} {blockRel : Block → Block → Prop}

theorem Hooks.node_sort (hooks : Hooks σ) (node : Node) : Yields (hooks.node node) fun new => new.sort = node.sort := by
  cases node with
  | ofExpr expr => exact yields_map.mpr fun _ _ _ _ => rfl
  | ofCondition condition => exact yields_map.mpr fun _ _ _ _ => rfl
  | ofStatement statement => exact yields_pure rfl

theorem Node.rebuild_sort (node : Node) : Yields (node.rebuild hooks) fun new => new.sort = node.sort := by
  rw [node.rebuild_step]
  refine yields_after fun parts => yields_after fun _ => yields_after fun blocks => ?_
  have sort := hooks.node_sort ((node.withParts parts).withBlocks blocks)
  rwa [sort_withBlocks,sort_withParts] at sort

theorem fits_forall₂ {old new : List Node} (each : List.Forall₂ (fun a b => b.sort = a.sort) old new) :
    Fits old new := by
  induction each with
  | nil => rfl
  | cons here _ ih => exact List.cons_eq_cons.mpr ⟨here,ih⟩

theorem forall₂_under {good : α → Prop} {rel : α → β → Prop} {old : List α} {new : List β}
    (each : List.Forall₂ (fun a b => good a → rel a b) old new) (here : ∀ item ∈ old, good item) :
    List.Forall₂ rel old new := by
  induction each with
  | nil => exact .nil
  | cons keeps _ ih =>
    obtain ⟨first,rest⟩ := List.forall_mem_cons.mp here
    exact .cons (keeps first) (ih rest)

theorem forall₂_right {good : β → Prop} {old : List α} {new : List β}
    (each : List.Forall₂ (fun _ b => good b) old new) : ∀ item ∈ new, good item := by
  induction each with
  | nil => simp
  | cons here _ ih => exact List.forall_mem_cons.mpr ⟨here,ih⟩

theorem Block.rebuild_carried (carry : hooks.Carry rel blockRel) {block : Block}
    (each : ∀ statement ∈ block, Yields ((Node.ofStatement statement).rebuild hooks) (rel (.ofStatement statement))) :
    Yields (block.rebuild hooks) (blockRel block) := by
  rw [block.rebuild_step]
  refine yields_bind (yields_mapM fun statement member => ?_) fun new => carry.block
  exact yields_map.mp (each statement member)

theorem Node.rebuild_carries (carry : hooks.Carry rel blockRel) (node : Node) :
    Yields (node.rebuild hooks) (rel node) := by
  induction node using Node.below with
  | step node below =>
    rw [node.rebuild_step]
    refine yields_bind (yields_both (yields_mapM fun child _ => child.rebuild_sort)
      (yields_mapM fun child member => below child (part_child member))) fun parts ⟨sorts,here⟩ => ?_
    refine yields_bind yields_held fun _ held => ?_
    refine yields_bind (yields_mapM fun block there => Block.rebuild_carried carry fun statement member =>
      below _ (inner_child there member)) fun blocks there => ?_
    exact carry.node (fits_forall₂ sorts) here held there

theorem Block.rebuild_carries (carry : hooks.Carry rel blockRel) (block : Block) :
    Yields (block.rebuild hooks) (blockRel block) :=
  Block.rebuild_carried carry fun statement _ => (Node.ofStatement statement).rebuild_carries carry

end
end Untangle
