import Untangle.Proofs.Folding.Spending
import Untangle.Proofs.Softening.Nodes
import Untangle.Proofs.WellFormed.Passes

namespace Untangle
open Rebuild

-- An expression as its constructor leaves it. What a builder puts together is read back as a reference.
structure Expr.Fresh (expr : Expr) : Prop where
  valid : expr.Valid
  bare : expr.note = none
  reads (receiver : Expr) (method : MethodRef) (args : List Expr) :
    expr.kind = .boundCall .virtual receiver method args → method.isBuilderCall "toString" = true →
    (Ty.ofReturnType method.signature.returns).category = .reference

theorem head_boundCall {kind : ExprKind} {call : BoundCall} {method : MethodRef}
    (same : kind.head = .boundCall call method) : ∃ receiver args, kind = .boundCall call receiver method args := by
  cases kind with
  | boundCall call receiver method args =>
    cases same
    exact ⟨receiver,args,rfl⟩
  | _ => cases same

theorem refills_fresh : Refills Expr.Fresh := by
  intro kind note parts fresh held
  refine ⟨held,fresh.bare,fun receiver method args called => ?_⟩
  have head := kind.head_withChildren parts
  have called : kind.withChildren parts = _ := called
  rw [called] at head
  obtain ⟨before,others,same⟩ := head_boundCall head.symm
  exact fresh.reads before method others same

theorem foldable_fresh : Foldable Expr.Fresh where
  refills := refills_fresh
  text := ⟨rfl,rfl,nofun⟩
  concat held := ⟨held,rfl,nofun⟩
  ternary held := ⟨held,rfl,nofun⟩

theorem ExprKind.softened_expr {kind : ExprKind} {note : Option Ty} {parts : List Node}
    (fresh : Expr.Fresh ⟨kind,note⟩) (each : List.Forall₂ Node.Softens kind.children parts) :
    Expr.Softens ⟨kind,note⟩ ⟨kind.withChildren parts,note⟩ := by
  obtain rfl : note = none := fresh.bare
  refine ⟨?_,?_⟩
  · rw [Expr.type_plain,Expr.type_plain]
    exact (kind.softened fresh.valid each).2
  · unfold withChildren
    split <;> rfl

section
variable {σ : Type} {hooks : Hooks σ} {kept : σ → Prop} {α β : Type}

def Hooks.Soften (hooks : Hooks σ) : Prop :=
  ∀ expr : Expr, expr.Fresh → Yields (hooks.expr expr) expr.Softens

theorem Hooks.node_softens (soften : hooks.Soften) {old new : Node} (softens : old.Softens new)
    (fresh : ∀ expr, new = .ofExpr expr → expr.Fresh) : Yields (hooks.node new) old.Softens := by
  cases softens with
  | expr here =>
    refine yields_map.mpr (yields_mono (soften _ (fresh _ rfl)) fun next there => ?_)
    exact .expr (here.trans there)
  | condition old new => exact yields_map.mpr fun _ _ _ _ => .condition _ _
  | statement old new => exact yields_pure (.statement old new)

theorem Hooks.Soften.carry (soften : hooks.Soften) :
    hooks.Carry (fun old new => old.Built Expr.Fresh → old.Softens new) fun _ _ => True where
  node {node parts blocks} fits here held inside := by
    refine yields_under fun fresh => ?_
    obtain ⟨meets,ownParts,_⟩ := Node.built_parts.mp fresh
    have each := forall₂_under here ownParts
    refine hooks.node_softens soften ?_ fun expr same => ?_
    · cases node with
      | ofExpr expr =>
        obtain ⟨kind,note⟩ := expr
        exact .expr (ExprKind.softened_expr meets each)
      | ofCondition condition => exact .condition _ _
      | ofStatement statement => exact .statement _ _
    · cases node with
      | ofExpr expr =>
        obtain ⟨kind,note⟩ := expr
        cases same
        exact refills_fresh kind note parts meets held
      | ofCondition condition => cases same
      | ofStatement statement => cases same
  block _ := fun _ _ _ _ => trivial

namespace Rebuild

def Returns (kept : σ → Prop) (pass : Rebuild σ α) : Prop :=
  ∀ state, kept state → ∃ result final, Rebuild.from state pass = (.ok result,final) ∧ kept final

theorem returns_pure {value : α} : Returns kept (pure value) := fun state here => ⟨value,state,rfl,here⟩

theorem returns_bind {first : Rebuild σ α} {next : α → Rebuild σ β} {middle : α → Prop}
    (start : Returns kept first) (yields : Yields first middle)
    (further : ∀ value, middle value → Returns kept (next value)) :
    Returns kept (first >>= next) := by
  intro state here
  obtain ⟨value,between,run,still⟩ := start state here
  rw [from_bind,run]
  exact further value (yields state value between run) between still

theorem returns_map {pass : Rebuild σ α} {wrap : α → β} : Returns kept (wrap <$> pass) ↔ Returns kept pass := by
  refine forall₂_congr fun state _ => ?_
  rw [map_eq_pure_bind,from_bind]
  rcases Rebuild.from state pass with ⟨cause | value,final⟩
  · simp
  · constructor
    · rintro ⟨_,_,same,here⟩
      cases same
      exact ⟨value,final,rfl,here⟩
    · rintro ⟨_,_,same,here⟩
      cases same
      exact ⟨wrap value,final,rfl,here⟩

theorem returns_recheck {demand : Except ConstraintError Unit} {node : α} (held : demand = .ok ()) :
    Returns kept (recheck demand node) := by
  rw [held]
  exact returns_pure

theorem returns_mapM {pass : α → Rebuild σ β} {items : List α}
    (each : ∀ item ∈ items, Returns kept (pass item)) : Returns kept (items.mapM pass) := by
  induction items with
  | nil => exact returns_pure
  | cons item rest ih =>
    obtain ⟨first,others⟩ := List.forall_mem_cons.mp each
    rw [List.mapM_cons]
    refine returns_bind first (yields_any _) fun _ _ => returns_bind (ih others) (yields_any _) fun _ _ => ?_
    exact returns_pure

end Rebuild

structure Hooks.Return (hooks : Hooks σ) (kept : σ → Prop) : Prop where
  expr (expr : Expr) : (Node.ofExpr expr).Built Expr.Valid → Returns kept (hooks.expr expr)
  condition (condition : Condition) : (Node.ofCondition condition).Built Expr.Valid →
    Returns kept (hooks.condition condition)
  block (block : Block) : Block.Built Expr.Valid block → Returns kept (hooks.block block)

theorem Hooks.Return.node (returns : hooks.Return kept) {node : Node} (formed : node.Built Expr.Valid) :
    Returns kept (hooks.node node) := by
  cases node with
  | ofExpr expr => exact returns_map.mpr (returns.expr expr formed)
  | ofCondition condition => exact returns_map.mpr (returns.condition condition formed)
  | ofStatement statement => exact returns_pure

theorem fits_softened {old new : List Node} (each : List.Forall₂ Node.Softens old new) : Fits old new := by
  refine fits_forall₂ (each.imp fun _ _ softens => ?_)
  cases softens <;> rfl

variable (soften : hooks.Soften) (upholds : hooks.Upholds Expr.Valid) (returns : hooks.Return kept)

include upholds in
theorem Node.rebuild_valid {node : Node} (fresh : node.Built Expr.Fresh) :
    Yields (node.rebuild hooks) (Node.Built Expr.Valid) := by
  intro state result final run
  exact node.rebuild_carries (upholds.carry refills_valid) state result final run (fresh.mono fun _ here => here.valid)

include soften in
theorem Node.rebuild_softens {node : Node} (fresh : node.Built Expr.Fresh) :
    Yields (node.rebuild hooks) node.Softens := by
  intro state result final run
  exact node.rebuild_carries soften.carry state result final run fresh

include upholds returns in
theorem Block.rebuild_returned {block : Block} (fresh : Block.Built Expr.Fresh block)
    (each : ∀ statement ∈ block, Returns kept ((Node.ofStatement statement).rebuild hooks)) :
    Returns kept (block.rebuild hooks) := by
  rw [block.rebuild_step]
  rw [Block.built_statements] at fresh
  refine returns_bind (returns_mapM fun statement member => returns_map.mp (each statement member))
    (yields_mapM fun statement member => yields_map.mp ((Node.ofStatement statement).rebuild_valid upholds
      (fresh statement member))) fun new formed => ?_
  exact returns.block new (Block.built_statements.mpr (forall₂_right formed))

include soften upholds returns in
theorem Node.rebuild_returns (node : Node) (fresh : node.Built Expr.Fresh) : Returns kept (node.rebuild hooks) := by
  induction node using Node.below with
  | step node below =>
    obtain ⟨meets,ownParts,ownBlocks⟩ := Node.built_parts.mp fresh
    rw [node.rebuild_step]
    have partsReturn : Returns kept (node.parts.mapM (Node.rebuild hooks)) :=
      returns_mapM fun part member => below part (part_child member) (ownParts part member)
    have partsSoften : Yields (node.parts.mapM (Node.rebuild hooks)) (List.Forall₂ Node.Softens node.parts) :=
      yields_mapM fun part member => part.rebuild_softens soften (ownParts part member)
    have partsValid : Yields (node.parts.mapM (Node.rebuild hooks))
        (List.Forall₂ (fun _ part => part.Built Expr.Valid) node.parts) :=
      yields_mapM fun part member => part.rebuild_valid upholds (ownParts part member)
    refine returns_bind partsReturn (yields_both partsSoften partsValid) fun parts ⟨softer,here⟩ => ?_
    have valid : node.Valid := Node.meets_valid ▸ meets.mono fun _ here => here.valid
    have held := Node.softened valid softer
    refine returns_bind (returns_recheck held) (yields_any _) fun _ _ => ?_
    have blocksReturn : Returns kept (node.blocks.mapM (Block.rebuild hooks)) :=
      returns_mapM fun block member => Block.rebuild_returned upholds returns (ownBlocks block member)
        fun statement inside => below _ (inner_child member inside)
          (Block.built_statements.mp (ownBlocks block member) statement inside)
    have blocksValid : Yields (node.blocks.mapM (Block.rebuild hooks))
        (List.Forall₂ (fun _ block => Block.Built Expr.Valid block) node.blocks) :=
      yields_mapM fun block member => Block.rebuild_built upholds refills_valid
        ((ownBlocks block member).mono fun _ here => here.valid)
    refine returns_bind blocksReturn blocksValid fun blocks inside => returns.node ?_
    have formed : node.Built Expr.Valid := fresh.mono fun _ here => here.valid
    exact Node.filled_built refills_valid formed (fits_softened softer) inside.length_eq.symm held (forall₂_right here)
      (forall₂_right inside)

include soften upholds returns in
theorem Block.rebuild_returns {block : Block} (fresh : Block.Built Expr.Fresh block) :
    Returns kept (block.rebuild hooks) :=
  Block.rebuild_returned upholds returns fresh fun statement member =>
    (Node.ofStatement statement).rebuild_returns soften upholds returns
      (Block.built_statements.mp fresh statement member)

end
end Untangle
