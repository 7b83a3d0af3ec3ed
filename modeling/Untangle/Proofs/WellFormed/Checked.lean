import Untangle.Proofs.Rebuilding.Steps

namespace Untangle
open Rebuild

-- What the constructor of a node checks, with the types that its operands have now.
def Node.check : Node → Except ConstraintError Unit
  | ofExpr expr => expr.kind.check
  | ofCondition condition => condition.check
  | ofStatement statement => statement.check

def Node.Valid (node : Node) : Prop := node.check = .ok ()

def Node.WellFormed (node : Node) : Prop := node.Throughout Node.Valid
def Block.WellFormed (block : Block) : Prop := block.Throughout Node.Valid

def Node.Meets (allowed : Expr → Prop) : Node → Prop
  | ofExpr expr => allowed expr
  | ofCondition condition => condition.check = .ok ()
  | ofStatement statement => statement.check = .ok ()

def Node.Built (allowed : Expr → Prop) (node : Node) : Prop := node.Throughout (Node.Meets allowed)
def Block.Built (allowed : Expr → Prop) (block : Block) : Prop := block.Throughout (Node.Meets allowed)

def Expr.Valid (expr : Expr) : Prop := expr.kind.check = .ok ()

theorem Node.meets_valid : Node.Meets Expr.Valid = Node.Valid := funext fun node => by cases node <;> rfl

theorem Node.wellFormed_built {node : Node} : node.WellFormed ↔ node.Built Expr.Valid := by
  rw [Node.Built,Node.meets_valid]
  rfl

theorem Block.wellFormed_built {block : Block} : Block.WellFormed block ↔ Block.Built Expr.Valid block := by
  rw [Block.Built,Node.meets_valid]
  rfl

variable {allowed : Expr → Prop}

theorem Node.Meets.mono {other : Expr → Prop} (wider : ∀ expr, allowed expr → other expr) {node : Node}
    (meets : node.Meets allowed) : node.Meets other := by
  cases node with
  | ofExpr expr => exact wider expr meets
  | ofCondition condition => exact meets
  | ofStatement statement => exact meets

theorem Node.Built.mono {other : Expr → Prop} (wider : ∀ expr, allowed expr → other expr) {node : Node}
    (formed : node.Built allowed) : node.Built other := fun inner member => (formed inner member).mono wider

theorem Block.Built.mono {other : Expr → Prop} (wider : ∀ expr, allowed expr → other expr) {block : Block}
    (formed : Block.Built allowed block) : Block.Built other block :=
  fun inner member => (formed inner member).mono wider

theorem Node.built_children {node : Node} :
    node.Built allowed ↔ node.Meets allowed ∧ ∀ child ∈ node.children, child.Built allowed := throughout_children

theorem Block.built_statements {block : Block} :
    block.Built allowed ↔ ∀ statement ∈ block, (Node.ofStatement statement).Built allowed := throughout_statements

@[simp] theorem Block.built_nil : Block.Built allowed [] := Block.throughout_nil
@[simp] theorem Block.built_cons {statement : Statement} {rest : Block} :
    Block.Built allowed (statement :: rest) ↔ (Node.ofStatement statement).Built allowed ∧ Block.Built allowed rest :=
  Block.throughout_cons
@[simp] theorem Block.built_append {first second : Block} :
    Block.Built allowed (first ++ second) ↔ Block.Built allowed first ∧ Block.Built allowed second := by
  simp only [Block.built_statements,List.forall_mem_append]

theorem Node.built_parts {node : Node} : node.Built allowed ↔
    node.Meets allowed ∧ (∀ part ∈ node.parts, part.Built allowed) ∧ ∀ block ∈ node.blocks, Block.Built allowed block :=
  throughout_parts

namespace Condition

@[simp] theorem built_conj {parts : List Condition} : (Node.ofCondition (.conj parts)).Built allowed ↔
    ∀ part ∈ parts, (Node.ofCondition part).Built allowed := by
  rw [Node.built_children]
  simp [Node.Meets,check,Node.children,children]

@[simp] theorem built_disj {parts : List Condition} : (Node.ofCondition (.disj parts)).Built allowed ↔
    ∀ part ∈ parts, (Node.ofCondition part).Built allowed := by
  rw [Node.built_children]
  simp [Node.Meets,check,Node.children,children]

@[simp] theorem built_not {inner : Condition} :
    (Node.ofCondition (.not inner)).Built allowed ↔ (Node.ofCondition inner).Built allowed := by
  rw [Node.built_children]
  simp [Node.Meets,check,Node.children,children]

@[simp] theorem built_compare {op : CompareOp} {left right : Expr} :
    (Node.ofCondition (.compare op left right)).Built allowed ↔
      (compare op left right).check = .ok () ∧ (Node.ofExpr left).Built allowed ∧ (Node.ofExpr right).Built allowed := by
  rw [Node.built_children]
  simp [Node.Meets,Node.children,children,operands]

@[simp] theorem built_test {value : Expr} {inverted : Bool} :
    (Node.ofCondition (.test value inverted)).Built allowed ↔
      expect "value" .boolean value = .ok () ∧ (Node.ofExpr value).Built allowed := by
  rw [Node.built_children]
  simp [Node.Meets,check,Node.children,children,operands]

@[simp] theorem built_constant {value : Bool} : (Node.ofCondition (.constant value)).Built allowed := by
  rw [Node.built_children]
  simp [Node.Meets,check,Node.children,children,operands]

end Condition

theorem Expr.valid_noted {kind : ExprKind} (note note' : Option Ty) :
    (Node.ofExpr ⟨kind,note⟩).Built Valid ↔ (Node.ofExpr ⟨kind,note'⟩).Built Valid := by
  rw [Node.built_children,Node.built_children]
  rfl

theorem Statement.built_iff {statement : Statement} : (Node.ofStatement statement).Built allowed ↔
    statement.check = .ok () ∧ (∀ part ∈ statement.parts, part.Built allowed) ∧
      ∀ block ∈ statement.childBlocks, Block.Built allowed block := Node.built_parts

theorem expectBoth_ok {first second : Except ConstraintError Unit} :
    expectBoth first second = .ok () ↔ first = .ok () ∧ second = .ok () := by
  cases first <;> simp [expectBoth]

theorem expectArgs_ok {param : String} {signature : MethodDescriptor} {args : List Expr} :
    expectArgs param signature args = .ok () ↔
      signature.params.length = args.length ∧ expectParams param signature.params args = .ok () := by
  unfold expectArgs
  split <;> simp_all

section
variable {arms : List SwitchArm} {bodies : List Block}

theorem checkArms_bodies (seen : List Int32) (hasDefault : Bool) (long : bodies.length = arms.length) :
    checkArms seen hasDefault (Statement.replaceBodies arms bodies) = checkArms seen hasDefault arms := by
  induction arms generalizing seen hasDefault bodies with
  | nil =>
    obtain rfl := List.eq_nil_of_length_eq_zero long
    rfl
  | cons arm rest ih =>
    obtain ⟨body,others,rfl⟩ := List.exists_cons_of_length_eq_add_one long
    have later (seen : List Int32) (hasDefault : Bool) := ih seen hasDefault (Nat.succ.inj long)
    simp only [Statement.replaceBodies] at later ⊢
    simp only [List.zipWith_cons_cons,checkArms,SwitchArm.isDefault,later]
    rfl

end

namespace Statement
variable {statement : Statement} {nodes : List Node} {blocks : List Block}

theorem check_withParts (valid : statement.check = .ok ()) (held : (statement.withParts nodes).demand = .ok ()) :
    (statement.withParts nodes).check = .ok () := by
  unfold withParts at held ⊢
  split at held
  case _ => trivial
  all_goals
    first
      | exact held
      | rfl
      | exact expectBoth_ok.mpr ⟨held,(expectBoth_ok.mp valid).2⟩
      | exact valid

theorem check_withBlocks (long : blocks.length = statement.childBlocks.length) :
    (statement.withBlocks blocks).check = statement.check := by
  cases statement with
  | switch id discriminant arms =>
    have same : checkArms [] false (replaceBodies arms blocks) = checkArms [] false arms :=
      checkArms_bodies [] false (by simpa [childBlocks] using long)
    simp only [withBlocks,check,same]
  | _ =>
    unfold withBlocks
    split <;> first | rfl | contradiction

end Statement

def Refills (allowed : Expr → Prop) : Prop := ∀ kind note parts, allowed ⟨kind,note⟩ →
  (kind.withChildren parts).check = .ok () → allowed ⟨kind.withChildren parts,note⟩

theorem refills_valid : Refills Expr.Valid := fun _ _ _ _ held => held

theorem Node.filled_built {node : Node} {parts : List Node} {blocks : List Block} (refills : Refills allowed)
    (formed : node.Built allowed) (fits : Fits node.parts parts) (long : blocks.length = node.blocks.length)
    (held : (node.withParts parts).demand = .ok ()) (here : ∀ part ∈ parts, part.Built allowed)
    (inside : ∀ block ∈ blocks, Block.Built allowed block) :
    ((node.withParts parts).withBlocks blocks).Built allowed := by
  refine (throughout_filled fits long).mpr ⟨?_,here,inside⟩
  have meets := (built_children.mp formed).1
  cases node with
  | ofExpr expr =>
    obtain ⟨kind,note⟩ := expr
    exact refills kind note parts meets held
  | ofCondition condition => exact held
  | ofStatement statement =>
    rw [← (Node.ofStatement statement).blocks_withParts parts] at long
    exact (Statement.check_withBlocks long).trans (Statement.check_withParts meets held)

structure Hooks.Upholds {σ : Type} (hooks : Hooks σ) (allowed : Expr → Prop) : Prop where
  expr : ∀ expr, (Node.ofExpr expr).Built allowed →
    Yields (hooks.expr expr) fun new => (Node.ofExpr new).Built allowed
  condition : ∀ condition, (Node.ofCondition condition).Built allowed →
    Yields (hooks.condition condition) fun new => (Node.ofCondition new).Built allowed
  block : ∀ block, Block.Built allowed block → Yields (hooks.block block) (Block.Built allowed)

section
variable {σ : Type} {hooks : Hooks σ}

theorem Hooks.Upholds.node (upholds : hooks.Upholds allowed) {node : Node} (formed : node.Built allowed) :
    Yields (hooks.node node) (Node.Built allowed) := by
  cases node with
  | ofExpr expr => exact yields_map.mpr (upholds.expr expr formed)
  | ofCondition condition => exact yields_map.mpr (upholds.condition condition formed)
  | ofStatement statement => exact yields_pure formed

theorem Hooks.Upholds.carry (upholds : hooks.Upholds allowed) (refills : Refills allowed) :
    hooks.Carry (fun old new => old.Built allowed → new.Built allowed)
      fun old new => Block.Built allowed old → Block.Built allowed new where
  node {node parts blocks} fits here held inside := by
    refine yields_under fun formed => upholds.node ?_
    obtain ⟨_,ownParts,ownBlocks⟩ := Node.built_parts.mp formed
    exact Node.filled_built refills formed fits inside.length_eq.symm held
      (forall₂_right (forall₂_under here ownParts)) (forall₂_right (forall₂_under inside ownBlocks))
  block {old new} each := by
    refine yields_under fun formed => upholds.block new ?_
    rw [Block.built_statements] at formed ⊢
    exact forall₂_right (forall₂_under each formed)

theorem Block.rebuild_built (upholds : hooks.Upholds allowed) (refills : Refills allowed) {block : Block}
    (formed : Block.Built allowed block) : Yields (block.rebuild hooks) (Block.Built allowed) := by
  intro state result final same
  exact block.rebuild_carries (upholds.carry refills) state result final same formed

end
end Untangle
