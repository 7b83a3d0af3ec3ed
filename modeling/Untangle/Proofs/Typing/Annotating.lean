import Untangle.Proofs.Equality.Same
import Untangle.Proofs.Rebuilding.Places
import Untangle.Proofs.Softening.Nodes
import Untangle.Proofs.Typing.Reference

namespace Untangle
open Rebuild

namespace Node

def annotated (resolver : Resolver) : Node → Node
  | ofExpr expr => ofExpr (expr.annotate (resolver.reference expr))
  | node => node

def seen (resolver : Resolver) (node : Node) : Node := node.withParts (node.parts.map (annotated resolver))

def Typable (resolver : Resolver) (node : Node) : Prop := (node.seen resolver).check = .ok ()

def Noted (resolver : Resolver) : Node → Prop
  | ofExpr expr => expr.note = some (resolver.reference expr)
  | _ => True

structure Typed (resolver : Resolver) (old new : Node) : Prop where
  erased : new.erase = old.erase
  noted : new.Throughout (Noted resolver)

end Node

def Block.Typed (resolver : Resolver) : Block → Block → Prop :=
  List.Forall₂ fun a b => Node.Typed resolver (.ofStatement a) (.ofStatement b)

theorem map_of_alike {rel : α → β → Prop} {f : α → γ} {g : β → γ} (alike : ∀ a b, rel a b → g b = f a) {old : List α}
    {new : List β} (each : List.Forall₂ rel old new) : new.map g = old.map f := by
  induction each with
  | nil => rfl
  | cons here _ ih => rw [List.map_cons,List.map_cons,alike _ _ here,ih]

section
variable {resolver : Resolver} {node old new : Node} {parts : List Node} {blocks : List Block}

theorem Node.Typed.sort (typed : Node.Typed resolver old new) : new.sort = old.sort := by
  rw [← new.sort_erase,typed.erased,old.sort_erase]

theorem Node.erase_filled (fits : Fits node.parts parts) (each : List.Forall₂ (Node.Typed resolver) node.parts parts)
    (inside : List.Forall₂ (Block.Typed resolver) node.blocks blocks) :
    ((node.withParts parts).withBlocks blocks).erase = node.erase := by
  have lengths : blocks.map List.length = (node.withParts parts).blocks.map List.length := by
    rw [node.blocks_withParts]
    exact map_of_alike (fun _ _ typed => typed.length_eq.symm) inside
  have nodes (old new : Block) (typed : Block.Typed resolver old new) :
      (new.map Node.ofStatement).map Node.erase = (old.map Node.ofStatement).map Node.erase := by
    rw [List.map_map,List.map_map]
    exact map_of_alike (fun _ _ same => same.erased) typed
  refine erase_eq_iff.mpr ⟨(head_withBlocks lengths).trans (node.head_withParts parts),?_⟩
  rw [children_filled fits inside.length_eq.symm,children_split,List.map_append,List.map_append]
  rw [map_of_alike (fun _ _ typed => typed.erased) each,List.map_flatMap,List.map_flatMap]
  rw [List.flatMap_def,List.flatMap_def,map_of_alike nodes inside]

theorem Block.Typed.noted {old new : Block} (typed : Block.Typed resolver old new) :
    Block.Throughout (Node.Noted resolver) new :=
  Block.throughout_statements.mpr (forall₂_right (typed.imp fun _ _ typed => typed.noted))

theorem Block.Typed.erased {old new : Block} (typed : Block.Typed resolver old new) : Block.erase new = Block.erase old := by
  rw [Block.erase,Block.erase,eraseStatements_map,eraseStatements_map]
  exact map_of_alike (fun _ _ same => Node.ofStatement.inj same.erased) typed

theorem Expr.assignable_erase (expr : Expr) : expr.erase.isAssignable = expr.isAssignable := by
  obtain ⟨kind,note⟩ := expr
  cases kind <;> rfl

theorem Expr.type_of_note {expr : Expr} {type : Ty} (noted : expr.note = some type) : expr.type = type := by
  obtain ⟨kind,note⟩ := expr
  obtain rfl : note = some type := noted
  exact type_annotated kind type

theorem Node.Typed.shows {old new : Expr} (typed : Node.Typed resolver (.ofExpr old) (.ofExpr new)) :
    new.type = resolver.reference old := by
  have erased : new.erase = old.erase := Node.ofExpr.inj typed.erased
  have noted : new.note = some (resolver.reference new) := (throughout_children.mp typed.noted).1
  rw [Expr.type_of_note noted,← Resolver.reference_erase,erased,Resolver.reference_erase]

theorem Node.Typed.softens (typed : Node.Typed resolver old new) :
    Node.Softens (old.annotated resolver) new ∧ Node.Softens new (old.annotated resolver) := by
  cases old with
  | ofExpr old =>
    obtain ⟨new,rfl⟩ := sort_expr.mp typed.sort
    have shown : new.type = (old.annotate (resolver.reference old)).type := by
      rw [typed.shows,Expr.annotate,Expr.type_annotated]
    have assigns : new.isAssignable = old.isAssignable := by
      rw [← new.assignable_erase,Node.ofExpr.inj typed.erased,old.assignable_erase]
    exact ⟨.expr ⟨shown ▸ .same _,assigns⟩,.expr ⟨shown ▸ .same _,assigns.symm⟩⟩
  | ofCondition old =>
    obtain ⟨new,rfl⟩ := sort_condition.mp typed.sort
    exact ⟨.condition _ _,.condition _ _⟩
  | ofStatement old =>
    obtain ⟨new,rfl⟩ := sort_statement.mp typed.sort
    exact ⟨.statement _ _,.statement _ _⟩

theorem Node.fits_annotated (node : Node) : Fits node.parts (node.parts.map (annotated resolver)) := by
  rw [Fits,List.map_map]
  exact List.map_congr_left fun part _ => by cases part <;> rfl

theorem Node.check_withParts (valid : node.Valid) (held : (node.withParts parts).demand = .ok ()) :
    (node.withParts parts).Valid := by
  cases node with
  | ofStatement statement => exact Statement.check_withParts valid held
  | _ => exact held

theorem Node.Typable.held (typable : node.Typable resolver) (fits : Fits node.parts parts)
    (each : List.Forall₂ (Node.Typed resolver) node.parts parts) : (node.withParts parts).demand = .ok () := by
  have softer : List.Forall₂ Node.Softens (node.seen resolver).parts parts := by
    rw [seen,parts_withParts node.fits_annotated,List.forall₂_map_left_iff]
    exact each.imp fun _ _ typed => typed.softens.1
  have held := softened typable softer
  rwa [seen,withParts_again fits] at held

theorem Node.typable_of_held (valid : node.Valid) (fits : Fits node.parts parts)
    (each : List.Forall₂ (Node.Typed resolver) node.parts parts) (held : (node.withParts parts).demand = .ok ()) :
    node.Typable resolver := by
  have softer : List.Forall₂ Node.Softens (node.withParts parts).parts (node.parts.map (annotated resolver)) := by
    rw [parts_withParts fits,List.forall₂_map_right_iff]
    exact List.Forall₂.flip (each.imp fun _ _ typed => typed.softens.2)
  have shown := softened (check_withParts valid held) softer
  rw [withParts_again node.fits_annotated] at shown
  exact check_withParts valid shown

theorem Resolver.typeOf_yields {kind : ExprKind}
    (typed : ∀ operand ∈ kind.operands, operand.type = resolver.reference operand) :
    Yields (resolver.typeOf kind) fun type => type = resolver.referenceKind kind := by
  intro known type found same
  rw [typeOf_outcome typed] at same
  cases same
  rfl

theorem Node.operand_child {expr operand : Expr} (member : operand ∈ expr.kind.operands) :
    .ofExpr operand ∈ (Node.ofExpr expr).children :=
  List.mem_append_right _ (List.mem_map_of_mem member)

theorem Node.noted_operands {expr : Expr} (below : ∀ child ∈ (Node.ofExpr expr).children, child.Throughout (Noted resolver)) :
    ∀ operand ∈ expr.kind.operands, operand.type = resolver.reference operand := by
  intro operand member
  have noted := (throughout_children.mp (below _ (operand_child member))).1
  exact Expr.type_of_note noted

theorem Resolver.hooks_note (below : ∀ child ∈ node.children, child.Throughout (Node.Noted resolver)) :
    Yields (resolver.hooks.node node) (Node.Typed resolver node) := by
  cases node with
  | ofExpr expr =>
    refine yields_map.mpr (yields_bind (typeOf_yields (Node.noted_operands below)) fun type same => yields_pure ?_)
    subst same
    obtain ⟨kind,note⟩ := expr
    refine ⟨rfl,Node.throughout_children.mpr ⟨?_,below⟩⟩
    exact congrArg some (reference_eq _).symm
  | ofCondition condition => exact yields_map.mpr (yields_pure ⟨rfl,Node.throughout_children.mpr ⟨trivial,below⟩⟩)
  | ofStatement statement => exact yields_pure ⟨rfl,Node.throughout_children.mpr ⟨trivial,below⟩⟩

theorem Node.noted_filled (fits : Fits node.parts parts) (each : List.Forall₂ (Node.Typed resolver) node.parts parts)
    (inside : List.Forall₂ (Block.Typed resolver) node.blocks blocks) :
    ∀ child ∈ ((node.withParts parts).withBlocks blocks).children, child.Throughout (Noted resolver) := by
  rw [children_filled fits inside.length_eq.symm]
  refine List.forall_mem_append.mpr ⟨forall₂_right (each.imp fun _ _ typed => typed.noted),?_⟩
  have within : ∀ block ∈ blocks, Block.Throughout (Noted resolver) block :=
    forall₂_right (inside.imp fun _ _ typed => typed.noted)
  exact List.forall_mem_flatMap.mpr fun block member =>
    List.forall_mem_map.mpr (Block.throughout_statements.mp (within block member))

theorem forall₂_left {good : α → Prop} {old : List α} {new : List β} (each : List.Forall₂ (fun a _ => good a) old new) :
    ∀ item ∈ old, good item := forall₂_right (List.Forall₂.flip each)

theorem Resolver.hooks_type (resolver : Resolver) : resolver.hooks.Carry
    (fun old new => Node.Typed resolver old new ∧ (old.WellFormed → old.Throughout (Node.Typable resolver)))
    (fun old new => Block.Typed resolver old new ∧
      (Block.WellFormed old → Block.Throughout (Node.Typable resolver) old)) where
  node {node parts blocks} fits each held inside := by
    have typed := each.imp fun _ _ both => both.1
    have within := inside.imp fun _ _ both => both.1
    have below := Node.noted_filled fits typed within
    refine yields_mono (hooks_note below) fun new noted => ⟨⟨?_,noted.noted⟩,fun formed => ?_⟩
    · exact noted.erased.trans (Node.erase_filled fits typed within)
    · obtain ⟨valid,ownParts,ownBlocks⟩ := Node.throughout_parts.mp formed
      have here := forall₂_left (each.imp fun _ _ both => both.2)
      have there := forall₂_left (inside.imp fun _ _ both => both.2)
      exact Node.throughout_parts.mpr ⟨Node.typable_of_held valid fits typed held,
        fun part member => here part member (ownParts part member),
        fun block member => there block member (ownBlocks block member)⟩
  block {old new} each := by
    refine yields_pure ⟨each.imp fun _ _ both => both.1,fun formed => ?_⟩
    have here := forall₂_left (each.imp fun _ _ both => both.2)
    exact Block.throughout_statements.mpr fun statement member =>
      here statement member (Block.throughout_statements.mp formed statement member)

end
end Untangle
