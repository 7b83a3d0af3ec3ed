import Untangle.Proofs.Folding.Alike
import Untangle.Proofs.Rebuilding.Steps

namespace Untangle
open Meaning Rebuild

namespace Interpretation
variable {σ : Type u} {ν : Type}

-- What a three-way comparison compares are numbers, whatever the store.
def Numeric (i : Interpretation σ ν) : Node → Prop
  | .ofExpr expr => expr.kind.head = .numberCompare →
    ∀ store, ∀ found ∈ expr.operands.map (i.value store), (i.number? found).isSome
  | _ => True

structure Replaces (i : Interpretation σ ν) (old new : Node) : Prop where
  numeric : new.Throughout i.Numeric
  alike : i.Alike old new

structure ReplacesBlock (i : Interpretation σ ν) (old new : Block) : Prop where
  numeric : Block.Throughout i.Numeric new
  runs : i.meaning.Runs new = i.meaning.Runs old

variable {i : Interpretation σ ν}

theorem numeric_alike {old new : Node} (alike : i.Alike old new) (numeric : i.Numeric old) : i.Numeric new := by
  cases alike with
  | expr head operands _ =>
    intro compares store found member
    rw [operands] at member
    exact numeric (head.symm.trans compares) store found member
  | _ => trivial

theorem replaces_self {node : Node} (numeric : node.Throughout i.Numeric) : i.Replaces node node :=
  ⟨numeric,alike_self node⟩

theorem Replaces.trans {first second third : Node} (here : i.Replaces first second) (there : i.Replaces second third) :
    i.Replaces first third :=
  ⟨there.numeric,here.alike.trans there.alike⟩

theorem ReplacesBlock.trans {first second third : Block} (here : i.ReplacesBlock first second)
    (there : i.ReplacesBlock second third) : i.ReplacesBlock first third :=
  ⟨there.numeric,there.runs.trans here.runs⟩

theorem replaces_statements {old new : Block}
    (each : List.Forall₂ (fun a b => i.Replaces (.ofStatement a) (.ofStatement b)) old new) : i.ReplacesBlock old new where
  numeric := Block.throughout_statements.mpr (forall₂_right (each.imp fun _ _ replaces => replaces.numeric))
  runs := runs_congr (each.imp fun _ _ replaces => executes_alike replaces.alike)

theorem replaces_filled {node : Node} {parts : List Node} {blocks : List Block} (fits : Fits node.parts parts)
    (here : i.Numeric node) (each : List.Forall₂ i.Replaces node.parts parts)
    (inside : List.Forall₂ i.ReplacesBlock node.blocks blocks) :
    i.Replaces node ((node.withParts parts).withBlocks blocks) := by
  have alike : i.Alike node ((node.withParts parts).withBlocks blocks) :=
    alike_filled fits (each.imp fun _ _ replaces => replaces.alike) (inside.imp fun _ _ replaces => replaces.runs)
  refine ⟨(Node.throughout_filled fits inside.length_eq.symm).mpr ⟨numeric_alike alike here,?_,?_⟩,alike⟩
  · exact forall₂_right (each.imp fun _ _ replaces => replaces.numeric)
  · exact forall₂_right (inside.imp fun _ _ replaces => replaces.numeric)

structure Preserved (i : Interpretation σ ν) {τ : Type} (hooks : Hooks τ) : Prop where
  expr : ∀ expr, (Node.ofExpr expr).Throughout i.Numeric →
    Yields (hooks.expr expr) fun new => i.Replaces (.ofExpr expr) (.ofExpr new)
  condition : ∀ condition, (Node.ofCondition condition).Throughout i.Numeric →
    Yields (hooks.condition condition) fun new => i.Replaces (.ofCondition condition) (.ofCondition new)
  block : ∀ block, Block.Throughout i.Numeric block → Yields (hooks.block block) (i.ReplacesBlock block)

namespace Preserved
variable {τ : Type} {hooks : Hooks τ}

theorem node (preserved : i.Preserved hooks) {node : Node} (numeric : node.Throughout i.Numeric) :
    Yields (hooks.node node) (i.Replaces node) := by
  cases node with
  | ofExpr expr => exact yields_map.mpr (preserved.expr expr numeric)
  | ofCondition condition => exact yields_map.mpr (preserved.condition condition numeric)
  | ofStatement statement => exact yields_pure (replaces_self numeric)

theorem carry (preserved : i.Preserved hooks) :
    hooks.Carry (fun old new => old.Throughout i.Numeric → i.Replaces old new)
      fun old new => Block.Throughout i.Numeric old → i.ReplacesBlock old new where
  node {node parts blocks} fits each _ inside := by
    refine yields_under fun numeric => ?_
    obtain ⟨here,ownParts,ownBlocks⟩ := Node.throughout_parts.mp numeric
    have filled := replaces_filled fits here (forall₂_under each ownParts) (forall₂_under inside ownBlocks)
    exact yields_mono (preserved.node filled.numeric) fun _ hooked => filled.trans hooked
  block {old new} each := by
    refine yields_under fun numeric => ?_
    have rebuilt := replaces_statements (forall₂_under each (Block.throughout_statements.mp numeric))
    exact yields_mono (preserved.block new rebuilt.numeric) fun _ hooked => rebuilt.trans hooked

theorem rebuild (preserved : i.Preserved hooks) {block : Block} (numeric : Block.Throughout i.Numeric block) :
    Yields (block.rebuild hooks) (i.ReplacesBlock block) :=
  yields_mono (block.rebuild_carries preserved.carry) fun _ replaces => replaces numeric

end Preserved
end Interpretation
end Untangle
