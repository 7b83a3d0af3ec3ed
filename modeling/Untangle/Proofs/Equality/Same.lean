import Mathlib.Logic.Basic
import Mathlib.Logic.Relation
import Untangle.Proofs.Equality.Refill

namespace Untangle

theorem zip_erased {left right : List Node} (long : left.length = right.length) :
    (∀ pair ∈ left.zip right, pair.1.erase = pair.2.erase) ↔ left.map Node.erase = right.map Node.erase := by
  induction left generalizing right with
  | nil =>
    obtain rfl := List.eq_nil_of_length_eq_zero long.symm
    simp
  | cons a rest ih =>
    obtain ⟨b,others,rfl⟩ := List.exists_cons_of_length_eq_add_one long.symm
    rw [List.zip_cons_cons,List.forall_mem_cons,ih (Nat.succ.inj long),List.map_cons,List.map_cons,List.cons.injEq]

theorem samePairs_iff (pairs : List (Node × Node)) :
    samePairs pairs = true ↔ ∀ pair ∈ pairs, pair.1.erase = pair.2.erase := by
  induction pairs using samePairs.induct with
  | case1 => simp [samePairs]
  | case2 a b rest equal ih =>
    obtain ⟨head,long⟩ := equal
    rw [samePairs,if_pos ⟨head,long⟩,ih,List.forall_mem_append,zip_erased long,List.forall_mem_cons,Node.erase_eq_iff]
    simp only [head,true_and]
  | case3 a b rest other =>
    rw [samePairs,if_neg other,List.forall_mem_cons]
    constructor
    · intro impossible
      cases impossible
    · intro ⟨same,_⟩
      obtain ⟨head,children⟩ := Node.erase_eq_iff.mp same
      have long := congrArg List.length children
      rw [List.length_map,List.length_map] at long
      exact absurd ⟨head,long⟩ other

theorem Node.same_iff {a b : Node} : a.same b = true ↔ a.erase = b.erase := by
  unfold same
  rw [samePairs_iff,List.forall_mem_singleton]

theorem Block.same_iff {a b : Block} : Block.same a b = true ↔ Block.erase a = Block.erase b := by
  unfold Block.same Block.erase
  rw [Bool.and_eq_true,beq_iff_eq,samePairs_iff,eraseStatements_map,eraseStatements_map]
  have nodes (block : Block) : (block.map Node.ofStatement).map Node.erase =
      (block.map Statement.erase).map Node.ofStatement := by
    rw [List.map_map,List.map_map]
    rfl
  constructor
  · intro ⟨long,each⟩
    have erased := (zip_erased (by simpa using long)).mp each
    rw [nodes,nodes] at erased
    have both := congrArg statementsOf erased
    rwa [statementsOf_map,statementsOf_map] at both
  · intro same
    have long : a.length = b.length := by simpa using congrArg List.length same
    refine ⟨long,(zip_erased (by simpa using long)).mpr ?_⟩
    rw [nodes,nodes,same]

namespace Node

-- The second tree is the first one with an annotation put on one expression, at any depth.
inductive Annotated : Node → Node → Prop where
  | here (expr : Expr) (type : Ty) : Annotated (.ofExpr expr) (.ofExpr (expr.annotate type))
  | part {node old new : Node} {before after : List Node} : node.parts = before ++ old :: after →
    Annotated old new → Annotated node (node.withParts (before ++ new :: after))
  | inner {node : Node} {old new : Statement} {above below : Block} {before after : List Block} :
    node.blocks = before ++ (above ++ old :: below) :: after → Annotated (.ofStatement old) (.ofStatement new) →
    Annotated node (node.withBlocks (before ++ (above ++ new :: below) :: after))

variable {old new : Node}

theorem sort_erase (node : Node) : node.erase.sort = node.sort := by cases node <;> rfl

namespace Annotated

theorem erased (annotated : Annotated old new) : new.erase = old.erase := by
  induction annotated with
  | here expr type =>
    obtain ⟨kind,note⟩ := expr
    rfl
  | @part node old new before after held _ ih =>
    have sorts : new.sort = old.sort := by rw [← new.sort_erase,ih,old.sort_erase]
    have fits : Fits node.parts (before ++ new :: after) := by
      rw [Fits,held,List.map_append,List.map_append,List.map_cons,List.map_cons,sorts]
    refine erase_eq_iff.mpr ⟨node.head_withParts _,?_⟩
    rw [children_split,children_split,parts_withParts fits,blocks_withParts,held]
    simp [ih]
  | @inner node old new above below before after held _ ih =>
    have long : (before ++ (above ++ new :: below) :: after).map List.length = node.blocks.map List.length := by
      simp [held]
    have count : (before ++ (above ++ new :: below) :: after).length = node.blocks.length := by simp [held]
    refine erase_eq_iff.mpr ⟨head_withBlocks long,?_⟩
    rw [children_split,children_split,parts_withBlocks,blocks_withBlocks count,held]
    simp [ih]

end Annotated

theorem same_equivalence : Equivalence fun a b : Node => a.same b = true := by
  simp only [same_iff]
  exact eq_equivalence.comap erase

theorem same_noted (erased : new.erase = old.erase) (other : Node) :
    new.same other = old.same other ∧ other.same new = other.same old := by
  refine ⟨Bool.eq_iff_iff.mpr ?_,Bool.eq_iff_iff.mpr ?_⟩ <;> rw [same_iff,same_iff,erased]

end Node

namespace Block

theorem same_equivalence : Equivalence fun a b : Block => Block.same a b = true := by
  simp only [same_iff]
  exact eq_equivalence.comap erase

theorem same_noted {old new : Block} (erased : Block.erase new = Block.erase old) (other : Block) :
    Block.same new other = Block.same old other ∧ Block.same other new = Block.same other old := by
  refine ⟨Bool.eq_iff_iff.mpr ?_,Bool.eq_iff_iff.mpr ?_⟩ <;> rw [same_iff,same_iff,erased]

end Block

-- Comparing two trees pair by pair tells whether they are one tree once annotations, ids and the targets of
-- jumps are erased. So it is an equivalence, and it sees no annotation.
theorem same_iff_erased :
    (∀ a b : Expr, a.same b = true ↔ a.erase = b.erase) ∧
      (∀ a b : Condition, a.same b = true ↔ a.erase = b.erase) ∧
      (∀ a b : Statement, a.same b = true ↔ a.erase = b.erase) ∧
      (∀ a b : Block, Block.same a b = true ↔ Block.erase a = Block.erase b) ∧
      (Equivalence fun a b : Node => a.same b = true) ∧
      (Equivalence fun a b : Block => Block.same a b = true) ∧
      (∀ tree noted, Node.Annotated tree noted →
        ∀ other, noted.same other = tree.same other ∧ other.same noted = other.same tree) ∧
      ∀ statement noted, Node.Annotated (.ofStatement statement) (.ofStatement noted) →
        ∀ (above below other : Block),
          Block.same (above ++ noted :: below) other = Block.same (above ++ statement :: below) other ∧
            Block.same other (above ++ noted :: below) = Block.same other (above ++ statement :: below) := by
  refine ⟨?_,?_,?_,fun a b => Block.same_iff,Node.same_equivalence,Block.same_equivalence,?_,?_⟩
  · intro a b
    exact Node.same_iff.trans (Node.ofExpr.injEq _ _).to_iff
  · intro a b
    exact Node.same_iff.trans (Node.ofCondition.injEq _ _).to_iff
  · intro a b
    exact Node.same_iff.trans (Node.ofStatement.injEq _ _).to_iff
  · intro tree noted annotated
    exact Node.same_noted annotated.erased
  · intro statement noted annotated above below other
    have erased : noted.erase = statement.erase := Node.ofStatement.inj annotated.erased
    apply Block.same_noted
    rw [Block.erase,Block.erase,eraseStatements_map,eraseStatements_map]
    simp [erased]

def adding (right : Expr) : Expr := .plain (.arithmetic .add (.literal (.int 1)) right)
def spinning (right : Expr) : Statement := .whileLoop 3 (.constant true) [.expr (adding right)]

theorem spinning_annotated (right : Expr) (type : Ty) :
    Node.Annotated (.ofStatement (spinning right)) (.ofStatement (spinning (right.annotate type))) := by
  have operand := Node.Annotated.here right type
  have sum : Node.Annotated (.ofExpr (adding right)) (.ofExpr (adding (right.annotate type))) :=
    @Node.Annotated.part (.ofExpr (adding right)) _ _ [.ofExpr (.literal (.int 1))] [] rfl operand
  have statement : Node.Annotated (.ofStatement (.expr (adding right)))
      (.ofStatement (.expr (adding (right.annotate type)))) :=
    @Node.Annotated.part (.ofStatement (.expr (adding right))) _ _ [] [] rfl sum
  exact @Node.Annotated.inner (.ofStatement (spinning right)) _ _ [] [] [] [] rfl statement

theorem spinning_same :
    Node.Annotated (.ofStatement (spinning (.literal (.int 2))))
        (.ofStatement (spinning ((Expr.literal (.int 2)).annotate .int))) ∧
      (spinning ((Expr.literal (.int 2)).annotate .int)).same (spinning (.literal (.int 2))) = true ∧
      Block.same [spinning ((Expr.literal (.int 2)).annotate .int)] [spinning (.literal (.int 2))] = true := by
  have annotated := spinning_annotated (.literal (.int 2)) .int
  obtain ⟨_,_,_,_,node,block,noted,within⟩ := same_iff_erased
  refine ⟨annotated,?_,?_⟩
  · exact (noted _ _ annotated (.ofStatement (spinning (.literal (.int 2))))).1.trans (node.refl _)
  · have same := (within _ _ annotated [] [] [spinning (.literal (.int 2))]).1
    exact same.trans (block.refl _)

end Untangle
