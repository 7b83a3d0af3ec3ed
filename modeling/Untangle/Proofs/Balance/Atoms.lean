import Mathlib.Algebra.BigOperators.Group.Multiset.Basic
import Untangle.Proofs.Emission.Shapes
import Untangle.Structuring.Constructs

namespace Untangle

-- The statements of a tree that are no constructs and no jumps, however deep they stand. The first and
-- last parts of a `for` count.
mutual
def Statement.atoms : Statement → Multiset Statement
  | .branch _ thenBlock none => blockAtoms thenBlock
  | .branch _ thenBlock (some elseBlock) => blockAtoms thenBlock + blockAtoms elseBlock
  | .whileLoop _ _ body => blockAtoms body
  | .doWhile _ _ body => blockAtoms body
  | .forLoop _ none _ none body => blockAtoms body
  | .forLoop _ (some start) _ none body => start.atoms + blockAtoms body
  | .forLoop _ none _ (some update) body => blockAtoms body + update.atoms
  | .forLoop _ (some start) _ (some update) body => start.atoms + (blockAtoms body + update.atoms)
  | .switch _ _ arms => armAtoms arms
  | .jump _ => 0
  | .tryCatch body catches => blockAtoms body + catchAtoms catches
  | .expr value => {.expr value}
  | .assign target value => {.assign target value}
  | .increment var amount => {.increment var amount}
  | .ret value => {.ret value}
  | .throw exception => {.throw exception}
def blockAtoms : List Statement → Multiset Statement
  | [] => 0
  | statement :: rest => statement.atoms + blockAtoms rest
def armAtoms : List SwitchArm → Multiset Statement
  | [] => 0
  | ⟨_,body⟩ :: rest => blockAtoms body + armAtoms rest
def catchAtoms : List CatchClause → Multiset Statement
  | [] => 0
  | ⟨_,body⟩ :: rest => blockAtoms body + catchAtoms rest
end

theorem blockAtoms_append (first second : Block) :
    blockAtoms (first ++ second) = blockAtoms first + blockAtoms second := by
  induction first with
  | nil => simp [blockAtoms]
  | cons statement rest ih => simp [blockAtoms,ih,add_assoc]

theorem blockAtoms_single (statement : Statement) : blockAtoms [statement] = statement.atoms := by
  simp [blockAtoms]

theorem armAtoms_bodies (arms : List SwitchArm) : armAtoms arms = blockAtoms (arms.flatMap (·.body)) := by
  induction arms with
  | nil => simp [armAtoms,blockAtoms]
  | cons arm rest ih =>
    obtain ⟨labels,body⟩ := arm
    simp [armAtoms,ih,blockAtoms_append]

theorem catchAtoms_bodies (catches : List CatchClause) :
    catchAtoms catches = blockAtoms (catches.flatMap (·.body)) := by
  induction catches with
  | nil => simp [catchAtoms,blockAtoms]
  | cons clause rest ih =>
    obtain ⟨types,body⟩ := clause
    simp [catchAtoms,ih,blockAtoms_append]

theorem plain_atoms {statement : Statement} (plain : statement.isPlain = true) : statement.atoms = {statement} := by
  cases statement <;> first | rfl | cases plain

theorem forLoop_atoms {id : BreakableId} {condition : Condition} (start update : Option Statement) (body : Block) :
    (Statement.forLoop id start condition update body).atoms =
      blockAtoms (start.toList ++ (body ++ update.toList)) := by
  cases start <;> cases update <;>
    simp [Statement.atoms,blockAtoms_append,blockAtoms]

theorem branchForm_atoms (condition : Condition) (thenBlock elseBlock : Block) (openEnded : Bool) :
    blockAtoms (branchForm condition thenBlock elseBlock openEnded) = blockAtoms (thenBlock ++ elseBlock) := by
  unfold branchForm
  rw [blockAtoms_append]
  split
  · rename_i absent
    simp [List.isEmpty_iff.mp absent,blockAtoms,Statement.atoms]
  · split
    · rename_i absent
      simp [List.isEmpty_iff.mp absent,blockAtoms,Statement.atoms]
    · split
      · simp [blockAtoms,Statement.atoms]
      · split
        · simp [blockAtoms,Statement.atoms,add_comm]
        · simp [blockAtoms,Statement.atoms]

end Untangle
