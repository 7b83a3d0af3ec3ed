import Untangle.Breaks.Validation
import Untangle.Proofs.Emission.Shapes

namespace Untangle

-- Every `for`, at any depth, written out: its start stands before a plain loop, and its update ends
-- the body.
mutual
def Statement.unfolded : Statement → Block
  | .branch condition thenBlock elseBlock => [.branch condition (unfoldBlock thenBlock) (unfoldElse elseBlock)]
  | .whileLoop id condition body => [.whileLoop id condition (unfoldBlock body)]
  | .doWhile id condition body => [.doWhile id condition (unfoldBlock body)]
  | .forLoop id start condition update body =>
    unfoldPart start ++ [.whileLoop id condition (unfoldBlock body ++ unfoldPart update)]
  | .switch id discriminant arms => [.switch id discriminant (unfoldArms arms)]
  | .tryCatch body catches => [.tryCatch (unfoldBlock body) (unfoldCatches catches)]
  | .expr value => [.expr value]
  | .assign target value => [.assign target value]
  | .increment var amount => [.increment var amount]
  | .jump brk => [.jump brk]
  | .ret value => [.ret value]
  | .throw exception => [.throw exception]
def unfoldBlock : List Statement → Block
  | [] => []
  | statement :: rest => statement.unfolded ++ unfoldBlock rest
def unfoldPart : Option Statement → Block
  | none => []
  | some statement => statement.unfolded
def unfoldElse : Option (List Statement) → Option Block
  | none => none
  | some block => some (unfoldBlock block)
def unfoldArms : List SwitchArm → List SwitchArm
  | [] => []
  | ⟨labels,body⟩ :: rest => ⟨labels,unfoldBlock body⟩ :: unfoldArms rest
def unfoldCatches : List CatchClause → List CatchClause
  | [] => []
  | ⟨types,body⟩ :: rest => ⟨types,unfoldBlock body⟩ :: unfoldCatches rest
end

theorem unfoldBlock_append (first second : Block) :
    unfoldBlock (first ++ second) = unfoldBlock first ++ unfoldBlock second := by
  induction first with
  | nil => rfl
  | cons statement rest ih => simp [unfoldBlock,ih]

theorem unfoldBlock_single (statement : Statement) : unfoldBlock [statement] = statement.unfolded := by
  simp [unfoldBlock]

namespace Statement

def isFlat (statement : Statement) : Bool := statement.isPlain || statement.isTerminal

variable {statement last : Statement}

theorem unfolded_flat (flat : statement.isFlat = true) : statement.unfolded = [statement] := by
  cases statement <;> first | rfl | cases flat

theorem unfolded_last (statement : Statement) :
    ∃ front last, statement.unfolded = front ++ [last] ∧ (last.isFlat = true → statement = last) := by
  cases statement with
  | forLoop id start condition update body => exact ⟨_,_,rfl,fun flat => nomatch flat⟩
  | branch condition thenBlock elseBlock => exact ⟨[],_,rfl,fun flat => nomatch flat⟩
  | whileLoop id condition body => exact ⟨[],_,rfl,fun flat => nomatch flat⟩
  | doWhile id condition body => exact ⟨[],_,rfl,fun flat => nomatch flat⟩
  | switch id discriminant arms => exact ⟨[],_,rfl,fun flat => nomatch flat⟩
  | tryCatch body catches => exact ⟨[],_,rfl,fun flat => nomatch flat⟩
  | _ => exact ⟨[],_,rfl,fun _ => rfl⟩

end Statement

variable {block : Block} {last : Statement}

theorem unfoldBlock_getLast (flat : last.isFlat = true) :
    (unfoldBlock block).getLast? = some last ↔ block.getLast? = some last := by
  rcases List.eq_nil_or_concat block with rfl | ⟨rest,final,rfl⟩
  · exact Iff.rfl
  · obtain ⟨front,end_,unfolds,same⟩ := final.unfolded_last
    rw [List.concat_eq_append,unfoldBlock_append,unfoldBlock_single,unfolds,← List.append_assoc,
      List.getLast?_concat,List.getLast?_concat,Option.some.injEq,Option.some.injEq]
    constructor
    · rintro rfl
      exact same flat
    · rintro rfl
      rw [Statement.unfolded_flat flat] at unfolds
      have ends := congrArg List.getLast? unfolds
      rw [List.getLast?_concat] at ends
      exact (Option.some.inj ends).symm

theorem unfoldBlock_dropLast (flat : last.isFlat = true) (ends : block.getLast? = some last) :
    unfoldBlock block.dropLast = (unfoldBlock block).dropLast := by
  obtain ⟨rest,rfl⟩ := List.getLast?_eq_some_iff.mp ends
  rw [unfoldBlock_append,unfoldBlock_single,Statement.unfolded_flat flat,List.dropLast_concat,
    List.dropLast_concat]

theorem unfolded_ne_nil (statement : Statement) : statement.unfolded ≠ [] := by
  obtain ⟨front,last,unfolds,_⟩ := statement.unfolded_last
  simp [unfolds]

theorem unfoldBlock_isEmpty (block : Block) : (unfoldBlock block).isEmpty = block.isEmpty := by
  cases block with
  | nil => rfl
  | cons statement rest => simp [unfoldBlock,unfolded_ne_nil]

theorem unfoldBlock_singleton (flat : last.isFlat = true) : unfoldBlock block = [last] ↔ block = [last] := by
  constructor
  · intro unfolds
    have ends : block.getLast? = some last := (unfoldBlock_getLast flat).mp (by rw [unfolds]; rfl)
    have front := unfoldBlock_dropLast flat ends
    rw [unfolds,List.dropLast_singleton] at front
    obtain ⟨rest,rfl⟩ := List.getLast?_eq_some_iff.mp ends
    rw [List.dropLast_concat] at front
    have empty := unfoldBlock_isEmpty rest
    rw [front] at empty
    rw [List.isEmpty_iff.mp empty.symm]
    rfl
  · rintro rfl
    rw [unfoldBlock_single,Statement.unfolded_flat flat]

end Untangle
