import Untangle.Proofs.Rebuilding.Parts

namespace Untangle

-- A tree without what was noted on it and without any numbering: no annotations, no ids of loops and
-- switches, and jumps that keep only their kind and whether they cross another construct.
mutual
def Expr.erase : Expr → Expr
  | ⟨kind,_⟩ => ⟨kind.erase,none⟩
def ExprKind.erase : ExprKind → ExprKind
  | .var v => .var v
  | .literal value => .literal value
  | .arithmetic op left right => .arithmetic op left.erase right.erase
  | .negate operand => .negate operand.erase
  | .numberCompare left right => .numberCompare left.erase right.erase
  | .instanceOf value type => .instanceOf value.erase type
  | .cast target value => .cast target value.erase
  | .staticField field => .staticField field
  | .instanceField receiver field => .instanceField receiver.erase field
  | .element array index => .element array.erase index.erase
  | .arrayLength array => .arrayLength array.erase
  | .freeCall kind method args => .freeCall kind method (eraseExprs args)
  | .boundCall kind receiver method args => .boundCall kind receiver.erase method (eraseExprs args)
  | .new constructor args => .new constructor (eraseExprs args)
  | .newArray component size => .newArray component size.erase
  | .filledArray component size values => .filledArray component size.erase (eraseExprs values)
  | .ternary condition thenValue elseValue => .ternary condition.erase thenValue.erase elseValue.erase
  | .concat parts => .concat (eraseExprs parts)
def Condition.erase : Condition → Condition
  | .compare op left right => .compare op left.erase right.erase
  | .test value inverted => .test value.erase inverted
  | .conj parts => .conj (eraseConditions parts)
  | .disj parts => .disj (eraseConditions parts)
  | .not inner => .not inner.erase
  | .constant value => .constant value
def eraseExprs : List Expr → List Expr
  | [] => []
  | expr :: rest => expr.erase :: eraseExprs rest
def eraseConditions : List Condition → List Condition
  | [] => []
  | part :: rest => part.erase :: eraseConditions rest
end

def Break.erase (brk : Break) : Break := ⟨0,brk.kind,none,brk.nested⟩

mutual
def Statement.erase : Statement → Statement
  | .expr value => .expr value.erase
  | .assign target value => .assign target.erase value.erase
  | .increment var amount => .increment var amount
  | .branch condition thenBlock none => .branch condition.erase (eraseStatements thenBlock) none
  | .branch condition thenBlock (some elseBlock) =>
    .branch condition.erase (eraseStatements thenBlock) (some (eraseStatements elseBlock))
  | .whileLoop _ condition body => .whileLoop 0 condition.erase (eraseStatements body)
  | .doWhile _ condition body => .doWhile 0 condition.erase (eraseStatements body)
  | .forLoop _ start condition update body =>
    .forLoop 0 (eraseOptional start) condition.erase (eraseOptional update) (eraseStatements body)
  | .switch _ discriminant arms => .switch 0 discriminant.erase (eraseArms arms)
  | .jump brk => .jump brk.erase
  | .ret none => .ret none
  | .ret (some value) => .ret (some value.erase)
  | .throw exception => .throw exception.erase
  | .tryCatch body catches => .tryCatch (eraseStatements body) (eraseCatches catches)
def eraseOptional : Option Statement → Option Statement
  | none => none
  | some statement => some statement.erase
def eraseStatements : List Statement → List Statement
  | [] => []
  | statement :: rest => statement.erase :: eraseStatements rest
def eraseArms : List SwitchArm → List SwitchArm
  | [] => []
  | ⟨labels,body⟩ :: rest => ⟨labels,eraseStatements body⟩ :: eraseArms rest
def eraseCatches : List CatchClause → List CatchClause
  | [] => []
  | ⟨types,body⟩ :: rest => ⟨types,eraseStatements body⟩ :: eraseCatches rest
end

def Block.erase (block : Block) : Block := eraseStatements block

def Node.erase : Node → Node
  | ofExpr expr => ofExpr expr.erase
  | ofCondition condition => ofCondition condition.erase
  | ofStatement statement => ofStatement statement.erase

theorem eraseExprs_map (exprs : List Expr) : eraseExprs exprs = exprs.map Expr.erase := by
  induction exprs with
  | nil => rfl
  | cons expr rest ih => simp [eraseExprs,ih]

theorem eraseConditions_map (parts : List Condition) : eraseConditions parts = parts.map Condition.erase := by
  induction parts with
  | nil => rfl
  | cons part rest ih => simp [eraseConditions,ih]

theorem eraseOptional_map (optional : Option Statement) : eraseOptional optional = optional.map Statement.erase := by
  cases optional <;> rfl

theorem eraseStatements_map (statements : List Statement) :
    eraseStatements statements = statements.map Statement.erase := by
  induction statements with
  | nil => rfl
  | cons statement rest ih => simp [eraseStatements,ih]

theorem eraseArms_map (arms : List SwitchArm) :
    eraseArms arms = arms.map fun arm => ⟨arm.labels,arm.body.map Statement.erase⟩ := by
  induction arms with
  | nil => rfl
  | cons arm rest ih =>
    obtain ⟨labels,body⟩ := arm
    simp [eraseArms,eraseStatements_map,ih]

theorem eraseCatches_map (catches : List CatchClause) :
    eraseCatches catches = catches.map fun clause => ⟨clause.types,clause.body.map Statement.erase⟩ := by
  induction catches with
  | nil => rfl
  | cons clause rest ih =>
    obtain ⟨types,body⟩ := clause
    simp [eraseCatches,eraseStatements_map,ih]

theorem ExprKind.children_erase (kind : ExprKind) : kind.erase.children = kind.children.map Node.erase := by
  cases kind <;> simp [ExprKind.erase,children,operands,condition?,eraseExprs_map,Function.comp_def,Node.erase]

theorem Condition.children_erase (condition : Condition) :
    condition.erase.children = condition.children.map Node.erase := by
  cases condition <;> simp [Condition.erase,children,operands,eraseConditions_map,Function.comp_def,Node.erase]

theorem Statement.children_erase (statement : Statement) :
    statement.erase.children = statement.children.map Node.erase := by
  cases statement with
  | branch condition thenBlock elseBlock =>
    cases elseBlock <;> simp [Statement.erase,children,eraseStatements_map,Function.comp_def,Node.erase]
  | ret value => cases value <;> rfl
  | forLoop id start condition update body =>
    cases start <;> cases update <;>
      simp [Statement.erase,children,eraseOptional_map,eraseStatements_map,Function.comp_def,Node.erase]
  | _ =>
    simp [Statement.erase,children,eraseStatements_map,eraseArms_map,eraseCatches_map,Function.comp_def,
      List.map_flatMap,List.flatMap_map,Node.erase]

theorem Node.children_erase (node : Node) : node.erase.children = node.children.map Node.erase := by
  cases node with
  | ofExpr expr =>
    obtain ⟨kind,note⟩ := expr
    exact kind.children_erase
  | ofCondition condition => exact condition.children_erase
  | ofStatement statement => exact statement.children_erase

theorem Node.head_erase (node : Node) : node.erase.head = node.head := by
  cases node with
  | ofExpr expr =>
    obtain ⟨kind,note⟩ := expr
    cases kind <;> rfl
  | ofCondition condition => cases condition <;> rfl
  | ofStatement statement =>
    cases statement with
    | branch condition thenBlock elseBlock =>
      cases elseBlock <;> simp [Node.erase,Statement.erase,head,Statement.head,eraseStatements_map]
    | ret value => cases value <;> rfl
    | forLoop id start condition update body => cases start <;> cases update <;> rfl
    | switch id discriminant arms =>
      simp [Node.erase,Statement.erase,head,Statement.head,eraseArms_map,Function.comp_def]
    | tryCatch body catches =>
      simp [Node.erase,Statement.erase,head,Statement.head,eraseStatements_map,eraseCatches_map,Function.comp_def]
    | _ => rfl

end Untangle
