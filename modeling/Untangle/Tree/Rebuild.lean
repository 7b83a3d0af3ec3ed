import Untangle.Tree.Statement

namespace Untangle

-- A bottom-up pass that may fail on a constraint. Its state is what has been seen so far, and a
-- failure keeps it.
abbrev Rebuild (σ α : Type) := ExceptT ConstraintError (StateM σ) α

structure Hooks (σ : Type) where
  expr : Expr → Rebuild σ Expr
  condition : Condition → Rebuild σ Condition
  block : Block → Rebuild σ Block

def Hooks.none (σ : Type) : Hooks σ := ⟨pure,pure,pure⟩

def recheck {σ α : Type} (demand : Except ConstraintError Unit) (node : α) : Rebuild σ α :=
  match demand with
  | .error cause => throw cause
  | .ok _ => pure node

mutual
def Expr.rebuild {σ : Type} (hooks : Hooks σ) : Expr → Rebuild σ Expr
  | ⟨kind,note⟩ => do
    let kind ← kind.rebuild hooks
    hooks.expr ⟨kind,note⟩
def ExprKind.rebuild {σ : Type} (hooks : Hooks σ) : ExprKind → Rebuild σ ExprKind
  | .var v => pure (.var v)
  | .literal value => pure (.literal value)
  | .arithmetic op left right => do
    let left ← left.rebuild hooks
    let right ← right.rebuild hooks
    let node := ExprKind.arithmetic op left right
    recheck node.check node
  | .negate operand => do
    let operand ← operand.rebuild hooks
    let node := ExprKind.negate operand
    recheck node.check node
  | .numberCompare left right => do
    let left ← left.rebuild hooks
    let right ← right.rebuild hooks
    let node := ExprKind.numberCompare left right
    recheck node.check node
  | .instanceOf value type => do
    let value ← value.rebuild hooks
    let node := ExprKind.instanceOf value type
    recheck node.check node
  | .cast target value => do
    let value ← value.rebuild hooks
    let node := ExprKind.cast target value
    recheck node.check node
  | .staticField field => pure (.staticField field)
  | .instanceField receiver field => do
    let receiver ← receiver.rebuild hooks
    let node := ExprKind.instanceField receiver field
    recheck node.check node
  | .element array index => do
    let array ← array.rebuild hooks
    let index ← index.rebuild hooks
    let node := ExprKind.element array index
    recheck node.check node
  | .arrayLength array => do
    let array ← array.rebuild hooks
    let node := ExprKind.arrayLength array
    recheck node.check node
  | .freeCall kind method args => do
    let args ← rebuildExprs hooks args
    let node := ExprKind.freeCall kind method args
    recheck node.check node
  | .boundCall kind receiver method args => do
    let receiver ← receiver.rebuild hooks
    let args ← rebuildExprs hooks args
    let node := ExprKind.boundCall kind receiver method args
    recheck node.check node
  | .new constructor args => do
    let args ← rebuildExprs hooks args
    let node := ExprKind.new constructor args
    recheck node.check node
  | .newArray component size => do
    let size ← size.rebuild hooks
    let node := ExprKind.newArray component size
    recheck node.check node
  | .filledArray component size values => do
    let size ← size.rebuild hooks
    let values ← rebuildExprs hooks values
    let node := ExprKind.filledArray component size values
    recheck node.check node
  | .ternary condition thenValue elseValue => do
    let condition ← condition.rebuild hooks
    let thenValue ← thenValue.rebuild hooks
    let elseValue ← elseValue.rebuild hooks
    let node := ExprKind.ternary condition thenValue elseValue
    recheck node.check node
  | .concat parts => do
    let parts ← rebuildExprs hooks parts
    let node := ExprKind.concat parts
    recheck node.check node
def Condition.rebuild {σ : Type} (hooks : Hooks σ) : Condition → Rebuild σ Condition
  | .compare op left right => do
    let left ← left.rebuild hooks
    let right ← right.rebuild hooks
    let node := Condition.compare op left right
    hooks.condition (← recheck node.check node)
  | .test value inverted => do
    let value ← value.rebuild hooks
    let node := Condition.test value inverted
    hooks.condition (← recheck node.check node)
  | .conj parts => do hooks.condition (.conj (← rebuildConditions hooks parts))
  | .disj parts => do hooks.condition (.disj (← rebuildConditions hooks parts))
  | .not inner => do hooks.condition (.not (← inner.rebuild hooks))
  | .constant value => hooks.condition (.constant value)
def rebuildExprs {σ : Type} (hooks : Hooks σ) : List Expr → Rebuild σ (List Expr)
  | [] => pure []
  | expr :: rest => do
    let expr ← expr.rebuild hooks
    let rest ← rebuildExprs hooks rest
    pure (expr :: rest)
def rebuildConditions {σ : Type} (hooks : Hooks σ) : List Condition → Rebuild σ (List Condition)
  | [] => pure []
  | part :: rest => do
    let part ← part.rebuild hooks
    let rest ← rebuildConditions hooks rest
    pure (part :: rest)
end

-- The labels of a switch were settled when it was built; its discriminant is checked again before
-- the arms are entered.
mutual
def Statement.rebuild {σ : Type} (hooks : Hooks σ) : Statement → Rebuild σ Statement
  | .expr value => do
    let value ← value.rebuild hooks
    pure (.expr value)
  | .assign target value => do
    let target ← target.rebuild hooks
    let value ← value.rebuild hooks
    let node := Statement.assign target value
    recheck node.check node
  | .increment var amount => pure (.increment var amount)
  | .branch condition thenBlock elseBlock => do
    let condition ← condition.rebuild hooks
    let thenBlock ← hooks.block (← rebuildStatements hooks thenBlock)
    match elseBlock with
    | none => pure (.branch condition thenBlock none)
    | some elseBlock => do
      let elseBlock ← hooks.block (← rebuildStatements hooks elseBlock)
      pure (.branch condition thenBlock (some elseBlock))
  | .whileLoop id condition body => do
    let condition ← condition.rebuild hooks
    let body ← hooks.block (← rebuildStatements hooks body)
    pure (.whileLoop id condition body)
  | .doWhile id condition body => do
    let condition ← condition.rebuild hooks
    let body ← hooks.block (← rebuildStatements hooks body)
    pure (.doWhile id condition body)
  | .forLoop id start condition update body => do
    let start ← match start with
      | none => pure none
      | some start => do pure (some (← start.rebuild hooks))
    let condition ← condition.rebuild hooks
    let update ← match update with
      | none => pure none
      | some update => do pure (some (← update.rebuild hooks))
    let body ← hooks.block (← rebuildStatements hooks body)
    pure (.forLoop id start condition update body)
  | .switch id discriminant arms => do
    let discriminant ← discriminant.rebuild hooks
    let discriminant ← recheck (expect "discriminant" .numeric discriminant) discriminant
    let arms ← rebuildArms hooks arms
    pure (.switch id discriminant arms)
  | .jump brk => pure (.jump brk)
  | .ret none => pure (.ret none)
  | .ret (some value) => do
    let value ← value.rebuild hooks
    pure (.ret (some value))
  | .throw exception => do
    let exception ← exception.rebuild hooks
    let node := Statement.throw exception
    recheck node.check node
  | .tryCatch body catches => do
    let body ← hooks.block (← rebuildStatements hooks body)
    let catches ← rebuildCatches hooks catches
    pure (.tryCatch body catches)
def rebuildStatements {σ : Type} (hooks : Hooks σ) : List Statement → Rebuild σ (List Statement)
  | [] => pure []
  | statement :: rest => do
    let statement ← statement.rebuild hooks
    let rest ← rebuildStatements hooks rest
    pure (statement :: rest)
def rebuildArms {σ : Type} (hooks : Hooks σ) : List SwitchArm → Rebuild σ (List SwitchArm)
  | [] => pure []
  | ⟨labels,body⟩ :: rest => do
    let body ← hooks.block (← rebuildStatements hooks body)
    let rest ← rebuildArms hooks rest
    pure (⟨labels,body⟩ :: rest)
def rebuildCatches {σ : Type} (hooks : Hooks σ) : List CatchClause → Rebuild σ (List CatchClause)
  | [] => pure []
  | ⟨types,body⟩ :: rest => do
    let body ← hooks.block (← rebuildStatements hooks body)
    let rest ← rebuildCatches hooks rest
    pure (⟨types,body⟩ :: rest)
end

def Block.rebuild {σ : Type} (hooks : Hooks σ) (block : Block) : Rebuild σ Block := do
  hooks.block (← rebuildStatements hooks block)

def Rebuild.from {σ α : Type} (state : σ) (pass : Rebuild σ α) : Except ConstraintError α × σ :=
  StateT.run (ExceptT.run pass) state

end Untangle
