import Untangle.Tree.Statement

namespace Untangle

inductive Node where
  | ofExpr (expr : Expr)
  | ofCondition (condition : Condition)
  | ofStatement (statement : Statement)

-- Children in visiting order. A ternary shows its condition before its operands; a statement shows
-- its own conditions and expressions before its blocks; a `for` shows start, condition, update, body.
def ExprKind.children (kind : ExprKind) : List Node :=
  kind.condition?.toList.map .ofCondition ++ kind.operands.map .ofExpr

def Condition.children : Condition → List Node
  | conj parts => parts.map .ofCondition
  | disj parts => parts.map .ofCondition
  | not inner => [.ofCondition inner]
  | other => other.operands.map .ofExpr

def Statement.children : Statement → List Node
  | expr value => [.ofExpr value]
  | assign target value => [.ofExpr target,.ofExpr value]
  | increment _ _ => []
  | branch condition thenBlock elseBlock =>
    .ofCondition condition :: (thenBlock.map .ofStatement ++ elseBlock.toList.flatMap (·.map .ofStatement))
  | whileLoop _ condition body => .ofCondition condition :: body.map .ofStatement
  | doWhile _ condition body => .ofCondition condition :: body.map .ofStatement
  | forLoop _ start condition update body =>
    start.toList.map .ofStatement ++ .ofCondition condition :: (update.toList.map .ofStatement ++
      body.map .ofStatement)
  | switch _ discriminant arms =>
    .ofExpr discriminant :: arms.flatMap fun arm => arm.body.map .ofStatement
  | jump _ => []
  | ret value => value.toList.map .ofExpr
  | throw exception => [.ofExpr exception]
  | tryCatch body catches =>
    body.map .ofStatement ++ catches.flatMap fun clause => clause.body.map .ofStatement

def Node.children : Node → List Node
  | ofExpr expr => expr.kind.children
  | ofCondition condition => condition.children
  | ofStatement statement => statement.children

noncomputable def Node.weight : Node → Nat
  | ofExpr expr => sizeOf expr
  | ofCondition condition => sizeOf condition
  | ofStatement statement => sizeOf statement

noncomputable def weight : List Node → Nat
  | [] => 0
  | node :: rest => node.weight + weight rest

theorem weight_cons (node : Node) (rest : List Node) :
    weight (node :: rest) = node.weight + weight rest := by simp [weight]
theorem weight_append (left right : List Node) : weight (left ++ right) = weight left + weight right := by
  induction left with
  | nil => simp [weight]
  | cons node rest ih => simp [weight,ih]; omega

theorem weight_exprs (exprs : List Expr) : weight (exprs.map .ofExpr) < sizeOf exprs := by
  induction exprs with
  | nil => simp [weight]
  | cons e rest ih => simp only [List.map_cons,weight_cons,Node.weight,List.cons.sizeOf_spec]; omega

theorem weight_conditions (parts : List Condition) : weight (parts.map .ofCondition) < sizeOf parts := by
  induction parts with
  | nil => simp [weight]
  | cons c rest ih => simp only [List.map_cons,weight_cons,Node.weight,List.cons.sizeOf_spec]; omega

theorem weight_block (block : Block) : weight (block.map .ofStatement) < sizeOf block := by
  induction block with
  | nil => simp [weight]
  | cons s rest ih => simp only [List.map_cons,weight_cons,Node.weight,List.cons.sizeOf_spec]; omega

theorem weight_arms (arms : List SwitchArm) :
    weight (arms.flatMap fun arm => arm.body.map .ofStatement) < sizeOf arms := by
  induction arms with
  | nil => simp [weight]
  | cons arm rest ih =>
    cases arm with
    | mk labels body =>
      have := weight_block body
      simp only [List.flatMap_cons,weight_append,List.cons.sizeOf_spec,SwitchArm.mk.sizeOf_spec]
      omega

theorem weight_catches (catches : List CatchClause) :
    weight (catches.flatMap fun clause => clause.body.map .ofStatement) < sizeOf catches := by
  induction catches with
  | nil => simp [weight]
  | cons clause rest ih =>
    cases clause with
    | mk types body =>
      have := weight_block body
      simp only [List.flatMap_cons,weight_append,List.cons.sizeOf_spec,CatchClause.mk.sizeOf_spec]
      omega

theorem weight_kind (kind : ExprKind) : weight kind.children ≤ sizeOf kind := by
  cases kind with
  | freeCall kind method args =>
    have := weight_exprs args
    simp [ExprKind.children,ExprKind.operands,ExprKind.condition?]
    omega
  | boundCall kind receiver method args =>
    have := weight_exprs args
    simp [ExprKind.children,ExprKind.operands,ExprKind.condition?,weight_cons,Node.weight]
    omega
  | new constructor args =>
    have := weight_exprs args
    simp [ExprKind.children,ExprKind.operands,ExprKind.condition?]
    omega
  | filledArray component size values =>
    have := weight_exprs values
    simp [ExprKind.children,ExprKind.operands,ExprKind.condition?,weight_cons,Node.weight]
    omega
  | concat parts =>
    have := weight_exprs parts
    simp [ExprKind.children,ExprKind.operands,ExprKind.condition?]
    omega
  | _ => simp +arith [ExprKind.children,ExprKind.operands,ExprKind.condition?,weight,Node.weight]

theorem weight_condition (condition : Condition) : weight condition.children < sizeOf condition := by
  cases condition with
  | conj parts =>
    have := weight_conditions parts
    simp [Condition.children]
    omega
  | disj parts =>
    have := weight_conditions parts
    simp [Condition.children]
    omega
  | _ => simp +arith [Condition.children,Condition.operands,weight,Node.weight]

theorem weight_statement (statement : Statement) : weight statement.children < sizeOf statement := by
  cases statement with
  | branch condition thenBlock elseBlock =>
    have := weight_block thenBlock
    cases elseBlock with
    | none => simp [Statement.children,weight_cons,Node.weight]; omega
    | some elseBlock =>
      have := weight_block elseBlock
      simp [Statement.children,weight_cons,weight_append,Node.weight]
      omega
  | whileLoop id condition body =>
    have := weight_block body
    simp [Statement.children,weight_cons,Node.weight]
    omega
  | doWhile id condition body =>
    have := weight_block body
    simp [Statement.children,weight_cons,Node.weight]
    omega
  | forLoop id start condition update body =>
    have := weight_block body
    cases start <;> cases update <;> simp [Statement.children,weight_cons,Node.weight] <;> omega
  | switch id discriminant arms =>
    have := weight_arms arms
    simp [Statement.children,weight_cons,Node.weight]
    omega
  | ret value => cases value <;> simp +arith [Statement.children,weight,Node.weight]
  | tryCatch body catches =>
    have := weight_block body
    have := weight_catches catches
    simp [Statement.children,weight_append]
    omega
  | _ => simp +arith [Statement.children,weight,Node.weight]

theorem weight_children (node : Node) : weight node.children < node.weight := by
  cases node with
  | ofExpr e =>
    cases e with
    | mk kind note =>
      have := weight_kind kind
      simp [Node.children,Node.weight]
      omega
  | ofCondition c => exact weight_condition c
  | ofStatement s => exact weight_statement s

-- Visits pending nodes and everything below them, each node before its children. The stack is
-- explicit, so depth is bounded by memory alone.
def visit (pending : List Node) (visited : Array Node) : Array Node :=
  match pending with
  | [] => visited
  | node :: rest => visit (node.children ++ rest) (visited.push node)
termination_by weight pending
decreasing_by
  rw [weight_append,weight_cons]
  have := weight_children node
  omega

def Node.walk (node : Node) : List Node := (visit [node] #[]).toList

def Block.walk (block : Block) : List Node := block.flatMap fun statement => Node.walk (.ofStatement statement)

-- What a node is apart from its children: its form and scalar payload, and how its children are
-- split into blocks. Annotations, break targets and the ids of breaks and breakables are left out.
inductive Head where
  | var (var : Local)
  | literal (value : Literal)
  | arithmetic (op : ArithmeticOp)
  | negate
  | numberCompare
  | instanceOf (type : Ty)
  | cast (target : Ty)
  | staticField (field : FieldRef)
  | instanceField (field : FieldRef)
  | element
  | arrayLength
  | freeCall (kind : FreeCall) (method : MethodRef)
  | boundCall (kind : BoundCall) (method : MethodRef)
  | new (constructor : ConstructorRef)
  | newArray (component : Ty)
  | filledArray (component : Ty)
  | ternary
  | concat
  | compare (op : CompareOp)
  | test (inverted : Bool)
  | conj
  | disj
  | not
  | constant (value : Bool)
  | expr
  | assign
  | increment (var : Local) (amount : Int32)
  | branch (thenLength : Nat) (elseLength : Option Nat)
  | whileLoop
  | doWhile
  | forLoop (start update : Bool)
  | switch (arms : List (List Int32 × Nat))
  | jump (kind : BreakKind) (nested : Bool)
  | ret
  | throw
  | tryCatch (length : Nat) (catches : List (List String × Nat))
deriving DecidableEq

def ExprKind.head : ExprKind → Head
  | .var v => .var v
  | literal value => .literal value
  | arithmetic op _ _ => .arithmetic op
  | negate _ => .negate
  | numberCompare _ _ => .numberCompare
  | instanceOf _ type => .instanceOf type
  | cast target _ => .cast target
  | staticField field => .staticField field
  | instanceField _ field => .instanceField field
  | element _ _ => .element
  | arrayLength _ => .arrayLength
  | freeCall kind method _ => .freeCall kind method
  | boundCall kind _ method _ => .boundCall kind method
  | .new constructor _ => .new constructor
  | newArray component _ => .newArray component
  | filledArray component _ _ => .filledArray component
  | ternary _ _ _ => .ternary
  | concat _ => .concat

def Condition.head : Condition → Head
  | compare op _ _ => .compare op
  | test _ inverted => .test inverted
  | conj _ => .conj
  | disj _ => .disj
  | not _ => .not
  | constant value => .constant value

def Statement.head : Statement → Head
  | expr _ => .expr
  | assign _ _ => .assign
  | increment var amount => .increment var amount
  | branch _ thenBlock elseBlock => .branch thenBlock.length (elseBlock.map (·.length))
  | whileLoop _ _ _ => .whileLoop
  | doWhile _ _ _ => .doWhile
  | forLoop _ start _ update _ => .forLoop start.isSome update.isSome
  | switch _ _ arms => .switch (arms.map fun arm => (arm.labels,arm.body.length))
  | jump brk => .jump brk.kind brk.nested
  | ret _ => .ret
  | throw _ => .throw
  | tryCatch body catches =>
    .tryCatch body.length (catches.map fun clause => (clause.types,clause.body.length))

def Node.head : Node → Head
  | ofExpr expr => expr.kind.head
  | ofCondition condition => condition.head
  | ofStatement statement => statement.head

theorem weight_zip_le (left right : List Node) : weight ((left.zip right).map Prod.fst) ≤ weight left := by
  induction left generalizing right with
  | nil => simp
  | cons a rest ih =>
    cases right with
    | nil => simp [weight]
    | cons b others =>
      simp only [List.zip_cons_cons,List.map_cons,weight_cons]
      have := ih others
      omega

def samePairs (pending : List (Node × Node)) : Bool :=
  match pending with
  | [] => true
  | (a,b) :: rest =>
    if a.head = b.head ∧ a.children.length = b.children.length then
      samePairs (a.children.zip b.children ++ rest)
    else false
termination_by weight (pending.map Prod.fst)
decreasing_by
  simp only [List.map_append,List.map_cons,weight_append,weight_cons]
  have := weight_children a
  have := weight_zip_le a.children b.children
  omega

def Node.same (a b : Node) : Bool := samePairs [(a,b)]
def Expr.same (a b : Expr) : Bool := Node.same (.ofExpr a) (.ofExpr b)
def Condition.same (a b : Condition) : Bool := Node.same (.ofCondition a) (.ofCondition b)
def Statement.same (a b : Statement) : Bool := Node.same (.ofStatement a) (.ofStatement b)
def Block.same (a b : Block) : Bool :=
  a.length == b.length && samePairs ((a.map .ofStatement).zip (b.map .ofStatement))

end Untangle
