import Untangle.Proofs.Rebuilding.Walk

namespace Untangle

inductive NodeSort where
  | expr | condition | statement
deriving DecidableEq

namespace Node

@[simp] def sort : Node → NodeSort
  | ofExpr _ => .expr
  | ofCondition _ => .condition
  | ofStatement _ => .statement

def expr? : Node → Option Expr
  | ofExpr expr => some expr
  | _ => none

def condition? : Node → Option Condition
  | ofCondition condition => some condition
  | _ => none

@[simp] theorem sort_expr {node : Node} : node.sort = .expr ↔ ∃ expr, node = .ofExpr expr := by
  cases node <;> simp [sort]
@[simp] theorem sort_condition {node : Node} : node.sort = .condition ↔ ∃ condition, node = .ofCondition condition := by
  cases node <;> simp [sort]
@[simp] theorem sort_statement {node : Node} : node.sort = .statement ↔ ∃ statement, node = .ofStatement statement := by
  cases node <;> simp [sort]

end Node

def exprsOf (nodes : List Node) : List Expr := nodes.filterMap Node.expr?
def conditionsOf (nodes : List Node) : List Condition := nodes.filterMap Node.condition?

def Fits (old new : List Node) : Prop := new.map Node.sort = old.map Node.sort

@[simp] theorem fits_nil {new : List Node} : Fits [] new ↔ new = [] := List.map_eq_nil_iff

@[simp] theorem fits_cons {old : Node} {others new : List Node} : Fits (old :: others) new ↔
    ∃ node rest, new = node :: rest ∧ node.sort = old.sort ∧ Fits others rest := List.map_eq_cons_iff

theorem fits_picked {of : α → Node} {pick? : Node → Option α} {old : List α} {new : List Node}
    (picks : ∀ node item, node.sort = (of item).sort → ∃ found, pick? node = some found ∧ of found = node)
    (fits : Fits (old.map of) new) : (new.filterMap pick?).map of = new := by
  induction old generalizing new with
  | nil =>
    obtain rfl := fits_nil.mp fits
    rfl
  | cons item old ih =>
    obtain ⟨node,rest,rfl,same,later⟩ := fits_cons.mp fits
    obtain ⟨found,picked,back⟩ := picks node item same
    rw [List.filterMap_cons_some picked,List.map_cons,back,ih later]

theorem fits_exprs {old : List Expr} {new : List Node} (fits : Fits (old.map .ofExpr) new) :
    (exprsOf new).map .ofExpr = new := by
  refine fits_picked (fun node item same => ?_) fits
  obtain ⟨expr,rfl⟩ := Node.sort_expr.mp same
  exact ⟨expr,rfl,rfl⟩

theorem fits_conditions {old : List Condition} {new : List Node} (fits : Fits (old.map .ofCondition) new) :
    (conditionsOf new).map .ofCondition = new := by
  refine fits_picked (fun node item same => ?_) fits
  obtain ⟨condition,rfl⟩ := Node.sort_condition.mp same
  exact ⟨condition,rfl,rfl⟩

theorem exprsOf_map (exprs : List Expr) : exprsOf (exprs.map .ofExpr) = exprs := by
  simp [exprsOf,List.filterMap_map,Function.comp_def,Node.expr?]

theorem conditionsOf_map (parts : List Condition) : conditionsOf (parts.map .ofCondition) = parts := by
  simp [conditionsOf,List.filterMap_map,Function.comp_def,Node.condition?]

def ExprKind.withChildren (kind : ExprKind) (nodes : List Node) : ExprKind :=
  match kind, nodes with
  | .arithmetic op _ _, [.ofExpr left,.ofExpr right] => .arithmetic op left right
  | .negate _, [.ofExpr operand] => .negate operand
  | .numberCompare _ _, [.ofExpr left,.ofExpr right] => .numberCompare left right
  | .instanceOf _ type, [.ofExpr value] => .instanceOf value type
  | .cast target _, [.ofExpr value] => .cast target value
  | .instanceField _ field, [.ofExpr receiver] => .instanceField receiver field
  | .element _ _, [.ofExpr array,.ofExpr index] => .element array index
  | .arrayLength _, [.ofExpr array] => .arrayLength array
  | .freeCall kind method _, args => .freeCall kind method (exprsOf args)
  | .boundCall kind _ method _, .ofExpr receiver :: args => .boundCall kind receiver method (exprsOf args)
  | .new constructor _, args => .new constructor (exprsOf args)
  | .newArray component _, [.ofExpr size] => .newArray component size
  | .filledArray component _ _, .ofExpr size :: values => .filledArray component size (exprsOf values)
  | .ternary _ _ _, [.ofCondition condition,.ofExpr thenValue,.ofExpr elseValue] =>
    .ternary condition thenValue elseValue
  | .concat _, parts => .concat (exprsOf parts)
  | other, _ => other

def Condition.withChildren (condition : Condition) (nodes : List Node) : Condition :=
  match condition, nodes with
  | compare op _ _, [.ofExpr left,.ofExpr right] => compare op left right
  | test _ inverted, [.ofExpr value] => test value inverted
  | conj _, parts => conj (conditionsOf parts)
  | disj _, parts => disj (conditionsOf parts)
  | not _, [.ofCondition inner] => not inner
  | other, _ => other

def Statement.parts : Statement → List Node
  | expr value => [.ofExpr value]
  | assign target value => [.ofExpr target,.ofExpr value]
  | increment _ _ => []
  | branch condition _ _ => [.ofCondition condition]
  | whileLoop _ condition _ => [.ofCondition condition]
  | doWhile _ condition _ => [.ofCondition condition]
  | forLoop _ start condition update _ =>
    start.toList.map .ofStatement ++ .ofCondition condition :: update.toList.map .ofStatement
  | switch _ discriminant _ => [.ofExpr discriminant]
  | jump _ => []
  | ret value => value.toList.map .ofExpr
  | throw exception => [.ofExpr exception]
  | tryCatch _ _ => []

def Statement.withParts (statement : Statement) (nodes : List Node) : Statement :=
  match statement, nodes with
  | expr _, [.ofExpr value] => expr value
  | assign _ _, [.ofExpr target,.ofExpr value] => assign target value
  | branch _ thenBlock elseBlock, [.ofCondition condition] => branch condition thenBlock elseBlock
  | whileLoop id _ body, [.ofCondition condition] => whileLoop id condition body
  | doWhile id _ body, [.ofCondition condition] => doWhile id condition body
  | forLoop id none _ none body, [.ofCondition condition] => forLoop id none condition none body
  | forLoop id (some _) _ none body, [.ofStatement start,.ofCondition condition] =>
    forLoop id (some start) condition none body
  | forLoop id none _ (some _) body, [.ofCondition condition,.ofStatement update] =>
    forLoop id none condition (some update) body
  | forLoop id (some _) _ (some _) body, [.ofStatement start,.ofCondition condition,.ofStatement update] =>
    forLoop id (some start) condition (some update) body
  | switch id _ arms, [.ofExpr discriminant] => switch id discriminant arms
  | ret (some _), [.ofExpr value] => ret (some value)
  | throw _, [.ofExpr exception] => throw exception
  | other, _ => other

def Statement.withBlocks (statement : Statement) (blocks : List Block) : Statement :=
  match statement, blocks with
  | branch condition _ none, [thenBlock] => branch condition thenBlock none
  | branch condition _ (some _), [thenBlock,elseBlock] => branch condition thenBlock (some elseBlock)
  | whileLoop id condition _, [body] => whileLoop id condition body
  | doWhile id condition _, [body] => doWhile id condition body
  | forLoop id start condition update _, [body] => forLoop id start condition update body
  | switch id discriminant arms, bodies => switch id discriminant (replaceBodies arms bodies)
  | tryCatch _ catches, body :: bodies =>
    tryCatch body (catches.zipWith (fun clause body => {clause with body}) bodies)
  | other, _ => other

section
variable {kind : ExprKind} {nodes : List Node}

theorem ExprKind.children_withChildren (fits : Fits kind.children nodes) :
    (kind.withChildren nodes).children = nodes := by
  cases kind with
  | freeCall _ _ args => exact fits_exprs fits
  | new _ args => exact fits_exprs fits
  | concat parts => exact fits_exprs fits
  | boundCall _ receiver _ args =>
    obtain ⟨node,rest,rfl,same,later⟩ := fits_cons.mp fits
    obtain ⟨expr,rfl⟩ := Node.sort_expr.mp same
    exact congrArg _ (fits_exprs later)
  | filledArray _ size values =>
    obtain ⟨node,rest,rfl,same,later⟩ := fits_cons.mp fits
    obtain ⟨expr,rfl⟩ := Node.sort_expr.mp same
    exact congrArg _ (fits_exprs later)
  | _ =>
    simp [children,condition?,operands] at fits
    grind [withChildren,children,condition?,operands]

theorem ExprKind.withChildren_self (kind : ExprKind) : kind.withChildren kind.children = kind := by
  cases kind <;> simp [withChildren,children,condition?,operands,exprsOf_map]

theorem ExprKind.head_withChildren (kind : ExprKind) (nodes : List Node) :
    (kind.withChildren nodes).head = kind.head := by
  unfold withChildren
  split <;> rfl

end

section
variable {condition : Condition} {nodes : List Node}

theorem Condition.children_withChildren (fits : Fits condition.children nodes) :
    (condition.withChildren nodes).children = nodes := by
  cases condition with
  | conj parts => exact fits_conditions fits
  | disj parts => exact fits_conditions fits
  | _ =>
    simp [children,operands] at fits
    grind [withChildren,children,operands]

theorem Condition.withChildren_self (condition : Condition) :
    condition.withChildren condition.children = condition := by
  cases condition <;> simp [withChildren,children,operands,conditionsOf_map]

theorem Condition.head_withChildren (condition : Condition) (nodes : List Node) :
    (condition.withChildren nodes).head = condition.head := by
  unfold withChildren
  split <;> rfl

end

namespace Statement
variable {statement : Statement} {nodes : List Node} {blocks : List Block}

theorem children_split (statement : Statement) : statement.children =
    statement.parts ++ statement.childBlocks.flatMap fun block => block.map .ofStatement := by
  cases statement <;> simp [children,parts,childBlocks,List.flatMap_map]

theorem parts_withParts (fits : Fits statement.parts nodes) : (statement.withParts nodes).parts = nodes := by
  cases statement with
  | forLoop id start condition update body =>
    cases start <;> cases update <;> simp [parts] at fits <;> grind [withParts,parts]
  | ret value => cases value <;> simp [parts] at fits <;> grind [withParts,parts]
  | _ =>
    simp [parts] at fits
    grind [withParts,parts]

theorem withParts_self (statement : Statement) : statement.withParts statement.parts = statement := by
  cases statement with
  | forLoop id start condition update body => cases start <;> cases update <;> rfl
  | ret value => cases value <;> rfl
  | _ => rfl

theorem childBlocks_withParts (statement : Statement) (nodes : List Node) :
    (statement.withParts nodes).childBlocks = statement.childBlocks := by
  unfold withParts
  split <;> rfl

theorem head_withParts (statement : Statement) (nodes : List Node) :
    (statement.withParts nodes).head = statement.head := by
  unfold withParts
  split <;> rfl

theorem map_zipWith_put {put : α → β → α} {read : α → β} (reads : ∀ item new, read (put item new) = new)
    {items : List α} {news : List β} (long : news.length = items.length) :
    (items.zipWith put news).map read = news := by
  induction items generalizing news with
  | nil =>
    obtain rfl := List.eq_nil_of_length_eq_zero long
    rfl
  | cons item rest ih =>
    obtain ⟨new,others,rfl⟩ := List.exists_cons_of_length_eq_add_one long
    simp [reads,ih (Nat.succ.inj long)]

theorem childBlocks_withBlocks (long : blocks.length = statement.childBlocks.length) :
    (statement.withBlocks blocks).childBlocks = blocks := by
  cases statement with
  | branch condition thenBlock elseBlock =>
    cases elseBlock with
    | none =>
      obtain ⟨block,rfl⟩ := List.length_eq_one_iff.mp long
      rfl
    | some elseBlock =>
      obtain ⟨first,rest,rfl⟩ := List.exists_cons_of_length_eq_add_one long
      obtain ⟨second,rfl⟩ := List.length_eq_one_iff.mp (Nat.succ.inj long)
      rfl
  | switch id discriminant arms => exact map_zipWith_put (fun _ _ => rfl) (by simpa [childBlocks] using long)
  | tryCatch body catches =>
    obtain ⟨block,rest,rfl⟩ := List.exists_cons_of_length_eq_add_one long
    exact congrArg _ (map_zipWith_put (fun _ _ => rfl) (by simpa [childBlocks] using long))
  | _ =>
    first
      | obtain rfl := List.eq_nil_of_length_eq_zero long
        rfl
      | obtain ⟨block,rfl⟩ := List.length_eq_one_iff.mp long
        rfl

theorem map_zipWith_kept {put : α → β → α} {read : α → γ} {size : β → Nat} {own : α → Nat}
    (keeps : ∀ item new, size new = own item → read (put item new) = read item) {items : List α} {news : List β}
    (long : news.map size = items.map own) : (items.zipWith put news).map read = items.map read := by
  induction items generalizing news with
  | nil => simp
  | cons item rest ih =>
    cases news with
    | nil => cases long
    | cons new others =>
      obtain ⟨first,later⟩ := List.cons.inj long
      simp [keeps item new first,ih later]

theorem head_withBlocks (long : blocks.map List.length = statement.childBlocks.map List.length) :
    (statement.withBlocks blocks).head = statement.head := by
  cases statement with
  | branch condition thenBlock elseBlock =>
    cases elseBlock <;> simp [childBlocks,List.map_eq_cons_iff] at long <;> grind [withBlocks,head]
  | switch id discriminant arms =>
    have lengths : blocks.map List.length = arms.map fun arm => arm.body.length := by
      simpa [childBlocks,Function.comp_def] using long
    exact congrArg Head.switch (map_zipWith_kept (fun arm _ same => congrArg (Prod.mk arm.labels) same) lengths)
  | tryCatch body catches =>
    simp only [childBlocks,List.map_cons,List.map_map,List.map_eq_cons_iff] at long
    obtain ⟨block,rest,rfl,first,later⟩ := long
    have lengths : rest.map List.length = catches.map fun clause => clause.body.length := later
    have kept : (catches.zipWith (fun clause body => {clause with body}) rest).map
        (fun clause => (clause.types,clause.body.length)) = catches.map fun clause => (clause.types,clause.body.length) :=
      map_zipWith_kept (fun clause _ same => congrArg (Prod.mk clause.types) same) lengths
    simp only [withBlocks,head,kept,first]
  | _ =>
    simp [childBlocks] at long
    grind [withBlocks,head]

theorem parts_withBlocks (statement : Statement) (blocks : List Block) :
    (statement.withBlocks blocks).parts = statement.parts := by
  unfold withBlocks
  split <;> rfl

theorem zipWith_put_self {put : α → β → α} {read : α → β} (stays : ∀ item, put item (read item) = item)
    (items : List α) : items.zipWith put (items.map read) = items := by
  induction items with
  | nil => rfl
  | cons item rest ih => simp [stays,ih]

theorem withBlocks_self (statement : Statement) : statement.withBlocks statement.childBlocks = statement := by
  cases statement with
  | branch condition thenBlock elseBlock => cases elseBlock <;> rfl
  | switch id discriminant arms => exact congrArg _ (zipWith_put_self (fun ⟨_,_⟩ => rfl) arms)
  | tryCatch body catches => exact congrArg _ (zipWith_put_self (fun ⟨_,_⟩ => rfl) catches)
  | _ => rfl

end Statement

namespace Node

def parts : Node → List Node
  | ofStatement statement => statement.parts
  | node => node.children

def blocks : Node → List Block
  | ofStatement statement => statement.childBlocks
  | _ => []

def withParts (node : Node) (parts : List Node) : Node :=
  match node with
  | ofExpr expr => ofExpr {expr with kind:=expr.kind.withChildren parts}
  | ofCondition condition => ofCondition (condition.withChildren parts)
  | ofStatement statement => ofStatement (statement.withParts parts)

def withBlocks (node : Node) (blocks : List Block) : Node :=
  match node with
  | ofStatement statement => ofStatement (statement.withBlocks blocks)
  | node => node

variable {node : Node} {parts : List Node} {blocks : List Block}

theorem children_split (node : Node) :
    node.children = node.parts ++ node.blocks.flatMap fun block => block.map .ofStatement := by
  cases node with
  | ofStatement statement => exact statement.children_split
  | _ => simp [parts,blocks]

theorem part_child {part : Node} (member : part ∈ node.parts) : part ∈ node.children := by
  rw [node.children_split]
  exact List.mem_append_left _ member

theorem inner_child {block : Block} {statement : Statement} (held : block ∈ node.blocks) (member : statement ∈ block) :
    .ofStatement statement ∈ node.children := by
  rw [node.children_split]
  exact List.mem_append_right _ (List.mem_flatMap.mpr ⟨block,held,List.mem_map_of_mem member⟩)

theorem parts_withParts (fits : Fits node.parts parts) : (node.withParts parts).parts = parts := by
  cases node with
  | ofExpr expr => exact ExprKind.children_withChildren fits
  | ofCondition condition => exact Condition.children_withChildren fits
  | ofStatement statement => exact Statement.parts_withParts fits

theorem blocks_withParts (node : Node) (parts : List Node) : (node.withParts parts).blocks = node.blocks := by
  cases node with
  | ofStatement statement => exact statement.childBlocks_withParts parts
  | _ => rfl

theorem parts_withBlocks (node : Node) (blocks : List Block) : (node.withBlocks blocks).parts = node.parts := by
  cases node with
  | ofStatement statement => exact statement.parts_withBlocks blocks
  | _ => rfl

theorem blocks_withBlocks (long : blocks.length = node.blocks.length) : (node.withBlocks blocks).blocks = blocks := by
  cases node with
  | ofStatement statement => exact Statement.childBlocks_withBlocks long
  | _ => exact (List.eq_nil_of_length_eq_zero long).symm

theorem head_withParts (node : Node) (parts : List Node) : (node.withParts parts).head = node.head := by
  cases node with
  | ofExpr expr => exact expr.kind.head_withChildren parts
  | ofCondition condition => exact condition.head_withChildren parts
  | ofStatement statement => exact statement.head_withParts parts

theorem head_withBlocks (long : blocks.map List.length = node.blocks.map List.length) :
    (node.withBlocks blocks).head = node.head := by
  cases node with
  | ofStatement statement => exact Statement.head_withBlocks long
  | _ => rfl

theorem withParts_self (node : Node) : node.withParts node.parts = node := by
  cases node with
  | ofExpr expr =>
    obtain ⟨kind,note⟩ := expr
    exact congrArg (fun kind => ofExpr ⟨kind,note⟩) kind.withChildren_self
  | ofCondition condition => exact congrArg ofCondition condition.withChildren_self
  | ofStatement statement => exact congrArg ofStatement statement.withParts_self

theorem withBlocks_self (node : Node) : node.withBlocks node.blocks = node := by
  cases node with
  | ofStatement statement => exact congrArg ofStatement statement.withBlocks_self
  | _ => rfl

theorem sort_withParts (node : Node) (parts : List Node) : (node.withParts parts).sort = node.sort := by
  cases node <;> rfl
theorem sort_withBlocks (node : Node) (blocks : List Block) : (node.withBlocks blocks).sort = node.sort := by
  cases node <;> rfl

theorem children_filled (fits : Fits node.parts parts) (long : blocks.length = node.blocks.length) :
    ((node.withParts parts).withBlocks blocks).children =
      parts ++ blocks.flatMap fun block => block.map .ofStatement := by
  rw [children_split,parts_withBlocks,parts_withParts fits,blocks_withBlocks]
  rw [blocks_withParts,long]

variable {holds : Node → Prop}

theorem throughout_parts : node.Throughout holds ↔ holds node ∧ (∀ part ∈ node.parts, part.Throughout holds) ∧
    ∀ block ∈ node.blocks, Block.Throughout holds block := by
  rw [throughout_children,node.children_split]
  simp only [List.forall_mem_append,List.forall_mem_flatMap,List.forall_mem_map,Block.throughout_statements]

theorem throughout_filled (fits : Fits node.parts parts) (long : blocks.length = node.blocks.length) :
    ((node.withParts parts).withBlocks blocks).Throughout holds ↔
      holds ((node.withParts parts).withBlocks blocks) ∧ (∀ part ∈ parts, part.Throughout holds) ∧
        ∀ block ∈ blocks, Block.Throughout holds block := by
  rw [← node.blocks_withParts parts] at long
  rw [throughout_parts,parts_withBlocks,parts_withParts fits,blocks_withBlocks long]

end Node
end Untangle
