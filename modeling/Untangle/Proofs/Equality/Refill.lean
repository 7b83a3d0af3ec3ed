import Untangle.Proofs.Equality.Erasure

namespace Untangle

def Node.statement? : Node → Option Statement
  | ofStatement statement => some statement
  | _ => none

def statementsOf (nodes : List Node) : List Statement := nodes.filterMap Node.statement?

theorem statementsOf_map (block : Block) : statementsOf (block.map .ofStatement) = block := by
  simp [statementsOf,List.filterMap_map,Function.comp_def,Node.statement?]

def cutBlocks : List Nat → List Node → List Block
  | [], _ => []
  | length :: rest, nodes => statementsOf (nodes.take length) :: cutBlocks rest (nodes.drop length)

theorem cutBlocks_flatMap (blocks : List Block) :
    cutBlocks (blocks.map List.length) (blocks.flatMap fun block => block.map .ofStatement) = blocks := by
  induction blocks with
  | nil => rfl
  | cons block rest ih => simp [cutBlocks,statementsOf_map,ih]

theorem cutBlocks_map (items : List α) (body : α → Block) :
    cutBlocks (items.map fun item => (body item).length) (items.flatMap fun item => (body item).map .ofStatement) =
      items.map body := by
  have cut := cutBlocks_flatMap (items.map body)
  rwa [List.map_map,List.flatMap_map] at cut

def Head.fill? : Head → List Node → Option Node
  | .var v, [] => some (.ofExpr (.plain (.var v)))
  | .literal value, [] => some (.ofExpr (.plain (.literal value)))
  | .arithmetic op, [.ofExpr left,.ofExpr right] => some (.ofExpr (.plain (.arithmetic op left right)))
  | .negate, [.ofExpr operand] => some (.ofExpr (.plain (.negate operand)))
  | .numberCompare, [.ofExpr left,.ofExpr right] => some (.ofExpr (.plain (.numberCompare left right)))
  | .instanceOf type, [.ofExpr value] => some (.ofExpr (.plain (.instanceOf value type)))
  | .cast target, [.ofExpr value] => some (.ofExpr (.plain (.cast target value)))
  | .staticField field, [] => some (.ofExpr (.plain (.staticField field)))
  | .instanceField field, [.ofExpr receiver] => some (.ofExpr (.plain (.instanceField receiver field)))
  | .element, [.ofExpr array,.ofExpr index] => some (.ofExpr (.plain (.element array index)))
  | .arrayLength, [.ofExpr array] => some (.ofExpr (.plain (.arrayLength array)))
  | .freeCall kind method, args => some (.ofExpr (.plain (.freeCall kind method (exprsOf args))))
  | .boundCall kind method, .ofExpr receiver :: args =>
    some (.ofExpr (.plain (.boundCall kind receiver method (exprsOf args))))
  | .new constructor, args => some (.ofExpr (.plain (.new constructor (exprsOf args))))
  | .newArray component, [.ofExpr size] => some (.ofExpr (.plain (.newArray component size)))
  | .filledArray component, .ofExpr size :: values =>
    some (.ofExpr (.plain (.filledArray component size (exprsOf values))))
  | .ternary, [.ofCondition condition,.ofExpr thenValue,.ofExpr elseValue] =>
    some (.ofExpr (.plain (.ternary condition thenValue elseValue)))
  | .concat, parts => some (.ofExpr (.plain (.concat (exprsOf parts))))
  | .compare op, [.ofExpr left,.ofExpr right] => some (.ofCondition (.compare op left right))
  | .test inverted, [.ofExpr value] => some (.ofCondition (.test value inverted))
  | .conj, parts => some (.ofCondition (.conj (conditionsOf parts)))
  | .disj, parts => some (.ofCondition (.disj (conditionsOf parts)))
  | .not, [.ofCondition inner] => some (.ofCondition (.not inner))
  | .constant value, [] => some (.ofCondition (.constant value))
  | .expr, [.ofExpr value] => some (.ofStatement (.expr value))
  | .assign, [.ofExpr target,.ofExpr value] => some (.ofStatement (.assign target value))
  | .increment counter amount, [] => some (.ofStatement (.increment counter amount))
  | .branch thenLength elseLength, .ofCondition condition :: nodes =>
    some (.ofStatement (.branch condition (statementsOf (nodes.take thenLength))
      (elseLength.map fun _ => statementsOf (nodes.drop thenLength))))
  | .whileLoop, .ofCondition condition :: body => some (.ofStatement (.whileLoop 0 condition (statementsOf body)))
  | .doWhile, .ofCondition condition :: body => some (.ofStatement (.doWhile 0 condition (statementsOf body)))
  | .forLoop false false, .ofCondition condition :: body =>
    some (.ofStatement (.forLoop 0 none condition none (statementsOf body)))
  | .forLoop true false, .ofStatement start :: .ofCondition condition :: body =>
    some (.ofStatement (.forLoop 0 (some start) condition none (statementsOf body)))
  | .forLoop false true, .ofCondition condition :: .ofStatement update :: body =>
    some (.ofStatement (.forLoop 0 none condition (some update) (statementsOf body)))
  | .forLoop true true, .ofStatement start :: .ofCondition condition :: .ofStatement update :: body =>
    some (.ofStatement (.forLoop 0 (some start) condition (some update) (statementsOf body)))
  | .switch arms, .ofExpr discriminant :: nodes =>
    some (.ofStatement (.switch 0 discriminant
      ((arms.map (·.1)).zipWith SwitchArm.mk (cutBlocks (arms.map (·.2)) nodes))))
  | .jump kind nested, [] => some (.ofStatement (.jump ⟨0,kind,none,nested⟩))
  | .ret, [] => some (.ofStatement (.ret none))
  | .ret, [.ofExpr value] => some (.ofStatement (.ret (some value)))
  | .throw, [.ofExpr exception] => some (.ofStatement (.throw exception))
  | .tryCatch length catches, nodes =>
    some (.ofStatement (.tryCatch (statementsOf (nodes.take length))
      ((catches.map (·.1)).zipWith CatchClause.mk (cutBlocks (catches.map (·.2)) (nodes.drop length)))))
  | _, _ => none

def Statement.bare : Statement → Statement
  | whileLoop _ condition body => whileLoop 0 condition body
  | doWhile _ condition body => doWhile 0 condition body
  | forLoop _ start condition update body => forLoop 0 start condition update body
  | switch _ discriminant arms => switch 0 discriminant arms
  | jump brk => jump brk.erase
  | other => other

def Node.bare : Node → Node
  | ofExpr expr => ofExpr (.plain expr.kind)
  | ofCondition condition => ofCondition condition
  | ofStatement statement => ofStatement statement.bare

theorem Expr.fill_children (expr : Expr) :
    expr.kind.head.fill? expr.kind.children = some (.ofExpr (.plain expr.kind)) := by
  obtain ⟨kind,note⟩ := expr
  cases kind <;>
    simp [ExprKind.head,ExprKind.children,ExprKind.operands,ExprKind.condition?,Head.fill?,exprsOf_map]

theorem Condition.fill_children (condition : Condition) :
    condition.head.fill? condition.children = some (.ofCondition condition) := by
  cases condition <;> simp [head,children,operands,Head.fill?,conditionsOf_map]

theorem Statement.fill_children (statement : Statement) :
    statement.head.fill? statement.children = some (.ofStatement statement.bare) := by
  cases statement with
  | branch condition thenBlock elseBlock =>
    cases elseBlock <;> simp [head,children,Head.fill?,bare,statementsOf_map,← List.map_take]
  | forLoop id start condition update body =>
    cases start <;> cases update <;> simp [head,children,Head.fill?,bare,statementsOf_map]
  | ret value => cases value <;> rfl
  | switch id discriminant arms =>
    have bodies := cutBlocks_map arms SwitchArm.body
    have whole : (fun arm : SwitchArm => SwitchArm.mk arm.labels arm.body) = fun arm => arm := by
      funext arm
      cases arm
      rfl
    simp [head,children,Head.fill?,bare,Function.comp_def,bodies,whole]
  | tryCatch body catches =>
    have bodies := cutBlocks_map catches CatchClause.body
    have whole : (fun clause : CatchClause => CatchClause.mk clause.types clause.body) = fun clause => clause := by
      funext clause
      cases clause
      rfl
    simp [head,children,Head.fill?,bare,Function.comp_def,bodies,statementsOf_map,whole]
  | _ => simp [head,children,Head.fill?,bare,Break.erase,statementsOf_map]

theorem Node.fill_children (node : Node) : node.head.fill? node.children = some node.bare := by
  cases node with
  | ofExpr expr => exact expr.fill_children
  | ofCondition condition => exact condition.fill_children
  | ofStatement statement => exact statement.fill_children

theorem Node.bare_erase (node : Node) : node.erase.bare = node.erase := by
  cases node with
  | ofExpr expr =>
    obtain ⟨kind,note⟩ := expr
    rfl
  | ofCondition condition => rfl
  | ofStatement statement =>
    cases statement with
    | branch condition thenBlock elseBlock => cases elseBlock <;> rfl
    | ret value => cases value <;> rfl
    | _ => rfl

theorem Node.fill_erased (node : Node) : node.head.fill? (node.children.map Node.erase) = some node.erase := by
  have filled := node.erase.fill_children
  rwa [node.head_erase,node.children_erase,node.bare_erase] at filled

theorem Node.erase_eq_iff {a b : Node} : a.erase = b.erase ↔
    a.head = b.head ∧ a.children.map Node.erase = b.children.map Node.erase := by
  constructor
  · intro same
    refine ⟨?_,?_⟩
    · rw [← a.head_erase,same,b.head_erase]
    · rw [← a.children_erase,same,b.children_erase]
  · intro ⟨head,children⟩
    have both := a.fill_erased
    rw [head,children,b.fill_erased] at both
    exact (Option.some.inj both).symm

end Untangle
