import Mathlib.Data.List.Basic
import Untangle.Proofs.Rebuilding.Walk

namespace Untangle

-- Everything in a tree, each part before what is inside it: the condition of a ternary before its two
-- values, other operands from left to right, the conditions and expressions of a statement before its
-- blocks. A `for` goes through start, condition, update and body.
mutual
def Expr.preorder : Expr → List Node
  | ⟨kind,note⟩ => .ofExpr ⟨kind,note⟩ :: kind.preorder
def ExprKind.preorder : ExprKind → List Node
  | .var _ => []
  | .literal _ => []
  | .arithmetic _ left right => left.preorder ++ right.preorder
  | .negate operand => operand.preorder
  | .numberCompare left right => left.preorder ++ right.preorder
  | .instanceOf value _ => value.preorder
  | .cast _ value => value.preorder
  | .staticField _ => []
  | .instanceField receiver _ => receiver.preorder
  | .element array index => array.preorder ++ index.preorder
  | .arrayLength array => array.preorder
  | .freeCall _ _ args => preorderExprs args
  | .boundCall _ receiver _ args => receiver.preorder ++ preorderExprs args
  | .new _ args => preorderExprs args
  | .newArray _ size => size.preorder
  | .filledArray _ size values => size.preorder ++ preorderExprs values
  | .ternary condition thenValue elseValue => condition.preorder ++ thenValue.preorder ++ elseValue.preorder
  | .concat parts => preorderExprs parts
def Condition.preorder : Condition → List Node
  | .compare op left right => .ofCondition (.compare op left right) :: (left.preorder ++ right.preorder)
  | .test value inverted => .ofCondition (.test value inverted) :: value.preorder
  | .conj parts => .ofCondition (.conj parts) :: preorderConditions parts
  | .disj parts => .ofCondition (.disj parts) :: preorderConditions parts
  | .not inner => .ofCondition (.not inner) :: inner.preorder
  | .constant value => [.ofCondition (.constant value)]
def preorderExprs : List Expr → List Node
  | [] => []
  | expr :: rest => expr.preorder ++ preorderExprs rest
def preorderConditions : List Condition → List Node
  | [] => []
  | part :: rest => part.preorder ++ preorderConditions rest
end

mutual
def Statement.preorder : Statement → List Node
  | .expr value => .ofStatement (.expr value) :: value.preorder
  | .assign target value => .ofStatement (.assign target value) :: (target.preorder ++ value.preorder)
  | .increment var amount => [.ofStatement (.increment var amount)]
  | .branch condition thenBlock none =>
    .ofStatement (.branch condition thenBlock none) :: (condition.preorder ++ preorderStatements thenBlock)
  | .branch condition thenBlock (some elseBlock) =>
    .ofStatement (.branch condition thenBlock (some elseBlock)) ::
      (condition.preorder ++ preorderStatements thenBlock ++ preorderStatements elseBlock)
  | .whileLoop id condition body =>
    .ofStatement (.whileLoop id condition body) :: (condition.preorder ++ preorderStatements body)
  | .doWhile id condition body =>
    .ofStatement (.doWhile id condition body) :: (condition.preorder ++ preorderStatements body)
  | .forLoop id start condition update body =>
    .ofStatement (.forLoop id start condition update body) ::
      (preorderOptional start ++ condition.preorder ++ preorderOptional update ++ preorderStatements body)
  | .switch id discriminant arms =>
    .ofStatement (.switch id discriminant arms) :: (discriminant.preorder ++ preorderArms arms)
  | .jump brk => [.ofStatement (.jump brk)]
  | .ret none => [.ofStatement (.ret none)]
  | .ret (some value) => .ofStatement (.ret (some value)) :: value.preorder
  | .throw exception => .ofStatement (.throw exception) :: exception.preorder
  | .tryCatch body catches =>
    .ofStatement (.tryCatch body catches) :: (preorderStatements body ++ preorderCatches catches)
def preorderOptional : Option Statement → List Node
  | none => []
  | some statement => statement.preorder
def preorderStatements : List Statement → List Node
  | [] => []
  | statement :: rest => statement.preorder ++ preorderStatements rest
def preorderArms : List SwitchArm → List Node
  | [] => []
  | ⟨_,body⟩ :: rest => preorderStatements body ++ preorderArms rest
def preorderCatches : List CatchClause → List Node
  | [] => []
  | ⟨_,body⟩ :: rest => preorderStatements body ++ preorderCatches rest
end

def Block.preorder (block : Block) : List Node := preorderStatements block

def Node.preorder : Node → List Node
  | ofExpr expr => expr.preorder
  | ofCondition condition => condition.preorder
  | ofStatement statement => statement.preorder

theorem preorderExprs_flatMap (exprs : List Expr) : preorderExprs exprs = exprs.flatMap Expr.preorder := by
  induction exprs with
  | nil => rfl
  | cons expr rest ih => rw [preorderExprs,ih,List.flatMap_cons]

theorem preorderConditions_flatMap (parts : List Condition) :
    preorderConditions parts = parts.flatMap Condition.preorder := by
  induction parts with
  | nil => rfl
  | cons part rest ih => rw [preorderConditions,ih,List.flatMap_cons]

theorem preorderOptional_flatMap (optional : Option Statement) :
    preorderOptional optional = optional.toList.flatMap Statement.preorder := by
  cases optional <;> simp [preorderOptional]

theorem preorderStatements_flatMap (statements : List Statement) :
    preorderStatements statements = statements.flatMap Statement.preorder := by
  induction statements with
  | nil => rfl
  | cons statement rest ih => rw [preorderStatements,ih,List.flatMap_cons]

theorem preorderArms_flatMap (arms : List SwitchArm) :
    preorderArms arms = arms.flatMap fun arm => arm.body.flatMap Statement.preorder := by
  induction arms with
  | nil => rfl
  | cons arm rest ih =>
    obtain ⟨labels,body⟩ := arm
    rw [preorderArms,ih,preorderStatements_flatMap,List.flatMap_cons]

theorem preorderCatches_flatMap (catches : List CatchClause) :
    preorderCatches catches = catches.flatMap fun clause => clause.body.flatMap Statement.preorder := by
  induction catches with
  | nil => rfl
  | cons clause rest ih =>
    obtain ⟨types,body⟩ := clause
    rw [preorderCatches,ih,preorderStatements_flatMap,List.flatMap_cons]

theorem ExprKind.preorder_children (kind : ExprKind) : kind.preorder = kind.children.flatMap Node.preorder := by
  cases kind <;>
    simp [preorder,children,operands,condition?,preorderExprs_flatMap,List.flatMap_map,Node.preorder]

theorem Condition.preorder_children (condition : Condition) :
    condition.preorder = .ofCondition condition :: condition.children.flatMap Node.preorder := by
  cases condition <;>
    simp [preorder,children,operands,preorderConditions_flatMap,List.flatMap_map,Node.preorder]

theorem Statement.preorder_children (statement : Statement) :
    statement.preorder = .ofStatement statement :: statement.children.flatMap Node.preorder := by
  cases statement with
  | branch condition thenBlock elseBlock =>
    cases elseBlock <;> simp [preorder,children,preorderStatements_flatMap,List.flatMap_map,Node.preorder]
  | ret value => cases value <;> simp [preorder,children,Node.preorder]
  | _ =>
    simp [preorder,children,preorderOptional_flatMap,preorderStatements_flatMap,preorderArms_flatMap,
      preorderCatches_flatMap,List.flatMap_map,List.flatMap_assoc,Node.preorder]

theorem Node.preorder_children (node : Node) : node.preorder = node :: node.children.flatMap preorder := by
  cases node with
  | ofExpr expr =>
    obtain ⟨kind,note⟩ := expr
    exact congrArg _ kind.preorder_children
  | ofCondition condition => exact condition.preorder_children
  | ofStatement statement => exact statement.preorder_children

theorem Node.walk_preorder (node : Node) : node.walk = node.preorder := by
  induction node using Node.below with
  | step node ih =>
    rw [node.walk_children,node.preorder_children]
    exact congrArg _ (List.flatMap_congr ih)

theorem Block.walk_preorder (block : Block) : Block.walk block = block.preorder :=
  (List.flatMap_congr fun statement _ => Node.walk_preorder (.ofStatement statement)).trans
    (preorderStatements_flatMap block).symm

def Node.at? (node : Node) : List Nat → Option Node
  | [] => some node
  | index :: way => node.children[index]?.bind fun child => child.at? way

def among? (nodes : List Node) : List Nat → Option Node
  | [] => none
  | index :: way => nodes[index]?.bind fun node => node.at? way

-- A listing has what is at each place exactly once: it goes through all ways that lead anywhere, from
-- the least to the greatest, and no way is less than itself. A way is less than those that go on from it.
def ListsOnce (find? : List Nat → Option Node) (listed : List Node) : Prop :=
  ∃ places : List (List Nat), places.Pairwise (· < ·) ∧ (∀ place, place ∈ places ↔ (find? place).isSome) ∧
    places.map find? = listed.map some

theorem among_some {nodes : List Node} {place : List Nat} (found : (among? nodes place).isSome) :
    ∃ index way, place = index :: way := by
  cases place with
  | nil => cases found
  | cons index way => exact ⟨index,way,rfl⟩

theorem lists_none : ListsOnce (among? []) [] := by
  refine ⟨[],.nil,fun place => ?_,rfl⟩
  cases place <;> simp [among?]

theorem among_first (node : Node) (rest : List Node) (way : List Nat) :
    among? (node :: rest) (0 :: way) = node.at? way := by simp [among?]

theorem among_later (node : Node) (rest : List Node) (place : List Nat) :
    among? (node :: rest) (place.modifyHead (· + 1)) = among? rest place := by
  cases place <;> simp [among?]

theorem lists_cons {node : Node} {rest first second : List Node} (head : ListsOnce node.at? first)
    (tail : ListsOnce (among? rest) second) : ListsOnce (among? (node :: rest)) (first ++ second) := by
  obtain ⟨here,rising,full,found⟩ := head
  obtain ⟨later,rising',full',found'⟩ := tail
  have begun (place : List Nat) (member : place ∈ later) := among_some ((full' place).mp member)
  refine ⟨here.map (0 :: ·) ++ later.map (List.modifyHead (· + 1)),List.pairwise_append.mpr ⟨?_,?_,?_⟩,
    fun place => ?_,?_⟩
  · exact rising.map _ fun way way' less => by simpa using less
  · refine List.pairwise_map.mpr (rising'.imp_of_mem fun {place place'} member member' less => ?_)
    obtain ⟨index,way,rfl⟩ := begun place member
    obtain ⟨index',way',rfl⟩ := begun place' member'
    simpa [List.cons_lt_cons_iff] using less
  · -- All ways within the node are less than those beside it.
    simp only [List.mem_map,forall_exists_index,and_imp,forall_apply_eq_imp_iff₂]
    intro way _ place member
    obtain ⟨index,way',rfl⟩ := begun place member
    simp [List.cons_lt_cons_iff]
  · rw [List.mem_append,List.mem_map,List.mem_map]
    constructor
    · rintro (⟨way,member,rfl⟩ | ⟨place,member,rfl⟩)
      · rw [among_first]
        exact (full way).mp member
      · rw [among_later]
        exact (full' place).mp member
    · intro some
      obtain ⟨index,way,rfl⟩ := among_some some
      cases index with
      | zero => exact .inl ⟨way,(full way).mpr (among_first node rest way ▸ some),rfl⟩
      | succ index => exact .inr ⟨index :: way,(full' _).mpr (among_later node rest (index :: way) ▸ some),rfl⟩
  · simp only [List.map_append,List.map_map,Function.comp_def,among_first,among_later,found,found']

theorem lists_node {node : Node} {listed : List Node} (below : ListsOnce (among? node.children) listed) :
    ListsOnce node.at? (node :: listed) := by
  obtain ⟨places,rising,full,found⟩ := below
  have begun (place : List Nat) (member : place ∈ places) := among_some ((full place).mp member)
  refine ⟨[] :: places,List.pairwise_cons.mpr ⟨fun place member => ?_,rising⟩,fun place => ?_,?_⟩
  · obtain ⟨index,way,rfl⟩ := begun place member
    exact List.nil_lt_cons index way
  · cases place with
    | nil => simp [Node.at?]
    | cons index way =>
      rw [List.mem_cons,full]
      simp [Node.at?,among?]
  · rw [List.map_cons,List.map_cons,← found]
    refine congrArg _ (List.map_congr_left fun place member => ?_)
    obtain ⟨index,way,rfl⟩ := begun place member
    rfl

theorem lists_row {nodes : List Node} (each : ∀ node ∈ nodes, ListsOnce node.at? node.walk) :
    ListsOnce (among? nodes) (nodes.flatMap Node.walk) := by
  induction nodes with
  | nil => exact lists_none
  | cons node rest ih =>
    rw [List.flatMap_cons]
    exact lists_cons (each node List.mem_cons_self) (ih fun other later => each other (List.mem_cons_of_mem _ later))

theorem Node.walk_once (node : Node) : ListsOnce node.at? node.walk := by
  induction node using Node.below with
  | step node ih =>
    rw [node.walk_children]
    exact lists_node (lists_row ih)

theorem Block.walk_once (block : Block) : ListsOnce (among? (block.map .ofStatement)) (Block.walk block) := by
  have row : ListsOnce (among? (block.map .ofStatement)) ((block.map .ofStatement).flatMap Node.walk) :=
    lists_row fun node _ => node.walk_once
  rwa [List.flatMap_map] at row

-- A visit is the listing by recursion, for every kind of tree and for a block, and it comes to every node
-- once.
theorem visits_preorder :
    (∀ expr : Expr, Node.walk (.ofExpr expr) = expr.preorder) ∧
    (∀ condition : Condition, Node.walk (.ofCondition condition) = condition.preorder) ∧
    (∀ statement : Statement, Node.walk (.ofStatement statement) = statement.preorder) ∧
    (∀ block : Block, Block.walk block = block.preorder) ∧
    (∀ node : Node, ListsOnce node.at? node.walk) ∧
    ∀ block : Block, ListsOnce (among? (block.map .ofStatement)) (Block.walk block) :=
  ⟨fun expr => Node.walk_preorder (.ofExpr expr),fun condition => Node.walk_preorder (.ofCondition condition),
    fun statement => Node.walk_preorder (.ofStatement statement),Block.walk_preorder,Node.walk_once,Block.walk_once⟩

end Untangle
