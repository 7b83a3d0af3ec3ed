import Untangle.Breaks.Basic
import Untangle.Tree.Checks

namespace Untangle

-- An arm without labels is the default. An arm that does not end in a jump falls through to the
-- next one. A clause without types catches everything.
mutual
inductive Statement where
  | expr (value : Expr)
  | assign (target value : Expr)
  | increment (var : Local) (amount : Int32)
  | branch (condition : Condition) (thenBlock : List Statement) (elseBlock : Option (List Statement))
  | whileLoop (id : BreakableId) (condition : Condition) (body : List Statement)
  | doWhile (id : BreakableId) (condition : Condition) (body : List Statement)
  | forLoop (id : BreakableId) (start : Option Statement) (condition : Condition)
      (update : Option Statement) (body : List Statement)
  | switch (id : BreakableId) (discriminant : Expr) (arms : List SwitchArm)
  | jump (brk : Break)
  | ret (value : Option Expr)
  | throw (exception : Expr)
  | tryCatch (body : List Statement) (catches : List CatchClause)
structure SwitchArm where
  labels : List Int32
  body : List Statement
structure CatchClause where
  types : List String
  body : List Statement
end

abbrev Block := List Statement

def SwitchArm.isDefault (arm : SwitchArm) : Bool := arm.labels.isEmpty

namespace Statement

def breakable? : Statement → Option (BreakableId × BreakableKind)
  | whileLoop id _ _ => some (id,.whileLoop)
  | doWhile id _ _ => some (id,.doWhile)
  | forLoop id _ _ _ _ => some (id,.forLoop)
  | switch id _ _ => some (id,.switch)
  | _ => none

-- Nested blocks in source order. The header statements of a `for` are no blocks.
def childBlocks : Statement → List Block
  | branch _ thenBlock elseBlock => thenBlock :: elseBlock.toList
  | whileLoop _ _ body => [body]
  | doWhile _ _ body => [body]
  | forLoop _ _ _ _ body => [body]
  | switch _ _ arms => arms.map (·.body)
  | tryCatch body catches => body :: catches.map (·.body)
  | _ => []

def isTerminal : Statement → Bool
  | jump _ => true
  | ret _ => true
  | throw _ => true
  | _ => false

end Statement

-- Labels already met and whether a default was, before the arms that remain. A second default is
-- reported before the labels of its own arm are looked at.
def checkLabels (seen : List Int32) : List Int32 → Except ConstraintError (List Int32)
  | [] => .ok seen
  | label :: rest =>
    if label ∈ seen then .error (.duplicateLabel label) else checkLabels (label :: seen) rest

def checkArms (seen : List Int32) (hasDefault : Bool) : List SwitchArm → Except ConstraintError Unit
  | [] => .ok ()
  | arm :: rest =>
    if arm.isDefault && hasDefault then .error .duplicateDefault else
    match checkLabels seen arm.labels with
    | .error cause => .error cause
    | .ok seen => checkArms seen (hasDefault || arm.isDefault) rest

namespace Statement

def check : Statement → Except ConstraintError Unit
  | assign target value =>
    if target.isAssignable then
      expectBoth (expect "value" .value value) (expectCompatible "assignment" target value)
    else .error (.notAssignable "target")
  | increment var _ => expectType "local" .numeric var.type
  | switch _ discriminant arms =>
    expectBoth (expect "discriminant" .numeric discriminant) (checkArms [] false arms)
  | throw exception => expect "exception" .reference exception
  | _ => .ok ()

def make (statement : Statement) : Except ConstraintError Statement :=
  statement.check.map fun _ => statement

def setTarget? (statement : Statement) (new : Expr) : Option (Except ConstraintError (Expr × Statement)) :=
  match statement with
  | assign target value => some ((make (assign new value)).map fun changed => (target,changed))
  | _ => none

def setValue? (statement : Statement) (new : Expr) : Option (Except ConstraintError (Expr × Statement)) :=
  match statement with
  | assign target value => some ((make (assign target new)).map fun changed => (value,changed))
  | _ => none

-- The labels were settled when the switch was built, so only the new discriminant is checked.
def setDiscriminant? (statement : Statement) (new : Expr) :
    Option (Except ConstraintError (Expr × Statement)) :=
  match statement with
  | switch id discriminant arms =>
    some ((expect "discriminant" .numeric new).map fun _ => (discriminant,switch id new arms))
  | _ => none

def appendAt (statement : Statement) (blocks : List Block) (index : Nat) : Option (List Block) :=
  blocks[index]?.map fun block => blocks.set index (block ++ [statement])

def replaceBodies (arms : List SwitchArm) (bodies : List Block) : List SwitchArm :=
  arms.zipWith (fun arm body => {arm with body}) bodies

def pushChild? (statement : Statement) (index : Nat) (child : Statement) : Option Statement :=
  match statement, child.appendAt statement.childBlocks index with
  | branch condition _ none, some [thenBlock] => some (branch condition thenBlock none)
  | branch condition _ (some _), some [thenBlock,elseBlock] =>
    some (branch condition thenBlock (some elseBlock))
  | whileLoop id condition _, some [body] => some (whileLoop id condition body)
  | doWhile id condition _, some [body] => some (doWhile id condition body)
  | forLoop id start condition update _, some [body] => some (forLoop id start condition update body)
  | switch id discriminant arms, some bodies => some (switch id discriminant (replaceBodies arms bodies))
  | tryCatch _ catches, some (body :: bodies) =>
    some (tryCatch body (catches.zipWith (fun clause body => {clause with body}) bodies))
  | _, _ => none

end Statement

namespace Block

-- Edits by position. Each is refused past the end; an insertion may stand at the end.
def insert? (block : Block) (index : Nat) (statement : Statement) : Option Block :=
  if index ≤ block.length then some (block.insertIdx index statement) else none

def remove? (block : Block) (index : Nat) : Option (Statement × Block) :=
  block[index]?.map fun old => (old,block.eraseIdx index)

def replace? (block : Block) (index : Nat) (statement : Statement) : Option (Statement × Block) :=
  block[index]?.map fun old => (old,block.set index statement)

def pop? (block : Block) : Option (Statement × Block) :=
  block.getLast?.map fun last => (last,block.dropLast)

def setLast? (block : Block) (statement : Statement) : Option (Statement × Block) :=
  block.getLast?.map fun last => (last,block.dropLast ++ [statement])

end Block
end Untangle
