import Untangle.Tree.Render

namespace Untangle

-- Short names of the node forms. An outline lists the nodes of a tree in visiting order, one label
-- each; leaves show their text.
def Literal.form : Literal → String
  | int _ => "int"
  | long _ => "long"
  | float _ => "float"
  | double _ => "double"
  | boolean _ => "bool"
  | string _ => "str"
  | null => "null"
  | classOf _ => "class"

def ExprKind.form : ExprKind → String
  | var _ => "local"
  | literal value => value.form
  | arithmetic _ _ _ => "arith"
  | negate _ => "neg"
  | numberCompare _ _ => "cmp"
  | instanceOf _ _ => "instanceof"
  | cast _ _ => "cast"
  | staticField _ => "field"
  | instanceField _ _ => "field"
  | element _ _ => "index"
  | arrayLength _ => "length"
  | freeCall _ _ _ => "invoke"
  | boundCall _ _ _ _ => "invoke"
  | new _ _ => "new"
  | newArray _ _ => "newarray"
  | filledArray _ _ _ => "newarray"
  | ternary _ _ _ => "ternary"
  | concat _ => "concat"

def Condition.form : Condition → String
  | compare _ _ _ => "compare"
  | test _ _ => "bool"
  | conj _ => "and"
  | disj _ => "or"
  | not _ => "not"
  | constant _ => "const"

def Statement.form : Statement → String
  | expr _ => "expr"
  | assign _ _ => "assign"
  | increment _ _ => "inc"
  | branch _ _ _ => "if"
  | whileLoop _ _ _ => "while"
  | doWhile _ _ _ => "dowhile"
  | forLoop _ _ _ _ _ => "for"
  | switch _ _ _ => "switch"
  | jump _ => "break"
  | ret _ => "return"
  | throw _ => "throw"
  | tryCatch _ _ => "try"

def Node.label : Node → String
  | ofStatement statement => "s:" ++ statement.form
  | ofCondition condition => "c:" ++ condition.form
  | ofExpr expr =>
    match expr.kind with
    | .var v => "e:local=" ++ v.render
    | .literal value => "e:" ++ value.form ++ "=" ++ value.render
    | kind => "e:" ++ kind.form

def Node.outline (node : Node) : List String := node.walk.map label
def Block.outline (block : Block) : List String := (Block.walk block).map Node.label

end Untangle
