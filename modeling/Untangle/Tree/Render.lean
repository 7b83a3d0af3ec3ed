import Untangle.Decimal.Shortest
import Untangle.Tree.Node

namespace Untangle

def Local.render (var : Local) : String :=
  match var.name with
  | some name => name
  | none => "local" ++ toString var.index.toNat

def renderBool (value : Bool) : String := if value then "true" else "false"

def Literal.render : Literal → String
  | int value => toString value.toInt
  | long value => toString value.toInt ++ "L"
  | float bits => BinaryFormat.single.render bits.toNat ++ "F"
  | double bits => BinaryFormat.double.render bits.toNat
  | boolean value => renderBool value
  | string value => QuoteStyle.literal.quote value
  | null => "null"
  | classOf type => type.render ++ ".class"

inductive Piece where
  | text (text : String)
  | expr (expr : Expr)
  | condition (condition : Condition)

def glue (separator : String) : List (List Piece) → List Piece
  | [] => []
  | [last] => last
  | first :: second :: rest => first ++ .text separator :: glue separator (second :: rest)

def listed (separator : String) (exprs : List Expr) : List Piece :=
  glue separator (exprs.map fun expr => [.expr expr])

def ExprKind.pieces : ExprKind → List Piece
  | var v => [.text v.render]
  | literal value => [.text value.render]
  | arithmetic op left right =>
    [.text "(",.expr left,.text (" " ++ op.symbol ++ " "),.expr right,.text ")"]
  | negate operand => [.text "-",.expr operand]
  | numberCompare left right =>
    [.text "Integer.signum(",.expr right,.text " - ",.expr left,.text ")"]
  | instanceOf value type => [.text "(",.expr value,.text (" instanceof " ++ type.render ++ ")")]
  | cast target value => [.text ("((" ++ target.render ++ ") "),.expr value,.text ")"]
  | staticField field => [.text (dotted field.owner ++ "." ++ field.name)]
  | instanceField receiver field => [.expr receiver,.text ("." ++ field.name)]
  | element array index => [.expr array,.text "[",.expr index,.text "]"]
  | arrayLength array => [.expr array,.text ".length"]
  | freeCall _ method args =>
    .text (dotted method.owner ++ "." ++ method.name ++ "(") :: (listed ", " args ++ [.text ")"])
  | boundCall _ receiver method args =>
    .expr receiver :: .text ("." ++ method.name ++ "(") :: (listed ", " args ++ [.text ")"])
  | .new constructor args =>
    .text ("new " ++ dotted constructor.owner ++ "(") :: (listed ", " args ++ [.text ")"])
  | newArray component size =>
    [.text ("new " ++ component.render ++ "["),.expr size,.text "]"]
  | filledArray component _ values =>
    .text ("new " ++ component.render ++ "[] \x7b") :: (listed ", " values ++ [.text "\x7d"])
  | ternary condition thenValue elseValue =>
    [.text "(",.condition condition,.text " ? ",.expr thenValue,.text " : ",.expr elseValue,.text ")"]
  | concat parts => listed " + " parts

-- A connective inside another one is put into parentheses, whichever the two are.
def Condition.part : Condition → List Piece
  | conj parts => [.text "(",.condition (conj parts),.text ")"]
  | disj parts => [.text "(",.condition (disj parts),.text ")"]
  | other => [.condition other]

def Condition.pieces : Condition → List Piece
  | compare op left right => [.expr left,.text (" " ++ op.symbol ++ " "),.expr right]
  | test value true => [.text "!",.expr value]
  | test value false => [.expr value]
  | conj parts => glue " && " (parts.map part)
  | disj parts => glue " || " (parts.map part)
  | not inner => [.text "!(",.condition inner,.text ")"]
  | constant value => [.text (renderBool value)]

noncomputable def Piece.weight : Piece → Nat
  | .text _ => 0
  | .expr e => sizeOf e
  | .condition c => sizeOf c

noncomputable def piecesWeight : List Piece → Nat
  | [] => 0
  | piece :: rest => piece.weight + piecesWeight rest

noncomputable def rowsWeight : List (List Piece) → Nat
  | [] => 0
  | row :: rest => piecesWeight row + rowsWeight rest

theorem piecesWeight_nil : piecesWeight [] = 0 := rfl
theorem piecesWeight_cons (piece : Piece) (rest : List Piece) :
    piecesWeight (piece :: rest) = piece.weight + piecesWeight rest := by simp [piecesWeight]
theorem piecesWeight_append (left right : List Piece) :
    piecesWeight (left ++ right) = piecesWeight left + piecesWeight right := by
  induction left with
  | nil => simp [piecesWeight]
  | cons piece rest ih => simp [piecesWeight,ih]; omega

theorem piecesWeight_glue (separator : String) (items : List (List Piece)) :
    piecesWeight (glue separator items) = rowsWeight items := by
  fun_induction glue separator items with
  | case1 => rfl
  | case2 last => simp [rowsWeight]
  | case3 first second rest ih =>
    simp only [piecesWeight_append,piecesWeight_cons,Piece.weight,ih,rowsWeight]
    omega

theorem piecesWeight_listed (separator : String) (exprs : List Expr) :
    piecesWeight (listed separator exprs) < sizeOf exprs := by
  rw [listed,piecesWeight_glue]
  induction exprs with
  | nil => simp [rowsWeight]
  | cons e rest ih => simp [rowsWeight,piecesWeight,Piece.weight] at ih ⊢; omega

theorem piecesWeight_parts (separator : String) (parts : List Condition) :
    piecesWeight (glue separator (parts.map Condition.part)) < sizeOf parts := by
  rw [piecesWeight_glue]
  induction parts with
  | nil => simp [rowsWeight]
  | cons c rest ih =>
    have one : piecesWeight c.part = sizeOf c := by
      cases c <;> simp [Condition.part,piecesWeight,Piece.weight]
    simp only [List.map_cons,rowsWeight,one,List.cons.sizeOf_spec]
    omega

theorem piecesWeight_kind (kind : ExprKind) : piecesWeight kind.pieces ≤ sizeOf kind := by
  cases kind with
  | freeCall kind method args =>
    have := piecesWeight_listed ", " args
    simp [ExprKind.pieces,piecesWeight_cons,piecesWeight_append,piecesWeight_nil,Piece.weight]
    omega
  | boundCall kind receiver method args =>
    have := piecesWeight_listed ", " args
    simp [ExprKind.pieces,piecesWeight_cons,piecesWeight_append,piecesWeight_nil,Piece.weight]
    omega
  | new constructor args =>
    have := piecesWeight_listed ", " args
    simp [ExprKind.pieces,piecesWeight_cons,piecesWeight_append,piecesWeight_nil,Piece.weight]
    omega
  | filledArray component size values =>
    have := piecesWeight_listed ", " values
    simp [ExprKind.pieces,piecesWeight_cons,piecesWeight_append,piecesWeight_nil,Piece.weight]
    omega
  | concat parts =>
    have := piecesWeight_listed " + " parts
    simp [ExprKind.pieces]
    omega
  | _ => simp +arith [ExprKind.pieces,piecesWeight,Piece.weight]

theorem piecesWeight_condition (condition : Condition) :
    piecesWeight condition.pieces < sizeOf condition := by
  cases condition with
  | conj parts =>
    have := piecesWeight_parts " && " parts
    simp [Condition.pieces]
    omega
  | disj parts =>
    have := piecesWeight_parts " || " parts
    simp [Condition.pieces]
    omega
  | test value inverted => cases inverted <;> simp +arith [Condition.pieces,piecesWeight,Piece.weight]
  | _ => simp +arith [Condition.pieces,piecesWeight,Piece.weight]

-- Fills the holes from left to right. The stack is explicit, as for every walk over expressions.
def renderPieces (pending : List Piece) (text : String) : String :=
  match pending with
  | [] => text
  | .text more :: rest => renderPieces rest (text ++ more)
  | .expr expr :: rest => renderPieces (expr.kind.pieces ++ rest) text
  | .condition condition :: rest => renderPieces (condition.pieces ++ rest) text
termination_by (piecesWeight pending,pending.length)
decreasing_by
  · simp only [piecesWeight_cons,Piece.weight]
    exact Prod.Lex.right' _ (by simp) (by simp)
  · cases expr with
    | mk kind note =>
      have := piecesWeight_kind kind
      simp only [piecesWeight_cons,piecesWeight_append,Piece.weight,Expr.mk.sizeOf_spec]
      exact Prod.Lex.left _ _ (by omega)
  · have := piecesWeight_condition condition
    simp only [piecesWeight_cons,piecesWeight_append,Piece.weight]
    exact Prod.Lex.left _ _ (by omega)

def Expr.render (expr : Expr) : String := renderPieces [.expr expr] ""
def Condition.render (condition : Condition) : String := renderPieces [.condition condition] ""

def indent (depth : Nat) : String := String.ofList (List.replicate (4 * depth) ' ')

def headerText (line : String) : String :=
  String.ofList (((line.toList.reverse.dropWhile Char.isWhitespace).dropWhile (· == ';')).reverse)

def Break.render (brk : Break) : String :=
  match brk.target with
  | some target =>
    if brk.nested then brk.kind.keyword ++ " " ++ breakableLabel target else brk.kind.keyword
  | none => brk.kind.keyword

def renderTypes (types : List String) : String :=
  if types.isEmpty then "java.lang.Throwable" else String.intercalate " | " (types.map dotted)

mutual
def Statement.renderAt (depth : Nat) : Statement → String
  | .expr value => indent depth ++ value.render ++ ";\n"
  | .assign target value => indent depth ++ target.render ++ " = " ++ value.render ++ ";\n"
  | .increment var amount => indent depth ++ var.render ++ " += " ++ toString amount.toInt ++ ";\n"
  | .branch condition thenBlock elseBlock =>
    indent depth ++ "if (" ++ condition.render ++ ") \x7b\n" ++ renderBlockAt (depth + 1) thenBlock ++
      (match elseBlock with
      | none => ""
      | some elseBlock => indent depth ++ "\x7d else \x7b\n" ++ renderBlockAt (depth + 1) elseBlock) ++
      indent depth ++ "\x7d\n"
  | .whileLoop id condition body =>
    indent depth ++ breakableLabel id ++ ": while (" ++ condition.render ++ ") \x7b\n" ++
      renderBlockAt (depth + 1) body ++ indent depth ++ "\x7d\n"
  | .doWhile id condition body =>
    indent depth ++ breakableLabel id ++ ": do \x7b\n" ++ renderBlockAt (depth + 1) body ++
      indent depth ++ "\x7d while (" ++ condition.render ++ ");\n"
  | .forLoop id start condition update body =>
    indent depth ++ breakableLabel id ++ ": for (" ++
      (match start with
      | none => ""
      | some start => headerText (start.renderAt 0)) ++ "; " ++ condition.render ++ "; " ++
      (match update with
      | none => ""
      | some update => headerText (update.renderAt 0)) ++ ") \x7b\n" ++
      renderBlockAt (depth + 1) body ++ indent depth ++ "\x7d\n"
  | .switch id discriminant arms =>
    indent depth ++ breakableLabel id ++ ": switch (" ++ discriminant.render ++ ") \x7b\n" ++
      renderArmsAt depth arms ++ indent depth ++ "\x7d\n"
  | .jump brk => indent depth ++ brk.render ++ ";\n"
  | .ret none => indent depth ++ "return;\n"
  | .ret (some value) => indent depth ++ "return " ++ value.render ++ ";\n"
  | .throw exception => indent depth ++ "throw " ++ exception.render ++ ";\n"
  | .tryCatch body catches =>
    indent depth ++ "try \x7b\n" ++ renderBlockAt (depth + 1) body ++ renderCatchesAt depth catches ++
      indent depth ++ "\x7d\n"
def renderBlockAt (depth : Nat) : List Statement → String
  | [] => ""
  | statement :: rest => statement.renderAt depth ++ renderBlockAt depth rest
def renderArmsAt (depth : Nat) : List SwitchArm → String
  | [] => ""
  | ⟨labels,body⟩ :: rest =>
    (if labels.isEmpty then indent depth ++ "default:\n" else "") ++
      String.join (labels.map fun label => indent depth ++ "case " ++ toString label.toInt ++ ":\n") ++
      renderBlockAt (depth + 1) body ++ renderArmsAt depth rest
def renderCatchesAt (depth : Nat) : List CatchClause → String
  | [] => ""
  | ⟨types,body⟩ :: rest =>
    indent depth ++ "\x7d catch (" ++ renderTypes types ++ ") \x7b\n" ++ renderBlockAt (depth + 1) body ++
      renderCatchesAt depth rest
end

def Statement.render (statement : Statement) : String := statement.renderAt 0
def Block.render (block : Block) : String := renderBlockAt 0 block

end Untangle
