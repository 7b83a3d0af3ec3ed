import Untangle.Proofs.Equality.Same
import Untangle.Tree.Render

namespace Untangle
variable {pending front rest : List Piece} {text more : String}

theorem renderPieces_behind (pending : List Piece) (more text : String) :
    renderPieces pending (more ++ text) = more ++ renderPieces pending text := by
  fun_induction renderPieces pending text with
  | case1 text => rw [renderPieces]
  | case2 text last rest ih => rw [renderPieces,String.append_assoc,ih]
  | case3 text expr rest ih => rw [renderPieces,ih]
  | case4 text condition rest ih => rw [renderPieces,ih]

theorem renderPieces_append (front rest : List Piece) (text : String) :
    renderPieces (front ++ rest) text = renderPieces rest (renderPieces front text) := by
  fun_induction renderPieces front text with
  | case1 text => rfl
  | case2 text last front ih => rw [List.cons_append,renderPieces,ih]
  | case3 text expr front ih => rw [List.cons_append,renderPieces,← List.append_assoc,ih]
  | case4 text condition front ih => rw [List.cons_append,renderPieces,← List.append_assoc,ih]

theorem renderPieces_expr (expr : Expr) (rest : List Piece) (text : String) :
    renderPieces (.expr expr :: rest) text = renderPieces rest (text ++ expr.render) := by
  have own : renderPieces [.expr expr] text = text ++ expr.render := by
    have behind := renderPieces_behind [.expr expr] text ""
    rwa [String.append_empty] at behind
  rw [← List.singleton_append,renderPieces_append,own]

def Piece.erase : Piece → Piece
  | .text written => .text written
  | .expr hole => .expr hole.erase
  | .condition hole => .condition hole.erase

theorem glue_erase (separator : String) (rows : List (List Piece)) :
    (glue separator rows).map Piece.erase = glue separator (rows.map (List.map Piece.erase)) := by
  fun_induction glue separator rows with
  | case1 => rfl
  | case2 last => rfl
  | case3 first second rest ih =>
    rw [List.map_append,List.map_cons,ih]
    rfl

theorem listed_erase (separator : String) (exprs : List Expr) :
    (listed separator exprs).map Piece.erase = listed separator (eraseExprs exprs) := by
  unfold listed
  rw [glue_erase,eraseExprs_map,List.map_map,List.map_map]
  rfl

theorem Condition.part_erase (condition : Condition) :
    condition.erase.part = condition.part.map Piece.erase := by
  cases condition <;> rfl

theorem Condition.pieces_erase (condition : Condition) :
    condition.erase.pieces = condition.pieces.map Piece.erase := by
  have parts (separator : String) (parts : List Condition) :
      (glue separator (parts.map part)).map Piece.erase = glue separator ((eraseConditions parts).map part) := by
    rw [glue_erase,eraseConditions_map,List.map_map,List.map_map]
    exact congrArg _ (List.map_congr_left fun condition _ => (part_erase condition).symm)
  cases condition with
  | conj each => exact (parts " && " each).symm
  | disj each => exact (parts " || " each).symm
  | test value inverted => cases inverted <;> rfl
  | _ => rfl

theorem ExprKind.pieces_erase (kind : ExprKind) : kind.erase.pieces = kind.pieces.map Piece.erase := by
  have between (before : List Piece) (exprs : List Expr) (after : List Piece) :
      (before ++ (listed ", " exprs ++ after)).map Piece.erase =
        before.map Piece.erase ++ (listed ", " (eraseExprs exprs) ++ after.map Piece.erase) := by
    rw [List.map_append,List.map_append,listed_erase]
  cases kind with
  | freeCall kind method args => exact (between [.text _] args [.text _]).symm
  | boundCall kind receiver method args => exact (between [.expr receiver,.text _] args [.text _]).symm
  | new constructor args => exact (between [.text _] args [.text _]).symm
  | filledArray component size values => exact (between [.text _] values [.text _]).symm
  | concat parts => exact (listed_erase " + " parts).symm
  | _ => rfl

theorem renderPieces_erase (pending : List Piece) (text : String) :
    renderPieces (pending.map Piece.erase) text = renderPieces pending text := by
  fun_induction renderPieces pending text with
  | case1 text => rw [List.map_nil,renderPieces]
  | case2 text last rest ih => rw [List.map_cons,Piece.erase,renderPieces,ih]
  | case3 text expr rest ih =>
    obtain ⟨kind,note⟩ := expr
    rw [List.map_append,← ExprKind.pieces_erase] at ih
    rw [List.map_cons,Piece.erase,renderPieces,Expr.erase,ih]
  | case4 text condition rest ih =>
    rw [List.map_append,← Condition.pieces_erase] at ih
    rw [List.map_cons,Piece.erase,renderPieces,ih]

theorem Expr.render_erase (expr : Expr) : expr.erase.render = expr.render := renderPieces_erase [.expr expr] ""

theorem Expr.same_iff {a b : Expr} : a.same b = true ↔ a.erase = b.erase :=
  Node.same_iff.trans (Node.ofExpr.injEq _ _).to_iff

theorem Expr.render_same {a b : Expr} (same : a.same b = true) : a.render = b.render := by
  rw [← a.render_erase,same_iff.mp same,b.render_erase]

namespace Expr
variable {op : ArithmeticOp} {left right operand : Expr} {note : Option Ty}

theorem render_pieces (expr : Expr) : expr.render = renderPieces expr.kind.pieces "" := by
  rw [render,renderPieces,List.append_nil]

theorem render_var (var : Local) : (⟨.var var,note⟩ : Expr).render = var.render := by
  rw [render_pieces]
  simp [ExprKind.pieces,renderPieces]

theorem render_literal (value : Literal) : (⟨.literal value,note⟩ : Expr).render = value.render := by
  rw [render_pieces]
  simp [ExprKind.pieces,renderPieces]

theorem render_arithmetic : (⟨.arithmetic op left right,note⟩ : Expr).render =
    "(" ++ left.render ++ (" " ++ op.symbol ++ " ") ++ right.render ++ ")" := by
  rw [render_pieces,ExprKind.pieces,renderPieces,renderPieces_expr,renderPieces,renderPieces_expr,renderPieces,
    renderPieces,String.empty_append]

theorem render_negate : (⟨.negate operand,note⟩ : Expr).render = "-" ++ operand.render := by
  rw [render_pieces,ExprKind.pieces,renderPieces,renderPieces_expr,renderPieces,String.empty_append]

end Expr
end Untangle
