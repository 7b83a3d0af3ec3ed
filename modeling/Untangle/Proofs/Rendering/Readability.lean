import Untangle.Proofs.Rendering.Pieces

namespace Untangle

theorem ArithmeticOp.ofSymbol_symbol (op : ArithmeticOp) : ofSymbol? op.symbol = some op := by
  cases op <;> rfl

theorem ArithmeticOp.symbol_plain (op : ArithmeticOp) : ∀ c ∈ op.symbol.toList, c ≠ ' ' := by
  cases op <;> simp [symbol]

-- A text ends a run of characters of one kind: it is empty, or begins with a character of another kind.
def RunEnds (kind : Char → Bool) (text : List Char) : Prop := ∀ c ∈ text.head?, kind c = false

section
variable {kind : Char → Bool} {first second behind after : List Char}

theorem run_taken (all : ∀ c ∈ first, kind c = true) (ends : RunEnds kind behind) :
    (first ++ behind).takeWhile kind = first := by
  have none : behind.takeWhile kind = [] := by
    cases behind with
    | nil => rfl
    | cons c rest => rw [List.takeWhile_cons,if_neg (by simp [ends c rfl])]
  rw [List.takeWhile_append_of_pos all,none,List.append_nil]

theorem run_unique (one : ∀ c ∈ first, kind c = true) (two : ∀ c ∈ second, kind c = true)
    (ends : RunEnds kind behind) (ends' : RunEnds kind after) (same : first ++ behind = second ++ after) :
    first = second ∧ behind = after := by
  have run : first = second := by rw [← run_taken one ends,same,run_taken two ends']
  exact ⟨run,List.append_cancel_left (run ▸ same)⟩

end

theorem digits_unique {m n : Nat} {behind after : List Char} (ends : RunEnds Char.isDigit behind)
    (ends' : RunEnds Char.isDigit after) (same : (toString m).toList ++ behind = (toString n).toList ++ after) :
    m = n ∧ behind = after := by
  rw [Nat.toString_eq_ofList_toDigits,Nat.toString_eq_ofList_toDigits,String.toList_ofList,String.toList_ofList] at same
  have digits (n : Nat) : ∀ c ∈ Nat.toDigits 10 n, c.isDigit = true := fun c member =>
    Nat.isDigit_of_mem_toDigits (by decide) (by decide) member
  obtain ⟨run,rest⟩ := run_unique (digits m) (digits n) ends ends' same
  refine ⟨?_,rest⟩
  rw [← Nat.ofDigitChars_ten_toDigits (n := m),run,Nat.ofDigitChars_ten_toDigits]

theorem symbol_unique {one two : ArithmeticOp} {behind after : List Char}
    (same : one.symbol.toList ++ ' ' :: behind = two.symbol.toList ++ ' ' :: after) :
    one = two ∧ behind = after := by
  have plain (op : ArithmeticOp) : ∀ c ∈ op.symbol.toList, (c != ' ') = true := fun c member =>
    bne_iff_ne.mpr (op.symbol_plain c member)
  have ends (text : List Char) : RunEnds (· != ' ') (' ' :: text) := by simp [RunEnds]
  obtain ⟨run,rest⟩ := run_unique (plain one) (plain two) (ends _) (ends _) same
  have symbols : one.symbol = two.symbol := String.toList_inj.mp run
  have ops := (ArithmeticOp.ofSymbol_symbol one).symm.trans
    ((congrArg ArithmeticOp.ofSymbol? symbols).trans (ArithmeticOp.ofSymbol_symbol two))
  exact ⟨Option.some.inj ops,(List.cons.inj rest).2⟩

namespace Expr

-- Arithmetic on unnamed variables of type `int` and literals of that type that are not negative.
inductive Arithmetical : Expr → Prop where
  | var (index : UInt16) (note : Option Ty) : Arithmetical ⟨.var ⟨index,none,.int⟩,note⟩
  | literal (value : Int32) (note : Option Ty) : 0 ≤ value.toInt → Arithmetical ⟨.literal (.int value),note⟩
  | arithmetic (op : ArithmeticOp) (note : Option Ty) : Arithmetical left → Arithmetical right →
    Arithmetical ⟨.arithmetic op left right,note⟩
  | negate (note : Option Ty) : Arithmetical operand → Arithmetical ⟨.negate operand,note⟩

def chars (expr : Expr) : List Char := expr.render.toList

theorem chars_var (index : UInt16) (type : Ty) (note : Option Ty) :
    chars ⟨.var ⟨index,none,type⟩,note⟩ = "local".toList ++ (toString index.toNat).toList := by
  rw [chars,render_var,Local.render,String.toList_append]

theorem chars_literal {value : Int32} (note : Option Ty) (whole : 0 ≤ value.toInt) :
    chars ⟨.literal (.int value),note⟩ = (toString value.toInt.toNat).toList := by
  rw [chars,render_literal,Literal.render]
  conv => lhs; rw [← Int.toNat_of_nonneg whole]
  rfl

theorem chars_arithmetic (op : ArithmeticOp) (left right : Expr) (note : Option Ty) :
    chars ⟨.arithmetic op left right,note⟩ =
      '(' :: (left.chars ++ ' ' :: (op.symbol.toList ++ ' ' :: (right.chars ++ [')']))) := by
  rw [chars,render_arithmetic]
  simp [chars]

theorem chars_negate (operand : Expr) (note : Option Ty) :
    chars ⟨.negate operand,note⟩ = '-' :: operand.chars := by
  rw [chars,render_negate]
  simp [chars]

def announced (c : Char) : String :=
  if c = 'l' then "local" else if c = '(' then "arithmetic" else if c = '-' then "negate" else "literal"

theorem Arithmetical.announces (arithmetical : Arithmetical expr) :
    ∃ c rest, expr.chars = c :: rest ∧ announced c = expr.kind.name := by
  cases arithmetical with
  | var index note => exact ⟨'l',_,chars_var index _ note,rfl⟩
  | literal value note whole =>
    rw [chars_literal note whole,Nat.toString_eq_ofList_toDigits,String.toList_ofList]
    obtain ⟨c,rest,same⟩ := List.exists_cons_of_ne_nil (Nat.toDigits_ne_nil (n := value.toInt.toNat) (b := 10))
    have digit : c.isDigit = true :=
      Nat.isDigit_of_mem_toDigits (by decide) (by decide) (same ▸ List.mem_cons_self)
    have apart (other : Char) (plain : other.isDigit = false) : c ≠ other := by
      rintro rfl
      cases plain.symm.trans digit
    refine ⟨c,rest,same,?_⟩
    rw [announced,if_neg (apart 'l' rfl),if_neg (apart '(' rfl),if_neg (apart '-' rfl)]
    rfl
  | arithmetic op note => exact ⟨'(',_,chars_arithmetic op _ _ note,rfl⟩
  | negate note => exact ⟨'-',_,chars_negate _ note,rfl⟩

variable {one two : Expr} {behind after : List Char}

theorem Arithmetical.alike (left : Arithmetical one) (right : Arithmetical two)
    (same : one.chars ++ behind = two.chars ++ after) : one.kind.name = two.kind.name := by
  obtain ⟨c,rest,first,form⟩ := left.announces
  obtain ⟨c',rest',second,form'⟩ := right.announces
  rw [first,second,List.cons_append,List.cons_append] at same
  rw [← form,← form',(List.cons.inj same).1]

-- Behind an operand stands a blank, a closing parenthesis or nothing at all, so the digits of the operand end
-- where it ends.
theorem Arithmetical.readable (left : Arithmetical one) (right : Arithmetical two)
    (ends : RunEnds Char.isDigit behind) (ends' : RunEnds Char.isDigit after)
    (same : one.chars ++ behind = two.chars ++ after) : one.erase = two.erase ∧ behind = after := by
  induction left generalizing two behind after with
  | var index note =>
    have named := (Arithmetical.var index note).alike right same
    cases right with
    | var other note' =>
      rw [chars_var,chars_var,List.append_assoc,List.append_assoc] at same
      obtain ⟨number,rest⟩ := digits_unique ends ends' (List.append_cancel_left same)
      rw [UInt16.toNat_inj.mp number]
      exact ⟨rfl,rest⟩
    | _ => simp [ExprKind.name] at named
  | literal value note whole =>
    have named := (Arithmetical.literal value note whole).alike right same
    cases right with
    | literal other note' whole' =>
      rw [chars_literal note whole,chars_literal note' whole'] at same
      obtain ⟨number,rest⟩ := digits_unique ends ends' same
      have numbers : value.toInt = other.toInt := by omega
      rw [Int32.toInt_inj.mp numbers]
      exact ⟨rfl,rest⟩
    | _ => simp [ExprKind.name] at named
  | arithmetic op note left₁ left₂ ihLeft ihRight =>
    have named := (Arithmetical.arithmetic op note left₁ left₂).alike right same
    cases right with
    | arithmetic op' note' right₁ right₂ =>
      rw [chars_arithmetic,chars_arithmetic] at same
      simp only [List.cons_append,List.append_assoc,List.nil_append] at same
      have blank (text : List Char) : RunEnds Char.isDigit (' ' :: text) := by simp [RunEnds]
      have closed (text : List Char) : RunEnds Char.isDigit (')' :: text) := by simp [RunEnds]
      obtain ⟨lefts,middle⟩ := ihLeft right₁ (blank _) (blank _) (List.cons.inj same).2
      obtain ⟨ops,onward⟩ := symbol_unique (List.cons.inj middle).2
      obtain ⟨rights,rest⟩ := ihRight right₂ (closed _) (closed _) onward
      refine ⟨?_,(List.cons.inj rest).2⟩
      rw [erase,erase,ExprKind.erase,ExprKind.erase,lefts,ops,rights]
    | _ => simp [ExprKind.name] at named
  | negate note left ih =>
    have named := (Arithmetical.negate note left).alike right same
    cases right with
    | negate note' right =>
      rw [chars_negate,chars_negate,List.cons_append,List.cons_append] at same
      obtain ⟨operands,rest⟩ := ih right ends ends' (List.cons.inj same).2
      refine ⟨?_,rest⟩
      rw [erase,erase,ExprKind.erase,ExprKind.erase,operands]
    | _ => simp [ExprKind.name] at named

-- Arithmetic is the same just if it is rendered alike.
theorem arithmetic_readable (left : Arithmetical one) (right : Arithmetical two) :
    one.same two = true ↔ one.render = two.render := by
  refine ⟨render_same,fun same => same_iff.mpr ?_⟩
  have nothing : RunEnds Char.isDigit [] := by simp [RunEnds]
  have chars : one.chars ++ [] = two.chars ++ [] := by rw [Expr.chars,Expr.chars,same]
  exact (left.readable right nothing nothing chars).1

def shifting (op : ArithmeticOp) (note : Option Ty) : Expr :=
  ⟨.arithmetic op ⟨.var ⟨1,none,.int⟩,note⟩ ⟨.negate ⟨.literal (.int 12),none⟩,none⟩,none⟩

theorem shifting_arithmetical (op : ArithmeticOp) (note : Option Ty) : Arithmetical (shifting op note) :=
  .arithmetic op none (.var 1 note) (.negate none (.literal 12 none (by decide)))

theorem shifting_readable :
    Arithmetical (shifting .shr none) ∧ Arithmetical (shifting .shr (some .int)) ∧
      Arithmetical (shifting .ushr none) ∧ (shifting .shr none).render = (shifting .shr (some .int)).render ∧
      (shifting .shr none).render ≠ (shifting .ushr none).render := by
  have plain := shifting_arithmetical .shr none
  have noted := shifting_arithmetical .shr (some .int)
  have other := shifting_arithmetical .ushr none
  refine ⟨plain,noted,other,(arithmetic_readable plain noted).mp (same_iff.mpr rfl),fun same => ?_⟩
  have erased := same_iff.mp ((arithmetic_readable plain other).mpr same)
  simp [shifting,erase,ExprKind.erase] at erased

end Expr
end Untangle
