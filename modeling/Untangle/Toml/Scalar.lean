import Untangle.Decimal.Nearest
import Untangle.Toml.Quoted
import Untangle.Toml.Value

namespace Untangle.TomlScalar
open TomlText (digit? number?)

-- Digits with single underscores between them, which are left out of the result.
def digits? (base : Nat) : List Char → Option (List Char)
  | [] => none
  | [c] => (digit? base c).map fun _ => [c]
  | c :: '_' :: rest => if (digit? base c).isSome then (digits? base rest).map (c :: ·) else none
  | c :: rest => if (digit? base c).isSome then (digits? base rest).map (c :: ·) else none

-- A whole number in base ten does not begin with a zero, unless it is one.
def whole? (chars : List Char) : Option (List Char) := do
  let digits ← digits? 10 chars
  if digits.head? = some '0' ∧ 1 < digits.length then none else some digits

def inRange (value : Int) : Option Int :=
  if -9223372036854775808 ≤ value ∧ value ≤ 9223372036854775807 then some value else none

def based? (base : Nat) (chars : List Char) : Option Int := do
  inRange (← number? base (← digits? base chars))

def integer? : List Char → Option Int
  | '0' :: 'x' :: rest => based? 16 rest
  | '0' :: 'o' :: rest => based? 8 rest
  | '0' :: 'b' :: rest => based? 2 rest
  | chars => do
    let (negative,chars) := signed chars
    let value : Int ← number? 10 (← whole? chars)
    inRange (if negative then -value else value)

def isDigitish (c : Char) : Bool := c.isDigit || c == '_'

def exponent? (chars : List Char) : Option Int := do
  let (negative,chars) := signed chars
  let value : Int ← number? 10 (← digits? 10 chars)
  some (if negative then -value else value)

def tail? : List Char → Option (List Char × Int)
  | '.' :: rest => do
    let fraction ← digits? 10 (rest.takeWhile isDigitish)
    match rest.dropWhile isDigitish with
    | [] => some (fraction,0)
    | mark :: rest => if mark.toLower = 'e' then (exponent? rest).map (fraction,·) else none
  | mark :: rest => if mark.toLower = 'e' then (exponent? rest).map ([],·) else none
  | [] => none

-- A value beyond the largest one is refused, below zero it is infinite.
def decimal? (chars : List Char) : Option Nat := do
  let (negative,chars) := signed chars
  let sign := if negative then BinaryFormat.double.signBit else 0
  if chars = ['i','n','f'] then some (sign + BinaryFormat.double.infinityBits)
  else if chars = ['n','a','n'] then some (sign + BinaryFormat.double.nanBits)
  else
    let whole ← whole? (chars.takeWhile isDigitish)
    let (fraction,exponent) ← tail? (chars.dropWhile isDigitish)
    let digits ← number? 10 (whole ++ fraction)
    let bits := BinaryFormat.double.nearest ⟨digits,exponent - fraction.length⟩
    if bits = BinaryFormat.double.infinityBits ∧ ¬negative then none else some (sign + bits)

def fixed? (count low high : Nat) (chars : List Char) : Option (Nat × List Char) := do
  let digits := chars.take count
  let value ← number? 10 digits
  if digits.length = count ∧ low ≤ value ∧ value ≤ high then some (value,chars.drop count) else none

def mark? (mark : Char) : List Char → Option (List Char)
  | c :: rest => if c = mark then some rest else none
  | [] => none

def daysIn (year month : Nat) : Nat :=
  if month = 2 then (if year % 4 = 0 ∧ (year % 100 ≠ 0 ∨ year % 400 = 0) then 29 else 28)
  else if month = 4 ∨ month = 6 ∨ month = 9 ∨ month = 11 then 30
  else 31

def date? (chars : List Char) : Option (List Char) := do
  let (year,rest) ← fixed? 4 0 9999 chars
  let (month,rest) ← fixed? 2 1 12 (← mark? '-' rest)
  let (_,rest) ← fixed? 2 1 (daysIn year month) (← mark? '-' rest)
  some rest

def time? (chars : List Char) : Option (List Char) := do
  let (_,rest) ← fixed? 2 0 23 chars
  let (_,rest) ← fixed? 2 0 59 (← mark? ':' rest)
  let (_,rest) ← fixed? 2 0 60 (← mark? ':' rest)
  match rest with
  | '.' :: fraction => if (fraction.takeWhile Char.isDigit).isEmpty then none else some (fraction.dropWhile Char.isDigit)
  | rest => some rest

def isOffset : List Char → Bool
  | [] => true
  | [c] => c.toLower == 'z'
  | sign :: rest =>
    (sign == '+' || sign == '-') && (do
      let (_,rest) ← fixed? 2 0 23 rest
      let (_,rest) ← fixed? 2 0 59 (← mark? ':' rest)
      some rest) == some []

def isTimeWithOffset (chars : List Char) : Bool := ((time? chars).map isOffset).getD false

def isMoment (chars : List Char) : Bool :=
  time? chars == some [] || match date? chars with
    | some [] => true
    | some (c :: rest) => c.toLower == 't' && isTimeWithOffset rest
    | none => false

def word? (chars : List Char) : Option Toml :=
  if chars = "true".toList then some (.boolean true)
  else if chars = "false".toList then some (.boolean false)
  else if isMoment chars then some .moment
  else ((decimal? chars).map .decimal).or ((integer? chars).map .integer)

def isWordChar (c : Char) : Bool := c.isAlphanum || ['_','+','-','.',':'].contains c

-- A value without quotes or brackets. Date and time may also have a space in between.
def value? (chars : List Char) : Option (Toml × List Char) :=
  let word := chars.takeWhile isWordChar
  let rest := chars.dropWhile isWordChar
  match date? word, rest with
  | some [], ' ' :: after =>
    let time := after.takeWhile isWordChar
    if time.isEmpty then some (.moment,rest)
    else if isTimeWithOffset time then some (.moment,after.dropWhile isWordChar)
    else none
  | _, _ => (word? word).map (·,rest)

end Untangle.TomlScalar
