import Untangle.Decimal.Nearest
import Untangle.Text.Pattern

namespace Untangle

-- What a field of a span is compared with. A whole number is an integer if it has a minus, and
-- otherwise natural.
inductive FieldValue where
  | truth (value : Bool)
  | real (bits : Nat)
  | notANumber
  | natural (value : Nat)
  | integer (value : Int)
  | pattern (text : String)
deriving DecidableEq

namespace FieldValue

def exponent? : List Char → Option Int
  | [] => some 0
  | mark :: rest => do
    let (negative,digits) := signed rest
    let value : Int ← wholeNumber? digits
    if mark.toLower = 'e' then some (if negative then -value else value) else none

def decimal? (chars : List Char) : Option Decimal := do
  let whole := chars.takeWhile Char.isDigit
  let rest := chars.dropWhile Char.isDigit
  let (fraction,rest) := match rest with
    | '.' :: rest => (rest.takeWhile Char.isDigit,rest.dropWhile Char.isDigit)
    | _ => ([],rest)
  some ⟨← wholeNumber? (whole ++ fraction),(← exponent? rest) - fraction.length⟩

def floating? (chars : List Char) : Option FieldValue :=
  let (negative,chars) := signed chars
  let sign := if negative then BinaryFormat.double.signBit else 0
  let word := lowered (String.ofList chars)
  if word = "nan" then some .notANumber
  else if word = "inf" ∨ word = "infinity" then some (.real (sign + BinaryFormat.double.infinityBits))
  else (decimal? chars).map fun decimal => .real (sign + BinaryFormat.double.nearest decimal)

-- A whole number of 64 bits, one of which is for the sign if it has a minus.
def whole? (chars : List Char) : Option FieldValue := do
  let (negative,digits) := signed chars
  let value ← wholeNumber? digits
  if negative then if value ≤ 9223372036854775808 then some (.integer (-value)) else none
  else if value < 18446744073709551616 then some (.natural value)
  else none

def ofText? (chars : List Char) : Option FieldValue :=
  if chars = "true".toList then some (.truth true)
  else if chars = "false".toList then some (.truth false)
  else match (whole? chars).or (floating? chars) with
    | some number => some number
    | none => if Pattern.isWellFormed chars then some (.pattern (String.ofList chars)) else none

def render : FieldValue → String
  | truth value => if value then "true" else "false"
  | real bits => BinaryFormat.double.plain bits
  | notANumber => "NaN"
  | natural value => toString value
  | integer value => toString value
  | pattern text => text

def rank : FieldValue → Nat
  | truth _ => 0
  | real _ => 1
  | notANumber => 2
  | natural _ => 3
  | integer _ => 4
  | pattern _ => 5

-- A whole number in the same order as the floating value; both zeros come to the same.
def floatingKey (bits : Nat) : Int :=
  if bits < BinaryFormat.double.signBit then bits else BinaryFormat.double.signBit - (bits : Int)

def order : FieldValue → FieldValue → Ordering
  | truth left, truth right => compare left right
  | real left, real right => compare (floatingKey left) (floatingKey right)
  | natural left, natural right => compare left right
  | integer left, integer right => compare left right
  | pattern left, pattern right => compare left right
  | left, right => compare left.rank right.rank

end FieldValue

structure LogField where
  name : String
  value : Option FieldValue
deriving DecidableEq

namespace LogField

-- What stands behind another "=" is not read.
def ofText? (chars : List Char) : Option LogField := do
  let name := String.ofList (chars.takeWhile (· != '='))
  match chars.dropWhile (· != '=') with
  | [] => if chars.isEmpty then none else some ⟨name,none⟩
  | _ :: rest => some ⟨name,some (← FieldValue.ofText? (rest.takeWhile (· != '=')))⟩

def render (field : LogField) : String :=
  field.name ++ ((field.value.map fun value => "=" ++ value.render).getD "")

-- A field that is compared with something is more specific than one that only has to be there.
def order (left right : LogField) : Ordering :=
  ((compare left.value.isSome right.value.isSome).then (compare left.name right.name)).then
    (match left.value, right.value with
      | some left, some right => left.order right
      | _, _ => .eq)

end LogField
end Untangle
