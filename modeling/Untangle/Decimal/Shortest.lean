namespace Untangle

def twoTo (exponent : Nat) : Nat := Nat.pow 2 exponent
def tenTo (exponent : Nat) : Nat := Nat.pow 10 exponent

structure BinaryFormat where
  exponentBits : Nat
  fractionBits : Nat

namespace BinaryFormat

def single : BinaryFormat := ⟨8,23⟩
def double : BinaryFormat := ⟨11,52⟩

end BinaryFormat

structure Binary where
  mantissa : Nat
  exponent : Int
  lowEdge : Bool

inductive Decoded where
  | nan
  | infinite (negative : Bool)
  | zero (negative : Bool)
  | finite (negative : Bool) (value : Binary)

def BinaryFormat.decode (format : BinaryFormat) (bits : Nat) : Decoded :=
  let fraction := bits % twoTo format.fractionBits
  let biased := bits / twoTo format.fractionBits % twoTo format.exponentBits
  let negative := bits / twoTo (format.fractionBits + format.exponentBits) % 2 == 1
  let unit : Int := 2 - twoTo (format.exponentBits - 1) - format.fractionBits
  if biased = twoTo format.exponentBits - 1 then
    if fraction = 0 then .infinite negative else .nan
  else if biased = 0 then
    if fraction = 0 then .zero negative else .finite negative ⟨fraction,unit,false⟩
  else
    .finite negative ⟨twoTo format.fractionBits + fraction,unit + biased - 1,fraction == 0 && biased != 1⟩

-- Quarters of the last binary place over a common denominator, with the interval of reals that
-- round to the value. Its ends belong to it when the mantissa is even.
structure Interval where
  low : Nat
  value : Nat
  high : Nat
  denominator : Nat
  closed : Bool

def Binary.interval (binary : Binary) : Interval :=
  let scale := twoTo (binary.exponent - 2).toNat
  let quarters := 4 * binary.mantissa
  ⟨(if binary.lowEdge then quarters - 1 else quarters - 2) * scale,quarters * scale,
    (quarters + 2) * scale,twoTo (2 - binary.exponent).toNat,binary.mantissa % 2 == 0⟩

def digitCount (n : Nat) : Nat := (Nat.toDigits 10 n).length

def Interval.place (interval : Interval) : Int :=
  if interval.denominator ≤ interval.value then digitCount (interval.value / interval.denominator)
  else 1 - digitCount ((interval.denominator - 1) / interval.value)

structure Decimal where
  digits : Nat
  exponent : Int
deriving DecidableEq

-- On the grid of multiples of `10^exponent`, the point of the interval next to the value, if there
-- is one. A tie goes up.
def Interval.nearest? (interval : Interval) (exponent : Int) : Option Nat :=
  let up := tenTo (-exponent).toNat
  let unit := tenTo exponent.toNat * interval.denominator
  let value := interval.value * up
  let floor := value / unit
  let reaches (edge point : Nat) : Bool := edge < point || interval.closed && edge == point
  let below := reaches (interval.low * up) (floor * unit)
  let above := reaches ((floor + 1) * unit) (interval.high * up)
  if below && (!above || value - floor * unit < (floor + 1) * unit - value) then some floor
  else if above then some (floor + 1)
  else none

def Interval.shortest (interval : Interval) (exponent : Int) : Nat → Decimal
  | 0 => ⟨0,exponent⟩
  | finer + 1 =>
    match interval.nearest? exponent with
    | some digits => ⟨digits,exponent⟩
    | none => interval.shortest (exponent - 1) finer

-- The shortest decimal that reads back as the value, and of those the nearest to it.
-- Seventeen digits are enough for the widest format.
def Binary.shortest (binary : Binary) : Decimal :=
  binary.interval.shortest (binary.interval.place - 1) 17

def zeros (n : Nat) : String := String.ofList (List.replicate n '0')

def trimZeros (digits : List Char) : List Char := (digits.reverse.dropWhile (· == '0')).reverse

def Decimal.place (decimal : Decimal) : Int := decimal.exponent + digitCount decimal.digits

def Decimal.significant (decimal : Decimal) : List Char := trimZeros (Nat.toDigits 10 decimal.digits)

def Decimal.positional (decimal : Decimal) : String :=
  let digits := decimal.significant
  let place := decimal.place
  if place ≤ 0 then "0." ++ zeros (-place).toNat ++ String.ofList digits
  else
    let fraction := digits.drop place.toNat
    String.ofList (digits.take place.toNat) ++ zeros (place.toNat - digits.length) ++ "." ++
      (if fraction.isEmpty then "0" else String.ofList fraction)

def Decimal.scientific (decimal : Decimal) : String :=
  let digits := decimal.significant
  let fraction := digits.drop 1
  String.ofList (digits.take 1) ++ (if fraction.isEmpty then "" else "." ++ String.ofList fraction) ++
    "e" ++ toString (decimal.place - 1)

-- Positional from 0.0001 up to below 10^16, otherwise with an exponent.
def Decimal.render (decimal : Decimal) : String :=
  if -3 ≤ decimal.place ∧ decimal.place ≤ 16 then decimal.positional else decimal.scientific

def BinaryFormat.write (format : BinaryFormat) (finite : Decimal → String) (bits : Nat) : String :=
  let signed (negative : Bool) (text : String) : String := if negative then "-" ++ text else text
  match format.decode bits with
  | .nan => "NaN"
  | .infinite negative => signed negative "inf"
  | .zero negative => signed negative "0.0"
  | .finite negative value => signed negative (finite value.shortest)

def BinaryFormat.render (format : BinaryFormat) (bits : Nat) : String := format.write Decimal.render bits

def BinaryFormat.plain (format : BinaryFormat) (bits : Nat) : String :=
  let text := (format.write Decimal.positional bits).toList
  let whole := text.take (text.length - 2)
  String.ofList (if text = whole ++ ['.','0'] then whole else text)

end Untangle
