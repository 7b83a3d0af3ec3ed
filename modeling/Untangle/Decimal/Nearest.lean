import Untangle.Decimal.Shortest

namespace Untangle

def wholeNumber? (digits : List Char) : Option Nat :=
  if digits.isEmpty || !digits.all Char.isDigit then none
  else some (digits.foldl (fun n c => n * 10 + (c.toNat - 48)) 0)

def signed : List Char → Bool × List Char
  | '-' :: rest => (true,rest)
  | '+' :: rest => (false,rest)
  | chars => (false,chars)

namespace BinaryFormat

def signBit (format : BinaryFormat) : Nat := twoTo (format.exponentBits + format.fractionBits)
def infinityBits (format : BinaryFormat) : Nat := (twoTo format.exponentBits - 1) * twoTo format.fractionBits
def nanBits (format : BinaryFormat) : Nat := format.infinityBits + twoTo (format.fractionBits - 1)

def roundEven (numerator denominator : Nat) : Nat :=
  let whole := numerator / denominator
  let twice := 2 * (numerator % denominator)
  if denominator < twice || (twice == denominator && whole % 2 == 1) then whole + 1 else whole

def lastPlace (format : BinaryFormat) (numerator denominator : Nat) : Int :=
  let lowest : Int := 2 - twoTo (format.exponentBits - 1) - format.fractionBits
  let guess : Int := (numerator.log2 : Int) - denominator.log2 - format.fractionBits
  let enough := twoTo (format.fractionBits + guess.toNat) * denominator ≤ numerator * twoTo (-guess).toNat
  max lowest (if enough then guess else guess - 1)

-- Bits of the value nearest to a decimal. What is too large becomes infinite; no format reaches
-- as far as four hundred decimal places in either direction.
def nearest (format : BinaryFormat) (decimal : Decimal) : Nat :=
  if decimal.digits = 0 ∨ decimal.place < -400 then 0
  else if 400 < decimal.place then format.infinityBits
  else
    let numerator := decimal.digits * tenTo decimal.exponent.toNat
    let denominator := tenTo (-decimal.exponent).toNat
    let lowest : Int := 2 - twoTo (format.exponentBits - 1) - format.fractionBits
    let last := format.lastPlace numerator denominator
    let mantissa := roundEven (numerator * twoTo (-last).toNat) (denominator * twoTo last.toNat)
    min format.infinityBits ((last - lowest).toNat * twoTo format.fractionBits + mantissa)

end BinaryFormat
end Untangle
