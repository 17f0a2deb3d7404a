import ShaderIR.Binary64.Shortest

/-!
The text of a double: its shortest digits, written positionally for exponents of moderate size and
with an exponent mark otherwise. The decisions of a particular format are a `Binary64.Layout`.
-/

namespace ShaderIR

namespace Binary64

/-- How doubles are written: the leading digit's powers of ten that are written positionally,
whether an exponent that is not negative has a plus sign, and which of two equally near shortest
decimals is taken. -/
structure Layout where
  leastPositional : Int
  greatestPositional : Int
  plusSign : Bool
  tie : Tie
deriving DecidableEq, Repr

/-- Literals are positional from 0.0001 up to, but not including, 1e16. Exponents have no plus
sign. -/
def Layout.literal : Layout where
  leastPositional := -4
  greatestPositional := 15
  plusSign := false
  tie := .up

/-- Numbers quoted in messages are positional from 0.00001 up to, but not including, 1e+16.
Exponents have their sign. -/
def Layout.message : Layout where
  leastPositional := -5
  greatestPositional := 15
  plusSign := true
  tie := .even

end Binary64

namespace Decimal

/-- The digits without trailing zeros, and the power of ten of the last digit kept. -/
def significantDigits (decimal : Decimal) : List Char × Int :=
  let digits := Nat.toDigits 10 decimal.digits
  let zeros := (digits.reverse.takeWhile (· == '0')).length
  (digits.take (digits.length - zeros), decimal.exponent + zeros)

/-- Positional text with at least one digit on each side of the point. -/
def positional (digits : List Char) (lastPower : Int) : List Char :=
  if 0 ≤ lastPower then
    digits ++ List.replicate lastPower.toNat '0' ++ ['.', '0']
  else
    let places := (-lastPower).toNat
    if places < digits.length then
      digits.take (digits.length - places) ++ '.' :: digits.drop (digits.length - places)
    else
      '0' :: '.' :: (List.replicate (places - digits.length) '0' ++ digits)

/-- One digit before the point, no point if there is no further digit, and the exponent in as many
digits as it needs. -/
def scientific (plusSign : Bool) (digits : List Char) (leadingPower : Int) : List Char :=
  let mantissa :=
    match digits with
    | first :: second :: rest => first :: '.' :: second :: rest
    | short => short
  let sign := if plusSign ∧ 0 ≤ leadingPower then ['+'] else []
  mantissa ++ 'e' :: (sign ++ (toString leadingPower).toList)

end Decimal

namespace Binary64

/-- The text of a finite nonzero magnitude. -/
def magnitudeText (layout : Layout) (number : Binary64) : List Char :=
  let (digits, lastPower) := (number.shortest layout.tie).significantDigits
  let leadingPower := lastPower + (digits.length : Int) - 1
  if layout.leastPositional ≤ leadingPower ∧ leadingPower ≤ layout.greatestPositional then
    Decimal.positional digits lastPower
  else
    Decimal.scientific layout.plusSign digits leadingPower

/-- The text of a double. Zeros and infinities show their sign, not-a-number values do not. -/
def text (layout : Layout) (number : Binary64) : String :=
  if number.isNaN then
    "NaN"
  else
    let magnitude :=
      if number.isInfinite then "inf"
      else if number.isZero then "0.0"
      else String.ofList (number.magnitudeText layout)
    if number.isNegative then "-" ++ magnitude else magnitude

end Binary64

end ShaderIR
