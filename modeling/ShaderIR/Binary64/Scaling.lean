import ShaderIR.Binary64.Basic

/-!
Reading a decimal numeral as a double by scaling: the significand is rounded to a double first and
then multiplied or divided by a rounded power of ten. The result is therefore not always the double
nearest to the numeral.
-/

namespace ShaderIR

namespace Binary64

/-- The double nearest to `significand * 2 ^ power`. -/
def ofScaled (significand : Nat) (power : Int) : Binary64 :=
  ofRatio (significand * Nat.pow 2 power.toNat) (Nat.pow 2 (-power).toNat)

/-- The rounded product of two finite nonnegative doubles. -/
def times (first second : Binary64) : Binary64 :=
  ofScaled (first.significand * second.significand) (first.exponent + second.exponent)

/-- The rounded quotient of two finite nonnegative doubles, the second not zero. -/
def dividedBy (first second : Binary64) : Binary64 :=
  let power := first.exponent - second.exponent
  ofRatio (first.significand * Nat.pow 2 power.toNat)
    (second.significand * Nat.pow 2 (-power).toNat)

def powerOfTen (power : Nat) : Binary64 :=
  ofRatio (Nat.pow 10 power) 1

/-- The greatest power of ten that is a finite double. -/
def greatestPower : Nat := 308

/-- Divides by the greatest power of ten up to `steps` times, and stops at zero. -/
def shrink : Nat → Binary64 → Binary64
  | 0, number => number
  | steps + 1, number =>
      if number.isZero then number else shrink steps (number.dividedBy (powerOfTen greatestPower))

/-- `significand * 10 ^ exponent` by scaling, or `none` if that exceeds every double. A divisor
beyond the greatest power of ten is split off in steps of that power. -/
def ofDecimal? (significand : Nat) (exponent : Int) : Option Binary64 :=
  let start := ofRatio significand 1
  if start.isZero then
    some start
  else if 0 ≤ exponent then
    if exponent.toNat ≤ greatestPower then
      let scaled := start.times (powerOfTen exponent.toNat)
      if scaled.isInfinite then none else some scaled
    else
      none
  else
    let places := (-exponent).toNat
    let steps := (places - 1) / greatestPower
    some ((shrink steps start).dividedBy (powerOfTen (places - steps * greatestPower)))

end Binary64

end ShaderIR
