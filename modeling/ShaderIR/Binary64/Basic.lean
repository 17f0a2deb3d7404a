/-!
Double-precision numbers, held by their bits, so that two values are equal exactly when their bits
are and negation is exact on zeros, infinities and not-a-number values alike. Rounding is done in
exact natural arithmetic: `Binary64.ofRatio` gives the double nearest to a fraction.
-/

namespace ShaderIR

/-- An IEEE 754 double: sign bit, eleven exponent bits, fifty-two fraction bits. -/
structure Binary64 where
  bits : BitVec 64
deriving DecidableEq, Repr

namespace Binary64

def isNegative (number : Binary64) : Bool :=
  number.bits.msb

def biasedExponent (number : Binary64) : Nat :=
  number.bits.toNat / Nat.pow 2 52 % Nat.pow 2 11

def fraction (number : Binary64) : Nat :=
  number.bits.toNat % Nat.pow 2 52

def isNaN (number : Binary64) : Bool :=
  number.biasedExponent == 2047 && number.fraction != 0

def isInfinite (number : Binary64) : Bool :=
  number.biasedExponent == 2047 && number.fraction == 0

def isZero (number : Binary64) : Bool :=
  number.biasedExponent == 0 && number.fraction == 0

/-- The magnitude of a finite number is `significand * 2 ^ exponent`. -/
def significand (number : Binary64) : Nat :=
  if number.biasedExponent = 0 then number.fraction else number.fraction + Nat.pow 2 52

def exponent (number : Binary64) : Int :=
  max (number.biasedExponent : Int) 1 - 1075

/-- Negation flips the sign bit and nothing else, whatever the number is. -/
def neg (number : Binary64) : Binary64 :=
  ⟨number.bits ^^^ BitVec.twoPow 64 63⟩

instance : Neg Binary64 := ⟨neg⟩

theorem neg_def (number : Binary64) : -number = ⟨number.bits ^^^ BitVec.twoPow 64 63⟩ := rfl

@[simp]
theorem neg_neg (number : Binary64) : - -number = number := by
  simp only [neg_def, BitVec.xor_assoc, BitVec.xor_self, BitVec.xor_zero]

def zero : Binary64 := ⟨0⟩

/-- The integer nearest to `numerator / denominator`; a half goes to the even neighbour. -/
def roundQuotient (numerator denominator : Nat) : Nat :=
  let quotient := numerator / denominator
  let twiceRest := 2 * (numerator % denominator)
  if twiceRest < denominator || (twiceRest == denominator && quotient % 2 == 0) then
    quotient
  else
    quotient + 1

/-- The greatest `power` with `2 ^ power ≤ numerator / denominator`, for a positive fraction. -/
def floorLog2 (numerator denominator : Nat) : Int :=
  let estimate : Int := (numerator.log2 : Int) - (denominator.log2 : Int)
  if denominator * Nat.pow 2 estimate.toNat ≤ numerator * Nat.pow 2 (-estimate).toNat then
    estimate
  else
    estimate - 1

/-- The double nearest to a nonnegative fraction, ties to the even significand. Fractions beyond
the largest double give infinity. The exponent field and the significand are added, so that a
significand rounded up to the next power of two carries into the exponent by itself. -/
def ofRatio (numerator denominator : Nat) : Binary64 :=
  if numerator = 0 then
    zero
  else
    let power := max (floorLog2 numerator denominator - 52) (-1074)
    let significand :=
      roundQuotient (numerator * Nat.pow 2 (-power).toNat) (denominator * Nat.pow 2 power.toNat)
    ⟨BitVec.ofNat 64
      (min ((power + 1074).toNat * Nat.pow 2 52 + significand) (2047 * Nat.pow 2 52))⟩

/-- The double nearest to an integer, ties to the even significand. -/
def ofInt (value : Int) : Binary64 :=
  if value < 0 then -ofRatio value.natAbs 1 else ofRatio value.natAbs 1

/-- Rounding an integer to a double commutes with negation, zero apart, which has two doubles. -/
theorem ofInt_neg {value : Int} (nonzero : value ≠ 0) : ofInt (-value) = -ofInt value := by
  by_cases negative : value < 0
  · have positive : ¬ -value < 0 := by omega
    simp only [ofInt, negative, positive, if_true, if_false, Int.natAbs_neg, neg_neg]
  · have negated : -value < 0 := by omega
    simp only [ofInt, negative, negated, if_true, if_false, Int.natAbs_neg]

end Binary64

end ShaderIR
