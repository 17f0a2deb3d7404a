import ShaderIR.Binary64.Basic

/-!
The shortest decimal that reads back as a given double. A finite double and the two ends of the
interval of reals that round to it are all multiples of one power of ten, so the search compares
natural numbers: it tries ever finer decimal grids, and the first grid on which a neighbour of the
value lies in the interval gives the digits.
-/

namespace ShaderIR

/-- The decimal `digits * 10 ^ exponent`. -/
structure Decimal where
  digits : Nat
  exponent : Int
deriving DecidableEq, Repr

/-- Where a value halfway between two candidates goes. -/
inductive Tie where
  | up
  | even
deriving DecidableEq, Repr

/-- A value between two bounds, all counted in one unit. -/
structure Rounding where
  lower : Nat
  value : Nat
  upper : Nat
  /-- Whether the bounds themselves round to the value. -/
  closed : Bool
deriving DecidableEq, Repr

namespace Rounding

def admits (rounding : Rounding) (candidate : Nat) : Bool :=
  if rounding.closed then
    decide (rounding.lower ≤ candidate ∧ candidate ≤ rounding.upper)
  else
    decide (rounding.lower < candidate ∧ candidate < rounding.upper)

/-- Whether the grid point above a value is chosen over the one below it, both being admitted. -/
def prefersUp (tie : Tie) (below rest step : Nat) : Bool :=
  if 2 * rest = step then tie == .up || below % 2 == 1 else decide (step < 2 * rest)

/-- The admitted multiple of the largest power of ten up to `10 ^ places`, as a count and a power.
On the grid of units the value itself is admitted. -/
def coarsest (rounding : Rounding) (tie : Tie) : Nat → Nat × Nat
  | 0 => (rounding.value, 0)
  | places + 1 =>
      let step := Nat.pow 10 (places + 1)
      let below := rounding.value / step
      match rounding.admits (below * step), rounding.admits ((below + 1) * step) with
      | true, true =>
          if prefersUp tie below (rounding.value % step) step then (below + 1, places + 1)
          else (below, places + 1)
      | true, false => (below, places + 1)
      | false, true => (below + 1, places + 1)
      | false, false => rounding.coarsest tie places

end Rounding

namespace Binary64

/-- One quarter of the last place of a finite double is `quarterPlace * 10 ^ (-decimalPlaces)`. -/
def decimalPlaces (number : Binary64) : Nat :=
  (2 - number.exponent).toNat

def quarterPlace (number : Binary64) : Nat :=
  Nat.pow 2 (number.exponent - 2).toNat * Nat.pow 5 number.decimalPlaces

/-- The reals that round to a finite double. Below a power of two the doubles lie twice as close,
so the lower bound is nearer there. -/
def rounding (number : Binary64) : Rounding :=
  let unit := number.quarterPlace
  let nearer := number.fraction == 0 && decide (1 < number.biasedExponent)
  { lower := (4 * number.significand - (if nearer then 1 else 2)) * unit
    value := 4 * number.significand * unit
    upper := (4 * number.significand + 2) * unit
    closed := number.significand % 2 == 0 }

/-- The magnitude of a finite double as the decimal of fewest digits that rounds to it, and of
those the nearest. -/
def shortest (number : Binary64) (tie : Tie) : Decimal :=
  let rounding := number.rounding
  let places := (Nat.toDigits 10 rounding.value).length - 1
  let (digits, power) := rounding.coarsest tie places
  ⟨digits, (power : Int) - (number.decimalPlaces : Int)⟩

end Binary64

end ShaderIR
