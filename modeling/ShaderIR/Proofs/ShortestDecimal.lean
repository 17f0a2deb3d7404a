import Mathlib.Tactic
import ShaderIR.Binary64.Shortest

/-!
The shortest decimal of a double rounds to that double and to no other. Nonnegative doubles are
counted from zero by their `rank`; the reals that round to one of them lie between two consecutive
values of `boundary`, which grows with the rank. A boundary itself rounds to the neighbour of even
rank, so no real belongs to two doubles.
-/

namespace ShaderIR

def Decimal.value (decimal : Decimal) : ℚ :=
  decimal.digits * 10 ^ decimal.exponent

namespace Binary64

/-- The bits without the sign. -/
def rank (number : Binary64) : Nat :=
  number.bits.toNat % 2 ^ 63

theorem biasedExponent_eq (number : Binary64) : number.biasedExponent = number.rank / 2 ^ 52 := by
  have bound := number.bits.isLt
  change number.bits.toNat / 2 ^ 52 % 2 ^ 11 = number.bits.toNat % 2 ^ 63 / 2 ^ 52
  omega

theorem fraction_eq (number : Binary64) : number.fraction = number.rank % 2 ^ 52 := by
  change number.bits.toNat % 2 ^ 52 = number.bits.toNat % 2 ^ 63 % 2 ^ 52
  omega

theorem eq_of_rank_eq {first second : Binary64} (sameSign : first.isNegative = second.isNegative)
    (sameRank : first.rank = second.rank) : first = second := by
  have firstBound := first.bits.isLt
  have secondBound := second.bits.isLt
  have sameHalf : 2 ^ 63 ≤ first.bits.toNat ↔ 2 ^ 63 ≤ second.bits.toNat := by
    simpa only [isNegative, BitVec.msb_eq_decide, decide_eq_decide] using sameSign
  have sameBits : first.bits = second.bits := by
    apply BitVec.eq_of_toNat_eq
    simp only [rank] at sameRank
    omega
  cases first
  cases second
  exact congrArg Binary64.mk sameBits

/-! ## Boundaries -/

def significandAt (rank : Nat) : Nat :=
  if rank / 2 ^ 52 = 0 then rank % 2 ^ 52 else rank % 2 ^ 52 + 2 ^ 52

/-- A quarter of the last place. -/
def quarterAt (rank : Nat) : ℚ :=
  2 ^ (max ((rank / 2 ^ 52 : Nat) : Int) 1 - 1077)

/-- Where the reals that round to the double of a rank begin. They begin nearer to the first
double of a binade, since the doubles below it lie twice as close. -/
def boundary (rank : Nat) : ℚ :=
  (4 * significandAt rank - (if rank % 2 ^ 52 = 0 ∧ 1 < rank / 2 ^ 52 then 1 else 2)) *
    quarterAt rank

theorem quarterAt_pos (rank : Nat) : 0 < quarterAt rank := by
  unfold quarterAt
  positivity

theorem boundary_succ (rank : Nat) :
    boundary (rank + 1) = (4 * significandAt rank + 2) * quarterAt rank := by
  by_cases inside : rank % 2 ^ 52 + 1 < 2 ^ 52
  · have sameBinade : (rank + 1) / 2 ^ 52 = rank / 2 ^ 52 := by omega
    have nextFraction : (rank + 1) % 2 ^ 52 = rank % 2 ^ 52 + 1 := by omega
    have nextSignificand : significandAt (rank + 1) = significandAt rank + 1 := by
      simp only [significandAt, sameBinade, nextFraction]
      split <;> omega
    simp only [boundary, nextSignificand, quarterAt, sameBinade, nextFraction,
      Nat.add_eq_zero_iff, one_ne_zero, and_false, false_and, if_false]
    push_cast
    ring
  · have lastFraction : rank % 2 ^ 52 = 2 ^ 52 - 1 := by omega
    have nextFraction : (rank + 1) % 2 ^ 52 = 0 := by omega
    have nextBinade : (rank + 1) / 2 ^ 52 = rank / 2 ^ 52 + 1 := by omega
    have nextSignificand : significandAt (rank + 1) = 2 ^ 52 := by
      simp only [significandAt, nextBinade, nextFraction, Nat.add_eq_zero_iff, one_ne_zero,
        and_false, if_false, Nat.zero_add]
    by_cases subnormal : rank / 2 ^ 52 = 0
    · have significand : significandAt rank = 2 ^ 52 - 1 := by
        simp only [significandAt, subnormal, lastFraction, if_true]
      have sameQuarter : quarterAt (rank + 1) = quarterAt rank := by
        simp only [quarterAt, nextBinade, subnormal]
        norm_num
      simp only [boundary, nextSignificand, sameQuarter, significand, nextFraction, nextBinade,
        subnormal]
      norm_num
    · have significand : significandAt rank = 2 ^ 53 - 1 := by
        simp only [significandAt, subnormal, lastFraction, if_false]
        norm_num
      have nextQuarter : quarterAt (rank + 1) = 2 * quarterAt rank := by
        have larger : max ((rank / 2 ^ 52 + 1 : Nat) : Int) 1 - 1077 =
            max ((rank / 2 ^ 52 : Nat) : Int) 1 - 1077 + 1 := by omega
        rw [quarterAt, quarterAt, nextBinade, larger, zpow_add_one₀ two_ne_zero, mul_comm]
      have nearer : 1 < rank / 2 ^ 52 + 1 := by omega
      simp only [boundary, nextSignificand, nextQuarter, significand, nextFraction, nextBinade,
        nearer, and_self, if_true]
      norm_num
      ring

theorem boundary_strictMono : StrictMono boundary := by
  apply strictMono_nat_of_lt_succ
  intro rank
  have positive := quarterAt_pos rank
  rw [boundary_succ, boundary]
  apply mul_lt_mul_of_pos_right _ positive
  split <;> linarith

/-- The real rounds to the double of the rank, a tie going to the even one. -/
def Rounds (rank : Nat) (real : ℚ) : Prop :=
  if rank % 2 = 0 then boundary rank ≤ real ∧ real ≤ boundary (rank + 1)
  else boundary rank < real ∧ real < boundary (rank + 1)

theorem Rounds.bounds {rank : Nat} {real : ℚ} (rounds : Rounds rank real) :
    boundary rank ≤ real ∧ real ≤ boundary (rank + 1) := by
  unfold Rounds at rounds
  split at rounds
  · exact rounds
  · exact ⟨rounds.1.le, rounds.2.le⟩

theorem Rounds.not_lt {rank other : Nat} {real : ℚ} (rounds : Rounds rank real)
    (otherRounds : Rounds other real) : ¬ rank < other := by
  intro below
  have upTo := boundary_strictMono.monotone (Nat.succ_le_of_lt below)
  have meet : boundary (rank + 1) = boundary other :=
    le_antisymm upTo (otherRounds.bounds.1.trans rounds.bounds.2)
  have next : rank + 1 = other := boundary_strictMono.injective meet
  have tie : real = boundary (rank + 1) :=
    le_antisymm rounds.bounds.2 (meet ▸ otherRounds.bounds.1)
  -- The real is the boundary between two neighbours, only one of which has even rank.
  subst next
  unfold Rounds at rounds otherRounds
  by_cases even : rank % 2 = 0
  · have odd : (rank + 1) % 2 ≠ 0 := by omega
    rw [if_neg odd] at otherRounds
    exact absurd tie.symm otherRounds.1.ne
  · rw [if_neg even] at rounds
    exact absurd tie rounds.2.ne

theorem Rounds.unique {rank other : Nat} {real : ℚ} (rounds : Rounds rank real)
    (otherRounds : Rounds other real) : rank = other :=
  le_antisymm (Nat.le_of_not_lt (otherRounds.not_lt rounds))
    (Nat.le_of_not_lt (rounds.not_lt otherRounds))

/-! ## The decimal found by the search -/

theorem significandAt_rank (number : Binary64) :
    number.significand = significandAt number.rank := by
  simp only [significand, significandAt, biasedExponent_eq, fraction_eq]
  rfl

theorem significand_mod_two (number : Binary64) : number.significand % 2 = number.rank % 2 := by
  rw [significandAt_rank, significandAt]
  split <;> omega

/-- The unit that the search counts in is a decimal fraction of a quarter of the last place. -/
theorem quarterPlace_eq (number : Binary64) :
    (number.quarterPlace : ℚ) = quarterAt number.rank * 10 ^ number.decimalPlaces := by
  have exponent : number.exponent - 2 =
      max ((number.rank / 2 ^ 52 : Nat) : Int) 1 - 1077 := by
    rw [Binary64.exponent, biasedExponent_eq]
    omega
  rw [quarterAt, ← exponent, quarterPlace, decimalPlaces]
  rcases Int.le_total 2 number.exponent with large | small
  · obtain ⟨power, same⟩ := Int.eq_ofNat_of_zero_le (Int.sub_nonneg.mpr large)
    have noPlaces : (2 - number.exponent).toNat = 0 := by omega
    rw [same, noPlaces]
    simp
  · obtain ⟨places, same⟩ := Int.eq_ofNat_of_zero_le (Int.sub_nonneg.mpr small)
    have negated : number.exponent - 2 = -(places : Int) := by omega
    have noPower : (-(places : Int)).toNat = 0 := by omega
    rw [same, negated, noPower, zpow_neg, zpow_natCast, Int.toNat_natCast]
    have split : (10 : ℚ) ^ places = 2 ^ places * 5 ^ places := by
      rw [← mul_pow]
      norm_num
    simp [split]

theorem boundary_le_lower (number : Binary64) :
    boundary number.rank * 10 ^ number.decimalPlaces ≤ number.rounding.lower := by
  have nearer : (number.fraction == 0 && decide (1 < number.biasedExponent)) =
      decide (number.rank % 2 ^ 52 = 0 ∧ 1 < number.rank / 2 ^ 52) := by
    rw [fraction_eq, biasedExponent_eq, Bool.decide_and]
    rfl
  have positive := quarterAt_pos number.rank
  -- Below a quarter of a place the count stops at zero, which is beyond the boundary.
  have truncated (gap : Nat) : (4 * significandAt number.rank - gap : ℚ) ≤
      ((4 * significandAt number.rank - gap : Nat) : ℚ) := by
    rw [sub_le_iff_le_add]
    exact_mod_cast le_tsub_add
  rw [boundary, mul_assoc, ← quarterPlace_eq]
  simp only [rounding, nearer, decide_eq_true_eq, significandAt_rank, Nat.cast_mul]
  apply mul_le_mul_of_nonneg_right _ (Nat.cast_nonneg _)
  split
  · exact_mod_cast truncated 1
  · exact_mod_cast truncated 2

theorem upper_eq_boundary (number : Binary64) :
    (number.rounding.upper : ℚ) = boundary (number.rank + 1) * 10 ^ number.decimalPlaces := by
  rw [boundary_succ, mul_assoc, ← quarterPlace_eq, ← significandAt_rank]
  simp only [rounding]
  push_cast
  ring

theorem rounds_of_admits (number : Binary64) {candidate : Nat}
    (admitted : number.rounding.admits candidate = true) :
    Rounds number.rank (candidate / 10 ^ number.decimalPlaces) := by
  have scale : (0 : ℚ) < 10 ^ number.decimalPlaces := by positivity
  have lower := number.boundary_le_lower
  have upper := number.upper_eq_boundary
  have closed : number.rounding.closed = decide (number.rank % 2 = 0) := by
    rw [← significand_mod_two]
    rfl
  unfold Rounds
  rw [Rounding.admits, closed] at admitted
  by_cases even : number.rank % 2 = 0
  · simp only [even, decide_true, if_true, decide_eq_true_eq] at admitted ⊢
    rw [le_div_iff₀ scale, div_le_iff₀ scale, ← upper]
    exact ⟨lower.trans (by exact_mod_cast admitted.1), by exact_mod_cast admitted.2⟩
  · simp only [even, decide_false, Bool.false_eq_true, if_false, decide_eq_true_eq] at admitted ⊢
    rw [lt_div_iff₀ scale, div_lt_iff₀ scale, ← upper]
    exact ⟨lower.trans_lt (by exact_mod_cast admitted.1), by exact_mod_cast admitted.2⟩

theorem admits_value (number : Binary64) :
    number.rounding.admits number.rounding.value = true := by
  have unit : 0 < number.quarterPlace := by
    unfold quarterPlace
    exact Nat.mul_pos (Nat.pow_pos (by decide)) (Nat.pow_pos (by decide))
  have below (gap : Nat) :
      (4 * number.significand - gap) * number.quarterPlace ≤
        4 * number.significand * number.quarterPlace :=
    Nat.mul_le_mul_right _ (Nat.sub_le _ _)
  have above : 4 * number.significand * number.quarterPlace <
      (4 * number.significand + 2) * number.quarterPlace :=
    Nat.mul_lt_mul_of_pos_right (by omega) unit
  unfold Rounding.admits
  by_cases even : number.significand % 2 = 0
  · simp only [rounding, even, BEq.rfl, if_true, decide_eq_true_eq]
    exact ⟨below _, above.le⟩
  · have odd : (number.significand % 2 == 0) = false := by simpa using even
    simp only [rounding, odd, Bool.false_eq_true, if_false, decide_eq_true_eq]
    refine ⟨Nat.mul_lt_mul_of_pos_right ?_ unit, above⟩
    split <;> omega

end Binary64

theorem Rounding.admits_coarsest (rounding : Rounding) (tie : Tie)
    (onUnits : rounding.admits rounding.value = true) (places : Nat) :
    rounding.admits
      ((rounding.coarsest tie places).1 * 10 ^ (rounding.coarsest tie places).2) = true := by
  induction places with
  | zero => simpa [coarsest] using onUnits
  | succ places ih =>
      rw [coarsest]
      split
      next below above =>
        split
        · exact above
        · exact below
      next below _ => exact below
      next _ above => exact above
      next => exact ih

namespace Binary64

theorem rounds_shortest (number : Binary64) (tie : Tie) :
    Rounds number.rank (number.shortest tie).value := by
  have admitted := number.rounding.admits_coarsest tie number.admits_value
    ((Nat.toDigits 10 number.rounding.value).length - 1)
  have rounds := number.rounds_of_admits admitted
  simp only [shortest, Decimal.value]
  rw [zpow_sub₀ (by norm_num), zpow_natCast, zpow_natCast, ← mul_div_assoc]
  exact_mod_cast rounds

/-- Doubles of one sign that have the same shortest decimal are the same. -/
theorem eq_of_value_shortest {first second : Binary64} {tie : Tie}
    (sameSign : first.isNegative = second.isNegative)
    (sameValue : (first.shortest tie).value = (second.shortest tie).value) : first = second := by
  have rounds := second.rounds_shortest tie
  rw [← sameValue] at rounds
  exact eq_of_rank_eq sameSign ((first.rounds_shortest tie).unique rounds)

/-- Only zeros have the decimal zero. -/
theorem value_shortest_pos {number : Binary64} (nonzero : number.isZero = false) (tie : Tie) :
    0 < (number.shortest tie).value := by
  have positive : 0 < number.rank := by
    by_contra none
    have zero : number.rank = 0 := by omega
    simp [isZero, biasedExponent_eq, fraction_eq, zero] at nonzero
  have start : 0 < boundary 1 := by
    have quarter := quarterAt_pos 1
    simp only [boundary, significandAt]
    norm_num
    exact quarter
  have grown := boundary_strictMono.monotone (Nat.succ_le_of_lt positive)
  exact start.trans_le (grown.trans (number.rounds_shortest tie).bounds.1)

end Binary64

end ShaderIR
