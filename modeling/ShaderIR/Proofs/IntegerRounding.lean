import ShaderIR.Proofs.ShortestDecimal

/-!
An integer of 64 bits becomes the double nearest to it, a tie going to the even neighbour. Its
leading bit gives the binade; in that binade the doubles are the multiples of one power of two, so
that rounding is a division of integers. A quotient rounded up to the end of the binade is the first
double of the next one.
-/

namespace ShaderIR

namespace Binary64

/-! ## Quotients -/

variable {numerator denominator : Nat}

theorem div_le_roundQuotient :
    numerator / denominator ≤ roundQuotient numerator denominator := by
  simp only [roundQuotient]
  split <;> omega

theorem roundQuotient_le_succ :
    roundQuotient numerator denominator ≤ numerator / denominator + 1 := by
  simp only [roundQuotient]
  split <;> omega

/-- The rounded quotient is at most half a unit off, and even if it is exactly that far off. -/
theorem roundQuotient_near (numerator : Nat) (positive : 0 < denominator) :
    2 * numerator ≤ (2 * roundQuotient numerator denominator + 1) * denominator ∧
      2 * roundQuotient numerator denominator * denominator ≤ 2 * numerator + denominator ∧
      (roundQuotient numerator denominator % 2 ≠ 0 →
        2 * numerator ≠ (2 * roundQuotient numerator denominator + 1) * denominator ∧
        2 * roundQuotient numerator denominator * denominator ≠ 2 * numerator + denominator) := by
  have division := Nat.div_add_mod numerator denominator
  have rest := Nat.mod_lt numerator positive
  have expand (count : Nat) : 2 * count * denominator = 2 * (denominator * count) := by ring
  have above (count : Nat) :
      (2 * count + 1) * denominator = 2 * (denominator * count) + denominator := by
    ring
  have next (count : Nat) : denominator * (count + 1) = denominator * count + denominator := by ring
  simp only [roundQuotient, expand, above]
  split
  next down =>
    simp only [Bool.or_eq_true, decide_eq_true_eq, Bool.and_eq_true, beq_iff_eq] at down
    omega
  next up =>
    simp only [Bool.or_eq_true, decide_eq_true_eq, Bool.and_eq_true, beq_iff_eq] at up
    rw [next]
    omega

/-! ## Binades -/

/-- The doubles of a binade are the multiples of one unit. -/
theorem place_in_binade (binade : Nat) {place : Nat} (least : 2 ^ 52 ≤ place)
    (below : place < 2 ^ 53) :
    significandAt (binade * 2 ^ 52 + place) = place ∧
      quarterAt (binade * 2 ^ 52 + place) * 4 = 2 ^ ((binade : Int) - 1074) := by
  have exponent : (binade * 2 ^ 52 + place) / 2 ^ 52 = binade + 1 := by omega
  constructor
  · rw [significandAt, exponent, if_neg (Nat.succ_ne_zero binade)]
    omega
  · have larger : (binade : Int) - 1074 = max ((binade + 1 : Nat) : Int) 1 - 1077 + 2 := by omega
    rw [quarterAt, exponent, larger, zpow_add₀ two_ne_zero]
    norm_num

theorem boundary_above_place (binade : Nat) {place : Nat} (least : 2 ^ 52 ≤ place)
    (below : place < 2 ^ 53) :
    boundary (binade * 2 ^ 52 + place + 1) = (place + 1 / 2) * 2 ^ ((binade : Int) - 1074) := by
  obtain ⟨significand, quarter⟩ := place_in_binade binade least below
  rw [boundary_succ, significand, ← quarter]
  ring

theorem boundary_le_place (binade : Nat) {place : Nat} (least : 2 ^ 52 ≤ place)
    (below : place < 2 ^ 53) :
    boundary (binade * 2 ^ 52 + place) ≤ place * 2 ^ ((binade : Int) - 1074) := by
  obtain ⟨significand, quarter⟩ := place_in_binade binade least below
  have positive := quarterAt_pos (binade * 2 ^ 52 + place)
  rw [boundary, significand, ← quarter]
  generalize quarterAt (binade * 2 ^ 52 + place) = quarter at positive ⊢
  split <;> linarith

/-- A real in a binade rounds to the place that is at most half a unit away, and even if it is
exactly that far away. The end of the binade is the first place of the next one. -/
theorem rounds_in_binade (binade : Nat) {place : Nat} {real : ℚ} (least : 2 ^ 52 ≤ place)
    (most : place ≤ 2 ^ 53)
    (start : 2 ^ 52 * 2 ^ ((binade : Int) - 1074) ≤ real)
    (stop : real < 2 ^ 53 * 2 ^ ((binade : Int) - 1074))
    (above : (place - 1 / 2) * 2 ^ ((binade : Int) - 1074) ≤ real)
    (below : real ≤ (place + 1 / 2) * 2 ^ ((binade : Int) - 1074))
    (tie : place % 2 ≠ 0 → (place - 1 / 2) * 2 ^ ((binade : Int) - 1074) ≠ real ∧
      real ≠ (place + 1 / 2) * 2 ^ ((binade : Int) - 1074)) :
    Rounds (binade * 2 ^ 52 + place) real := by
  have unit : (0 : ℚ) < 2 ^ ((binade : Int) - 1074) := by positivity
  have lower (inside : 2 ^ 52 < place) : boundary (binade * 2 ^ 52 + place) =
      (place - 1 / 2) * 2 ^ ((binade : Int) - 1074) := by
    obtain ⟨before, rfl⟩ := Nat.exists_eq_succ_of_ne_zero (by omega : place ≠ 0)
    rw [Nat.succ_eq_add_one, ← Nat.add_assoc, boundary_above_place binade (by omega) (by omega)]
    push_cast
    ring
  have from_lower : boundary (binade * 2 ^ 52 + place) ≤ real := by
    rcases least.eq_or_lt with first | inside
    · refine (boundary_le_place binade least (by omega)).trans ?_
      rw [← first]
      exact_mod_cast start
    · rw [lower inside]
      exact above
  have up_to_upper : real ≤ boundary (binade * 2 ^ 52 + place + 1) := by
    rcases most.eq_or_lt with last | inside
    · have next : binade * 2 ^ 52 + place + 1 = (binade + 1) * 2 ^ 52 + 2 ^ 52 + 1 := by omega
      have doubled : (((binade + 1 : Nat) : Int) - 1074) = (binade : Int) - 1074 + 1 := by omega
      rw [next, boundary_above_place (binade + 1) le_rfl (by omega), doubled,
        zpow_add_one₀ two_ne_zero]
      generalize (2 : ℚ) ^ ((binade : Int) - 1074) = size at stop unit ⊢
      push_cast
      linarith
    · rw [boundary_above_place binade least inside]
      exact below
  unfold Rounds
  split
  next => exact ⟨from_lower, up_to_upper⟩
  next odd =>
    have inside : 2 ^ 52 < place ∧ place < 2 ^ 53 := by omega
    obtain ⟨notAbove, notBelow⟩ := tie (by omega)
    rw [lower inside.1, boundary_above_place binade least inside.2]
    exact ⟨lt_of_le_of_ne above notAbove, lt_of_le_of_ne below notBelow⟩

/-! ## Integers -/

theorem floorLog2_one {number : Nat} (positive : number ≠ 0) :
    floorLog2 number 1 = number.log2 := by
  have leading : 1 * Nat.pow 2 number.log2 ≤ number * Nat.pow 2 0 := by
    rw [one_mul]
    exact (Nat.log2_self_le positive).trans_eq (Nat.mul_one number).symm
  have none : Nat.log2 1 = 0 := by decide
  simp only [floorLog2, none, Nat.cast_zero, sub_zero, Int.toNat_natCast, Int.toNat_neg_natCast,
    if_pos leading]

/-- The multiple of the unit of its binade that an integer is rounded to. -/
def placeOf (number : Nat) : Nat :=
  roundQuotient (number * 2 ^ (52 - number.log2)) (2 ^ (number.log2 - 52))

theorem placeOf_bounds {number : Nat} (positive : number ≠ 0) :
    2 ^ 52 ≤ placeOf number ∧ placeOf number ≤ 2 ^ 53 := by
  have leading := Nat.log2_self_le positive
  have next := Nat.lt_log2_self (n := number)
  have size : 2 ^ 52 * 2 ^ (number.log2 - 52) = 2 ^ number.log2 * 2 ^ (52 - number.log2) := by
    rw [← Nat.pow_add, ← Nat.pow_add]
    congr 1
    omega
  have least : 2 ^ 52 ≤ number * 2 ^ (52 - number.log2) / 2 ^ (number.log2 - 52) := by
    rw [Nat.le_div_iff_mul_le (by positivity), size]
    exact Nat.mul_le_mul_right _ leading
  have below : number * 2 ^ (52 - number.log2) / 2 ^ (number.log2 - 52) < 2 ^ 53 := by
    rw [Nat.div_lt_iff_lt_mul (by positivity), Nat.pow_succ 2 52, Nat.mul_right_comm, size,
      Nat.mul_right_comm, ← Nat.pow_succ]
    exact Nat.mul_lt_mul_of_pos_right next (by positivity)
  exact ⟨least.trans div_le_roundQuotient, roundQuotient_le_succ.trans below⟩

theorem bits_ofRatio_one {number : Nat} (positive : number ≠ 0) (binade : number.log2 < 64) :
    (ofRatio number 1).bits.toNat = (number.log2 + 1022) * 2 ^ 52 + placeOf number := by
  obtain ⟨-, most⟩ := placeOf_bounds positive
  have power : max ((number.log2 : Int) - 52) (-1074) = (number.log2 : Int) - 52 := by omega
  have exponent : ((number.log2 : Int) - 52 + 1074).toNat = number.log2 + 1022 := by omega
  have up : ((number.log2 : Int) - 52).toNat = number.log2 - 52 := by omega
  have down : (-((number.log2 : Int) - 52)).toNat = 52 - number.log2 := by omega
  simp only [ofRatio, if_neg positive, floorLog2_one positive, power, exponent, up, down,
    Nat.pow_eq, one_mul, BitVec.toNat_ofNat]
  rw [← placeOf]
  generalize placeOf number = place at most ⊢
  generalize number.log2 = leading at binade ⊢
  rw [min_eq_left (by omega), Nat.mod_eq_of_lt (by omega)]

theorem rank_of_bits_lt {number : Binary64} (small : number.bits.toNat < 2 ^ 63) :
    number.isNegative = false ∧ number.rank = number.bits.toNat := by
  constructor
  · rw [isNegative, BitVec.msb_eq_false_iff_two_mul_lt]
    omega
  · exact Nat.mod_eq_of_lt small

theorem bits_ofRatio_one_lt {number : Nat} (bounded : number < 2 ^ 64) :
    (ofRatio number 1).bits.toNat < 2 ^ 63 := by
  rcases eq_or_ne number 0 with rfl | positive
  · decide
  · have binade := (Nat.log2_lt positive).mpr bounded
    obtain ⟨-, most⟩ := placeOf_bounds positive
    rw [bits_ofRatio_one positive binade]
    omega

theorem rounds_zero : Rounds 0 0 := by
  have positive := quarterAt_pos 0
  rw [Rounds, if_pos rfl, boundary_succ, boundary, significandAt]
  norm_num
  linarith

/-- In units of its binade an integer is the fraction that is rounded, and its leading bit stands in
the first place. -/
theorem unit_of_binade (leading : Nat) :
    (2 : ℚ) ^ (leading - 52) = 2 ^ ((leading : Int) - 52) * 2 ^ (52 - leading) ∧
      (2 : ℚ) ^ leading = 2 ^ 52 * 2 ^ ((leading : Int) - 52) := by
  have whole :
      ((leading - 52 : Nat) : Int) = (leading : Int) - 52 + ((52 - leading : Nat) : Int) := by
    omega
  have first : (leading : Int) = ((52 : Nat) : Int) + ((leading : Int) - 52) := by omega
  constructor
  · rw [← zpow_natCast 2 (leading - 52), ← zpow_natCast 2 (52 - leading), whole,
      zpow_add₀ two_ne_zero]
  · rw [← zpow_natCast 2 leading, first, zpow_add₀ two_ne_zero, zpow_natCast 2 52, ← first]

theorem placeOf_near (number : Nat) :
    (placeOf number - 1 / 2) * (2 : ℚ) ^ ((number.log2 : Int) - 52) ≤ number ∧
      number ≤ (placeOf number + 1 / 2) * (2 : ℚ) ^ ((number.log2 : Int) - 52) ∧
      (placeOf number % 2 ≠ 0 →
        (placeOf number - 1 / 2) * (2 : ℚ) ^ ((number.log2 : Int) - 52) ≠ number ∧
        number ≠ (placeOf number + 1 / 2) * (2 : ℚ) ^ ((number.log2 : Int) - 52)) := by
  have near := roundQuotient_near (number * 2 ^ (52 - number.log2))
    (Nat.pow_pos two_pos : 0 < 2 ^ (number.log2 - 52))
  rw [← placeOf] at near
  generalize placeOf number = place at near ⊢
  obtain ⟨scale, -⟩ := unit_of_binade number.log2
  have factor : (0 : ℚ) < 2 ^ (52 - number.log2) := by positivity
  obtain ⟨below, above, tie⟩ := near
  have below : (2 : ℚ) * (number * 2 ^ (52 - number.log2)) ≤
      (2 * place + 1) * 2 ^ (number.log2 - 52) := by exact_mod_cast below
  have above : (2 : ℚ) * place * 2 ^ (number.log2 - 52) ≤
      2 * (number * 2 ^ (52 - number.log2)) + 2 ^ (number.log2 - 52) := by exact_mod_cast above
  have tie (odd : place % 2 ≠ 0) : (2 : ℚ) * (number * 2 ^ (52 - number.log2)) ≠
        (2 * place + 1) * 2 ^ (number.log2 - 52) ∧
      (2 : ℚ) * place * 2 ^ (number.log2 - 52) ≠
        2 * (number * 2 ^ (52 - number.log2)) + 2 ^ (number.log2 - 52) := by
    exact_mod_cast tie odd
  rw [scale] at below above tie
  generalize (2 : ℚ) ^ ((number.log2 : Int) - 52) = unit at below above tie ⊢
  generalize (2 : ℚ) ^ (52 - number.log2) = scaling at below above tie factor
  refine ⟨le_of_mul_le_mul_right ?_ factor, le_of_mul_le_mul_right ?_ factor, fun odd => ?_⟩
  · linarith
  · linarith
  · obtain ⟨notBelow, notAbove⟩ := tie odd
    refine ⟨fun same => notAbove ?_, fun same => notBelow ?_⟩
    · rw [← same]
      ring
    · rw [same]
      ring

/-- An integer of 64 bits becomes the double nearest to it. -/
theorem rounds_ofRatio_one {number : Nat} (bounded : number < 2 ^ 64) :
    Rounds (ofRatio number 1).rank number := by
  obtain ⟨-, rank⟩ := rank_of_bits_lt (bits_ofRatio_one_lt bounded)
  rw [rank]
  rcases eq_or_ne number 0 with rfl | positive
  · exact_mod_cast rounds_zero
  obtain ⟨least, most⟩ := placeOf_bounds positive
  obtain ⟨above, below, tie⟩ := placeOf_near number
  obtain ⟨-, first⟩ := unit_of_binade number.log2
  have leading : (2 : ℚ) ^ number.log2 ≤ number := by
    exact_mod_cast Nat.log2_self_le positive
  have trailing : (number : ℚ) < 2 ^ number.log2 * 2 := by
    exact_mod_cast Nat.lt_log2_self
  have exponent : (number.log2 : Int) - 52 = ((number.log2 + 1022 : Nat) : Int) - 1074 := by omega
  rw [exponent] at above below tie first
  rw [bits_ofRatio_one positive ((Nat.log2_lt positive).mpr bounded)]
  refine rounds_in_binade _ least most (first ▸ leading) ?_ above below tie
  rw [first] at trailing
  linarith

theorem rank_neg (number : Binary64) : (-number).rank = number.rank := by
  rw [rank, neg_def, BitVec.toNat_xor, Nat.xor_mod_two_pow, BitVec.toNat_twoPow]
  simp [rank]

theorem isNegative_neg (number : Binary64) : (-number).isNegative = !number.isNegative := by
  simp [isNegative, neg_def]

/-- A double has its own sign, which negation takes away. -/
theorem neg_ne_self (number : Binary64) : -number ≠ number := by
  intro same
  have sign := number.isNegative_neg
  rw [same] at sign
  cases negative : number.isNegative <;> simp [negative] at sign

/-- The double of an integer has its sign and is the nearest one. -/
theorem rounds_ofInt {value : Int} (bounded : value.natAbs < 2 ^ 64) :
    (ofInt value).isNegative = decide (value < 0) ∧ Rounds (ofInt value).rank |(value : ℚ)| := by
  have rounds : Rounds (ofRatio value.natAbs 1).rank |(value : ℚ)| := by
    simpa using rounds_ofRatio_one bounded
  obtain ⟨positive, -⟩ := rank_of_bits_lt (bits_ofRatio_one_lt bounded)
  rw [ofInt]
  split
  next negative => simp [isNegative_neg, rank_neg, positive, negative, rounds]
  next nonnegative => simp [positive, nonnegative, rounds]

end Binary64

end ShaderIR
