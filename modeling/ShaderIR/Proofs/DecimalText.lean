import Mathlib.Data.List.TakeWhile
import ShaderIR.Binary64.Text
import ShaderIR.Proofs.ShortestDecimal

/-!
The text of a double can be read back. `Decimal.reading` gives the number that a numeral stands
for, be it positional or with an exponent; on the text of a double that is its shortest decimal, so
two doubles with the same text are the same, if they are numbers at all.
-/

namespace ShaderIR

namespace Decimal

/-- The number that digits stand for, the last of them at the given power of ten. -/
def digitsValue (digits : List Char) (lastPower : Int) : ℚ :=
  Nat.ofDigitChars 10 digits 0 * 10 ^ lastPower

theorem digitsValue_append_zeros (digits : List Char) (zeros : Nat) (lastPower : Int) :
    digitsValue (digits ++ List.replicate zeros '0') lastPower =
      digitsValue digits (lastPower + zeros) := by
  simp only [digitsValue, Nat.ofDigitChars_append, Nat.ofDigitChars_replicate_zero]
  rw [zpow_add₀ (by norm_num), zpow_natCast]
  push_cast
  ring

theorem digitsValue_zeros_append (digits : List Char) (zeros : Nat) (lastPower : Int) :
    digitsValue (List.replicate zeros '0' ++ digits) lastPower = digitsValue digits lastPower := by
  simp only [digitsValue, Nat.ofDigitChars_append, Nat.ofDigitChars_replicate_zero, Nat.mul_zero]

def readExponent : List Char → Int
  | '-' :: digits => -(Nat.ofDigitChars 10 digits 0 : Nat)
  | '+' :: digits => Nat.ofDigitChars 10 digits 0
  | digits => Nat.ofDigitChars 10 digits 0

/-- The number that a numeral stands for. -/
def reading (text : List Char) : ℚ :=
  let mantissa := text.takeWhile (· != 'e')
  let places := (mantissa.dropWhile (· != '.')).tail.length
  digitsValue (mantissa.filter (· != '.'))
    (readExponent (text.dropWhile (· != 'e')).tail - places)

def AreDigits (text : List Char) : Prop :=
  ∀ c ∈ text, c.isDigit = true

theorem areDigits_toDigits (number : Nat) : AreDigits (Nat.toDigits 10 number) :=
  fun _ member => Nat.isDigit_of_mem_toDigits (by decide) (by decide) member

theorem areDigits_zeros (count : Nat) : AreDigits (List.replicate count '0') := by
  intro c member
  rw [List.eq_of_mem_replicate member]
  rfl

theorem AreDigits.append {first second : List Char} (digits : AreDigits first)
    (otherDigits : AreDigits second) : AreDigits (first ++ second) := by
  intro c member
  rcases List.mem_append.mp member with inFirst | inSecond
  · exact digits c inFirst
  · exact otherDigits c inSecond

theorem AreDigits.ne {text : List Char} (digits : AreDigits text) {mark : Char}
    (notDigit : mark.isDigit = false) : ∀ c ∈ text, (c != mark) = true := by
  intro c member
  rw [bne_iff_ne]
  rintro rfl
  exact absurd (digits c member) (by simp [notDigit])

theorem readExponent_digits {text : List Char} (digits : AreDigits text) :
    readExponent text = Nat.ofDigitChars 10 text 0 := by
  unfold readExponent
  split
  next rest => exact absurd (digits '-' (by simp)) (by decide)
  next rest => exact absurd (digits '+' (by simp)) (by decide)
  next => rfl

theorem readExponent_toString (power : Int) (plusSign : Bool) :
    readExponent ((if plusSign ∧ 0 ≤ power then ['+'] else []) ++ (toString power).toList) =
      power := by
  rw [Int.toString_eq_repr, Int.repr_eq_if]
  by_cases nonnegative : 0 ≤ power
  · have read := readExponent_digits (areDigits_toDigits power.toNat)
    have same : ((power.toNat : Nat) : Int) = power := Int.toNat_of_nonneg nonnegative
    cases plusSign with
    | true => simp [nonnegative, readExponent]
    | false => simpa [nonnegative, same] using read
  · have same : (((-power).toNat : Nat) : Int) = -power := Int.toNat_of_nonneg (by omega)
    simp [nonnegative, readExponent, same]

/-! ## Mantissas -/

theorem reading_of_exponent {mantissa : List Char} (unmarked : ∀ c ∈ mantissa, (c != 'e') = true)
    (exponent : List Char) :
    reading (mantissa ++ 'e' :: exponent) =
      digitsValue (mantissa.filter (· != '.'))
        (readExponent exponent - (mantissa.dropWhile (· != '.')).tail.length) := by
  simp only [reading, List.takeWhile_append_of_pos unmarked, List.dropWhile_append_of_pos unmarked]
  simp

theorem reading_of_unmarked {mantissa : List Char} (unmarked : ∀ c ∈ mantissa, (c != 'e') = true) :
    reading mantissa =
      digitsValue (mantissa.filter (· != '.'))
        (-(mantissa.dropWhile (· != '.')).tail.length) := by
  have whole : mantissa.takeWhile (· != 'e') = mantissa := List.takeWhile_eq_self_iff.mpr unmarked
  have rest : mantissa.dropWhile (· != 'e') = [] := List.dropWhile_eq_nil_iff.mpr unmarked
  simp [reading, whole, rest, readExponent]

variable {whole fraction : List Char}

theorem unmarked_of_point (digits : AreDigits whole) (fractionDigits : AreDigits fraction) :
    ∀ c ∈ whole ++ '.' :: fraction, (c != 'e') = true := by
  intro c member
  rcases List.mem_append.mp member with inWhole | inRest
  · exact digits.ne rfl c inWhole
  · rcases List.mem_cons.mp inRest with rfl | inFraction
    · rfl
    · exact fractionDigits.ne rfl c inFraction

theorem filter_of_digits (digits : AreDigits whole) : whole.filter (· != '.') = whole :=
  List.filter_eq_self.mpr (digits.ne rfl)

theorem filter_of_point (digits : AreDigits whole) (fractionDigits : AreDigits fraction) :
    (whole ++ '.' :: fraction).filter (· != '.') = whole ++ fraction := by
  simp [filter_of_digits digits, filter_of_digits fractionDigits]

theorem tail_dropWhile_of_point (digits : AreDigits whole) :
    ((whole ++ '.' :: fraction).dropWhile (· != '.')).tail = fraction := by
  rw [List.dropWhile_append_of_pos (digits.ne rfl)]
  simp

theorem reading_of_point (digits : AreDigits whole) (fractionDigits : AreDigits fraction) :
    reading (whole ++ '.' :: fraction) =
      digitsValue (whole ++ fraction) (-fraction.length) := by
  rw [reading_of_unmarked (unmarked_of_point digits fractionDigits),
    filter_of_point digits fractionDigits, tail_dropWhile_of_point digits]

/-- Positional text has a point with digits around it, which say what the given digits say. -/
theorem positional_form {digits : List Char} (areDigits : AreDigits digits)
    (nonempty : digits ≠ []) (lastPower : Int) :
    ∃ whole fraction, positional digits lastPower = whole ++ '.' :: fraction ∧
      AreDigits whole ∧ AreDigits fraction ∧ whole ≠ [] ∧
      digitsValue (whole ++ fraction) (-fraction.length) = digitsValue digits lastPower := by
  unfold positional
  split
  next nonnegative =>
    have power : ((lastPower.toNat : Nat) : Int) = lastPower := Int.toNat_of_nonneg nonnegative
    refine ⟨digits ++ List.replicate lastPower.toNat '0', List.replicate 1 '0', rfl,
      areDigits.append (areDigits_zeros _), areDigits_zeros 1, by simp [nonempty], ?_⟩
    rw [digitsValue_append_zeros, digitsValue_append_zeros, power, List.length_replicate]
    congr 1
    omega
  next negative =>
    have places : (((-lastPower).toNat : Nat) : Int) = -lastPower :=
      Int.toNat_of_nonneg (by omega)
    dsimp only
    split
    next inside =>
      refine ⟨_, _, rfl, fun c member => areDigits c (List.mem_of_mem_take member),
        fun c member => areDigits c (List.mem_of_mem_drop member), ?_, ?_⟩
      · rw [ne_eq, List.take_eq_nil_iff, not_or]
        exact ⟨by omega, nonempty⟩
      · rw [List.take_append_drop, List.length_drop]
        congr 1
        omega
    next outside =>
      refine ⟨List.replicate 1 '0', _, rfl, areDigits_zeros 1,
        (areDigits_zeros _).append areDigits, by simp, ?_⟩
      rw [digitsValue_zeros_append, digitsValue_zeros_append, List.length_append,
        List.length_replicate]
      congr 1
      omega

theorem reading_positional {digits : List Char} (areDigits : AreDigits digits)
    (nonempty : digits ≠ []) (lastPower : Int) :
    reading (positional digits lastPower) = digitsValue digits lastPower := by
  obtain ⟨whole, fraction, form, wholeDigits, fractionDigits, _, value⟩ :=
    positional_form areDigits nonempty lastPower
  rw [form, reading_of_point wholeDigits fractionDigits, value]

theorem reading_scientific {digits : List Char} (areDigits : AreDigits digits)
    (nonempty : digits ≠ []) (plusSign : Bool) (leadingPower : Int) :
    reading (scientific plusSign digits leadingPower) =
      digitsValue digits (leadingPower - (digits.length - 1)) := by
  match digits with
  | [] => exact absurd rfl nonempty
  | [digit] =>
      have noPoint : ([digit].dropWhile (· != '.')).tail = [] := by
        rw [List.dropWhile_eq_nil_iff.mpr (areDigits.ne rfl)]
        rfl
      have unmarked : ∀ c ∈ [digit], (c != 'e') = true := areDigits.ne rfl
      simp only [scientific]
      rw [reading_of_exponent unmarked, filter_of_digits areDigits, noPoint,
        readExponent_toString]
      simp
  | first :: second :: rest =>
      have head : AreDigits [first] := fun c member => areDigits c (by simp_all)
      have tail : AreDigits (second :: rest) := fun c member => areDigits c (by simp_all)
      have mantissa : first :: '.' :: second :: rest = [first] ++ '.' :: second :: rest := rfl
      simp only [scientific]
      rw [mantissa, reading_of_exponent (unmarked_of_point head tail), filter_of_point head tail,
        tail_dropWhile_of_point head, readExponent_toString]
      simp

/-! ## The look of a numeral -/

/-- Numerals start with a digit, and a point or an exponent tells them from integers. -/
structure IsNumeral (text : List Char) : Prop where
  leads : ∃ digit rest, text = digit :: rest ∧ digit.isDigit = true
  marked : '.' ∈ text ∨ 'e' ∈ text
  written : ∀ c ∈ text, c.isDigit = true ∨ c ∈ ['.', 'e', '-', '+']

theorem leads_of_digits (digits : AreDigits whole) (nonempty : whole ≠ []) (rest : List Char) :
    ∃ digit after, whole ++ rest = digit :: after ∧ digit.isDigit = true := by
  obtain ⟨digit, after, rfl⟩ := List.exists_cons_of_ne_nil nonempty
  exact ⟨digit, after ++ rest, rfl, digits digit (by simp)⟩

theorem isNumeral_of_point (digits : AreDigits whole) (nonempty : whole ≠ [])
    (fractionDigits : AreDigits fraction) : IsNumeral (whole ++ '.' :: fraction) where
  leads := leads_of_digits digits nonempty _
  marked := .inl (by simp)
  written := by
    intro c member
    rcases List.mem_append.mp member with inWhole | inRest
    · exact .inl (digits c inWhole)
    · rcases List.mem_cons.mp inRest with rfl | inFraction
      · exact .inr (by simp)
      · exact .inl (fractionDigits c inFraction)

theorem written_toString (power : Int) :
    ∀ c ∈ (toString power).toList, c.isDigit = true ∨ c = '-' := by
  intro c member
  rw [Int.toString_eq_repr, Int.repr_eq_if] at member
  split at member
  · rw [Nat.toList_repr] at member
    exact .inl (areDigits_toDigits _ c member)
  · rw [String.toList_append, Nat.toList_repr] at member
    rcases List.mem_append.mp member with sign | digit
    · exact .inr (by simpa using sign)
    · exact .inl (areDigits_toDigits _ c digit)

theorem isNumeral_of_exponent {mantissa : List Char}
    (leads : ∃ digit rest, mantissa = digit :: rest ∧ digit.isDigit = true)
    (written : ∀ c ∈ mantissa, c.isDigit = true ∨ c ∈ ['.', 'e', '-', '+']) (signed : Bool)
    (power : Int) :
    IsNumeral (mantissa ++ 'e' :: ((if signed then ['+'] else []) ++ (toString power).toList)) := by
  obtain ⟨digit, rest, rfl, isDigit⟩ := leads
  refine ⟨⟨digit, _, rfl, isDigit⟩, .inr (by simp), fun c member => ?_⟩
  rcases List.mem_append.mp member with inMantissa | inExponent
  · exact written c inMantissa
  · rcases List.mem_cons.mp inExponent with rfl | below
    · exact .inr (by simp)
    · rcases List.mem_append.mp below with inSign | inPower
      · cases signed with
        | true => exact .inr (by simp_all)
        | false => cases inSign
      · rcases written_toString power c inPower with digit | rfl
        · exact .inl digit
        · exact .inr (by simp)

theorem isNumeral_scientific {digits : List Char} (areDigits : AreDigits digits)
    (nonempty : digits ≠ []) (plusSign : Bool) (leadingPower : Int) :
    IsNumeral (scientific plusSign digits leadingPower) := by
  have sign : (if plusSign ∧ 0 ≤ leadingPower then ['+'] else []) =
      if (plusSign && decide (0 ≤ leadingPower)) then ['+'] else [] := by
    simp
  unfold scientific
  rw [sign]
  match digits with
  | [] => exact absurd rfl nonempty
  | [digit] =>
      refine isNumeral_of_exponent ⟨digit, [], rfl, areDigits digit (by simp)⟩ ?_ _ _
      exact fun c member => .inl (areDigits c member)
  | first :: second :: rest =>
      have head : AreDigits [first] := fun c member => areDigits c (by simp_all)
      have tail : AreDigits (second :: rest) := fun c member => areDigits c (by simp_all)
      have mantissa := isNumeral_of_point head (by simp) tail
      exact isNumeral_of_exponent mantissa.leads mantissa.written _ _

/-! ## Trailing zeros -/

theorem significantDigits_append (decimal : Decimal) :
    ∃ zeros : Nat, Nat.toDigits 10 decimal.digits =
        decimal.significantDigits.1 ++ List.replicate zeros '0' ∧
      decimal.significantDigits.2 = decimal.exponent + zeros := by
  let digits := Nat.toDigits 10 decimal.digits
  let zeros := digits.reverse.takeWhile (· == '0')
  have allZero : zeros = List.replicate zeros.length '0' := by
    apply List.eq_replicate_of_mem
    intro c member
    have isZero := List.mem_takeWhile_imp member
    exact eq_of_beq isZero
  have parts : digits = (digits.reverse.dropWhile (· == '0')).reverse ++ zeros := by
    have split := @List.takeWhile_append_dropWhile Char (· == '0') digits.reverse
    have reversed := congrArg List.reverse split
    rw [List.reverse_append, List.reverse_reverse] at reversed
    rw [allZero, ← List.reverse_replicate, ← allZero]
    exact reversed.symm
  have kept : digits.take (digits.length - zeros.length) =
      (digits.reverse.dropWhile (· == '0')).reverse := by
    have front {whole first second : List Char} (split : whole = first ++ second) :
        whole.take (whole.length - second.length) = first := by
      subst split
      simp
    exact front parts
  refine ⟨zeros.length, ?_, rfl⟩
  change digits = digits.take (digits.length - zeros.length) ++ _
  rw [kept, ← allZero]
  exact parts

theorem digitsValue_significantDigits (decimal : Decimal) :
    digitsValue decimal.significantDigits.1 decimal.significantDigits.2 = decimal.value := by
  obtain ⟨zeros, digits, power⟩ := decimal.significantDigits_append
  rw [power, ← digitsValue_append_zeros, ← digits, digitsValue, Nat.ofDigitChars_ten_toDigits]
  rfl

theorem areDigits_significantDigits (decimal : Decimal) :
    AreDigits decimal.significantDigits.1 :=
  fun c member => areDigits_toDigits decimal.digits c (List.mem_of_mem_take member)

theorem significantDigits_ne_nil {decimal : Decimal} (positive : 0 < decimal.value) :
    decimal.significantDigits.1 ≠ [] := by
  intro none
  rw [← digitsValue_significantDigits, none] at positive
  simp [digitsValue] at positive

end Decimal

namespace Binary64

open Decimal

theorem reading_magnitudeText {number : Binary64} (nonzero : number.isZero = false)
    (layout : Layout) :
    reading (number.magnitudeText layout) = (number.shortest layout.tie).value := by
  have positive := value_shortest_pos nonzero layout.tie
  have areDigits := areDigits_significantDigits (number.shortest layout.tie)
  have nonempty := significantDigits_ne_nil positive
  rw [← digitsValue_significantDigits]
  simp only [magnitudeText]
  split
  · exact reading_positional areDigits nonempty _
  · rw [reading_scientific areDigits nonempty]
    congr 1
    ring

theorem isNumeral_magnitudeText {number : Binary64} (nonzero : number.isZero = false)
    (layout : Layout) : IsNumeral (number.magnitudeText layout) := by
  have areDigits := areDigits_significantDigits (number.shortest layout.tie)
  have nonempty := significantDigits_ne_nil (value_shortest_pos nonzero layout.tie)
  simp only [magnitudeText]
  split
  · obtain ⟨whole, fraction, form, wholeDigits, fractionDigits, wholeNonempty, _⟩ :=
      positional_form areDigits nonempty
        (number.shortest layout.tie).significantDigits.2
    rw [form]
    exact isNumeral_of_point wholeDigits wholeNonempty fractionDigits
  · exact isNumeral_scientific areDigits nonempty _ _

/-- The text of a finite number without its sign. -/
def finiteText (layout : Layout) (number : Binary64) : List Char :=
  if number.isZero then ['0', '.', '0'] else number.magnitudeText layout

theorem isNumeral_finiteText (number : Binary64) (layout : Layout) :
    IsNumeral (number.finiteText layout) := by
  unfold finiteText
  split
  · exact isNumeral_of_point (areDigits_zeros 1) (by simp) (areDigits_zeros 1)
  next nonzero => exact isNumeral_magnitudeText (by simpa using nonzero) layout

theorem eq_of_finiteText {first second : Binary64} {layout : Layout}
    (sameSign : first.isNegative = second.isNegative)
    (sameText : first.finiteText layout = second.finiteText layout) : first = second := by
  have readZero : reading ['0', '.', '0'] = 0 := by
    have read := reading_of_point (areDigits_zeros 1) (areDigits_zeros 1)
    simpa [digitsValue, Nat.ofDigitChars_cons] using read
  have rankZero {number : Binary64} (zero : number.isZero = true) : number.rank = 0 := by
    simp only [isZero, biasedExponent_eq, fraction_eq, Bool.and_eq_true, beq_iff_eq] at zero
    omega
  have sameReading := congrArg reading sameText
  unfold finiteText at sameReading
  cases firstZero : first.isZero with
  | true =>
      cases secondZero : second.isZero with
      | true => exact eq_of_rank_eq sameSign ((rankZero firstZero).trans (rankZero secondZero).symm)
      | false =>
          simp only [firstZero, secondZero, if_true, Bool.false_eq_true, if_false,
            readZero, reading_magnitudeText secondZero] at sameReading
          exact absurd sameReading (value_shortest_pos secondZero layout.tie).ne
  | false =>
      cases secondZero : second.isZero with
      | true =>
          simp only [firstZero, secondZero, if_true, Bool.false_eq_true, if_false,
            readZero, reading_magnitudeText firstZero] at sameReading
          exact absurd sameReading (value_shortest_pos firstZero layout.tie).ne'
      | false =>
          simp only [firstZero, secondZero, Bool.false_eq_true, if_false,
            reading_magnitudeText firstZero, reading_magnitudeText secondZero] at sameReading
          exact eq_of_value_shortest sameSign sameReading

/-- The text of a number without its sign. -/
def unsignedText (layout : Layout) (number : Binary64) : List Char :=
  if number.isInfinite then ['i', 'n', 'f'] else number.finiteText layout

theorem toList_text {number : Binary64} (isNumber : number.isNaN = false) (layout : Layout) :
    (number.text layout).toList =
      (if number.isNegative then ['-'] else []) ++ number.unsignedText layout := by
  unfold text unsignedText finiteText
  rw [isNumber]
  cases number.isNegative <;> cases number.isInfinite <;> cases number.isZero <;> simp

theorem unsignedText_leads (number : Binary64) (layout : Layout) :
    ∃ c rest, number.unsignedText layout = c :: rest ∧ (c.isDigit = true ∨ c = 'i') := by
  unfold unsignedText
  split
  · exact ⟨'i', _, rfl, .inr rfl⟩
  · obtain ⟨digit, rest, text, isDigit⟩ := (number.isNumeral_finiteText layout).leads
    exact ⟨digit, rest, text, .inl isDigit⟩

theorem unsignedText_ne_sign (number : Binary64) (layout : Layout) (rest : List Char) :
    number.unsignedText layout ≠ '-' :: rest := by
  obtain ⟨c, after, text, leads⟩ := number.unsignedText_leads layout
  rw [text]
  intro same
  cases same
  rcases leads with isDigit | isLetter
  · exact absurd isDigit (by decide)
  · cases isLetter

theorem eq_of_unsignedText {first second : Binary64} {layout : Layout}
    (sameSign : first.isNegative = second.isNegative)
    (sameText : first.unsignedText layout = second.unsignedText layout) : first = second := by
  have finiteNe (number : Binary64) : number.finiteText layout ≠ ['i', 'n', 'f'] := by
    obtain ⟨digit, rest, text, isDigit⟩ := (number.isNumeral_finiteText layout).leads
    rw [text]
    intro same
    cases same
    exact absurd isDigit (by decide)
  have rankInfinite {number : Binary64} (infinite : number.isInfinite = true) :
      number.rank = 2047 * 2 ^ 52 := by
    simp only [isInfinite, biasedExponent_eq, fraction_eq, Bool.and_eq_true, beq_iff_eq] at infinite
    omega
  unfold unsignedText at sameText
  cases firstInfinite : first.isInfinite with
  | true =>
      cases secondInfinite : second.isInfinite with
      | true =>
          exact eq_of_rank_eq sameSign
            ((rankInfinite firstInfinite).trans (rankInfinite secondInfinite).symm)
      | false =>
          simp only [firstInfinite, secondInfinite, if_true, Bool.false_eq_true, if_false]
            at sameText
          exact absurd sameText.symm (finiteNe second)
  | false =>
      cases secondInfinite : second.isInfinite with
      | true =>
          simp only [firstInfinite, secondInfinite, if_true, Bool.false_eq_true, if_false]
            at sameText
          exact absurd sameText (finiteNe first)
      | false =>
          simp only [firstInfinite, secondInfinite, Bool.false_eq_true, if_false] at sameText
          exact eq_of_finiteText sameSign sameText

/-- No two numbers have the same text. -/
theorem eq_of_text {first second : Binary64} {layout : Layout} (isNumber : first.isNaN = false)
    (isOtherNumber : second.isNaN = false) (sameText : first.text layout = second.text layout) :
    first = second := by
  have sameChars := congrArg String.toList sameText
  rw [toList_text isNumber, toList_text isOtherNumber] at sameChars
  cases firstSign : first.isNegative with
  | true =>
      cases secondSign : second.isNegative with
      | true =>
          simp only [firstSign, secondSign, if_true, List.append_cancel_left_eq] at sameChars
          exact eq_of_unsignedText (firstSign.trans secondSign.symm) sameChars
      | false =>
          simp only [firstSign, secondSign, if_true, Bool.false_eq_true, if_false] at sameChars
          exact absurd sameChars.symm (second.unsignedText_ne_sign layout _)
  | false =>
      cases secondSign : second.isNegative with
      | true =>
          simp only [firstSign, secondSign, if_true, Bool.false_eq_true, if_false] at sameChars
          exact absurd sameChars (first.unsignedText_ne_sign layout _)
      | false =>
          simp only [firstSign, secondSign, Bool.false_eq_true, if_false, List.nil_append]
            at sameChars
          exact eq_of_unsignedText (firstSign.trans secondSign.symm) sameChars

end Binary64

end ShaderIR
