import Mathlib.Data.List.DropRight
import ShaderIR.Proofs.JsonGrammar

/-!
How written JSON is read. A string is read to its closing quote and gives the characters that it
stands for, or is refused if a surrogate in it stands alone. A value that nobody asks for is skipped
to its last character and not further, whatever stands behind it, as long as that cannot be a part
of a number.
-/

namespace ShaderIR

namespace Json

/-! ## Blanks -/

theorem isSpace_iff (char : Char) : isSpace char = true ↔ char ∈ [' ', '\n', '\t', '\r'] := by
  simp [isSpace, or_assoc]

theorem skipSpace_blank (blank : Blank) (text : List Char) :
    skipSpace (blank.chars ++ text) = skipSpace text :=
  List.dropWhile_append_of_pos fun char member => (isSpace_iff char).mpr (blank.spaces char member)

theorem skipSpace_blank_end (blank : Blank) : skipSpace blank.chars = [] := by
  rw [← List.append_nil blank.chars, skipSpace_blank]
  rfl

theorem skipSpace_of_not_isSpace {char : Char} (mark : isSpace char = false) (text : List Char) :
    skipSpace (char :: text) = char :: text := by
  simp [skipSpace, mark]

theorem skipSpace_skipSpace (text : List Char) : skipSpace (skipSpace text) = skipSpace text :=
  List.dropWhile_idempotent isSpace text

theorem expectMark_blank_append (mark : Char) (blank : Blank) (text : List Char) :
    expectMark mark (blank.chars ++ text) = expectMark mark text := by
  rw [expectMark, expectMark, skipSpace_blank]

theorem expectMark_blank {mark : Char} (isMark : isSpace mark = false) (blank : Blank)
    (text : List Char) : expectMark mark (blank.chars ++ mark :: text) = .ok text := by
  rw [expectMark_blank_append, expectMark, skipSpace_of_not_isSpace isMark]
  simp [expect]

/-! ## Strings -/

theorem hexValue?_char (digit : HexDigit) : hexValue? digit.char = some digit.value.val := by
  have everyDigit : ∀ value : Fin 16, ∀ capital : Bool,
      hexValue? (HexDigit.char ⟨value, capital⟩) = some value.val := by decide
  exact everyDigit digit.value digit.capital

theorem escaped?_letter (short : Escape) : escaped? short.letter = some short.meaning := by
  cases short <;> rfl

theorem tooShortForUnit_chars (code : CodeUnit) (text : List Char) :
    tooShortForUnit (code.chars ++ text) = false := by
  have positive (digit : HexDigit) := digit.char.utf8Size_pos
  have first := positive code.first
  have second := positive code.second
  have third := positive code.third
  have fourth := positive code.fourth
  rw [tooShortForUnit, decide_eq_false_iff_not]
  simp only [CodeUnit.chars, List.cons_append, List.nil_append, List.take_succ_cons, List.take_zero,
    List.foldr_cons, List.foldr_nil]
  omega

variable {strict : Bool} {stage next : StringStage} {added : Option Char} {char : Char}
  {text rest : List Char}

/-- What is read of a string, with the characters before it. -/
def withBefore (before : List Char) (result : List Char × List Char) : List Char × List Char :=
  (before ++ result.1, result.2)

theorem map_withBefore_nil (scanned : Except Flaw (List Char × List Char)) :
    scanned.map (withBefore []) = scanned := by
  cases scanned <;> rfl

theorem scanString_step (inside : char = '"' → stage ≠ .plain)
    (step : stringStep strict stage char text = .ok (added, next)) :
    scanString strict stage (char :: text) =
      (scanString strict next text).map (withBefore added.toList) := by
  simp only [scanString, if_neg (not_and.mpr inside), step]
  cases scanString strict next text <;> rfl

theorem scanString_stop {flaw : Flaw} (inside : char = '"' → stage ≠ .plain)
    (step : stringStep strict stage char text = .error flaw) :
    scanString strict stage (char :: text) = .error flaw := by
  simp only [scanString, if_neg (not_and.mpr inside), step]

theorem scanString_quote (text : List Char) :
    scanString strict .plain ('"' :: text) = .ok ([], text) := by
  simp [scanString]

theorem scanString_plain (allowed : char ≠ '"' ∧ char ≠ '\\' ∧ 0x20 ≤ char.toNat)
    (text : List Char) :
    scanString strict .plain (char :: text) =
      (scanString strict .plain text).map (withBefore [char]) := by
  obtain ⟨notQuote, notBackslash, printable⟩ := allowed
  have step : stringStep strict .plain char text = .ok (some char, .plain) := by
    simp [stringStep, notBackslash, Nat.not_lt.mpr printable]
  exact scanString_step (fun quote => absurd quote notQuote) step

/-- A backslash is remembered and adds nothing. -/
theorem scanString_backslash (text : List Char) :
    scanString strict .plain ('\\' :: text) = scanString strict .escape text := by
  rw [scanString_step (by simp) rfl]
  exact map_withBefore_nil _

theorem letter_ne_u (short : Escape) : short.letter ≠ 'u' := by
  cases short <;> decide

theorem scanString_escape (short : Escape) (text : List Char) :
    scanString strict .plain ('\\' :: short.letter :: text) =
      (scanString strict .plain text).map (withBefore [short.meaning]) := by
  have step : stringStep strict .escape short.letter text = .ok (some short.meaning, .plain) := by
    simp [stringStep, letter_ne_u, escaped?_letter]
  rw [scanString_backslash, scanString_step (by simp) step]
  rfl

/-- What comes of a string once a code unit in it is complete. -/
def afterUnit (strict : Bool) (high : Option Nat) (unit : Nat) (text : List Char) :
    Except Flaw (List Char × List Char) :=
  unitResult strict high unit >>= fun result =>
    (scanString strict result.2 text).map (withBefore result.1.toList)

theorem scanString_digit {missing value : Nat} {high : Option Nat} (several : missing ≠ 1)
    (digit : HexDigit) (text : List Char) :
    scanString strict (.unit missing value high) (digit.char :: text) =
      scanString strict (.unit (missing - 1) (value * 16 + digit.value.val) high) text := by
  have step : stringStep strict (.unit missing value high) digit.char text =
      .ok (none, .unit (missing - 1) (value * 16 + digit.value.val) high) := by
    simp [stringStep, hexValue?_char, several]
  rw [scanString_step (by simp) step]
  exact map_withBefore_nil _

theorem scanString_last_digit {value : Nat} {high : Option Nat} (digit : HexDigit)
    (text : List Char) :
    scanString strict (.unit 1 value high) (digit.char :: text) =
      afterUnit strict high (value * 16 + digit.value.val) text := by
  have step : stringStep strict (.unit 1 value high) digit.char text =
      unitResult strict high (value * 16 + digit.value.val) := by
    simp [stringStep, hexValue?_char]
  rw [afterUnit]
  cases result : unitResult strict high (value * 16 + digit.value.val) with
  | error flaw => exact scanString_stop (by simp) (step.trans result)
  | ok result' => exact scanString_step (by simp) (step.trans result)

theorem scanString_unit (high : Option Nat) (code : CodeUnit) (text : List Char) :
    scanString strict (.unit 4 0 high) (code.chars ++ text) =
      afterUnit strict high code.value text := by
  simp only [CodeUnit.chars, List.cons_append, List.nil_append]
  rw [scanString_digit (by decide), scanString_digit (by decide), scanString_digit (by decide),
    scanString_last_digit, CodeUnit.value, Nat.zero_mul, Nat.zero_add]

theorem scanString_escaped_unit (code : CodeUnit) (text : List Char) :
    scanString strict .plain ('\\' :: 'u' :: (code.chars ++ text)) =
      afterUnit strict none code.value text := by
  have step : stringStep strict .escape 'u' (code.chars ++ text) = .ok (none, .unit 4 0 none) := by
    simp [stringStep, tooShortForUnit_chars]
  rw [scanString_backslash, scanString_step (by simp) step, scanString_unit]
  exact map_withBefore_nil _

theorem isHighSurrogate_value (code : CodeUnit) : isHighSurrogate code.value = code.isHigh := by
  rw [isHighSurrogate, CodeUnit.isHigh, decide_eq_decide]
  omega

theorem isLowSurrogate_value (code : CodeUnit) : isLowSurrogate code.value = code.isLow := by
  rw [isLowSurrogate, CodeUnit.isLow, decide_eq_decide]
  omega

theorem isLow_of_isHigh {code : CodeUnit} (high : code.isHigh = true) : code.isLow = false := by
  rw [CodeUnit.isHigh, decide_eq_true_eq] at high
  rw [CodeUnit.isLow, decide_eq_false_iff_not]
  omega

theorem spelled_plain_append {allowed : char ≠ '"' ∧ char ≠ '\\' ∧ 0x20 ≤ char.toNat}
    (pieces : List Piece) (text : List Char) :
    spelled (.plain char allowed :: pieces) ++ text = char :: (spelled pieces ++ text) := by
  simp [spelled, Piece.chars]

theorem spelled_escape_append (short : Escape) (pieces : List Piece) (text : List Char) :
    spelled (.escape short :: pieces) ++ text =
      '\\' :: short.letter :: (spelled pieces ++ text) := by
  simp [spelled, Piece.chars]

theorem spelled_unit_append (code : CodeUnit) (pieces : List Piece) (text : List Char) :
    spelled (.unit code :: pieces) ++ text =
      '\\' :: 'u' :: (code.chars ++ (spelled pieces ++ text)) := by
  simp [spelled, Piece.chars]

/-- A code unit on its own stands for a character unless it is a surrogate. -/
theorem scanString_single {code : CodeUnit} (notHigh : code.isHigh = false)
    (notLow : code.isLow = false) (text : List Char) :
    scanString true .plain ('\\' :: 'u' :: (code.chars ++ text)) =
      (scanString true .plain text).map (withBefore [Char.ofNat code.value]) := by
  rw [scanString_escaped_unit, afterUnit, unitResult, isLowSurrogate_value, isHighSurrogate_value,
    notHigh, notLow]
  rfl

theorem scanString_low_first {code : CodeUnit} (low : code.isLow = true) (text : List Char) :
    scanString true .plain ('\\' :: 'u' :: (code.chars ++ text)) = .error .malformed := by
  rw [scanString_escaped_unit, afterUnit, unitResult, isLowSurrogate_value, low]
  rfl

theorem scanString_high {code : CodeUnit} (high : code.isHigh = true) (text : List Char) :
    scanString true .plain ('\\' :: 'u' :: (code.chars ++ text)) =
      scanString true (.low code.value) text := by
  rw [scanString_escaped_unit, afterUnit, unitResult, isLowSurrogate_value, isHighSurrogate_value,
    high, isLow_of_isHigh high]
  exact map_withBefore_nil _

theorem scanString_low_backslash {high : Nat} (text : List Char) :
    scanString true (.low high) ('\\' :: text) = scanString true (.lowEscape high) text := by
  rw [scanString_step (by simp) rfl]
  exact map_withBefore_nil _

/-- The second half of a character completes the first, and nothing else does. -/
theorem scanString_second {high : Nat} (code : CodeUnit) (text : List Char) :
    scanString true (.low high) ('\\' :: 'u' :: (code.chars ++ text)) =
      if code.isLow then
        (scanString true .plain text).map
          (withBefore [Char.ofNat (0x10000 + (high - 0xD800) * 0x400 + (code.value - 0xDC00))])
      else
        .error .malformed := by
  have step : stringStep true (.lowEscape high) 'u' (code.chars ++ text) =
      .ok (none, .unit 4 0 (some high)) := by
    simp [stringStep, tooShortForUnit_chars]
  rw [scanString_low_backslash, scanString_step (by simp) step, scanString_unit, afterUnit,
    unitResult, isLowSurrogate_value]
  cases code.isLow
  · rfl
  · exact map_withBefore_nil _

/-- A high surrogate at the end of a string or before anything but a code unit stands alone. -/
theorem scanString_low_other {high : Nat} {pieces : List Piece}
    (other : ∀ code later, pieces ≠ .unit code :: later) (rest : List Char) :
    scanString true (.low high) (spelled pieces ++ '"' :: rest) = .error .malformed := by
  cases pieces with
  | nil => exact scanString_stop (by simp) rfl
  | cons piece pieces =>
      cases piece with
      | plain char allowed =>
          rw [spelled_plain_append]
          exact scanString_stop (by simp) (by simp [stringStep, allowed.2.1])
      | escape short =>
          rw [spelled_escape_append, scanString_low_backslash]
          exact scanString_stop (by simp) (by simp [stringStep, letter_ne_u])
      | unit code => exact absurd rfl (other code pieces)

/-- What a reader makes of the inside of a string: the characters it stands for, if it stands for
any. -/
def stringResult (rest : List Char) : Option (List Char) → Except Flaw (List Char × List Char)
  | some chars => .ok (chars, rest)
  | none => .error .malformed

theorem stringResult_map (rest before : List Char) (decoded : Option (List Char)) :
    stringResult rest (decoded.map (before ++ ·)) =
      (stringResult rest decoded).map (withBefore before) := by
  cases decoded <;> rfl

theorem scanString_spelled (pieces : List Piece) (rest : List Char) :
    scanString true .plain (spelled pieces ++ '"' :: rest) =
      stringResult rest (decoded? pieces) := by
  fun_induction decoded? pieces with
  | case1 => exact scanString_quote rest
  | case2 char allowed pieces ih =>
      rw [spelled_plain_append, scanString_plain allowed, ih]
      exact (stringResult_map rest [char] _).symm
  | case3 short pieces ih =>
      rw [spelled_escape_append, scanString_escape, ih]
      exact (stringResult_map rest [short.meaning] _).symm
  -- Two surrogates are one character only if they stand in this order.
  | case4 high low pieces isHigh isLow ih =>
      rw [spelled_unit_append, scanString_high isHigh, spelled_unit_append, scanString_second,
        if_pos isLow, ih]
      exact (stringResult_map rest [_] _).symm
  | case5 high second pieces isHigh notLow =>
      rw [spelled_unit_append, scanString_high isHigh, spelled_unit_append, scanString_second,
        if_neg notLow]
      rfl
  | case6 first second pieces notHigh isLow =>
      rw [spelled_unit_append, scanString_low_first isLow]
      rfl
  | case7 first second pieces notHigh notLow ih =>
      rw [spelled_unit_append, scanString_single (Bool.eq_false_iff.mpr notHigh)
        (Bool.eq_false_iff.mpr notLow), ih]
      exact (stringResult_map rest [_] _).symm
  | case8 code pieces other surrogate =>
      rw [spelled_unit_append]
      rcases Bool.or_eq_true_iff.mp surrogate with isHigh | isLow
      · rw [scanString_high isHigh, scanString_low_other other]
        rfl
      · rw [scanString_low_first isLow]
        rfl
  | case9 code pieces other single ih =>
      rw [Bool.not_eq_true, Bool.or_eq_false_iff] at single
      rw [spelled_unit_append, scanString_single single.1 single.2, ih]
      exact (stringResult_map rest [_] _).symm

/-- A string that is read gives what it stands for. -/
theorem readString_spelled {pieces : List Piece} {name : String}
    (named : meaning? pieces = some name) (rest : List Char) :
    readString (spelled pieces ++ '"' :: rest) = .ok (name, rest) := by
  obtain ⟨chars, decoded, rfl⟩ := Option.map_eq_some_iff.mp named
  rw [readString, scanString_spelled, decoded, stringResult]

theorem readString_unpaired {pieces : List Piece} (unnamed : meaning? pieces = none)
    (rest : List Char) : readString (spelled pieces ++ '"' :: rest) = .error .malformed := by
  rw [readString, scanString_spelled, Option.map_eq_none_iff.mp unnamed, stringResult]

/-- A string that is skipped may hold any surrogates. -/
theorem skipString_spelled (pieces : List Piece) (rest : List Char) :
    skipString (spelled pieces ++ '"' :: rest) = .ok rest := by
  have scanned : ∃ chars,
      scanString false .plain (spelled pieces ++ '"' :: rest) = .ok (chars, rest) := by
    induction pieces with
    | nil => exact ⟨[], scanString_quote rest⟩
    | cons piece pieces ih =>
        obtain ⟨chars, scanned⟩ := ih
        cases piece with
        | plain char allowed =>
            rw [spelled_plain_append, scanString_plain allowed, scanned]
            exact ⟨_, rfl⟩
        | escape short =>
            rw [spelled_escape_append, scanString_escape, scanned]
            exact ⟨_, rfl⟩
        | unit code =>
            rw [spelled_unit_append, scanString_escaped_unit, afterUnit, unitResult]
            exact ⟨_, congrArg (Except.map (withBefore [Char.ofNat code.value])) scanned⟩
  obtain ⟨chars, scanned⟩ := scanned
  rw [skipString, scanned]

/-! ## Numbers -/

/-- A text that goes on with something other than a digit, or ends. -/
def EndsDigits (text : List Char) : Prop :=
  ∀ char ∈ text.head?, char.isDigit = false

/-- A text that cannot be the rest of a number. -/
def EndsNumber (text : List Char) : Prop :=
  ∀ char ∈ text.head?, char.isDigit = false ∧ char ≠ '.' ∧ char ≠ 'e' ∧ char ≠ 'E'

theorem EndsNumber.endsDigits (ends : EndsNumber text) : EndsDigits text :=
  fun char head => (ends char head).1

theorem scanDigits_chars (broken : Flaw) (digits : Digits) (ends : EndsDigits rest) :
    scanDigits broken (digits.chars ++ rest) = .ok (digits.chars, rest) := by
  have taken : digitsOf (digits.chars ++ rest) = (digits.chars, rest) := by
    rw [digitsOf, List.takeWhile_append_of_pos digits.digits,
      List.dropWhile_append_of_pos digits.digits]
    cases rest with
    | nil => simp
    | cons char rest => simp [ends char rfl]
  rw [scanDigits, taken]
  cases chars : digits.chars with
  | nil => exact absurd chars digits.nonempty
  | cons => rfl

theorem scanFraction_absent (broken : Flaw) (absent : text.head? ≠ some '.') :
    scanFraction broken text = .ok ([], text) := by
  rw [scanFraction]
  rintro later rfl
  exact absent rfl

theorem scanExponent_absent (broken : Flaw) (ends : EndsNumber rest) :
    scanExponent broken rest = .ok (none, rest) := by
  cases rest with
  | nil => rfl
  | cons char rest =>
      obtain ⟨-, -, notSmall, notCapital⟩ := ends char rfl
      simp [scanExponent, notSmall, notCapital]

theorem scanSign_digits (digits : Digits) (rest : List Char) :
    scanSign (digits.chars ++ rest) = (false, digits.chars ++ rest) := by
  cases chars : digits.chars with
  | nil => exact absurd chars digits.nonempty
  | cons digit later =>
      have isDigit := digits.digits digit (by simp [chars])
      have notSign : digit ≠ '-' ∧ digit ≠ '+' := by
        constructor <;> (rintro rfl; exact absurd isDigit (by decide))
      rw [List.cons_append, scanSign]
      · exact fun _ same => notSign.1 (List.cons.inj same).1
      · exact fun _ same => notSign.2 (List.cons.inj same).1

theorem scanSign_chars (exponent : Exponent) (rest : List Char) :
    scanSign (exponent.signChars ++ (exponent.digits.chars ++ rest)) =
      (exponent.minus == some true, exponent.digits.chars ++ rest) := by
  rw [Exponent.signChars]
  cases exponent.minus with
  | none => exact scanSign_digits exponent.digits rest
  | some minus => cases minus <;> rfl

theorem scanExponent_chars (broken : Flaw) (exponent : Exponent) (ends : EndsNumber rest) :
    ∃ power, scanExponent broken (exponent.chars ++ rest) = .ok (power, rest) := by
  have digits := scanDigits_chars broken exponent.digits ends.endsDigits
  have marked : exponent.mark = 'e' ∨ exponent.mark = 'E' := by
    rw [Exponent.mark]
    cases exponent.capital <;> simp
  rw [Exponent.chars, List.cons_append, List.append_assoc, scanExponent, if_pos marked,
    scanSign_chars]
  simp only [digits, bind, Except.bind]
  exact ⟨_, rfl⟩

variable (figure : Figure)

theorem head?_exponentChars (ends : EndsNumber rest) :
    ∀ char ∈ (figure.exponentChars ++ rest).head?, char.isDigit = false ∧ char ≠ '.' := by
  rw [Figure.exponentChars]
  cases figure.exponent with
  | none => exact fun char head => ⟨(ends char head).1, (ends char head).2.1⟩
  | some exponent =>
      intro char head
      cases head
      rw [Exponent.mark]
      cases exponent.capital <;> decide

theorem scanFraction_chars (broken : Flaw) (ends : EndsNumber rest) :
    ∃ fraction, scanFraction broken (figure.fractionChars ++ (figure.exponentChars ++ rest)) =
      .ok (fraction, figure.exponentChars ++ rest) := by
  have later := head?_exponentChars figure ends
  rw [Figure.fractionChars]
  cases figure.fraction with
  | none => exact ⟨_, scanFraction_absent broken fun point => (later '.' point).2 rfl⟩
  | some digits => exact ⟨_, scanDigits_chars broken digits fun char head => (later char head).1⟩

theorem endsDigits_fractionChars (ends : EndsNumber rest) :
    EndsDigits (figure.fractionChars ++ (figure.exponentChars ++ rest)) := by
  have later := head?_exponentChars figure ends
  rw [Figure.fractionChars]
  cases figure.fraction with
  | none => exact fun char head => (later char head).1
  | some digits =>
      intro char head
      cases head
      rfl

/-- A number is skipped whole, and what cannot belong to it is left. -/
theorem skipNumber_chars (ends : EndsNumber rest) :
    skipNumber (figure.magnitudeChars ++ rest) = .ok rest := by
  have whole := scanDigits_chars .malformed figure.whole (endsDigits_fractionChars figure ends)
  obtain ⟨fraction, fractionScanned⟩ := scanFraction_chars figure .malformed ends
  obtain ⟨power, exponentScanned⟩ :
      ∃ power, scanExponent .malformed (figure.exponentChars ++ rest) = .ok (power, rest) := by
    rw [Figure.exponentChars]
    cases figure.exponent with
    | none => exact ⟨none, scanExponent_absent .malformed ends⟩
    | some exponent => exact scanExponent_chars .malformed exponent ends
  have leading : ¬ (1 < figure.whole.chars.length ∧ figure.whole.chars.head? = some '0') := by
    rintro ⟨several, zero⟩
    rw [figure.leading zero] at several
    exact absurd several (by decide)
  rw [Figure.magnitudeChars, List.append_assoc, List.append_assoc, skipNumber, scanNumeral, whole]
  simp only [bind, Except.bind, if_neg leading, fractionScanned, exponentScanned]
  rfl

/-! ## Values -/

theorem endsNumber_cons {mark : Char} (isMark : mark ∈ [',', ']', '\x7d']) (text : List Char) :
    EndsNumber (mark :: text) := by
  intro char head
  cases head
  simp only [List.mem_cons, List.not_mem_nil, or_false] at isMark
  rcases isMark with rfl | rfl | rfl <;> decide

/-- Nor does a blank belong to the number before it. -/
theorem EndsNumber.blank_append (ends : EndsNumber text) (blank : Blank) :
    EndsNumber (blank.chars ++ text) := by
  cases chars : blank.chars with
  | nil => exact ends
  | cons space later =>
      have isBlank := blank.spaces space (by simp [chars])
      simp only [List.mem_cons, List.not_mem_nil, or_false] at isBlank
      intro char head
      cases head
      rcases isBlank with rfl | rfl | rfl | rfl <;> decide

theorem ne_of_isDigit {digit mark : Char} (isDigit : digit.isDigit = true)
    (other : mark.isDigit = false) : digit ≠ mark := by
  rintro rfl
  exact absurd isDigit (Bool.eq_false_iff.mp other)

theorem isSpace_of_isDigit {digit : Char} (isDigit : digit.isDigit = true) :
    isSpace digit = false := by
  refine Bool.eq_false_iff.mpr fun space => ?_
  rw [isSpace_iff] at space
  simp only [List.mem_cons, List.not_mem_nil, or_false] at space
  rcases space with rfl | rfl | rfl | rfl <;> exact absurd isDigit (by decide)

/-- A value starts with a character that is neither blank nor the end of an array. -/
theorem head?_chars (written : Written) :
    ∃ char later, written.chars = char :: later ∧ isSpace char = false ∧ char ≠ ']' := by
  cases written with
  | null | string | array | object =>
      rw [Written.chars]
      exact ⟨_, _, rfl, by decide, by decide⟩
  | bool value => cases value <;> exact ⟨_, _, rfl, by decide, by decide⟩
  | number figure =>
      rw [Written.chars, Figure.chars]
      cases figure.negative with
      | true => exact ⟨_, _, rfl, by decide, by decide⟩
      | false =>
          cases chars : figure.whole.chars with
          | nil => exact absurd chars figure.whole.nonempty
          | cons digit later =>
              have isDigit := figure.whole.digits digit (by simp [chars])
              refine ⟨digit, later ++ figure.fractionChars ++ figure.exponentChars, ?_, ?_, ?_⟩
              · simp [Figure.magnitudeChars, chars]
              · exact isSpace_of_isDigit isDigit
              · exact ne_of_isDigit isDigit (by decide)

theorem skipValueWithin_skipSpace (steps : Nat) (text : List Char) :
    skipValueWithin steps (skipSpace text) = skipValueWithin steps text := by
  cases steps with
  | zero => rfl
  | succ steps => rw [skipValueWithin, skipValueWithin, skipSpace_skipSpace]

theorem skipItemsWithin_skipSpace (steps : Nat) (text : List Char) :
    skipItemsWithin steps (skipSpace text) = skipItemsWithin steps text := by
  cases steps with
  | zero => rfl
  | succ steps => rw [skipItemsWithin, skipItemsWithin, skipValueWithin_skipSpace]

theorem skipMembersWithin_skipSpace (steps : Nat) (text : List Char) :
    skipMembersWithin steps (skipSpace text) = skipMembersWithin steps text := by
  cases steps with
  | zero => rfl
  | succ steps =>
      rw [skipMembersWithin, skipMembersWithin, expectMark, expectMark, skipSpace_skipSpace]

/-- The reader skips the value and leaves the rest, however many steps it may take beyond those that
the length of the value asks for. -/
def Skips (written : Written) : Prop :=
  ∀ (steps : Nat) (before : Blank) (rest : List Char), 2 * written.chars.length ≤ steps →
    EndsNumber rest → skipValueWithin steps (before.chars ++ (written.chars ++ rest)) = .ok rest

/-- Parts with commas between them are skipped up to the closing mark if each part is. -/
theorem skip_separated {loop : Nat → List Char → Except Flaw (List Char)} {close : Char}
    {part : List Char} {parts : List (List Char)}
    (more : ∀ each ∈ part :: parts, ∀ steps text, 2 * each.length ≤ steps →
      loop (steps + 1) (each ++ ',' :: text) = loop steps text)
    (last : ∀ each ∈ part :: parts, ∀ steps text, 2 * each.length ≤ steps →
      loop (steps + 1) (each ++ close :: text) = .ok text)
    {steps : Nat} (enough : 2 * ([','].intercalate (part :: parts)).length ≤ steps)
    (rest : List Char) :
    loop (steps + 1) ([','].intercalate (part :: parts) ++ close :: rest) = .ok rest := by
  induction parts generalizing part steps with
  | nil =>
      rw [List.intercalate_singleton] at enough ⊢
      exact last part (by simp) steps rest enough
  | cons next parts ih =>
      simp only [List.intercalate_cons_cons, List.append_assoc, List.cons_append, List.nil_append,
        List.length_append, List.length_cons] at enough ⊢
      -- The comma pays for the step that the part has taken.
      obtain ⟨fewer, rfl⟩ := Nat.exists_eq_add_one_of_ne_zero (by omega : steps ≠ 0)
      rw [more part (by simp) _ _ (by omega)]
      exact ih (List.forall_mem_cons.mp more).2 (List.forall_mem_cons.mp last).2 (by omega)

theorem skipValueWithin_item {item : Item Written} (skips : Skips item.value) {steps : Nat}
    (enough : 2 * item.chars.length ≤ steps) {mark : Char} (isMark : mark ∈ [',', ']', '\x7d'])
    (text : List Char) :
    skipValueWithin steps (item.chars ++ mark :: text) =
      .ok (item.after.chars ++ mark :: text) := by
  simp only [Item.chars, List.length_append, List.append_assoc] at enough ⊢
  have ends := (endsNumber_cons isMark text).blank_append item.after
  exact skips steps item.before _ (by omega) ends

theorem skipItemsWithin_items {item : Item Written} {items : List (Item Written)}
    (skips : ∀ each ∈ item :: items, Skips each.value) {steps : Nat}
    (enough : 2 * ([','].intercalate ((item :: items).map Item.chars)).length ≤ steps)
    (rest : List Char) :
    skipItemsWithin (steps + 1)
      ([','].intercalate ((item :: items).map Item.chars) ++ ']' :: rest) = .ok rest := by
  refine skip_separated ?_ ?_ enough rest
  all_goals
    rintro each listed steps text enough
    obtain ⟨item, inside, rfl⟩ := List.mem_map.mp (List.map_cons ▸ listed)
    rw [skipItemsWithin, skipValueWithin_item (skips item inside) enough (by simp)]
    simp only [skipSpace_blank]
    rfl

theorem skipMembersWithin_members {member : Member Written} {members : List (Member Written)}
    (skips : ∀ each ∈ member :: members, Skips each.item.value) {steps : Nat}
    (enough : 2 * ([','].intercalate ((member :: members).map Member.chars)).length ≤ steps)
    (rest : List Char) :
    skipMembersWithin (steps + 1)
      ([','].intercalate ((member :: members).map Member.chars) ++ '\x7d' :: rest) = .ok rest := by
  refine skip_separated ?_ ?_ enough rest
  all_goals
    rintro each listed steps text enough
    obtain ⟨member, inside, rfl⟩ := List.mem_map.mp (List.map_cons ▸ listed)
    simp only [Member.chars, Member.tailChars, List.length_append, List.append_assoc,
      List.length_cons, List.cons_append] at enough ⊢
    have few : 2 * member.item.chars.length ≤ steps := by omega
    rw [skipMembersWithin, expectMark_blank (by decide)]
    simp (disch := decide) only [bind, Except.bind, skipString_spelled, expectMark_blank,
      skipValueWithin_item (skips member inside) few, skipSpace_blank]
    rfl

theorem skipValueWithin_digit {digit : Char} (isDigit : digit.isDigit = true) (steps : Nat)
    (text : List Char) :
    skipValueWithin (steps + 1) (digit :: text) = skipNumber (digit :: text) := by
  rw [skipValueWithin, skipSpace_of_not_isSpace (isSpace_of_isDigit isDigit)]
  simp only [isDigit, if_true]
  split
  case h_8 => rfl
  all_goals exact absurd isDigit (by decide)

/-- The blank before a value costs nothing, and there is a step to begin with. -/
theorem skips_of_reads {written : Written}
    (reads : ∀ steps rest, 2 * written.chars.length ≤ steps + 1 → EndsNumber rest →
      skipValueWithin (steps + 1) (written.chars ++ rest) = .ok rest) :
    Skips written := by
  intro steps before rest enough ends
  obtain ⟨char, later, chars, -, -⟩ := head?_chars written
  have positive : steps ≠ 0 := by
    rw [chars, List.length_cons] at enough
    omega
  obtain ⟨steps, rfl⟩ := Nat.exists_eq_add_one_of_ne_zero positive
  rw [← skipValueWithin_skipSpace, skipSpace_blank, skipValueWithin_skipSpace]
  exact reads steps rest enough ends

theorem skips_number (figure : Figure) : Skips (.number figure) := by
  refine skips_of_reads fun steps rest _ ends => ?_
  have skipped := skipNumber_chars figure ends
  rw [Written.chars, Figure.chars]
  cases figure.negative with
  | true => exact skipped
  | false =>
      cases digits : figure.whole.chars with
      | nil => exact absurd digits figure.whole.nonempty
      | cons digit later =>
          have isDigit := figure.whole.digits digit (by simp [digits])
          simp only [Figure.magnitudeChars, digits, List.cons_append, Bool.false_eq_true,
            if_false] at skipped ⊢
          rw [skipValueWithin_digit isDigit, skipped]

theorem skipSpace_item (item : Item Written) (text : List Char) :
    ∃ char later, skipSpace (item.chars ++ text) = char :: later ∧ char ≠ ']' := by
  obtain ⟨char, later, chars, visible, inside⟩ := head?_chars item.value
  rw [Item.chars, chars, List.append_assoc, List.append_assoc, skipSpace_blank, List.cons_append,
    skipSpace_of_not_isSpace visible]
  exact ⟨char, _, rfl, inside⟩

theorem skipSpace_member (member : Member Written) (text : List Char) :
    skipSpace (member.chars ++ text) = '"' :: (member.tailChars ++ text) := by
  rw [Member.chars, List.append_assoc, skipSpace_blank]
  rfl

theorem skips_array (blank : Blank) {items : List (Item Written)}
    (skips : ∀ item ∈ items, Skips item.value) : Skips (.array blank items) := by
  refine skips_of_reads fun steps rest enough _ => ?_
  rw [Written.chars, itemChars_eq_map] at enough ⊢
  simp only [List.cons_append, List.append_assoc, List.nil_append, List.length_cons,
    List.length_append, List.length_nil] at enough ⊢
  rw [skipValueWithin, skipSpace_of_not_isSpace (by decide)]
  simp only [skipSpace_blank]
  cases items with
  | nil => rfl
  | cons item items =>
      obtain ⟨fewer, rfl⟩ := Nat.exists_eq_add_one_of_ne_zero (by omega : steps ≠ 0)
      have skipped := skipItemsWithin_items skips (by omega : _ ≤ fewer) rest
      rw [List.map_cons, intercalate_comma, List.append_assoc] at skipped ⊢
      obtain ⟨char, later, start, inside⟩ := skipSpace_item item
        ((items.map Item.chars).flatMap (',' :: ·) ++ ']' :: rest)
      rw [← skipItemsWithin_skipSpace, start] at skipped
      rw [start]
      -- The array would end here only at a bracket, and no value starts with one.
      split
      next same => exact absurd (List.cons.inj same).1 inside
      next => exact skipped

theorem skips_object (blank : Blank) {members : List (Member Written)}
    (skips : ∀ member ∈ members, Skips member.item.value) : Skips (.object blank members) := by
  refine skips_of_reads fun steps rest enough _ => ?_
  rw [Written.chars, memberChars_eq_map] at enough ⊢
  simp only [List.cons_append, List.append_assoc, List.nil_append, List.length_cons,
    List.length_append, List.length_nil] at enough ⊢
  rw [skipValueWithin, skipSpace_of_not_isSpace (by decide)]
  simp only [skipSpace_blank]
  cases members with
  | nil => rfl
  | cons member members =>
      obtain ⟨fewer, rfl⟩ := Nat.exists_eq_add_one_of_ne_zero (by omega : steps ≠ 0)
      have skipped := skipMembersWithin_members skips (by omega : _ ≤ fewer) rest
      rw [List.map_cons, intercalate_comma, List.append_assoc] at skipped ⊢
      rw [← skipMembersWithin_skipSpace, skipSpace_member] at skipped
      rw [skipSpace_member]
      exact skipped

theorem skips_written (written : Written) : Skips written := by
  induction written with
  | null => exact skips_of_reads fun steps rest _ _ => rfl
  | bool value => cases value <;> exact skips_of_reads fun steps rest _ _ => rfl
  | number figure => exact skips_number figure
  | string pieces =>
      refine skips_of_reads fun steps rest _ _ => ?_
      rw [Written.chars, List.cons_append, List.append_assoc]
      exact skipString_spelled pieces rest
  | array blank items ih => exact skips_array blank ih
  | object blank members ih => exact skips_object blank ih

/-- A value is skipped whole, and what cannot belong to it is left. -/
theorem skipValue_item (item : Item Written) (ends : EndsNumber rest) :
    skipValue (item.chars ++ rest) = .ok (item.after.chars ++ rest) := by
  rw [skipValue, Item.chars]
  simp only [List.append_assoc, List.length_append]
  exact skips_written item.value _ item.before _ (by omega) (ends.blank_append item.after)

end Json

end ShaderIR
