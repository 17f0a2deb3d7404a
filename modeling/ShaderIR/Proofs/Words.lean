import ShaderIR.Expr.Printer
import ShaderIR.Proofs.DecimalText

/-!
The words that texts are made of: literals, names of variables and names of types. Words hold no
punctuation, so a text can be cut after its first word, and what a literal is shows in its word.
-/

namespace ShaderIR

def isWordChar (c : Char) : Bool :=
  c ∉ ['(', ')', ',', ';', '@', '\x7b', '\x7d', ' ', '\n']

def IsWord (text : List Char) : Prop :=
  ∀ c ∈ text, isWordChar c = true

theorem isWord_of_all {text : List Char} (all : text.all isWordChar = true) : IsWord text :=
  List.all_eq_true.mp all

/-- No word goes on here. -/
def Stops (rest : List Char) : Prop :=
  ∀ c ∈ rest.head?, isWordChar c = false

theorem takeWhile_word {word rest : List Char} (isWord : IsWord word) (stops : Stops rest) :
    (word ++ rest).takeWhile isWordChar = word := by
  rw [List.takeWhile_append_of_pos isWord]
  cases rest with
  | nil => simp
  | cons c rest => simp [stops c rfl]

theorem dropWhile_word {word rest : List Char} (isWord : IsWord word) (stops : Stops rest) :
    (word ++ rest).dropWhile isWordChar = rest := by
  rw [List.dropWhile_append_of_pos isWord]
  cases rest with
  | nil => rfl
  | cons c rest => simp [stops c rfl]

theorem eq_of_word_append {first second rest otherRest : List Char} (isWord : IsWord first)
    (isOtherWord : IsWord second) (stops : Stops rest) (otherStops : Stops otherRest)
    (same : first ++ rest = second ++ otherRest) : first = second ∧ rest = otherRest := by
  have sameWord : first = second := by
    rw [← takeWhile_word isWord stops, same, takeWhile_word isOtherWord otherStops]
  subst sameWord
  exact ⟨rfl, List.append_cancel_left same⟩

/-! ## Identifiers -/

def isIdentifierStart (c : Char) : Bool :=
  c.isAlpha || c == '_' || decide (128 ≤ c.toNat)

/-- Letters, digits and underscores, a digit not being first. All characters beyond ASCII count as
letters. -/
def isIdentifier : List Char → Bool
  | [] => false
  | first :: rest => isIdentifierStart first && rest.all fun c => isIdentifierStart c || c.isDigit

theorem isWordChar_of_isDigit {c : Char} (isDigit : c.isDigit = true) : isWordChar c = true := by
  rw [isWordChar, decide_eq_true_eq]
  intro punctuation
  fin_cases punctuation <;> simp at isDigit

theorem isWordChar_of_isIdentifierStart {c : Char} (start : isIdentifierStart c = true) :
    isWordChar c = true := by
  rw [isWordChar, decide_eq_true_eq]
  intro punctuation
  fin_cases punctuation <;> simp [isIdentifierStart] at start

theorem isDigit_of_isIdentifierStart {c : Char} (start : isIdentifierStart c = true) :
    c.isDigit = false := by
  rw [Bool.eq_false_iff]
  intro digit
  have below : c.toNat ≤ 57 := (Char.isDigit_iff_toNat.mp digit).2
  rw [isIdentifierStart, Bool.or_eq_true, Bool.or_eq_true, decide_eq_true_eq] at start
  rcases start with (letter | underscore) | beyond
  · have above : 65 ≤ c.toNat := by
      rcases Bool.or_eq_true_iff.mp letter with upper | lower
      · have bounds : 'A'.val ≤ c.val ∧ c.val ≤ 'Z'.val := of_decide_eq_true upper
        exact UInt32.le_iff_toNat_le.mp bounds.1
      · have bound : 'a'.val ≤ c.val := of_decide_eq_true (Bool.and_eq_true_iff.mp lower).1
        exact le_trans (by decide) (UInt32.le_iff_toNat_le.mp bound)
    omega
  · rw [eq_of_beq underscore] at below
    exact absurd below (by decide)
  · omega

theorem isWord_of_isIdentifier {name : List Char} (identifier : isIdentifier name = true) :
    IsWord name := by
  cases name with
  | nil => cases identifier
  | cons first rest =>
      simp only [isIdentifier, Bool.and_eq_true, List.all_eq_true, Bool.or_eq_true] at identifier
      intro c member
      rcases List.mem_cons.mp member with rfl | below
      · exact isWordChar_of_isIdentifierStart identifier.1
      · rcases identifier.2 c below with start | digit
        · exact isWordChar_of_isIdentifierStart start
        · exact isWordChar_of_isDigit digit

theorem isIdentifier_leads {name : List Char} (identifier : isIdentifier name = true) :
    ∃ first rest, name = first :: rest ∧ isIdentifierStart first = true := by
  cases name with
  | nil => cases identifier
  | cons first rest =>
      rw [isIdentifier, Bool.and_eq_true] at identifier
      exact ⟨first, rest, rfl, identifier.1⟩

theorem ne_nil_of_isIdentifier {name : List Char} (identifier : isIdentifier name = true) :
    name ≠ [] := by
  rintro rfl
  cases identifier

/-! ## Literals -/

/-- Whether a word is a number, a sign included, that is not given by a name alone. -/
def startsNumber : List Char → Bool
  | '-' :: rest => rest.head?.any Char.isDigit || rest == ['i', 'n', 'f']
  | word => word.head?.any Char.isDigit

/-- What a word is, or starts, if it is not followed by arguments. -/
def wordKind (word : List Char) : ExprKind :=
  if startsNumber word then
    if word = ['-', 'i', 'n', 'f'] ∨ '.' ∈ word ∨ 'e' ∈ word then .floatLiteral else .intLiteral
  else if word.head?.any (· ∈ ['-', '!', '~', '+']) then .unary
  else if word ∈ ["true".toList, "false".toList] then .boolLiteral
  else if word ∈ ["inf".toList, "NaN".toList] then .floatLiteral
  else .reference

theorem startsNumber_of_isDigit {first : Char} (digit : first.isDigit = true) (rest : List Char) :
    startsNumber (first :: rest) = true := by
  unfold startsNumber
  split
  next same =>
    cases same
    exact absurd digit (by decide)
  next => simpa using digit

theorem startsNumber_toString (value : Int) : startsNumber (toString value).toList = true := by
  have digits (number : Nat) :
      ∃ first rest, Nat.toDigits 10 number = first :: rest ∧ first.isDigit = true := by
    obtain ⟨first, rest, form⟩ := List.exists_cons_of_ne_nil (@Nat.toDigits_ne_nil number 10)
    exact ⟨first, rest, form, Decimal.areDigits_toDigits number first (by simp [form])⟩
  rw [Int.toString_eq_repr, Int.repr_eq_if]
  split
  · obtain ⟨first, rest, form, digit⟩ := digits value.toNat
    rw [Nat.toList_repr, form]
    exact startsNumber_of_isDigit digit rest
  · obtain ⟨first, rest, form, digit⟩ := digits (-value).toNat
    simp [form, startsNumber, digit]

theorem isWord_toString_int (value : Int) : IsWord (toString value).toList := by
  intro c member
  rcases Decimal.written_toString value c member with digit | rfl
  · exact isWordChar_of_isDigit digit
  · decide

theorem toString_int_ne_nil (value : Int) : (toString value).toList ≠ [] := by
  intro empty
  have number := startsNumber_toString value
  rw [empty] at number
  cases number

theorem eq_of_toString_int {first second : Int} (same : toString first = toString second) :
    first = second := by
  have read (value : Int) : Decimal.readExponent (toString value).toList = value := by
    simpa using Decimal.readExponent_toString value false
  rw [← read first, same, read]

theorem wordKind_int (value : Int) : wordKind (toString value).toList = .intLiteral := by
  have absent (c : Char) (letter : c.isDigit = false) (notSign : c ≠ '-') :
      c ∉ (toString value).toList := by
    intro member
    rcases Decimal.written_toString value c member with digit | sign
    · exact absurd digit (by simp [letter])
    · exact notSign sign
  have plain : ¬ ((toString value).toList = ['-', 'i', 'n', 'f'] ∨
      '.' ∈ (toString value).toList ∨ 'e' ∈ (toString value).toList) := by
    rintro (infinite | point | mark)
    · exact absent 'i' rfl (by decide) (by rw [infinite]; decide)
    · exact absent '.' rfl (by decide) point
    · exact absent 'e' rfl (by decide) mark
  rw [wordKind, if_pos (startsNumber_toString value), if_neg plain]

theorem wordKind_numeral {text : List Char} (numeral : Decimal.IsNumeral text) :
    wordKind text = .floatLiteral := by
  have number : startsNumber text = true := by
    obtain ⟨first, rest, rfl, digit⟩ := numeral.leads
    exact startsNumber_of_isDigit digit rest
  rw [wordKind, if_pos number, if_pos (.inr numeral.marked)]

theorem wordKind_negative_numeral {text : List Char} (numeral : Decimal.IsNumeral text) :
    wordKind ('-' :: text) = .floatLiteral := by
  have number : startsNumber ('-' :: text) = true := by
    obtain ⟨first, rest, rfl, digit⟩ := numeral.leads
    simp [startsNumber, digit]
  have marked : '.' ∈ '-' :: text ∨ 'e' ∈ '-' :: text :=
    numeral.marked.imp (List.mem_cons_of_mem _) (List.mem_cons_of_mem _)
  rw [wordKind, if_pos number, if_pos (.inr marked)]

namespace Binary64

/-- The texts that a double can have. -/
theorem toList_text_cases (number : Binary64) (layout : Layout) :
    (number.isNaN = true ∧ (number.text layout).toList = ['N', 'a', 'N']) ∨
      ∃ text, (text = ['i', 'n', 'f'] ∨ Decimal.IsNumeral text) ∧
        ((number.text layout).toList = text ∨ (number.text layout).toList = '-' :: text) := by
  cases isNaN : number.isNaN with
  | true =>
      refine .inl ⟨rfl, ?_⟩
      simp [text, isNaN]
  | false =>
      refine .inr ⟨number.unsignedText layout, ?_, ?_⟩
      · unfold unsignedText
        split
        · exact .inl rfl
        · exact .inr (number.isNumeral_finiteText layout)
      · rw [toList_text isNaN]
        cases number.isNegative with
        | true => exact .inr rfl
        | false => exact .inl rfl

theorem isNaN_eq_of_text {first second : Binary64} {layout : Layout}
    (same : first.text layout = second.text layout) : first.isNaN = second.isNaN := by
  have shown (number : Binary64) :
      number.isNaN = true ↔ (number.text layout).toList = ['N', 'a', 'N'] := by
    refine ⟨fun isNaN => by simp [text, isNaN], fun form => ?_⟩
    rcases number.toList_text_cases layout with ⟨isNaN, _⟩ | ⟨unsigned, rfl | numeral, word | word⟩
    · exact isNaN
    · cases word.symm.trans form
    · cases word.symm.trans form
    · obtain ⟨first, rest, rfl, digit⟩ := numeral.leads
      cases word.symm.trans form
      exact absurd digit (by decide)
    · cases word.symm.trans form
  rw [Bool.eq_iff_iff, shown first, shown second, same]

theorem isWord_text (number : Binary64) (layout : Layout) :
    IsWord (number.text layout).toList := by
  have numeralWord {text : List Char} (form : text = ['i', 'n', 'f'] ∨ Decimal.IsNumeral text) :
      IsWord text := by
    rcases form with rfl | numeral
    · exact isWord_of_all (by decide)
    · intro c member
      rcases numeral.written c member with digit | mark
      · exact isWordChar_of_isDigit digit
      · fin_cases mark <;> decide
  rcases number.toList_text_cases layout with ⟨_, text⟩ | ⟨unsigned, form, text | text⟩
  · rw [text]
    exact isWord_of_all (by decide)
  · rw [text]
    exact numeralWord form
  · rw [text]
    intro c member
    rcases List.mem_cons.mp member with rfl | below
    · decide
    · exact numeralWord form c below

theorem wordKind_text (number : Binary64) (layout : Layout) :
    wordKind (number.text layout).toList = .floatLiteral := by
  rcases number.toList_text_cases layout with
    ⟨_, text⟩ | ⟨unsigned, rfl | numeral, text | text⟩
  · rw [text]; decide
  · rw [text]; decide
  · rw [text]; decide
  · rw [text]; exact wordKind_numeral numeral
  · rw [text]; exact wordKind_negative_numeral numeral

end Binary64

theorem not_startsNumber_of_isIdentifierStart {first : Char}
    (start : isIdentifierStart first = true) (rest : List Char) :
    startsNumber (first :: rest) = false := by
  unfold startsNumber
  split
  next same =>
    cases same
    exact absurd start (by decide)
  next => simpa using isDigit_of_isIdentifierStart start

theorem wordKind_identifier {name : List Char} (identifier : isIdentifier name = true)
    (notBool : name ∉ ["true".toList, "false".toList]) :
    wordKind name = if name ∈ ["inf".toList, "NaN".toList] then .floatLiteral else .reference := by
  obtain ⟨first, rest, rfl, start⟩ := isIdentifier_leads identifier
  have notOperator : (first :: rest).head?.any (· ∈ ['-', '!', '~', '+']) = false := by
    rw [List.head?_cons, Option.any_some, decide_eq_false_iff_not]
    intro operator
    fin_cases operator <;> exact absurd start (by decide)
  rw [wordKind, not_startsNumber_of_isIdentifierStart start, if_neg (by simp), notOperator,
    if_neg (by simp), if_neg notBool]

theorem isWord_bool (value : Bool) : IsWord (if value then "true" else "false").toList := by
  apply isWord_of_all
  cases value <;> decide

theorem wordKind_bool (value : Bool) :
    wordKind (if value then "true" else "false").toList = .boolLiteral := by
  cases value <;> decide

theorem wordKind_operator {first : Char} (operator : first ∈ ['!', '~', '+']) (rest : List Char) :
    wordKind (first :: rest) = .unary := by
  have notNumber : startsNumber (first :: rest) = false := by
    fin_cases operator <;> rfl
  have marked : (first :: rest).head?.any (· ∈ ['-', '!', '~', '+']) = true := by
    fin_cases operator <;> rfl
  rw [wordKind, notNumber, if_neg (by simp), if_pos marked]

theorem wordKind_two_signs (rest : List Char) : wordKind ('-' :: '-' :: rest) = .unary := by
  have notNumber : startsNumber ('-' :: '-' :: rest) = false := by
    simp [startsNumber]
  rw [wordKind, notNumber]
  rfl

/-- A sign before a name is an operator, unless the two make an infinite number. -/
theorem wordKind_signed_identifier {name : List Char} (identifier : isIdentifier name = true)
    (notInfinite : name ≠ ['i', 'n', 'f']) : wordKind ('-' :: name) = .unary := by
  obtain ⟨first, rest, rfl, start⟩ := isIdentifier_leads identifier
  have notNumber : startsNumber ('-' :: first :: rest) = false := by
    simp only [startsNumber, List.head?_cons, Option.any_some, isDigit_of_isIdentifierStart start,
      Bool.false_or, beq_eq_false_iff_ne]
    exact notInfinite
  rw [wordKind, notNumber]
  rfl

/-! ## Names -/

/-- The names that can be told from literals. -/
def IsFreeName (name : String) : Prop :=
  isIdentifier name.toList = true ∧ name ∉ ["true", "false", "inf", "NaN"]

theorem isFreeName_displayName (ty : Ty) : IsFreeName ty.displayName := by
  have everyType : ∀ ty ∈ Ty.all, isIdentifier ty.displayName.toList = true ∧
      ty.displayName ∉ ["true", "false", "inf", "NaN"] := by decide
  exact everyType ty ty.mem_all

theorem IsFreeName.toList_not_mem {name : String} {words : List String}
    (reserved : words ⊆ ["true", "false", "inf", "NaN"]) (free : IsFreeName name) :
    name.toList ∉ words.map String.toList := by
  rw [List.mem_map_of_injective fun _ _ => String.toList_inj.mp]
  exact fun member => free.2 (reserved member)

theorem IsFreeName.wordKind_eq {name : String} (free : IsFreeName name) :
    wordKind name.toList = .reference := by
  have notBool : name.toList ∉ ["true", "false"].map String.toList :=
    free.toList_not_mem (by simp)
  have notFloat : name.toList ∉ ["inf", "NaN"].map String.toList :=
    free.toList_not_mem (by simp)
  rw [wordKind_identifier free.1 notBool]
  exact if_neg notFloat

theorem IsFreeName.ne_inf {name : String} (free : IsFreeName name) :
    name.toList ≠ ['i', 'n', 'f'] := by
  have notInf : name.toList ∉ ["inf"].map String.toList := free.toList_not_mem (by simp)
  simpa using notInf

end ShaderIR
