import ShaderIR.Json.Scan

/-!
JSON texts as they may be written. A tree of this kind keeps what the value behind a text forgets:
blanks, escapes, the digits of numbers, and the order and number of members. Every tree has a text,
and the texts of all trees are the JSON texts; nothing here says how a text is read.
-/

namespace ShaderIR

namespace Json

/-- A run of the characters that may stand between the parts of a text. -/
structure Blank where
  chars : List Char
  spaces : ∀ char ∈ chars, char ∈ [' ', '\n', '\t', '\r']

/-! ## Strings -/

structure HexDigit where
  value : Fin 16
  capital : Bool

def HexDigit.char (digit : HexDigit) : Char :=
  if digit.capital then digit.value.val.digitChar.toUpper else digit.value.val.digitChar

/-- Sixteen bits, in hexadecimal. -/
structure CodeUnit where
  first : HexDigit
  second : HexDigit
  third : HexDigit
  fourth : HexDigit

namespace CodeUnit

def chars (unit : CodeUnit) : List Char :=
  [unit.first.char, unit.second.char, unit.third.char, unit.fourth.char]

def value (unit : CodeUnit) : Nat :=
  ((unit.first.value.val * 16 + unit.second.value.val) * 16 + unit.third.value.val) * 16 +
    unit.fourth.value.val

def isHigh (unit : CodeUnit) : Bool :=
  decide (0xD800 ≤ unit.value ∧ unit.value < 0xDC00)

def isLow (unit : CodeUnit) : Bool :=
  decide (0xDC00 ≤ unit.value ∧ unit.value < 0xE000)

end CodeUnit

/-- What can stand behind a backslash besides a code unit. -/
inductive Escape where
  | quote
  | backslash
  | slash
  | backspace
  | formFeed
  | newline
  | carriageReturn
  | tab

namespace Escape

def letter : Escape → Char
  | .quote => '"'
  | .backslash => '\\'
  | .slash => '/'
  | .backspace => 'b'
  | .formFeed => 'f'
  | .newline => 'n'
  | .carriageReturn => 'r'
  | .tab => 't'

def meaning : Escape → Char
  | .quote => '"'
  | .backslash => '\\'
  | .slash => '/'
  | .backspace => '\x08'
  | .formFeed => '\x0C'
  | .newline => '\n'
  | .carriageReturn => '\r'
  | .tab => '\t'

end Escape

/-- What a string consists of between its quotes. -/
inductive Piece where
  | plain (char : Char) (allowed : char ≠ '"' ∧ char ≠ '\\' ∧ 0x20 ≤ char.toNat)
  | escape (short : Escape)
  | unit (code : CodeUnit)

def Piece.chars : Piece → List Char
  | .plain char _ => [char]
  | .escape short => ['\\', short.letter]
  | .unit code => '\\' :: 'u' :: code.chars

/-- The text between the quotes of a string. -/
def spelled (pieces : List Piece) : List Char :=
  pieces.flatMap Piece.chars

/-- The characters of a string. Those beyond sixteen bits are written as two surrogates; a surrogate
that is not part of such a pair stands for no character. -/
def decoded? : List Piece → Option (List Char)
  | [] => some []
  | .plain char _ :: pieces => (decoded? pieces).map (char :: ·)
  | .escape short :: pieces => (decoded? pieces).map (short.meaning :: ·)
  | .unit high :: .unit low :: pieces =>
      if high.isHigh then
        if low.isLow then
          (decoded? pieces).map
            (Char.ofNat (0x10000 + (high.value - 0xD800) * 0x400 + (low.value - 0xDC00)) :: ·)
        else
          none
      else if high.isLow then
        none
      else
        (decoded? (.unit low :: pieces)).map (Char.ofNat high.value :: ·)
  | .unit code :: pieces =>
      if code.isHigh || code.isLow then none
      else (decoded? pieces).map (Char.ofNat code.value :: ·)

def meaning? (pieces : List Piece) : Option String :=
  (decoded? pieces).map String.ofList

/-! ## Numbers -/

structure Digits where
  chars : List Char
  nonempty : chars ≠ []
  digits : ∀ char ∈ chars, char.isDigit = true

structure Exponent where
  capital : Bool
  /-- Whether a sign is written, and if so, whether it is a minus sign. -/
  minus : Option Bool
  digits : Digits

namespace Exponent

def mark (exponent : Exponent) : Char :=
  if exponent.capital then 'E' else 'e'

def signChars (exponent : Exponent) : List Char :=
  match exponent.minus with
  | none => []
  | some true => ['-']
  | some false => ['+']

def chars (exponent : Exponent) : List Char :=
  exponent.mark :: (exponent.signChars ++ exponent.digits.chars)

end Exponent

/-- A number as it is written. A leading zero stands alone. -/
structure Figure where
  negative : Bool
  whole : Digits
  leading : whole.chars.head? = some '0' → whole.chars = ['0']
  fraction : Option Digits
  exponent : Option Exponent

namespace Figure

def fractionChars (figure : Figure) : List Char :=
  match figure.fraction with
  | none => []
  | some digits => '.' :: digits.chars

def exponentChars (figure : Figure) : List Char :=
  match figure.exponent with
  | none => []
  | some exponent => exponent.chars

def magnitudeChars (figure : Figure) : List Char :=
  figure.whole.chars ++ figure.fractionChars ++ figure.exponentChars

def chars (figure : Figure) : List Char :=
  if figure.negative then '-' :: figure.magnitudeChars else figure.magnitudeChars

end Figure

/-! ## Values -/

/-- A value with the blanks around it. -/
structure Item (α : Type) where
  before : Blank
  value : α
  after : Blank

/-- A member of an object. -/
structure Member (α : Type) where
  before : Blank
  name : List Piece
  beforeColon : Blank
  item : Item α

inductive Written where
  | null
  | bool (value : Bool)
  | number (figure : Figure)
  | string (pieces : List Piece)
  | array (blank : Blank) (items : List (Item Written))
  | object (blank : Blank) (members : List (Member Written))

mutual

def Written.chars : Written → List Char
  | .null => ['n', 'u', 'l', 'l']
  | .bool true => ['t', 'r', 'u', 'e']
  | .bool false => ['f', 'a', 'l', 's', 'e']
  | .number figure => figure.chars
  | .string pieces => '"' :: (spelled pieces ++ ['"'])
  | .array blank items => '[' :: (blank.chars ++ [','].intercalate (itemChars items) ++ [']'])
  | .object blank members =>
      '\x7b' :: (blank.chars ++ [','].intercalate (memberChars members) ++ ['\x7d'])

def itemChars : List (Item Written) → List (List Char)
  | [] => []
  | ⟨before, value, after⟩ :: items =>
      (before.chars ++ value.chars ++ after.chars) :: itemChars items

def memberChars : List (Member Written) → List (List Char)
  | [] => []
  | ⟨before, name, beforeColon, ⟨beforeValue, value, after⟩⟩ :: members =>
      (before.chars ++ '"' :: (spelled name ++ '"' :: (beforeColon.chars ++ ':' ::
        (beforeValue.chars ++ value.chars ++ after.chars)))) :: memberChars members

end

namespace Item

def chars (item : Item Written) : List Char :=
  item.before.chars ++ item.value.chars ++ item.after.chars

/-- A text consists of one value and the blanks around it. -/
def text (item : Item Written) : String :=
  String.ofList item.chars

end Item

namespace Member

/-- A member from behind the opening quote of its name. -/
def tailChars (member : Member Written) : List Char :=
  spelled member.name ++ '"' :: (member.beforeColon.chars ++ ':' :: member.item.chars)

def chars (member : Member Written) : List Char :=
  member.before.chars ++ '"' :: member.tailChars

/-- Whether the name stands for a string. -/
def isReadable (member : Member Written) : Bool :=
  (meaning? member.name).isSome

end Member

theorem itemChars_eq_map (items : List (Item Written)) :
    itemChars items = items.map Item.chars := by
  induction items with
  | nil => rfl
  | cons item items ih => rw [itemChars, ih, List.map_cons, Item.chars]

theorem memberChars_eq_map (members : List (Member Written)) :
    memberChars members = members.map Member.chars := by
  induction members with
  | nil => rfl
  | cons member members ih =>
      rw [memberChars, ih, List.map_cons, Member.chars, Member.tailChars, Item.chars]

/-- Every part but the first comes behind a comma. -/
theorem intercalate_comma (part : List Char) (parts : List (List Char)) :
    [','].intercalate (part :: parts) = part ++ parts.flatMap (',' :: ·) := by
  induction parts generalizing part with
  | nil => simp
  | cons next parts ih => simp [List.intercalate_cons_cons, ih]

/-- Induction over written values, with the hypothesis for every item and every member. -/
@[elab_as_elim, induction_eliminator]
theorem Written.induction {motive : Written → Prop}
    (null : motive .null)
    (bool : ∀ value, motive (.bool value))
    (number : ∀ figure, motive (.number figure))
    (string : ∀ pieces, motive (.string pieces))
    (array : ∀ blank items, (∀ item ∈ items, motive item.value) → motive (.array blank items))
    (object : ∀ blank members, (∀ member ∈ members, motive member.item.value) →
      motive (.object blank members))
    (written : Written) : motive written :=
  @Written.rec motive (fun items => ∀ item ∈ items, motive item.value)
    (fun members => ∀ member ∈ members, motive member.item.value)
    (fun item => motive item.value) (fun member => motive member.item.value)
    null bool number string array object
    (fun _ absent => by simp at absent)
    (fun _ _ first rest => List.forall_mem_cons.mpr ⟨first, rest⟩)
    (fun _ absent => by simp at absent)
    (fun _ _ first rest => List.forall_mem_cons.mpr ⟨first, rest⟩)
    (fun _ _ _ held => held)
    (fun _ _ _ _ held => held)
    written

end Json

end ShaderIR
