import ShaderIR.Binary64.Scaling
import ShaderIR.Json.Basic

/-!
Reading the parts of a JSON text from left to right. Each reader takes the text that is left and
gives back what remains after the part it read. Reading stops at the first flaw: either the text
breaks off, or it cannot be continued to JSON.

Values that nobody asks for are skipped by `skipValue`, which checks their form alone: numbers out
of range and unpaired surrogates pass there.
-/

namespace ShaderIR

namespace Json

inductive Flaw where
  | truncated
  | malformed
deriving DecidableEq, Repr

def isSpace (char : Char) : Bool :=
  char == ' ' || char == '\n' || char == '\t' || char == '\r'

def skipSpace (text : List Char) : List Char :=
  text.dropWhile isSpace

/-- The flaw of a text that does not go on as it should. -/
def flawAt : List Char → Flaw
  | [] => .truncated
  | _ :: _ => .malformed

/-- Reads exactly the given characters. -/
def expect : List Char → List Char → Except Flaw (List Char)
  | [], text => .ok text
  | _ :: _, [] => .error .truncated
  | wanted :: further, char :: text =>
      if char = wanted then expect further text else .error .malformed

/-- Reads space and then one given character. -/
def expectMark (mark : Char) (text : List Char) : Except Flaw (List Char) :=
  expect [mark] (skipSpace text)

/-! ## Strings -/

/-- Where a reader stands inside a string. -/
inductive StringStage where
  | plain
  /-- After a backslash. -/
  | escape
  /-- Inside a code unit in hexadecimal: how many digits are missing, its value so far, and the
  high surrogate it has to complete, if any. -/
  | unit (missing value : Nat) (high : Option Nat)
  /-- After a high surrogate, before the backslash of the low one. -/
  | low (high : Nat)
  /-- After a high surrogate and a backslash. -/
  | lowEscape (high : Nat)
deriving DecidableEq, Repr

/-- The character that a backslash and a letter stand for. -/
def escaped? (letter : Char) : Option Char :=
  match letter with
  | '"' => some '"'
  | '\\' => some '\\'
  | '/' => some '/'
  | 'b' => some '\x08'
  | 'f' => some '\x0C'
  | 'n' => some '\n'
  | 'r' => some '\r'
  | 't' => some '\t'
  | _ => none

def hexValue? (digit : Char) : Option Nat :=
  if '0' ≤ digit ∧ digit ≤ '9' then some (digit.toNat - '0'.toNat)
  else if 'a' ≤ digit ∧ digit ≤ 'f' then some (digit.toNat - 'a'.toNat + 10)
  else if 'A' ≤ digit ∧ digit ≤ 'F' then some (digit.toNat - 'A'.toNat + 10)
  else none

/-- Four digits are looked for at once, so a text with fewer than four bytes left breaks off there,
whatever those bytes are. -/
def tooShortForUnit (text : List Char) : Bool :=
  decide ((text.take 4).foldr (fun char size => char.utf8Size + size) 0 < 4)

def isHighSurrogate (unit : Nat) : Bool :=
  decide (0xD800 ≤ unit ∧ unit ≤ 0xDBFF)

def isLowSurrogate (unit : Nat) : Bool :=
  decide (0xDC00 ≤ unit ∧ unit ≤ 0xDFFF)

/-- What a finished code unit means: a character, or the first half of one. -/
def unitResult (strict : Bool) (high : Option Nat) (unit : Nat) :
    Except Flaw (Option Char × StringStage) :=
  match high with
  | some high =>
      if isLowSurrogate unit then
        .ok (some (Char.ofNat (0x10000 + (high - 0xD800) * 0x400 + (unit - 0xDC00))), .plain)
      else
        .error .malformed
  | none =>
      if strict && isLowSurrogate unit then .error .malformed
      else if strict && isHighSurrogate unit then .ok (none, .low unit)
      else .ok (some (Char.ofNat unit), .plain)

/-- One character of a string, the closing quote apart: what it adds to the string, and where the
reader stands afterwards. -/
def stringStep (strict : Bool) (stage : StringStage) (char : Char) (text : List Char) :
    Except Flaw (Option Char × StringStage) :=
  match stage with
  | .plain =>
      if char = '\\' then .ok (none, .escape)
      else if char.toNat < 0x20 then .error .malformed
      else .ok (some char, .plain)
  | .escape =>
      if char = 'u' then
        if tooShortForUnit text then .error .truncated else .ok (none, .unit 4 0 none)
      else
        match escaped? char with
        | some meant => .ok (some meant, .plain)
        | none => .error .malformed
  | .unit missing value high =>
      match hexValue? char with
      | none => .error .malformed
      | some digit =>
          if missing = 1 then unitResult strict high (value * 16 + digit)
          else .ok (none, .unit (missing - 1) (value * 16 + digit) high)
  | .low high => if char = '\\' then .ok (none, .lowEscape high) else .error .malformed
  | .lowEscape high =>
      if char = 'u' then
        if tooShortForUnit text then .error .truncated else .ok (none, .unit 4 0 (some high))
      else
        .error .malformed

/-- Reads a string up to its closing quote. A strict reader wants surrogates in pairs. -/
def scanString (strict : Bool) (stage : StringStage) :
    List Char → Except Flaw (List Char × List Char)
  | [] => .error .truncated
  | char :: text =>
      if char = '"' ∧ stage = .plain then .ok ([], text)
      else
        match stringStep strict stage char text with
        | .error flaw => .error flaw
        | .ok (added, next) =>
            match scanString strict next text with
            | .error flaw => .error flaw
            | .ok (further, rest) => .ok (added.toList ++ further, rest)

/-- Reads a string whose opening quote has been read. -/
def readString (text : List Char) : Except Flaw (String × List Char) :=
  match scanString true .plain text with
  | .error flaw => .error flaw
  | .ok (chars, rest) => .ok (String.ofList chars, rest)

/-- Skips a string whose opening quote has been read. -/
def skipString (text : List Char) : Except Flaw (List Char) :=
  match scanString false .plain text with
  | .error flaw => .error flaw
  | .ok (_, rest) => .ok rest

/-! ## Numbers -/

/-- The digits of a number. An absent fraction and a fraction without digits are not told apart,
since the latter is refused. -/
structure Numeral where
  whole : List Char
  fraction : List Char
  exponent : Option Int
deriving DecidableEq, Repr

def digitsOf (text : List Char) : List Char × List Char :=
  (text.takeWhile Char.isDigit, text.dropWhile Char.isDigit)

def natOf (digits : List Char) : Nat :=
  digits.foldl (fun value digit => value * 10 + (digit.toNat - '0'.toNat)) 0

/-- Reads at least one digit. A text that ends before it has the flaw `broken`. -/
def scanDigits (broken : Flaw) (text : List Char) : Except Flaw (List Char × List Char) :=
  match digitsOf text with
  | ([], []) => .error broken
  | ([], _ :: _) => .error .malformed
  | (digits, rest) => .ok (digits, rest)

def scanFraction (broken : Flaw) : List Char → Except Flaw (List Char × List Char)
  | '.' :: text => scanDigits broken text
  | text => .ok ([], text)

/-- Reads the sign of an exponent, if there is one: whether it is a minus sign. -/
def scanSign : List Char → Bool × List Char
  | '-' :: text => (true, text)
  | '+' :: text => (false, text)
  | text => (false, text)

def scanExponent (broken : Flaw) : List Char → Except Flaw (Option Int × List Char)
  | [] => .ok (none, [])
  | mark :: text =>
      if mark = 'e' ∨ mark = 'E' then do
        let (negative, text) := scanSign text
        let (digits, rest) ← scanDigits broken text
        let magnitude : Int := natOf digits
        return (some (if negative then -magnitude else magnitude), rest)
      else
        .ok (none, mark :: text)

/-- Reads a number without its sign. A leading zero stands alone. -/
def scanNumeral (broken : Flaw) (text : List Char) : Except Flaw (Numeral × List Char) := do
  let (whole, rest) ← scanDigits broken text
  if 1 < whole.length ∧ whole.head? = some '0' then
    .error .malformed
  else
    let (fraction, rest) ← scanFraction broken rest
    let (exponent, rest) ← scanExponent broken rest
    return (⟨whole, fraction, exponent⟩, rest)

/-- The greatest significand a number is read with. -/
def greatestSignificand : Nat := Nat.pow 2 64 - 1

/-- Appends digits to a significand until the next one would make it too great: the significand,
and how many digits went into it. -/
def absorb (significand : Nat) : List Char → Nat × Nat
  | [] => (significand, 0)
  | digit :: digits =>
      let next := significand * 10 + (digit.toNat - '0'.toNat)
      if next ≤ greatestSignificand then
        let (absorbed, count) := absorb next digits
        (absorbed, count + 1)
      else
        (significand, 0)

/-- The value of a number. Integers of 64 bits are exact; zero with a minus sign and all other
numbers are doubles, and one beyond every double is refused. -/
def Numeral.value (negative : Bool) (numeral : Numeral) : Except Flaw JsonNumber :=
  let (whole, wholeCount) := absorb 0 numeral.whole
  let signed (magnitude : Binary64) : JsonNumber :=
    .float (if negative then -magnitude else magnitude)
  if numeral.fraction = [] ∧ numeral.exponent = none ∧ wholeCount = numeral.whole.length then
    if !negative then .ok (.integer whole)
    else if 0 < whole ∧ whole ≤ Nat.pow 2 63 then .ok (.integer (-(whole : Int)))
    else .ok (signed (.ofRatio whole 1))
  else
    let (significand, fractionCount) := absorb whole numeral.fraction
    let places : Int := (numeral.whole.length : Int) - wholeCount - fractionCount
    match Binary64.ofDecimal? significand (places + numeral.exponent.getD 0) with
    | some magnitude => .ok (signed magnitude)
    | none => .error .malformed

def readNumber (negative : Bool) (text : List Char) : Except Flaw (JsonNumber × List Char) := do
  let (numeral, rest) ← scanNumeral .truncated text
  let value ← numeral.value negative
  return (value, rest)

def skipNumber (text : List Char) : Except Flaw (List Char) := do
  let (_, rest) ← scanNumeral .malformed text
  return rest

/-! ## Values -/

mutual

/-- Skips a value and the space before it. The first argument bounds the number of steps. -/
def skipValueWithin : Nat → List Char → Except Flaw (List Char)
  | 0, _ => .error .truncated
  | steps + 1, text =>
      match skipSpace text with
      | [] => .error .truncated
      | char :: text =>
          match char with
          | 'n' => expect "ull".toList text
          | 't' => expect "rue".toList text
          | 'f' => expect "alse".toList text
          | '"' => skipString text
          | '-' => skipNumber text
          | '[' =>
              match skipSpace text with
              | ']' :: rest => .ok rest
              | text => skipItemsWithin steps text
          | '\x7b' =>
              match skipSpace text with
              | '\x7d' :: rest => .ok rest
              | text => skipMembersWithin steps text
          | _ => if char.isDigit then skipNumber (char :: text) else .error .malformed

/-- Skips the items of an array, of which there is at least one, and its closing bracket. -/
def skipItemsWithin : Nat → List Char → Except Flaw (List Char)
  | 0, _ => .error .truncated
  | steps + 1, text =>
      match skipValueWithin steps text with
      | .error flaw => .error flaw
      | .ok text =>
          match skipSpace text with
          | ',' :: text => skipItemsWithin steps text
          | ']' :: text => .ok text
          | text => .error (flawAt text)

/-- Skips the members of an object, of which there is at least one, and its closing brace. -/
def skipMembersWithin : Nat → List Char → Except Flaw (List Char)
  | 0, _ => .error .truncated
  | steps + 1, text =>
      match expectMark '"' text >>= skipString >>= expectMark ':' with
      | .error flaw => .error flaw
      | .ok text =>
          match skipValueWithin steps text with
          | .error flaw => .error flaw
          | .ok text =>
              match skipSpace text with
              | ',' :: text => skipMembersWithin steps text
              | '\x7d' :: text => .ok text
              | text => .error (flawAt text)

end

/-- Skips a value and the space before it. Every step takes at least one character. -/
def skipValue (text : List Char) : Except Flaw (List Char) :=
  skipValueWithin (2 * text.length + 1) text

/-- Reads a value other than an array or an object. -/
def readScalar : List Char → Except Flaw (Json × List Char)
  | [] => .error .truncated
  | char :: text =>
      match char with
      | 'n' => do
          let rest ← expect "ull".toList text
          return (.null, rest)
      | 't' => do
          let rest ← expect "rue".toList text
          return (.bool true, rest)
      | 'f' => do
          let rest ← expect "alse".toList text
          return (.bool false, rest)
      | '"' => do
          let (value, rest) ← readString text
          return (.string value, rest)
      | '-' => do
          let (value, rest) ← readNumber true text
          return (.number value, rest)
      | _ =>
          if char.isDigit then do
            let (value, rest) ← readNumber false (char :: text)
            return (.number value, rest)
          else
            .error .malformed

/-- Finds out what value a text starts with. The contents of arrays and objects are not read. -/
def readShape (text : List Char) : Except Flaw Shape :=
  match text with
  | '[' :: _ => .ok .array
  | '\x7b' :: _ => .ok .object
  | text => do
      let (value, _) ← readScalar text
      return value.shape

end Json

end ShaderIR
