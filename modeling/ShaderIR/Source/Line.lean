/-!
Lines of source text. A line keeps the characters that end it, so the lines of a text join to the
text again. A carriage return with a line feed after it ends one line, not two.
-/

namespace ShaderIR

namespace Source

/-- Line feed, vertical tab, form feed, carriage return, next line, line and paragraph separator. -/
def isLineEnd (char : Char) : Bool :=
  [0x0A, 0x0B, 0x0C, 0x0D, 0x85, 0x2028, 0x2029].contains char.toNat

/-- Puts a character before the first line. -/
def prepend (char : Char) : List (List Char) → List (List Char)
  | [] => [[char]]
  | line :: lines => (char :: line) :: lines

/-- The lines of a text, none of them empty. -/
def lines : List Char → List (List Char)
  | [] => []
  | '\r' :: '\n' :: rest => ['\r', '\n'] :: lines rest
  | char :: rest => if isLineEnd char then [char] :: lines rest else prepend char (lines rest)

theorem flatten_prepend (char : Char) (lines : List (List Char)) :
    (prepend char lines).flatten = char :: lines.flatten := by
  cases lines <;> simp [prepend]

/-- Splitting into lines loses nothing. -/
theorem flatten_lines (text : List Char) : (lines text).flatten = text := by
  fun_induction lines text with
  | case1 => rfl
  | case2 rest ih => simp [ih]
  | case3 char rest _ ended ih => simp [ih]
  | case4 char rest _ inside ih => simp [flatten_prepend, ih]

/-- A place in a text: the line it is in, counted from one, that line's text, and the number of
characters of the line before it. -/
structure Location where
  line : Nat
  column : Nat
  text : List Char
deriving DecidableEq, Repr

/-- Walks over whole lines until the offset falls into one. Whatever lies beyond is in the last. -/
def locateFrom (line offset : Nat) : List (List Char) → Location
  | [] => ⟨line, offset, []⟩
  | [text] => ⟨line, offset, text⟩
  | text :: next :: rest =>
      if offset < text.length then ⟨line, offset, text⟩
      else locateFrom (line + 1) (offset - text.length) (next :: rest)

/-- Where the character with the given number, counted from zero, stands. -/
def locate (source : List Char) (offset : Nat) : Location :=
  locateFrom 1 offset (lines source)

end Source

end ShaderIR
