import ShaderIR.Source.Line
import ShaderIR.Source.Span
import ShaderIR.Text.Blank

/-!
Messages shown with the source line they are about. Whoever wants one shown says what it is, which
span of the source it is about and how it is to be drawn; how that comes out is settled here. Spans
count characters and are taken to lie in one line; what reaches into the next is drawn as if the
line went on. A span that starts beyond the end of the source is not drawn, and one that starts at
the very end has its place named but nothing to point at.
-/

namespace ShaderIR

/-- How an excerpt is drawn. -/
structure ExcerptStyle where
  /-- The distance from one tab stop to the next. -/
  tabStop : Nat := 4
  /-- How far the marks reach past the end of the span. -/
  overhang : Nat := 2
deriving DecidableEq, Repr

/-- A message about a span of the source. -/
structure Excerpt where
  kind : String
  span : Span
  message : String
  style : ExcerptStyle := {}
deriving DecidableEq, Repr

namespace Excerpt

/-- The columns a character takes up on the screen. Ideographs of the block that starts at U+4E00
take up two, as they do on a terminal. Other wide characters (kana, hangul, full-width forms, emoji)
and characters without a width of their own (combining marks) are not told apart from the rest: each
counts as one column here. -/
def charWidth (char : Char) : Nat :=
  if 0x4E00 ≤ char.toNat ∧ char.toNat ≤ 0x9FFF then 2 else 1

variable (style : ExcerptStyle)

/-- The columns a tab takes up, which depend on its place in the line. -/
def tabWidth (index : Nat) : Nat :=
  style.tabStop - index % style.tabStop

/-- The columns of the character at an index of a line; past the end every index has one. -/
def cellWidth (text : List Char) (index : Nat) : Nat :=
  match text[index]? with
  | none => 1
  | some char =>
      if char = '\t' then tabWidth style index
      else if Text.isBlank char then 1
      else charWidth char

/-- A character as it is shown: white space becomes spaces. -/
def cellText (index : Nat) (char : Char) : List Char :=
  if char = '\t' then List.replicate (tabWidth style index) ' '
  else if Text.isBlank char then [' ']
  else [char]

def lineText (text : List Char) : List Char :=
  (text.mapIdx (cellText style)).flatten

/-- One row of marks under a line, given the first and the further marks of every cell. -/
def marks (text : List Char) (span : Span) (mark : Nat → Char × Char) : List Char :=
  ((List.range (span.stop + style.overhang)).map fun index =>
    let (first, further) := mark index
    first :: List.replicate (cellWidth style text index - 1) further).flatten

/-- Underlines a span of columns and hangs the message on its middle. -/
def pointer (text : List Char) (span : Span) : List Char :=
  marks style text span fun index =>
    if index = span.middle then ('┬', '─')
    else if span.start ≤ index ∧ index < span.stop then ('─', '─')
    else (' ', ' ')

/-- Leads from the middle of a span of columns to the message. -/
def leader (text : List Char) (span : Span) : List Char :=
  marks style text span fun index =>
    if index < span.middle then (' ', ' ')
    else if index = span.middle then ('╰', '─')
    else ('─', '─')

variable (excerpt : Excerpt) (source : List Char) (path : String)

/-- The frame around the line that the span is in. -/
def frame : List String :=
  let location := Source.locate source excerpt.span.start
  let columns : Span := ⟨location.column, location.column + excerpt.span.length⟩
  let number := toString location.line
  let margin := String.ofList (List.replicate (number.length + 2) ' ')
  let text := Text.trimEnd location.text
  let body :=
    if excerpt.span.start = source.length then
      [margin ++ "│ "]
    else
      [" " ++ number ++ " │ " ++ String.ofList (lineText excerpt.style text),
        margin ++ "│ " ++ String.ofList (pointer excerpt.style text columns),
        margin ++ "│ " ++ String.ofList (leader excerpt.style text columns) ++ " " ++
          excerpt.message]
  [margin ++ "╭─[ " ++ path ++ ":" ++ number ++ ":" ++ toString (location.column + 1) ++ " ]",
    margin ++ "│"] ++ body ++ [String.ofList (List.replicate (number.length + 2) '─') ++ "╯"]

def lines : List String :=
  (excerpt.kind ++ ": " ++ excerpt.message) ::
    (if source.length < excerpt.span.start then [] else excerpt.frame source path)

end Excerpt

end ShaderIR
