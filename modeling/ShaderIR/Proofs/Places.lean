import Mathlib.Data.List.Basic
import ShaderIR.Report

/-!
Where a report says that a diagnostic is. A place is a line and a column, found by counting
characters from the start of the source. A report takes the offset of a diagnostic for the number of
a character, so it names the place of that character. An offset that counts bytes is the number of
the character it belongs to only if all characters before it take one byte.
-/

namespace ShaderIR

namespace Source

/-- A line and a column, both counted from one. -/
structure Place where
  line : Nat
  column : Nat
deriving DecidableEq, Repr

/-- Whether the character at an index is the last one of its line. A carriage return leaves that to
a line feed right after it. -/
def endsLine (source : List Char) (index : Nat) : Bool :=
  match source[index]? with
  | some char => isLineEnd char && !(char == '\r' && source[index + 1]? == some '\n')
  | none => false

namespace Place

/-- The place after this one, given whether the character here ends its line. -/
def next (place : Place) (ended : Bool) : Place :=
  if ended then ⟨place.line + 1, 1⟩ else ⟨place.line, place.column + 1⟩

/-- Where a place moves to when one more character is put before the text. -/
def pushedBy (place : Place) (ended : Bool) : Place :=
  if ended then ⟨place.line + 1, place.column⟩
  else if place.line = 1 then ⟨place.line, place.column + 1⟩
  else place

/-- The place is earlier in the text. -/
def Before (first second : Place) : Prop :=
  first.line < second.line ∨ first.line = second.line ∧ first.column < second.column

variable {first second third place : Place}

theorem Before.trans (earlier : first.Before second) (later : second.Before third) :
    first.Before third := by
  unfold Before at *
  omega

theorem Before.ne (earlier : first.Before second) : first ≠ second := by
  rintro rfl
  unfold Before at earlier
  omega

theorem before_next (place : Place) (ended : Bool) : place.Before (place.next ended) := by
  cases ended
  · exact .inr ⟨rfl, Nat.lt_succ_self _⟩
  · exact .inl (Nat.lt_succ_self _)

theorem next_pushedBy (positive : 0 < place.line) (first ended : Bool) :
    (place.pushedBy first).next ended = (place.next ended).pushedBy first := by
  cases first with
  | true => cases ended <;> rfl
  | false =>
      have later : place.line ≠ 0 := by omega
      by_cases top : place.line = 1 <;> cases ended <;> simp [pushedBy, next, top, later]

/-- Only the places of the first line move when the character put before it does not end a line. -/
theorem pushedBy_false (lower : place.line ≠ 1) : place.pushedBy false = place := by
  simp [pushedBy, lower]

end Place

/-- The place of the character at an index, counted from the start of the text. -/
def placeOf (source : List Char) : Nat → Place
  | 0 => ⟨1, 1⟩
  | index + 1 => (placeOf source index).next (endsLine source index)

theorem line_placeOf_pos (source : List Char) (index : Nat) : 0 < (placeOf source index).line := by
  induction index with
  | zero => exact Nat.one_pos
  | succ index ih =>
      rw [placeOf, Place.next]
      split
      · exact Nat.succ_pos _
      · exact ih

theorem placeOf_before (source : List Char) {first second : Nat} (earlier : first < second) :
    (placeOf source first).Before (placeOf source second) := by
  induction second with
  | zero => cases earlier
  | succ second ih =>
      have step : (placeOf source second).Before (placeOf source (second + 1)) :=
        Place.before_next _ _
      rcases Nat.lt_succ_iff_lt_or_eq.mp earlier with less | rfl
      · exact (ih less).trans step
      · exact step

theorem endsLine_cons_succ (char : Char) (rest : List Char) (index : Nat) :
    endsLine (char :: rest) (index + 1) = endsLine rest index := by
  simp only [endsLine, List.getElem?_cons_succ]

theorem placeOf_cons (char : Char) (rest : List Char) (index : Nat) :
    placeOf (char :: rest) (index + 1) =
      (placeOf rest index).pushedBy (endsLine (char :: rest) 0) := by
  induction index with
  | zero =>
      rw [placeOf, placeOf, placeOf]
      cases endsLine (char :: rest) 0 <;> rfl
  | succ index ih =>
      have positive := line_placeOf_pos rest index
      rw [placeOf, ih, endsLine_cons_succ, Place.next_pushedBy positive, placeOf]

/-! ## Lines and places -/

def Location.place (location : Location) : Place :=
  ⟨location.line, location.column + 1⟩

theorem locateFrom_of_lt {offset : Nat} {text : List Char} (inside : offset < text.length)
    (line : Nat) (texts : List (List Char)) :
    locateFrom line offset (text :: texts) = ⟨line, offset, text⟩ := by
  cases texts with
  | nil => rfl
  | cons following texts => rw [locateFrom, if_pos inside]

theorem locateFrom_of_le {offset : Nat} {text : List Char} (past : text.length ≤ offset)
    (line : Nat) {texts : List (List Char)} (more : texts ≠ []) :
    locateFrom line offset (text :: texts) =
      locateFrom (line + 1) (offset - text.length) texts := by
  cases texts with
  | nil => contradiction
  | cons following texts => rw [locateFrom, if_neg (by omega)]

theorem place_locateFrom_succ (line offset : Nat) (texts : List (List Char)) :
    (locateFrom (line + 1) offset texts).place =
      (locateFrom line offset texts).place.pushedBy true := by
  fun_induction locateFrom line offset texts with
  | case1 | case2 => rfl
  | case3 line offset text following texts inside => rw [locateFrom, if_pos inside]; rfl
  | case4 line offset text following texts past ih => rw [locateFrom, if_neg past, ih]

theorem le_line_locateFrom (line offset : Nat) (texts : List (List Char)) :
    line ≤ (locateFrom line offset texts).line := by
  fun_induction locateFrom line offset texts with
  | case1 | case2 | case3 => exact Nat.le_refl _
  | case4 line offset text following texts past ih => omega

theorem lines_ne_nil {source : List Char} {index : Nat} (inside : index < source.length) :
    lines source ≠ [] := by
  intro empty
  have joined := flatten_lines source
  rw [empty] at joined
  rw [← joined] at inside
  cases inside

theorem ne_nil_of_mem_lines (source : List Char) : ∀ line ∈ lines source, line ≠ [] := by
  fun_induction lines source with
  | case1 => simp
  | case2 rest ih => exact List.forall_mem_cons.mpr ⟨by simp, ih⟩
  | case3 char rest _ ended ih => exact List.forall_mem_cons.mpr ⟨by simp, ih⟩
  | case4 char rest _ inside ih =>
      cases found : lines rest with
      | nil => simp [prepend]
      | cons first others =>
          rw [found] at ih
          exact List.forall_mem_cons.mpr ⟨by simp, (List.forall_mem_cons.mp ih).2⟩

theorem endsLine_zero_of_ended {char : Char} {rest : List Char} (ended : isLineEnd char = true)
    (single : ∀ others, char = '\r' → rest = '\n' :: others → False) :
    endsLine (char :: rest) 0 = true := by
  have notPaired : (char == '\r' && rest[0]? == some '\n') = false := by
    rw [Bool.and_eq_false_iff]
    by_cases returns : char = '\r'
    · right
      cases rest with
      | nil => rfl
      | cons first others =>
          have other : first ≠ '\n' := fun feed => single others returns (by rw [feed])
          simpa using other
    · left
      simpa using returns
  simp only [endsLine, List.getElem?_cons_zero, List.getElem?_cons_succ, Nat.zero_add, ended,
    notPaired]
  rfl

theorem endsLine_zero_of_inside {char : Char} (inside : ¬isLineEnd char = true) (rest : List Char) :
    endsLine (char :: rest) 0 = false := by
  simp only [endsLine, List.getElem?_cons_zero, Bool.eq_false_iff.mpr inside, Bool.false_and]

theorem place_locateFrom_rest {rest : List Char} {index : Nat} (below : index < rest.length)
    (text : List Char) :
    (locateFrom 1 (index + text.length) (text :: lines rest)).place =
      (locateFrom 1 index (lines rest)).place.pushedBy true := by
  rw [locateFrom_of_le (by omega) 1 (lines_ne_nil below), Nat.add_sub_cancel,
    place_locateFrom_succ]

theorem place_locateFrom_prepend {rest : List Char} {index : Nat} (below : index < rest.length)
    (char : Char) :
    (locateFrom 1 (index + 1) (prepend char (lines rest))).place =
      (locateFrom 1 index (lines rest)).place.pushedBy false := by
  have joined := flatten_lines rest
  cases found : lines rest with
  | nil => exact absurd found (lines_ne_nil below)
  | cons text texts =>
      rw [prepend]
      by_cases first : index < text.length
      · rw [locateFrom_of_lt (by simpa using first), locateFrom_of_lt first]
        rfl
      · have more : texts ≠ [] := by
          rintro rfl
          rw [← joined, found, List.flatten_singleton] at below
          exact first below
        have shift : index + 1 - (char :: text).length = index - text.length := by
          rw [List.length_cons]
          omega
        have lower := le_line_locateFrom 2 (index - text.length) texts
        rw [locateFrom_of_le (by simpa using first) 1 more, locateFrom_of_le (by omega) 1 more,
          shift]
        refine (Place.pushedBy_false ?_).symm
        exact Nat.ne_of_gt lower

/-- The character with a given number stands where the search over lines finds it. -/
theorem place_locate {source : List Char} {index : Nat} (inside : index < source.length) :
    (locate source index).place = placeOf source index := by
  unfold locate
  fun_induction lines source generalizing index with
  | case1 => cases inside
  | case2 rest ih =>
      rcases index with _ | _ | index
      · rw [locateFrom_of_lt (by simp)]
        rfl
      · rw [locateFrom_of_lt (by simp)]
        rfl
      · have below : index < rest.length := by simpa using inside
        have lower : ((placeOf rest index).pushedBy true).line ≠ 1 :=
          Nat.ne_of_gt (Nat.succ_lt_succ (line_placeOf_pos rest index))
        calc
          _ = (locateFrom 1 index (lines rest)).place.pushedBy true :=
            place_locateFrom_rest below ['\r', '\n']
          _ = ((placeOf rest index).pushedBy true).pushedBy false := by
            rw [ih below, Place.pushedBy_false lower]
          _ = placeOf ('\r' :: '\n' :: rest) (index + 2) := by
            rw [placeOf_cons, placeOf_cons]
            rfl
  | case3 char rest single ended ih =>
      cases index with
      | zero => rw [locateFrom_of_lt (by simp)]; rfl
      | succ index =>
          have below : index < rest.length := by simpa using inside
          calc
            _ = (locateFrom 1 index (lines rest)).place.pushedBy true :=
              place_locateFrom_rest below [char]
            _ = placeOf (char :: rest) (index + 1) := by
              rw [ih below, placeOf_cons, endsLine_zero_of_ended ended single]
  | case4 char rest single inLine ih =>
      cases index with
      | zero =>
          cases lines rest <;> rw [prepend, locateFrom_of_lt (by simp)] <;> rfl
      | succ index =>
          have below : index < rest.length := by simpa using inside
          rw [place_locateFrom_prepend below, ih below, placeOf_cons,
            endsLine_zero_of_inside inLine]

/-- Past the last character the line goes on. -/
theorem place_locateFrom_length {texts : List (List Char)} (more : texts ≠ [])
    (nonempty : ∀ text ∈ texts, text ≠ []) (line : Nat) :
    (locateFrom line texts.flatten.length texts).place =
      (locateFrom line (texts.flatten.length - 1) texts).place.next false := by
  induction texts generalizing line with
  | nil => contradiction
  | cons text texts ih =>
      obtain ⟨first, rest⟩ := List.forall_mem_cons.mp nonempty
      have filled : 0 < text.length := List.length_pos_iff.mpr first
      rw [List.flatten_cons, List.length_append]
      cases texts with
      | nil =>
          simp only [locateFrom, Location.place, Place.next, List.flatten_nil, List.length_nil,
            Bool.false_eq_true, if_false, Place.mk.injEq, true_and]
          omega
      | cons following texts =>
          have further : 0 < (following :: texts).flatten.length := by
            have filled := List.length_pos_iff.mpr (List.forall_mem_cons.mp rest).1
            rw [List.flatten_cons, List.length_append]
            omega
          have shift : text.length + (following :: texts).flatten.length - 1 - text.length =
              (following :: texts).flatten.length - 1 := by omega
          rw [locateFrom_of_le (by omega) line (by simp),
            locateFrom_of_le (by omega) line (by simp), Nat.add_sub_cancel_left, shift,
            ih (by simp) rest]

theorem place_locate_length {source : List Char} (filled : 0 < source.length) :
    (locate source source.length).place = (placeOf source (source.length - 1)).next false := by
  have atEnd := place_locateFrom_length (lines_ne_nil filled) (ne_nil_of_mem_lines source) 1
  rw [flatten_lines] at atEnd
  rw [← place_locate (Nat.sub_one_lt_of_lt filled)]
  exact atEnd

/-- No two offsets up to the end of the source are found in the same place. -/
theorem placeOf_ne_place_locate {source : List Char} {index offset : Nat} (later : index < offset)
    (within : offset ≤ source.length) : placeOf source index ≠ (locate source offset).place := by
  rcases Nat.lt_or_eq_of_le within with inside | rfl
  · rw [place_locate inside]
    exact (placeOf_before source later).ne
  · rw [place_locate_length (Nat.zero_lt_of_lt later)]
    have step := Place.before_next (placeOf source (source.length - 1)) false
    rcases Nat.lt_or_eq_of_le (Nat.le_sub_one_of_lt later) with earlier | last
    · exact ((placeOf_before source earlier).trans step).ne
    · rw [last]
      exact step.ne

/-! ## Offsets in bytes -/

/-- The number of bytes in front of the character at an index, in UTF-8. -/
def byteOffset (source : List Char) (index : Nat) : Offset :=
  (String.ofList (source.take index)).utf8ByteSize

theorem utf8ByteSize_cons (char : Char) (rest : List Char) :
    (String.ofList (char :: rest)).utf8ByteSize =
      char.utf8Size + (String.ofList rest).utf8ByteSize := by
  rw [← List.singleton_append, String.ofList_append, String.utf8ByteSize_append,
    ← String.singleton_eq_ofList, String.utf8ByteSize_singleton]

theorem length_le_utf8ByteSize (text : List Char) :
    text.length ≤ (String.ofList text).utf8ByteSize := by
  induction text with
  | nil => exact Nat.zero_le _
  | cons char rest ih =>
      have positive := char.utf8Size_pos
      rw [utf8ByteSize_cons, List.length_cons]
      omega

theorem utf8ByteSize_eq_length_iff (text : List Char) :
    (String.ofList text).utf8ByteSize = text.length ↔ ∀ char ∈ text, char.val ≤ 127 := by
  induction text with
  | nil => simp
  | cons char rest ih =>
      have positive := char.utf8Size_pos
      have enough := length_le_utf8ByteSize rest
      rw [utf8ByteSize_cons, List.length_cons, List.forall_mem_cons, ← ih,
        ← Char.utf8Size_eq_one_iff]
      omega

end Source

namespace Report

/-- The line of a report that names the place it is about. -/
def heading (path : String) (place : Source.Place) : String :=
  String.ofList (List.replicate ((toString place.line).length + 2) ' ') ++ "╭─[ " ++ path ++ ":" ++
    toString place.line ++ ":" ++ toString place.column ++ " ]"

theorem toList_heading (path : String) (place : Source.Place) :
    (heading path place).toList =
      List.replicate ((toString place.line).length + 2) ' ' ++ '╭' :: '─' :: '[' :: ' ' ::
        (path.toList ++ (":".toList ++ ((toString place.line).toList ++
          (":".toList ++ ((toString place.column).toList ++ " ]".toList))))) := by
  have corner : "╭─[ ".toList = ['╭', '─', '[', ' '] := rfl
  delta heading
  simp only [String.toList_append, String.toList_ofList, List.append_assoc, corner,
    List.cons_append, List.nil_append]

theorem replicate_append_inj {first second : Nat} {char mark : Char} {left right : List Char}
    (differs : mark ≠ char)
    (same : List.replicate first char ++ mark :: left =
      List.replicate second char ++ mark :: right) : first = second ∧ left = right := by
  induction first generalizing second with
  | zero =>
      cases second with
      | zero => exact ⟨rfl, (List.cons.inj same).2⟩
      | succ second => exact absurd (List.cons.inj same).1 differs
  | succ first ih =>
      cases second with
      | zero => exact absurd (List.cons.inj same).1.symm differs
      | succ second =>
          obtain ⟨width, rest⟩ := ih (List.cons.inj same).2
          exact ⟨congrArg Nat.succ width, rest⟩

theorem eq_of_digits {first second : Nat}
    (same : (toString first).toList = (toString second).toList) : first = second := by
  have read (number : Nat) : Nat.ofDigitChars 10 (toString number).toList 0 = number := by
    rw [Nat.toString_eq_repr, Nat.toList_repr, Nat.ofDigitChars_ten_toDigits]
  rw [← read first, same, read]

/-- The margin tells how many digits the number of the line has, and so where it ends. -/
theorem heading_injective {path : String} {first second : Source.Place}
    (same : heading path first = heading path second) : first = second := by
  have texts := congrArg String.toList same
  rw [toList_heading, toList_heading] at texts
  obtain ⟨width, rest⟩ := replicate_append_inj (by decide) texts
  have lengths : (toString first.line).toList.length = (toString second.line).toList.length := by
    rw [String.length_toList, String.length_toList]
    exact Nat.add_right_cancel width
  simp only [List.cons.injEq, true_and, List.append_cancel_left_eq] at rest
  obtain ⟨lineText, columns⟩ := List.append_inj rest lengths
  have columnText := List.append_cancel_right (List.append_cancel_left columns)
  calc
    first = ⟨first.line, first.column⟩ := rfl
    _ = ⟨second.line, second.column⟩ := by rw [eq_of_digits lineText, eq_of_digits columnText]
    _ = second := rfl

variable {source : List Char} {diagnostic : Diagnostic} (path : String)

theorem heading_of_le (within : diagnostic.offset ≤ source.length) :
    (lines source path diagnostic)[1]? =
      some (heading path (Source.locate source diagnostic.offset).place) := by
  have shown : ¬source.length < (excerpt diagnostic).span.start := Nat.not_lt.mpr within
  rw [lines, Excerpt.lines, if_neg shown]
  rfl

theorem lines_of_lt (beyond : source.length < diagnostic.offset) :
    lines source path diagnostic = ["Error: " ++ diagnostic.message] := by
  have hidden : source.length < (excerpt diagnostic).span.start := beyond
  have title : "Error" ++ ": " = "Error: " := by decide
  rw [lines, Excerpt.lines, if_pos hidden, excerpt, title]

/-- Each diagnostic of a list is shown on its own. -/
theorem render_append (source path : String) (earlier later : List Diagnostic)
    (diagnostic : Diagnostic) :
    render source path (earlier ++ diagnostic :: later) =
      render source path earlier ++
        (String.join ((lines source.toList path diagnostic).map (· ++ "\n")) ++
          render source path later) := by
  simp only [render, List.flatMap_append, List.flatMap_cons, List.map_append, String.join_append]

/-- A report takes an offset for the number of a character. So a diagnostic whose offset is the
number of bytes in front of a character is shown at the place of that character exactly if every
character in front of it takes one byte. In general it is shown where the character stands whose
number is the offset, right after the last character if that has the number before, and at no place
at all if the source has fewer characters still. -/
theorem place_of_byte_offset (source path message : String) (earlier later : List Diagnostic)
    (index : Nat) (inside : index < source.toList.length) :
    let text := source.toList
    let diagnostic : Diagnostic := ⟨Source.byteOffset text index, message⟩
    let shown := lines text path diagnostic
    render source path (earlier ++ diagnostic :: later) =
        render source path earlier ++
          (String.join (shown.map (· ++ "\n")) ++ render source path later) ∧
      (shown[1]? = some (heading path (Source.placeOf text index)) ↔
        ∀ char ∈ text.take index, char.val ≤ 127) ∧
      (diagnostic.offset < text.length →
        shown[1]? = some (heading path (Source.placeOf text diagnostic.offset))) ∧
      (diagnostic.offset = text.length →
        shown[1]? = some (heading path ((Source.placeOf text (text.length - 1)).next false))) ∧
      (text.length < diagnostic.offset → shown = ["Error: " ++ message]) := by
  intro text diagnostic shown
  have count : (text.take index).length = index := List.length_take_of_le (Nat.le_of_lt inside)
  have enough : index ≤ diagnostic.offset := by
    rw [← count]
    exact Source.length_le_utf8ByteSize _
  have exactly : diagnostic.offset = index ↔ ∀ char ∈ text.take index, char.val ≤ 127 := by
    rw [← Source.utf8ByteSize_eq_length_iff, count]
    rfl
  refine ⟨render_append source path earlier later diagnostic, ?_, ?_, ?_, ?_⟩
  · rw [← exactly]
    constructor
    · intro pointed
      by_contra differs
      have later : index < diagnostic.offset := Nat.lt_of_le_of_ne enough (Ne.symm differs)
      by_cases within : diagnostic.offset ≤ text.length
      · rw [heading_of_le path within, Option.some.injEq] at pointed
        exact Source.placeOf_ne_place_locate later within (heading_injective pointed).symm
      · have alone : shown = ["Error: " ++ message] := lines_of_lt path (Nat.lt_of_not_le within)
        rw [alone] at pointed
        cases pointed
    · intro same
      have within : diagnostic.offset ≤ text.length := by
        rw [same]
        exact Nat.le_of_lt inside
      rw [heading_of_le path within, same, Source.place_locate inside]
  · intro before
    rw [heading_of_le path (Nat.le_of_lt before), Source.place_locate before]
  · intro atEnd
    rw [heading_of_le path (Nat.le_of_eq atEnd), atEnd,
      Source.place_locate_length (Nat.zero_lt_of_lt inside)]
  · intro beyond
    exact lines_of_lt path beyond

/-- The first character of the second line, after a carriage return with a line feed. -/
theorem place_of_byte_offset_second_line :
    let source := "a\r\nb = é;"
    let diagnostic : Diagnostic := ⟨Source.byteOffset source.toList 3, "m"⟩
    3 < source.toList.length ∧ (∀ char ∈ source.toList.take 3, char.val ≤ 127) ∧
      Source.placeOf source.toList 3 = ⟨2, 1⟩ ∧
      (lines source.toList "p" diagnostic)[1]? = some (heading "p" ⟨2, 1⟩) := by
  intro source diagnostic
  have inside : 3 < source.toList.length := by decide
  have characters : source.toList.take 3 = ['a', '\r', '\n'] := by decide
  have narrow : ∀ char ∈ source.toList.take 3, char.val ≤ 127 := by
    rw [characters]
    simp
  have place : Source.placeOf source.toList 3 = ⟨2, 1⟩ := by decide
  have pointed := (place_of_byte_offset source "p" "m" [] [] 3 inside).2.1.mpr narrow
  rw [place] at pointed
  exact ⟨inside, narrow, place, pointed⟩

/-- A character after one that takes two bytes is shown one column further to the right. -/
theorem place_after_wide_character :
    let source := "é+x"
    let diagnostic : Diagnostic := ⟨Source.byteOffset source.toList 1, "m"⟩
    Source.placeOf source.toList 1 = ⟨1, 2⟩ ∧
      (lines source.toList "p" diagnostic)[1]? = some (heading "p" ⟨1, 3⟩) ∧
      heading "p" ⟨1, 3⟩ ≠ heading "p" ⟨1, 2⟩ := by
  intro source diagnostic
  have within : diagnostic.offset ≤ source.toList.length := by decide
  have found : (Source.locate source.toList diagnostic.offset).place = ⟨1, 3⟩ := by decide
  have pointed := heading_of_le "p" within
  rw [found] at pointed
  have differs : Source.Place.mk 1 3 ≠ ⟨1, 2⟩ := by decide
  exact ⟨by decide, pointed, fun same => differs (heading_injective same)⟩

end Report

end ShaderIR
