import ShaderIR.Json.Scan

/-!
JSON values from their text. An object keeps its members in the order of their keys; of members
with one key the last counts.
-/

namespace ShaderIR

namespace Json

mutual

/-- Reads a value and the space before it. The first argument bounds the number of steps. -/
def readValueWithin : Nat → List Char → Except Flaw (Json × List Char)
  | 0, _ => .error .truncated
  | steps + 1, text =>
      match skipSpace text with
      | '[' :: text =>
          match skipSpace text with
          | ']' :: rest => .ok (.array [], rest)
          | text => do
              let (items, rest) ← readItemsWithin steps text
              return (.array items, rest)
      | '\x7b' :: text =>
          match skipSpace text with
          | '\x7d' :: rest => .ok (.object [], rest)
          | text => do
              let (members, rest) ← readMembersWithin steps [] text
              return (.object members, rest)
      | text => readScalar text

/-- Reads the items of an array, of which there is at least one, and its closing bracket. -/
def readItemsWithin : Nat → List Char → Except Flaw (List Json × List Char)
  | 0, _ => .error .truncated
  | steps + 1, text => do
      let (item, text) ← readValueWithin steps text
      match skipSpace text with
      | ',' :: text =>
          let (items, rest) ← readItemsWithin steps text
          return (item :: items, rest)
      | ']' :: rest => return ([item], rest)
      | text => throw (flawAt text)

/-- Reads the members of an object, of which there is at least one, and its closing brace. They
join those that have been read before. -/
def readMembersWithin : Nat → List (String × Json) → List Char →
    Except Flaw (List (String × Json) × List Char)
  | 0, _, _ => .error .truncated
  | steps + 1, before, text => do
      let text ← expectMark '"' text
      let (key, text) ← readString text
      let text ← expectMark ':' text
      let (value, text) ← readValueWithin steps text
      let members := insertMember key value before
      match skipSpace text with
      | ',' :: text => readMembersWithin steps members text
      | '\x7d' :: rest => return (members, rest)
      | text => throw (flawAt text)

end

/-- Reads a value and the space before it. Every step takes at least one character. -/
def readValue (text : List Char) : Except Flaw (Json × List Char) :=
  readValueWithin (2 * text.length + 1) text

/-- The value that a whole text stands for. -/
def ofText (text : String) : Except Flaw Json := do
  let (value, rest) ← readValue text.toList
  match skipSpace rest with
  | [] => return value
  | _ :: _ => throw .malformed

end Json

end ShaderIR
