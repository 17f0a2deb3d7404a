import ShaderIR.Json.Scan
import ShaderIR.Settings.Basic

/-!
Settings written as JSON. A document is an object whose members may come in any order, or an array
of the same values by position; whatever is left out keeps its default.

A text is read from left to right and the first problem ends the reading, be it in the form of the
text or in what it says, so a wrong value is found before the end of a text that breaks off later.
A value that has been read already can only be wrong in what it says.
-/

namespace ShaderIR

namespace Settings

inductive Field where
  | optimize
  | enforceRestrictions
  | kind
deriving DecidableEq, Repr

def Field.name : Field → String
  | .optimize => "optimize"
  | .enforceRestrictions => "enforce_es2_restrictions"
  | .kind => "kind"

def Field.ofName? (name : String) : Option Field :=
  [Field.optimize, .enforceRestrictions, .kind].find? (·.name == name)

/-- What a document should have held somewhere. -/
inductive Expected where
  | settings
  | boolean
  | kind
  | nothing
deriving DecidableEq, Repr

def Expected.text : Expected → String
  | .settings => "struct Settings"
  | .boolean => "a boolean"
  | .kind => "string or map"
  | .nothing => "unit"

/-- How well-formed JSON can fail to be settings. -/
inductive Mismatch where
  | wrongType (found : Json.Shape) (expected : Expected)
  | unknownKind (name : String)
  | repeatedField (field : Field)
  | tooManyValues (count : Nat)
  | severalKinds
deriving DecidableEq, Repr

def Mismatch.message : Mismatch → String
  | .wrongType found expected => "invalid type: " ++ found.text ++ ", expected " ++ expected.text
  | .unknownKind name =>
      "unknown variant `" ++ name ++ "`, expected one of " ++
        ", ".intercalate ([ProgramKind.fragment, .vertex, .runtimeEffect].map fun kind =>
          "`" ++ kind.name ++ "`")
  | .repeatedField field => "duplicate field `" ++ field.name ++ "`"
  | .tooManyValues count =>
      "invalid length " ++ toString count ++ ", expected fewer elements in array"
  | .severalKinds => "invalid value: map, expected map with a single key"

/-- Why a text could not be loaded. -/
inductive LoadError where
  | flaw (flaw : Json.Flaw)
  | mismatch (mismatch : Mismatch)
deriving DecidableEq, Repr

/-- The fields that have been given so far. -/
structure Draft where
  optimize : Option Bool := none
  enforceRestrictions : Option Bool := none
  kind : Option ProgramKind := none
deriving DecidableEq, Repr

namespace Draft

def has (draft : Draft) : Field → Bool
  | .optimize => draft.optimize.isSome
  | .enforceRestrictions => draft.enforceRestrictions.isSome
  | .kind => draft.kind.isSome

/-- Fills in the defaults. -/
def finish (draft : Draft) : Settings :=
  let defaults : Settings := {}
  { optimize := draft.optimize.getD defaults.optimize
    enforceRestrictions := draft.enforceRestrictions.getD defaults.enforceRestrictions
    kind := draft.kind.getD defaults.kind }

end Draft

def kindOfName (name : String) : Except Mismatch ProgramKind :=
  match [ProgramKind.fragment, .vertex, .runtimeEffect].find? (·.name == name) with
  | some kind => .ok kind
  | none => .error (.unknownKind name)

/-! ## From a text -/

instance : MonadLift (Except Json.Flaw) (Except LoadError) where
  monadLift
    | .ok value => .ok value
    | .error flaw => .error (.flaw flaw)

instance : MonadLift (Except Mismatch) (Except LoadError) where
  monadLift
    | .ok value => .ok value
    | .error mismatch => .error (.mismatch mismatch)

/-- Fails because a text starts with a value of another type than expected. -/
def wrongType {α : Type} (expected : Expected) (text : List Char) : Except LoadError α := do
  let found ← Json.readShape text
  throw (.mismatch (.wrongType found expected))

def readBool (text : List Char) : Except LoadError (Bool × List Char) := do
  match Json.skipSpace text with
  | 't' :: text => return (true, ← Json.expect "rue".toList text)
  | 'f' :: text => return (false, ← Json.expect "alse".toList text)
  | text => wrongType .boolean text

def readNothing (text : List Char) : Except LoadError (List Char) := do
  match Json.skipSpace text with
  | 'n' :: text => Json.expect "ull".toList text
  | text => wrongType .nothing text

/-- The name of a program kind, from behind its opening quote. -/
def readKindName (text : List Char) : Except LoadError (ProgramKind × List Char) := do
  let (name, rest) ← Json.readString text
  let kind ← kindOfName name
  return (kind, rest)

/-- A program kind is its name, or an object with that name as its only key and nothing as the
value. A key that is not a string breaks the form of the text, whatever stands in its place. -/
def readKind (text : List Char) : Except LoadError (ProgramKind × List Char) := do
  match Json.skipSpace text with
  | '"' :: text => readKindName text
  | '\x7b' :: text =>
      let text ← Json.expectMark '"' text
      let (kind, rest) ← readKindName text
      let rest ← Json.expectMark ':' rest
      let rest ← readNothing rest
      let rest ← Json.expectMark '\x7d' rest
      return (kind, rest)
  | text => throw (.flaw (Json.flawAt text))

def readField (draft : Draft) (field : Field) (text : List Char) :
    Except LoadError (Draft × List Char) := do
  match field with
  | .optimize =>
      let (value, rest) ← readBool text
      return ({ draft with optimize := some value }, rest)
  | .enforceRestrictions =>
      let (value, rest) ← readBool text
      return ({ draft with enforceRestrictions := some value }, rest)
  | .kind =>
      let (value, rest) ← readKind text
      return ({ draft with kind := some value }, rest)

/-- A member of an object, from behind the opening quote of its key. A repeated field is refused as
soon as its key has been read. -/
def readMember (draft : Draft) (text : List Char) : Except LoadError (Draft × List Char) := do
  let (key, rest) ← Json.readString text
  match Field.ofName? key with
  | some field =>
      if draft.has field then
        throw (.mismatch (.repeatedField field))
      else
        let rest ← Json.expectMark ':' rest
        readField draft field rest
  | none =>
      let rest ← Json.expectMark ':' rest
      let rest ← Json.skipValue rest
      return (draft, rest)

/-- The members of an object from behind the opening quote of the first key, up to the closing
brace. The first argument bounds their number. -/
def readMembersWithin : Nat → Draft → List Char → Except LoadError (Draft × List Char)
  | 0, _, _ => .error (.flaw .truncated)
  | count + 1, draft, text => do
      let (draft, rest) ← readMember draft text
      match Json.skipSpace rest with
      | '\x7d' :: rest => return (draft, rest)
      | ',' :: rest =>
          let rest ← Json.expectMark '"' rest
          readMembersWithin count draft rest
      | rest => throw (.flaw (Json.flawAt rest))

/-- An object from behind its opening brace. -/
def readObject (text : List Char) : Except LoadError (Draft × List Char) := do
  match Json.skipSpace text with
  | '\x7d' :: rest => return ({}, rest)
  | '"' :: rest => readMembersWithin (rest.length + 1) {} rest
  | rest => throw (.flaw (Json.flawAt rest))

/-- The values of an array that are left to read, in the order they stand for. Each but the first
comes behind a comma; a bracket ends the array early. -/
def readValues (isFirst : Bool) (draft : Draft) : List Field → List Char →
    Except LoadError (Draft × List Char)
  | [], text => do
      let rest ← Json.expectMark ']' text
      return (draft, rest)
  | field :: fields, text => do
      match Json.skipSpace text with
      | [] => throw (.flaw .truncated)
      | ']' :: rest => return (draft, rest)
      | char :: rest =>
          if isFirst then
            let (draft, rest) ← readField draft field (char :: rest)
            readValues false draft fields rest
          else
            let rest ← Json.expect [','] (char :: rest)
            if (Json.skipSpace rest).head? = some ']' then
              throw (.flaw .malformed)
            else
              let (draft, rest) ← readField draft field rest
              readValues false draft fields rest

/-- Loads settings from the text of a document. -/
def ofText (text : String) : Except LoadError Settings := do
  let (draft, rest) ←
    match Json.skipSpace text.toList with
    | '\x7b' :: rest => readObject rest
    | '[' :: rest => readValues true {} [.optimize, .enforceRestrictions, .kind] rest
    | rest => wrongType .settings rest
  match Json.skipSpace rest with
  | [] => return draft.finish
  | _ :: _ => throw (.flaw .malformed)

/-! ## From a value -/

def boolOf : Json → Except Mismatch Bool
  | .bool value => .ok value
  | other => .error (.wrongType other.shape .boolean)

def kindOf : Json → Except Mismatch ProgramKind
  | .string name => kindOfName name
  | .object [(name, value)] => do
      let kind ← kindOfName name
      match value with
      | .null => return kind
      | other => throw (.wrongType other.shape .nothing)
  | .object _ => .error .severalKinds
  | other => .error (.wrongType other.shape .kind)

def setField (draft : Draft) (field : Field) (value : Json) : Except Mismatch Draft := do
  match field with
  | .optimize => return { draft with optimize := some (← boolOf value) }
  | .enforceRestrictions => return { draft with enforceRestrictions := some (← boolOf value) }
  | .kind => return { draft with kind := some (← kindOf value) }

/-- Takes the members of an object in the order given. -/
def setMembers (draft : Draft) : List (String × Json) → Except Mismatch Draft
  | [] => .ok draft
  | (key, value) :: members => do
      match Field.ofName? key with
      | some field => setMembers (← setField draft field value) members
      | none => setMembers draft members

/-- Takes the items of an array by position, as far as both go. -/
def setValues (draft : Draft) : List Field → List Json → Except Mismatch Draft
  | field :: fields, value :: values => do
      setValues (← setField draft field value) fields values
  | _, _ => .ok draft

/-- Loads settings from a value. -/
def ofJson : Json → Except Mismatch Settings
  | .object members => do
      let draft ← setMembers {} members
      return draft.finish
  | .array items => do
      let fields := [Field.optimize, .enforceRestrictions, .kind]
      let draft ← setValues {} fields items
      if fields.length < items.length then throw (.tooManyValues items.length)
      else return draft.finish
  | other => .error (.wrongType other.shape .settings)

end Settings

end ShaderIR
