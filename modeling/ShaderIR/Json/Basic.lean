import ShaderIR.Binary64.Text
import ShaderIR.Text.Quoted

/-!
JSON values, and the short description of a value that error messages give.
-/

namespace ShaderIR

inductive JsonNumber where
  | integer (value : Int)
  | float (value : Binary64)
deriving DecidableEq, Repr

inductive Json where
  | null
  | bool (value : Bool)
  | number (value : JsonNumber)
  | string (value : String)
  | array (items : List Json)
  | object (members : List (String × Json))
deriving Inhabited, Repr

namespace Json

/-- Puts a member among others that are in the order of their keys. A key that is there already
takes the new value. -/
def insertMember (key : String) (value : Json) : List (String × Json) → List (String × Json)
  | [] => [(key, value)]
  | (other, present) :: members =>
      if key < other then (key, value) :: (other, present) :: members
      else if key = other then (key, value) :: members
      else (other, present) :: insertMember key value members

/-- The value of an object under a key. -/
def member? (key : String) : Json → Option Json
  | .object members => members.lookup key
  | _ => none

/-- What a value is, without the contents of arrays and objects. -/
inductive Shape where
  | null
  | bool (value : Bool)
  | number (value : JsonNumber)
  | string (value : String)
  | array
  | object
deriving DecidableEq, Repr

def shape : Json → Shape
  | .null => .null
  | .bool value => .bool value
  | .number value => .number value
  | .string value => .string value
  | .array _ => .array
  | .object _ => .object

def Shape.text : Shape → String
  | .null => "null"
  | .bool value => "boolean `" ++ (if value then "true" else "false") ++ "`"
  | .number (.integer value) => "integer `" ++ toString value ++ "`"
  | .number (.float value) => "floating point `" ++ value.text .message ++ "`"
  | .string value => "string " ++ Text.quoted value
  | .array => "sequence"
  | .object => "map"

end Json

end ShaderIR
