/-!
The types of the shading language. They form a closed family: six scalars, the two provisional
types of numeric literals that have not been given a type yet, and vectors of two to four columns.
A type is known by its name: `Ty.ofName?` finds it again, and no two types share one.
-/

namespace ShaderIR

/-- What sort of value a scalar holds. -/
inductive NumberKind where
  | float
  | signed
  | unsigned
  | boolean
deriving DecidableEq, Repr

inductive Scalar where
  | float
  | half
  | int
  | uint
  | short
  | bool
deriving DecidableEq, Repr

namespace Scalar

def name : Scalar → String
  | .float => "float"
  | .half => "half"
  | .int => "int"
  | .uint => "uint"
  | .short => "short"
  | .bool => "bool"

def numberKind : Scalar → NumberKind
  | .float | .half => .float
  | .int | .short => .signed
  | .uint => .unsigned
  | .bool => .boolean

end Scalar

/-- The two kinds of numeric literal that start out untyped. -/
inductive LiteralKind where
  | float
  | int
deriving DecidableEq, Repr

namespace LiteralKind

/-- The scalar an untyped literal becomes when nothing else decides. -/
def scalar : LiteralKind → Scalar
  | .float => .float
  | .int => .int

def name : LiteralKind → String
  | .float => "$floatLiteral"
  | .int => "$intLiteral"

end LiteralKind

/-- The scalars that come in vectors. -/
inductive Component where
  | float
  | half
  | int
  | bool
deriving DecidableEq, Repr

def Component.scalar : Component → Scalar
  | .float => .float
  | .half => .half
  | .int => .int
  | .bool => .bool

inductive Columns where
  | two
  | three
  | four
deriving DecidableEq, Repr

namespace Columns

def count : Columns → Nat
  | .two => 2
  | .three => 3
  | .four => 4

def digit : Columns → String
  | .two => "2"
  | .three => "3"
  | .four => "4"

end Columns

inductive Ty where
  | scalar (kind : Scalar)
  | literal (kind : LiteralKind)
  | vector (component : Component) (columns : Columns)
deriving DecidableEq, Repr

namespace Ty

abbrev float : Ty := .scalar .float

abbrev int : Ty := .scalar .int

abbrev bool : Ty := .scalar .bool

/-- The name a type is found by. -/
def name : Ty → String
  | .scalar kind => kind.name
  | .literal kind => kind.name
  | .vector component columns => component.scalar.name ++ columns.digit

/-- The name shown to users: an untyped literal shows the scalar it would become. -/
def displayName : Ty → String
  | .literal kind => kind.scalar.name
  | ty => ty.name

/-- The element type of a vector; any other type is its own component. -/
def component : Ty → Ty
  | .vector component _ => .scalar component.scalar
  | ty => ty

def columns : Ty → Nat
  | .vector _ columns => columns.count
  | _ => 1

/-- Vectors have no number kind of their own, only their components have one. -/
def numberKind? : Ty → Option NumberKind
  | .scalar kind => some kind.numberKind
  | .literal kind => some kind.scalar.numberKind
  | .vector _ _ => none

def isFloat (ty : Ty) : Bool :=
  ty.numberKind? == some .float

def isInteger (ty : Ty) : Bool :=
  ty.numberKind? == some .signed || ty.numberKind? == some .unsigned

def isNumber (ty : Ty) : Bool :=
  ty.isFloat || ty.isInteger

def isBoolean (ty : Ty) : Bool :=
  ty.numberKind? == some .boolean

/-- The scalar that an untyped literal type commits to, `none` for every other type. -/
def committed? : Ty → Option Ty
  | .literal kind => some (.scalar kind.scalar)
  | _ => none

def isLiteral (ty : Ty) : Bool :=
  ty.committed?.isSome

/-- Every type of the language. -/
def all : List Ty :=
  [.scalar .float, .scalar .half, .scalar .int, .scalar .uint, .scalar .short, .scalar .bool,
    .literal .float, .literal .int,
    .vector .float .two, .vector .float .three, .vector .float .four,
    .vector .half .two, .vector .half .three, .vector .half .four,
    .vector .int .two, .vector .int .three, .vector .int .four,
    .vector .bool .two, .vector .bool .three, .vector .bool .four]

def ofName? (name : String) : Option Ty :=
  all.find? (·.name == name)

theorem mem_all (ty : Ty) : ty ∈ all := by
  rcases ty with kind | kind | ⟨component, columns⟩
  · cases kind <;> decide
  · cases kind <;> decide
  · cases component <;> cases columns <;> decide

/-- Looking a type up by its own name finds that type. -/
theorem ofName?_name (ty : Ty) : ofName? ty.name = some ty := by
  have everyType : ∀ ty ∈ all, ofName? ty.name = some ty := by decide
  exact everyType ty ty.mem_all

theorem name_injective {first second : Ty} (same : first.name = second.name) : first = second := by
  have found := ofName?_name first
  rw [same, ofName?_name] at found
  exact (Option.some.inj found).symm

end Ty

end ShaderIR
