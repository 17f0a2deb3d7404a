import ShaderIR.Ty

/-!
Declared variables. A variable is told apart by its `id`: two declarations may agree in everything
else and still be different variables.
-/

namespace ShaderIR

structure Modifiers where
  isConst : Bool
  isUniform : Bool
deriving DecidableEq, Repr

structure Variable where
  id : Nat
  name : String
  ty : Ty
  modifiers : Modifiers
deriving DecidableEq, Repr

namespace Variable

/-- Variables declared `const` or `uniform` cannot be assigned to. -/
def isImmutable (var : Variable) : Bool :=
  var.modifiers.isConst || var.modifiers.isUniform

/-- Whether two variables are the same one. -/
def same (first second : Variable) : Bool :=
  first.id == second.id

/-- Whether two variables are declared alike, be they the same or not. -/
def alike (first second : Variable) : Bool :=
  first.name == second.name && first.ty == second.ty && first.modifiers == second.modifiers

end Variable

/-- What a reference does with its variable. -/
inductive Access where
  | read
  | write
  | readWrite
deriving DecidableEq, Repr

end ShaderIR
