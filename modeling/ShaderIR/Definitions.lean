import ShaderIR.Expr.Basic

/-!
What is known about the values of variables: a map from variables, told apart by identity, to the
expressions that define them.
-/

namespace ShaderIR

structure Definitions where
  entries : List (Nat × Expr) := []
deriving Repr

namespace Definitions

def empty : Definitions := {}

/-- Defines a variable, replacing what it was defined as before. -/
def insert (definitions : Definitions) (var : Variable) (value : Expr) : Definitions :=
  ⟨(var.id, value) :: definitions.entries.filter (·.1 != var.id)⟩

def get? (definitions : Definitions) (var : Variable) : Option Expr :=
  definitions.entries.lookup var.id

/-- The definition of a variable if it is a constant. -/
def constant? (definitions : Definitions) (var : Variable) : Option Expr :=
  (definitions.get? var).filter Expr.isConstant

def size (definitions : Definitions) : Nat :=
  definitions.entries.length

def isEmpty (definitions : Definitions) : Bool :=
  definitions.entries.isEmpty

theorem lookup_filter_ne {key other : Nat} (differs : other ≠ key) (entries : List (Nat × Expr)) :
    (entries.filter (·.1 != key)).lookup other = entries.lookup other := by
  induction entries with
  | nil => rfl
  | cons entry entries ih =>
      obtain ⟨found, value⟩ := entry
      by_cases replaced : found = key
      · simp [replaced, List.lookup_cons, beq_false_of_ne differs, ih]
      · simp [replaced, List.lookup_cons, ih]

theorem get?_insert (definitions : Definitions) (var other : Variable) (value : Expr) :
    (definitions.insert var value).get? other =
      if other.id = var.id then some value else definitions.get? other := by
  by_cases same : other.id = var.id
  · simp [get?, insert, same]
  · simp [get?, insert, same, List.lookup_cons, beq_false_of_ne same, lookup_filter_ne same]

theorem isConstant_of_constant? {definitions : Definitions} {var : Variable} {value : Expr}
    (known : definitions.constant? var = some value) : value.isConstant = true := by
  simp only [constant?, Option.filter_eq_some_iff] at known
  exact known.2

end Definitions

end ShaderIR
