/-!
Compiler settings consulted while trees are built.
-/

namespace ShaderIR

inductive ProgramKind where
  | fragment
  | vertex
  | runtimeEffect
deriving DecidableEq, Repr

/-- The spelling of a program kind in settings documents. -/
def ProgramKind.name : ProgramKind → String
  | .fragment => "fragment"
  | .vertex => "vertex"
  | .runtimeEffect => "runtime_effect"

structure Settings where
  /-- Whether negation is moved into constant constructors. -/
  optimize : Bool := true
  enforceRestrictions : Bool := true
  kind : ProgramKind := .fragment
deriving DecidableEq, Repr

/-- Strict mode refuses some operators; it takes both a runtime effect and enforced restrictions. -/
def Settings.isStrict (settings : Settings) : Bool :=
  settings.enforceRestrictions && settings.kind == .runtimeEffect

end ShaderIR
