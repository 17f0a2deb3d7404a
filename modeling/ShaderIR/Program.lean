import ShaderIR.Propagation

/-!
A program is the sequence of statements that could be built.
-/

namespace ShaderIR

structure Program where
  statements : List Stmt := []
deriving Repr

namespace Program

/-- Appends a statement, or nothing if its construction failed. -/
def push (program : Program) : Except Stop Stmt → Program
  | .ok stmt => ⟨program.statements ++ [stmt]⟩
  | .error _ => program

def size (program : Program) : Nat :=
  program.statements.length

def propagate (settings : Settings) (definitions : Definitions) (program : Program) :
    Traced Program := do
  let statements ← Stmt.propagateBody settings definitions program.statements
  return ⟨statements⟩

end Program

end ShaderIR
