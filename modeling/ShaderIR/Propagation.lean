import ShaderIR.Definitions
import ShaderIR.Expr.Fold
import ShaderIR.Stmt.Conditional

/-!
Constant propagation: references that read a variable with a constant definition are replaced by
that definition, and what becomes constant by it is folded, from the leaves up.
-/

namespace ShaderIR

namespace Expr

mutual

/-- A substituted definition takes the offset of the reference it replaces. An operator node is put
together anew over its propagated operand, so its offset and type become those of the operand. -/
def propagate (settings : Settings) (definitions : Definitions) : Expr → Traced Expr
  | .int offset ty value => return .int offset ty value
  | .float offset ty value => return .float offset ty value
  | .bool offset ty value => return .bool offset ty value
  | .construct offset ty arguments => do
      let propagated ← propagateAll settings definitions arguments
      return .construct offset ty propagated
  | .unary _ _ operator operand => do
      let propagated ← operand.propagate settings definitions
      let folded ← refold settings operator propagated
      return folded.getD (apply operator propagated)
  | .reference offset ty var access =>
      match access, definitions.constant? var with
      | .read, some value => do
          Traced.emit (.substitutedDefinition offset var.name)
          return value.withOffset offset
      | _, _ => return .reference offset ty var access

def propagateAll (settings : Settings) (definitions : Definitions) :
    List Expr → Traced (List Expr)
  | [] => return []
  | argument :: arguments => do
      let first ← argument.propagate settings definitions
      let rest ← propagateAll settings definitions arguments
      return first :: rest

end

end Expr

namespace Stmt

mutual

/-- Every branch is propagated, also one that a static conditional then drops. -/
def propagate (settings : Settings) (definitions : Definitions) : Stmt → Traced Stmt
  | .conditional offset isStatic test ifTrue ifFalse => do
      let test ← test.propagate settings definitions
      let ifTrue ← ifTrue.propagate settings definitions
      let ifFalse ← propagateElse settings definitions ifFalse
      branch offset isStatic test ifTrue ifFalse
  | .block offset body => do
      let body ← propagateBody settings definitions body
      return .block offset body
  | .expression offset expr => do
      let expr ← expr.propagate settings definitions
      return .expression offset expr
  | .nop offset => return .nop offset

def propagateBody (settings : Settings) (definitions : Definitions) :
    List Stmt → Traced (List Stmt)
  | [] => return []
  | stmt :: body => do
      let first ← stmt.propagate settings definitions
      let rest ← propagateBody settings definitions body
      return first :: rest

def propagateElse (settings : Settings) (definitions : Definitions) :
    Option Stmt → Traced (Option Stmt)
  | none => return none
  | some stmt => do
      let stmt ← stmt.propagate settings definitions
      return some stmt

end

end Stmt

end ShaderIR
