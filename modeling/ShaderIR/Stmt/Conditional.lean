import ShaderIR.Build

/-!
Building conditionals. A static conditional on a literal leaves only the branch it selects.
-/

namespace ShaderIR

namespace Stmt

/-- A conditional. If the test is a literal and the conditional static, the branch it selects takes
the conditional's place and offset; a branch that is missing does nothing. -/
def branch (offset : Offset) (isStatic : Bool) (test : Expr) (ifTrue : Stmt)
    (ifFalse : Option Stmt) : Traced Stmt :=
  match isStatic, test with
  | true, .bool _ _ value => do
      Traced.emit (.flattenedConditional offset value)
      if value then return ifTrue.withOffset offset
      else return (ifFalse.getD (.nop offset)).withOffset offset
  | _, _ => return .conditional offset isStatic test ifTrue ifFalse

/-- A conditional whose test is checked to be a boolean. -/
def buildConditional (offset : Offset) (isStatic : Bool) (test : Expr) (ifTrue : Stmt)
    (ifFalse : Option Stmt) : BuildM Stmt :=
  if test.ty.isBoolean then branch offset isStatic test ifTrue ifFalse
  else BuildM.refuse test.offset (.unexpectedType .bool test.ty)

end Stmt

end ShaderIR
