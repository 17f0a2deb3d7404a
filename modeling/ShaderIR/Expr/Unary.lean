import ShaderIR.Build
import ShaderIR.Expr.Fold

/-!
Building operator nodes and assignment targets, with the checks that may refuse them.
-/

namespace ShaderIR

namespace Expr

/-- A reference that is about to be written through. Only references to mutable variables
qualify. -/
def assignTo (access : Access) : Expr → BuildM Expr
  | .reference offset _ var _ =>
      if var.isImmutable then BuildM.refuse offset (.immutableVariable var.name)
      else return referTo offset var access
  | expr => BuildM.refuse expr.offset .notAssignable

/-- Increments and decrements need a scalar number that can be assigned to. -/
def buildStep (operator : Operator) (operand : Expr) : BuildM Expr := do
  if operand.ty.isNumber then
    let target ← operand.assignTo .readWrite
    return apply operator target
  else
    BuildM.refuse operand.offset (.operandType operator operand.ty)

/-- Puts a prefix operator before an operand: checks that it fits and folds what can be folded. -/
def buildUnary (operator : Operator) (operand : Expr) : BuildM Expr := do
  let refuse := BuildM.refuse operand.offset (.operandType operator operand.ty)
  match operator with
  | .plus => if operand.ty.component.isNumber then return operand else refuse
  | .minus =>
      if operand.ty.component.isNumber then operand.negate (← read) else refuse
  | .increment | .decrement => buildStep operator operand
  | .logicalNot => if operand.ty.isBoolean then operand.invert else refuse
  | .bitwiseNot =>
      if (← read).isStrict then
        BuildM.refuse operand.offset (.restrictedOperator operator)
      else if operand.ty.isInteger then
        match operand.ty.committed? with
        | some scalar => return apply operator (operand.coerce scalar)
        | none => return apply operator operand
      else
        refuse
  | _ => BuildM.fault (.notPrefixOperator operator)

end Expr

end ShaderIR
