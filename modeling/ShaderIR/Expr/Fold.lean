import ShaderIR.Event
import ShaderIR.Settings.Basic

/-!
Folding an operator into its operand while both are at hand. Folding never fails: where nothing
can be computed the operator node is left standing.
-/

namespace ShaderIR

namespace Expr

mutual

/-- The negation of an expression. Numeric literals are negated in place, an integer wrapping
around at the ends of its range. With optimization a constant constructor negates its arguments. -/
def negate (settings : Settings) : Expr → Traced Expr
  | .int offset ty value => do
      Traced.emit (.negatedInt offset value)
      return .int offset ty (-value)
  | .float offset ty value => do
      Traced.emit (.negatedFloat offset value)
      return .float offset ty (-value)
  | .bool offset ty value => return apply .minus (.bool offset ty value)
  | .construct offset ty arguments =>
      if settings.optimize && allConstant arguments then do
        Traced.emit (.pushedNegation offset ty)
        let negated ← negateAll settings arguments
        return .construct offset ty negated
      else
        return apply .minus (.construct offset ty arguments)
  | .unary offset ty operator operand => return apply .minus (.unary offset ty operator operand)
  | .reference offset ty var access => return apply .minus (.reference offset ty var access)

def negateAll (settings : Settings) : List Expr → Traced (List Expr)
  | [] => return []
  | argument :: arguments => do
      let first ← argument.negate settings
      let rest ← negateAll settings arguments
      return first :: rest

end

/-- The logical inverse of an expression; a literal is inverted in place. -/
def invert : Expr → Traced Expr
  | .bool offset ty value => do
      Traced.emit (.invertedBool offset value)
      return .bool offset ty (!value)
  | operand => return apply .logicalNot operand

/-- What an operator over a constant operand simplifies to, now that the operand is known. The
result is `none` if nothing simpler than an operator node comes out. -/
def refold (settings : Settings) (operator : Operator) (operand : Expr) :
    Traced (Option Expr) := do
  if operand.isConstant then
    match operator, operand with
    | .minus, .int .. | .minus, .float .. | .minus, .construct .. =>
        let folded ← operand.negate settings
        if folded.isUnary then
          return none
        else
          Traced.emit (.propagatedOperator folded.offset .minus)
          return some folded
    | .logicalNot, .bool .. =>
        let folded ← operand.invert
        Traced.emit (.propagatedOperator folded.offset .logicalNot)
        return some folded
    | _, _ => return none
  else
    return none

/-- Gives an expression the type `target`. Numeric literals take the type themselves where it
suits them; anything else is converted by a constructor. -/
def coerce (target : Ty) (expr : Expr) : Expr :=
  if expr.ty = target then
    expr
  else
    match expr with
    | .int offset ty value =>
        if target.isInteger then .int offset target value
        else if target.isFloat then .float offset target (.ofInt value.toInt)
        else .construct offset target [.int offset ty value]
    | .float offset ty value =>
        if target.isFloat then .float offset target value
        else .construct offset target [.float offset ty value]
    | other => .construct other.offset target [other]

end Expr

end ShaderIR
