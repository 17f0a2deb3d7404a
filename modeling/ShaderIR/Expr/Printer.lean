import ShaderIR.Binary64.Text
import ShaderIR.Expr.Basic

/-!
The text of an expression. Offsets, the access of a reference, and the difference between an
untyped literal type and its scalar do not show.
-/

namespace ShaderIR

namespace Expr

mutual

/-- An operand that is itself an operator node is put in parentheses. -/
def text : Expr → String
  | .int _ _ value => toString value.toInt
  | .float _ _ value => value.text .literal
  | .bool _ _ value => if value then "true" else "false"
  | .construct _ ty arguments => ty.displayName ++ "(" ++ argumentsText arguments ++ ")"
  | .unary _ _ operator operand =>
      if operand.isUnary then operator.text ++ "(" ++ operand.text ++ ")"
      else operator.text ++ operand.text
  | .reference _ _ var _ => var.name

def argumentsText : List Expr → String
  | [] => ""
  | [argument] => argument.text
  | argument :: second :: arguments => argument.text ++ ", " ++ argumentsText (second :: arguments)

end

end Expr

end ShaderIR
