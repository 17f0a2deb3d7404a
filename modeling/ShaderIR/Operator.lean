/-!
The operators of the shading language, as tokens. Only some of them can stand before an operand;
which ones is decided where expressions are built.
-/

namespace ShaderIR

inductive Operator where
  | plus
  | minus
  | star
  | slash
  | percent
  | logicalNot
  | logicalAnd
  | logicalOr
  | bitwiseNot
  | bitwiseAnd
  | bitwiseOr
  | increment
  | decrement
  | equal
  | notEqual
  | less
  | greater
deriving DecidableEq, Repr

namespace Operator

/-- The operator as it is written in source text. -/
def text : Operator → String
  | .plus => "+"
  | .minus => "-"
  | .star => "*"
  | .slash => "/"
  | .percent => "%"
  | .logicalNot => "!"
  | .logicalAnd => "&&"
  | .logicalOr => "||"
  | .bitwiseNot => "~"
  | .bitwiseAnd => "&"
  | .bitwiseOr => "|"
  | .increment => "++"
  | .decrement => "--"
  | .equal => "=="
  | .notEqual => "!="
  | .less => "<"
  | .greater => ">"

end Operator

end ShaderIR
