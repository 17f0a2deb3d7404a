import ShaderIR.Expr.Printer
import ShaderIR.Stmt.Basic

/-!
The text of a statement. A conditional's branches follow it without delimiters of their own.
-/

namespace ShaderIR

namespace Stmt

mutual

def text : Stmt → String
  | .conditional _ isStatic test ifTrue ifFalse =>
      (if isStatic then "@" else "") ++ "if (" ++ test.text ++ ") " ++ ifTrue.text ++
        elseText ifFalse
  | .block _ body => "\x7b" ++ bodyText body ++ "\n\x7d"
  | .expression _ expr => expr.text ++ ";"
  | .nop _ => ";"

/-- Every statement of a block starts a new line. -/
def bodyText : List Stmt → String
  | [] => ""
  | stmt :: body => "\n" ++ stmt.text ++ bodyText body

def elseText : Option Stmt → String
  | none => ""
  | some stmt => " else " ++ stmt.text

end

end Stmt

end ShaderIR
