import ShaderIR.Text.Printable

/-!
Text in double quotes, as messages show it: quotes, backslashes and whatever cannot be seen in
print are escaped.
-/

namespace ShaderIR

namespace Text

/-- The code point in hexadecimal, between braces. -/
def escapedCode (char : Char) : List Char :=
  "\\u\x7b".toList ++ Nat.toDigits 16 char.toNat ++ ['\x7d']

def quotedChar (char : Char) : List Char :=
  match char with
  | '\x00' => ['\\', '0']
  | '\t' => ['\\', 't']
  | '\n' => ['\\', 'n']
  | '\r' => ['\\', 'r']
  | '"' => ['\\', '"']
  | '\\' => ['\\', '\\']
  | other => if isPrintable other then [other] else escapedCode other

def quoted (text : String) : String :=
  "\"" ++ String.ofList (text.toList.flatMap quotedChar) ++ "\""

end Text

end ShaderIR
