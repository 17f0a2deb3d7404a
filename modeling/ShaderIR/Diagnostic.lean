import ShaderIR.Expr.Basic

/-!
Diagnostics and the sink that collects them in the order they were reported.
-/

namespace ShaderIR

structure Diagnostic where
  offset : Offset
  message : String
deriving DecidableEq, Repr

def Diagnostic.text (diagnostic : Diagnostic) : String :=
  toString diagnostic.offset ++ ": " ++ diagnostic.message

structure Sink where
  diagnostics : List Diagnostic := []
deriving DecidableEq, Repr

namespace Sink

def report (sink : Sink) (offset : Offset) (message : String) : Sink :=
  ⟨sink.diagnostics ++ [⟨offset, message⟩]⟩

def count (sink : Sink) : Nat :=
  sink.diagnostics.length

def hasErrors (sink : Sink) : Bool :=
  decide (0 < sink.count)

@[simp]
theorem diagnostics_report (sink : Sink) (offset : Offset) (message : String) :
    (sink.report offset message).diagnostics = sink.diagnostics ++ [⟨offset, message⟩] := rfl

end Sink

end ShaderIR
