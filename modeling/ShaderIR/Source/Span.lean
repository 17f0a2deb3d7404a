/-!
Spans of source text.
-/

namespace ShaderIR

structure Span where
  start : Nat
  stop : Nat
deriving DecidableEq, Repr

namespace Span

/-- The span from the same start that covers at least one position. -/
def nonempty (span : Span) : Span :=
  ⟨span.start, max span.stop (span.start + 1)⟩

def length (span : Span) : Nat :=
  span.stop - span.start

def middle (span : Span) : Nat :=
  (span.start + span.stop) / 2

end Span

end ShaderIR
