import ShaderIR.Diagnostic
import ShaderIR.Source.Excerpt

/-!
Diagnostics shown with the source line they point at. A diagnostic has an offset and no length, so
it is shown at the one character that has its offset as number.
-/

namespace ShaderIR

namespace Report

/-- What is shown for a diagnostic, drawn in the usual style. -/
def excerpt (diagnostic : Diagnostic) : Excerpt :=
  { kind := "Error"
    span := (Span.mk diagnostic.offset diagnostic.offset).nonempty
    message := diagnostic.message }

def lines (source : List Char) (path : String) (diagnostic : Diagnostic) : List String :=
  (excerpt diagnostic).lines source path

/-- The report of several diagnostics on one source, one after another. -/
def render (source path : String) (diagnostics : List Diagnostic) : String :=
  String.join ((diagnostics.flatMap (lines source.toList path)).map (· ++ "\n"))

end Report

end ShaderIR
