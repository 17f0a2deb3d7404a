import ShaderIR.Binary64.Basic
import ShaderIR.Binary64.Scaling
import ShaderIR.Binary64.Shortest
import ShaderIR.Binary64.Text
import ShaderIR.Build
import ShaderIR.Definitions
import ShaderIR.Diagnostic
import ShaderIR.Event
import ShaderIR.Expr.Basic
import ShaderIR.Expr.Fold
import ShaderIR.Expr.Printer
import ShaderIR.Expr.Unary
import ShaderIR.Json.Basic
import ShaderIR.Json.Reader
import ShaderIR.Json.Scan
import ShaderIR.Operator
import ShaderIR.Program
import ShaderIR.Proofs.Coercions
import ShaderIR.Proofs.Complements
import ShaderIR.Proofs.Composition
import ShaderIR.Proofs.Construction
import ShaderIR.Proofs.Conversions
import ShaderIR.Proofs.DecimalText
import ShaderIR.Proofs.DeferredFolding
import ShaderIR.Proofs.Evaluation
import ShaderIR.Proofs.ExprText
import ShaderIR.Proofs.Folding
import ShaderIR.Proofs.Histories
import ShaderIR.Proofs.IntegerRounding
import ShaderIR.Proofs.JsonGrammar
import ShaderIR.Proofs.JsonSkipping
import ShaderIR.Proofs.Known
import ShaderIR.Proofs.Labels
import ShaderIR.Proofs.Meaning
import ShaderIR.Proofs.Nodes
import ShaderIR.Proofs.NormalForm
import ShaderIR.Proofs.OperandTypes
import ShaderIR.Proofs.Places
import ShaderIR.Proofs.Positions
import ShaderIR.Proofs.Reporting
import ShaderIR.Proofs.Representation
import ShaderIR.Proofs.ShortestDecimal
import ShaderIR.Proofs.SignChains
import ShaderIR.Proofs.Silence
import ShaderIR.Proofs.Spellings
import ShaderIR.Proofs.StmtText
import ShaderIR.Proofs.StrictMode
import ShaderIR.Proofs.Substitution
import ShaderIR.Proofs.TypeAgreement
import ShaderIR.Proofs.Words
import ShaderIR.Proofs.Writes
import ShaderIR.Propagation
import ShaderIR.Recipe
import ShaderIR.Report
import ShaderIR.Session
import ShaderIR.Settings.Basic
import ShaderIR.Settings.Load
import ShaderIR.Source.Excerpt
import ShaderIR.Source.Line
import ShaderIR.Source.Span
import ShaderIR.Stmt.Basic
import ShaderIR.Stmt.Conditional
import ShaderIR.Stmt.Printer
import ShaderIR.Text.Blank
import ShaderIR.Text.Printable
import ShaderIR.Text.Quoted
import ShaderIR.Ty
import ShaderIR.Variable
