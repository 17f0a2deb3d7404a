import ShaderIR.Diagnostic
import ShaderIR.Event
import ShaderIR.Settings.Basic
import ShaderIR.Stmt.Basic

/-!
Building trees that may be refused. A refused construction leaves exactly one diagnostic in the
sink and then fails with `Stop.reported`, which carries no message: whoever receives it can pass
the failure on, but has nothing to report a second time. Asking for a construction that makes no
sense at all is a `Fault`, which leaves no diagnostic.
-/

namespace ShaderIR

/-- Why a construction is refused. -/
inductive Refusal where
  | operandType (operator : Operator) (found : Ty)
  | restrictedOperator (operator : Operator)
  | notAssignable
  | immutableVariable (name : String)
  | unexpectedType (expected found : Ty)
deriving DecidableEq, Repr

def Refusal.message : Refusal → String
  | .operandType operator found =>
      "'" ++ operator.text ++ "' cannot operate on '" ++ found.displayName ++ "'"
  | .restrictedOperator operator => "operator '" ++ operator.text ++ "' is not allowed"
  | .notAssignable => "cannot assign to this expression"
  | .immutableVariable name => "cannot modify immutable variable '" ++ name ++ "'"
  | .unexpectedType expected found =>
      "expected '" ++ expected.displayName ++ "', but found '" ++ found.displayName ++ "'"

/-- A request that no tree answers. -/
inductive Fault where
  | notPrefixOperator (operator : Operator)
  | notUnary (found : ExprKind)
  | notConstructor (found : ExprKind)
  | notConditional (found : StmtKind)
  | unknownType (name : String)
  | unknownVariable
  | unknownRegister
  | noArgument
deriving DecidableEq, Repr

/-- The wording of a fault; those about names and numbers that do not exist need none, or only
the name. -/
def Fault.message? : Fault → Option String
  | .notPrefixOperator operator => some ("unsupported prefix operator '" ++ operator.text ++ "'")
  | .notUnary found => some ("expected " ++ ExprKind.unary.text ++ ", found " ++ found.text)
  | .notConstructor found =>
      some ("expected " ++ ExprKind.constructor.text ++ ", found " ++ found.text)
  | .notConditional found => some ("expected if statement, found " ++ found.text)
  | .unknownType name => some name
  | .unknownVariable | .unknownRegister | .noArgument => none

/-- How a construction can end without a tree. -/
inductive Stop where
  | reported
  | fault (cause : Fault)
deriving DecidableEq, Repr

/-- What constructions leave behind besides their trees. -/
structure Journal where
  sink : Sink := {}
  events : List Event := []
deriving DecidableEq, Repr

/-- A construction under given settings. The journal keeps what was written before a failure. -/
abbrev BuildM := ReaderT Settings (ExceptT Stop (StateM Journal))

namespace BuildM

variable {α : Type}

def run (action : BuildM α) (settings : Settings) (journal : Journal) :
    Except Stop α × Journal :=
  (ReaderT.run action settings).run.run journal

/-- Reports why a construction is refused and fails. -/
def refuse (offset : Offset) (reason : Refusal) : BuildM α := do
  modify fun journal => { journal with sink := journal.sink.report offset reason.message }
  throw .reported

def fault (cause : Fault) : BuildM α :=
  throw (.fault cause)

/-- Appends the events of a computation to the journal. -/
def record (traced : Traced α) : BuildM α := do
  modify fun journal => { journal with events := journal.events ++ traced.events }
  return traced.value

instance : MonadLift Traced BuildM := ⟨record⟩

variable {β : Type} (settings : Settings) (journal : Journal)

@[simp]
theorem run_pure (value : α) :
    (pure value : BuildM α).run settings journal = (.ok value, journal) := rfl

theorem run_bind (action : BuildM α) (next : α → BuildM β) :
    (action >>= next).run settings journal =
      match action.run settings journal with
      | (.ok value, after) => (next value).run settings after
      | (.error stop, after) => (.error stop, after) := by
  simp only [run, ReaderT.run_bind, ExceptT.run_bind, StateT.run_bind]
  obtain ⟨result, after⟩ := StateT.run (ReaderT.run action settings).run journal
  cases result <;> rfl

@[simp]
theorem run_read : (read : BuildM Settings).run settings journal = (.ok settings, journal) := rfl

@[simp]
theorem run_refuse (offset : Offset) (reason : Refusal) :
    (refuse offset reason : BuildM α).run settings journal =
      (.error .reported,
        { journal with sink := journal.sink.report offset reason.message }) := rfl

@[simp]
theorem run_fault (cause : Fault) :
    (fault cause : BuildM α).run settings journal = (.error (.fault cause), journal) := rfl

@[simp]
theorem run_record (traced : Traced α) :
    (record traced).run settings journal =
      (.ok traced.value, { journal with events := journal.events ++ traced.events }) := rfl

end BuildM

end ShaderIR
