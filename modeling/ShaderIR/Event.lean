import ShaderIR.Binary64.Text
import ShaderIR.Expr.Basic

/-!
What folding and propagation did, as data: every simplification emits one event, and a computation
that emits events is a `Traced` value.
-/

namespace ShaderIR

inductive Event where
  | negatedInt (offset : Offset) (value : Int64)
  | negatedFloat (offset : Offset) (value : Binary64)
  | pushedNegation (offset : Offset) (ty : Ty)
  | invertedBool (offset : Offset) (value : Bool)
  | flattenedConditional (offset : Offset) (taken : Bool)
  | propagatedOperator (offset : Offset) (operator : Operator)
  | substitutedDefinition (offset : Offset) (name : String)
deriving DecidableEq, Repr

namespace Event

inductive Level where
  | trace
  | debug
deriving DecidableEq, Repr

def Level.text : Level → String
  | .trace => "TRACE"
  | .debug => "DEBUG"

/-- Folds are traced; what propagation replaces is of interest to more readers. -/
def level : Event → Level
  | .propagatedOperator .. | .substitutedDefinition .. => .debug
  | _ => .trace

def title : Event → String
  | .negatedInt .. => "folding negated int literal"
  | .negatedFloat .. => "folding negated float literal"
  | .pushedNegation .. => "pushing negation into constructor"
  | .invertedBool .. => "folding logical not"
  | .flattenedConditional .. => "flattening static if"
  | .propagatedOperator .. => "constant-propagated prefix expression"
  | .substitutedDefinition .. => "substituted constant definition"

def boolText (value : Bool) : String :=
  if value then "true" else "false"

/-- The offset comes first, then what is particular to the event. -/
def fields : Event → List (String × String)
  | .negatedInt offset value => [("offset", toString offset), ("value", toString value.toInt)]
  | .negatedFloat offset value => [("offset", toString offset), ("value", value.text .literal)]
  | .pushedNegation offset ty => [("offset", toString offset), ("ty", ty.name)]
  | .invertedBool offset value => [("offset", toString offset), ("value", boolText value)]
  | .flattenedConditional offset taken =>
      [("offset", toString offset), ("value", boolText taken)]
  | .propagatedOperator offset operator =>
      [("offset", toString offset), ("op", operator.text)]
  | .substitutedDefinition offset name =>
      [("offset", toString offset), ("variable", name)]

/-- One line of a log. -/
def text (event : Event) : String :=
  event.level.text ++ " " ++ event.title ++ ":" ++
    String.join (event.fields.map fun (name, value) => " " ++ name ++ "=" ++ value)

end Event

/-- A value together with the events of computing it, in order. -/
structure Traced (α : Type) where
  value : α
  events : List Event

namespace Traced

instance : Monad Traced where
  pure value := ⟨value, []⟩
  bind first next :=
    let second := next first.value
    ⟨second.value, first.events ++ second.events⟩

def emit (event : Event) : Traced Unit :=
  ⟨(), [event]⟩

variable {α β : Type}

@[simp]
theorem value_pure (value : α) : (pure value : Traced α).value = value := rfl

@[simp]
theorem events_pure (value : α) : (pure value : Traced α).events = [] := rfl

@[simp]
theorem value_bind (first : Traced α) (next : α → Traced β) :
    (first >>= next).value = (next first.value).value := rfl

@[simp]
theorem events_bind (first : Traced α) (next : α → Traced β) :
    (first >>= next).events = first.events ++ (next first.value).events := rfl

@[simp]
theorem value_emit (event : Event) : (emit event).value = () := rfl

@[simp]
theorem events_emit (event : Event) : (emit event).events = [event] := rfl

end Traced

end ShaderIR
