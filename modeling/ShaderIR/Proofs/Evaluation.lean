import ShaderIR.Proofs.Nodes

/-!
What expressions and statements mean. Running a tree takes a store from one state to the next and
either gives a result or gets stuck; a stuck run keeps the store it got to. Everything that constant
propagation never computes is left open: an `Interpretation` fixes minus on booleans, the operators
that are not folded, and what increments and decrements do.
-/

namespace ShaderIR

/-- What an expression evaluates to. An aggregate keeps the type of its constructor. -/
inductive Value where
  | int (value : Int64)
  | float (value : Binary64)
  | bool (value : Bool)
  | aggregate (ty : Ty) (components : List Value)

/-- What every variable holds, variables being told apart by identity. -/
abbrev Store := Nat → Value

def Store.put (store : Store) (var : Variable) (value : Value) : Store :=
  fun id => if id = var.id then value else store id

structure Interpretation where
  negateBool : Bool → Option Value
  /-- Logical not on a value that is not a boolean. -/
  invertOther : Value → Option Value
  /-- The operators besides minus and logical not that only use the value of their operand. -/
  operate : Operator → Value → Option Value
  /-- What an increment or decrement stores and what it yields, from what the variable held. -/
  step : Operator → Variable → Value → Option (Value × Value)

def Operator.isStep : Operator → Bool
  | .increment | .decrement => true
  | _ => false

mutual

def Value.negate (meaning : Interpretation) : Value → Option Value
  | .int value => some (.int (-value))
  | .float value => some (.float (-value))
  | .bool value => meaning.negateBool value
  | .aggregate ty components => (negateAll meaning components).map (.aggregate ty)

def Value.negateAll (meaning : Interpretation) : List Value → Option (List Value)
  | [] => some []
  | component :: components => do
      let first ← component.negate meaning
      let rest ← negateAll meaning components
      return first :: rest

end

def Value.invert (meaning : Interpretation) : Value → Option Value
  | .bool value => some (.bool !value)
  | value => meaning.invertOther value

def Interpretation.apply (meaning : Interpretation) : Operator → Value → Option Value
  | .minus => Value.negate meaning
  | .logicalNot => Value.invert meaning
  | operator => meaning.operate operator

/-- The result of a run, absent if it is stuck, and the store it got to. -/
abbrev Reached (α : Type) := Option α × Store

def Reached.andThen {α β : Type} (reached : Reached α) (next : α → Store → Reached β) :
    Reached β :=
  match reached with
  | (some value, store) => next value store
  | (none, store) => (none, store)

namespace Expr

def referent? : Expr → Option Variable
  | .reference _ _ var _ => some var
  | _ => none

end Expr

/-- Increments and decrements are stuck on anything but a reference. -/
def Interpretation.stepAt (meaning : Interpretation) (operator : Operator)
    (target : Option Variable) (store : Store) : Reached Value :=
  match target with
  | none => (none, store)
  | some var =>
      match meaning.step operator var (store var.id) with
      | none => (none, store)
      | some (stored, yielded) => (some yielded, store.put var stored)

namespace Expr

mutual

/-- Arguments are evaluated from left to right, each in the store that the one before left. -/
def evaluate (meaning : Interpretation) : Expr → Store → Reached Value
  | .int _ _ value, store => (some (.int value), store)
  | .float _ _ value, store => (some (.float value), store)
  | .bool _ _ value, store => (some (.bool value), store)
  | .construct _ ty arguments, store =>
      (evaluateAll meaning arguments store).andThen fun values after =>
        (some (.aggregate ty values), after)
  | .unary _ _ operator operand, store =>
      if operator.isStep then
        meaning.stepAt operator operand.referent? store
      else
        (operand.evaluate meaning store).andThen fun value after =>
          (meaning.apply operator value, after)
  | .reference _ _ var _, store => (some (store var.id), store)

def evaluateAll (meaning : Interpretation) : List Expr → Store → Reached (List Value)
  | [], store => (some [], store)
  | argument :: arguments, store =>
      (argument.evaluate meaning store).andThen fun value after =>
        (evaluateAll meaning arguments after).andThen fun values after =>
          (some (value :: values), after)

end

end Expr

namespace Stmt

mutual

/-- The values of the expression statements that were run, in order. Whether a conditional is static
makes no difference to a run; a test that is not a boolean is stuck. -/
def run (meaning : Interpretation) : Stmt → Store → Reached (List Value)
  | .conditional _ _ test ifTrue ifFalse, store =>
      (test.evaluate meaning store).andThen fun verdict after =>
        match verdict with
        | .bool true => ifTrue.run meaning after
        | .bool false => runElse meaning ifFalse after
        | _ => (none, after)
  | .block _ body, store => runBody meaning body store
  | .expression _ expr, store =>
      (expr.evaluate meaning store).andThen fun value after => (some [value], after)
  | .nop _, store => (some [], store)

def runBody (meaning : Interpretation) : List Stmt → Store → Reached (List Value)
  | [], store => (some [], store)
  | stmt :: body, store =>
      (stmt.run meaning store).andThen fun first after =>
        (runBody meaning body after).andThen fun rest after => (some (first ++ rest), after)

def runElse (meaning : Interpretation) : Option Stmt → Store → Reached (List Value)
  | none, store => (some [], store)
  | some stmt, store => stmt.run meaning store

end

end Stmt

def Program.run (meaning : Interpretation) (program : Program) (store : Store) :
    Reached (List Value) :=
  Stmt.runBody meaning program.statements store

end ShaderIR
