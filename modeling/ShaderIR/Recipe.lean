import ShaderIR.Expr.Unary
import ShaderIR.Stmt.Conditional

/-!
Recipes: descriptions of trees that are still to be built. Building works on the parts first, from
left to right, and the first failure ends it.
-/

namespace ShaderIR

inductive ExprRecipe where
  | int (offset : Offset) (ty : Ty) (value : Int64)
  | float (offset : Offset) (ty : Ty) (value : Binary64)
  | bool (offset : Offset) (ty : Ty) (value : Bool)
  | construct (offset : Offset) (ty : Ty) (arguments : List ExprRecipe)
  | reference (offset : Offset) (var : Variable) (access : Access)
  /-- A prefix operator with the checks it needs. -/
  | unary (operator : Operator) (operand : ExprRecipe)
  /-- A negation without checks. -/
  | negate (operand : ExprRecipe)
  /-- A logical inversion without checks. -/
  | invert (operand : ExprRecipe)
  | coerce (target : Ty) (operand : ExprRecipe)
  | relocate (offset : Offset) (operand : ExprRecipe)
  | assignTo (access : Access) (operand : ExprRecipe)
  /-- The operand below an operator node. -/
  | operandOf (node : ExprRecipe)
  /-- An argument below a constructor node. -/
  | argumentOf (index : Nat) (node : ExprRecipe)
  /-- An operator node simplified once more. -/
  | refold (node : ExprRecipe)
  /-- A tree that has been built already. -/
  | given (expr : Expr)
  /-- A part that names something unknown. -/
  | missing (cause : Fault)
deriving Repr

namespace ExprRecipe

/-- A recipe that depends on the type of a given name. -/
def ofTypeName (name : String) (recipe : Ty → ExprRecipe) : ExprRecipe :=
  match Ty.ofName? name with
  | some ty => recipe ty
  | none => .missing (.unknownType name)

/-- A chain of constructors of one argument each around a recipe. -/
def nest (offset : Offset) (ty : Ty) : Nat → ExprRecipe → ExprRecipe
  | 0, recipe => recipe
  | depth + 1, recipe => .construct offset ty [nest offset ty depth recipe]

/-- Several prefix operators before an operand, the first of them nearest to it. -/
def chain (operators : List Operator) (operand : ExprRecipe) : ExprRecipe :=
  operators.foldl (fun recipe operator => .unary operator recipe) operand

end ExprRecipe

namespace Expr

/-- The operator node's simplification, or `none` if it has none. -/
def refoldNode : Expr → BuildM (Option Expr)
  | .unary _ _ operator operand => do
      let settings ← read
      refold settings operator operand
  | other => BuildM.fault (.notUnary other.kind)

def operandNode : Expr → BuildM Expr
  | .unary _ _ _ operand => return operand
  | other => BuildM.fault (.notUnary other.kind)

def argumentNode (index : Nat) : Expr → BuildM Expr
  | .construct _ _ arguments =>
      match arguments[index]? with
      | some argument => return argument
      | none => BuildM.fault .noArgument
  | other => BuildM.fault (.notConstructor other.kind)

end Expr

namespace ExprRecipe

mutual

def build : ExprRecipe → BuildM Expr
  | .int offset ty value => return .int offset ty value
  | .float offset ty value => return .float offset ty value
  | .bool offset ty value => return .bool offset ty value
  | .construct offset ty arguments => do
      let arguments ← buildAll arguments
      return .construct offset ty arguments
  | .reference offset var access => return .referTo offset var access
  | .unary operator operand => do
      let operand ← operand.build
      operand.buildUnary operator
  | .negate operand => do
      let operand ← operand.build
      operand.negate (← read)
  | .invert operand => do
      let operand ← operand.build
      operand.invert
  | .coerce target operand => do
      let operand ← operand.build
      return operand.coerce target
  | .relocate offset operand => do
      let operand ← operand.build
      return operand.withOffset offset
  | .assignTo access operand => do
      let operand ← operand.build
      operand.assignTo access
  | .operandOf node => do
      let node ← node.build
      node.operandNode
  | .argumentOf index node => do
      let node ← node.build
      node.argumentNode index
  | .refold node => do
      let node ← node.build
      let folded ← node.refoldNode
      return folded.getD node
  | .given expr => return expr
  | .missing cause => BuildM.fault cause

def buildAll : List ExprRecipe → BuildM (List Expr)
  | [] => return []
  | recipe :: recipes => do
      let first ← recipe.build
      let rest ← buildAll recipes
      return first :: rest

end

end ExprRecipe

inductive StmtRecipe where
  | expression (expr : ExprRecipe)
  | nop (offset : Offset)
  | block (offset : Offset) (body : List StmtRecipe)
  /-- A conditional whose test is checked. -/
  | conditional (offset : Offset) (isStatic : Bool) (test : ExprRecipe) (ifTrue : StmtRecipe)
      (ifFalse : Option StmtRecipe)
  /-- A conditional without checks. -/
  | branch (offset : Offset) (isStatic : Bool) (test : ExprRecipe) (ifTrue : StmtRecipe)
      (ifFalse : Option StmtRecipe)
  | relocate (offset : Offset) (stmt : StmtRecipe)
  /-- The first branch of a conditional. -/
  | ifTrueOf (stmt : StmtRecipe)
  /-- A tree that has been built already. -/
  | given (stmt : Stmt)
  /-- A part that names something unknown. -/
  | missing (cause : Fault)
deriving Repr

namespace Stmt

/-- The parts of a conditional. -/
structure Parts where
  isStatic : Bool
  test : Expr
  ifTrue : Stmt
  ifFalse : Option Stmt
deriving Repr

def parts : Stmt → BuildM Parts
  | .conditional _ isStatic test ifTrue ifFalse => return ⟨isStatic, test, ifTrue, ifFalse⟩
  | other => BuildM.fault (.notConditional other.kind)

end Stmt

namespace StmtRecipe

mutual

def build : StmtRecipe → BuildM Stmt
  | .expression expr => do
      let expr ← expr.build
      return .ofExpr expr
  | .nop offset => return .nop offset
  | .block offset body => do
      let body ← buildBody body
      return .block offset body
  | .conditional offset isStatic test ifTrue ifFalse => do
      let test ← test.build
      let ifTrue ← ifTrue.build
      let ifFalse ← buildElse ifFalse
      Stmt.buildConditional offset isStatic test ifTrue ifFalse
  | .branch offset isStatic test ifTrue ifFalse => do
      let test ← test.build
      let ifTrue ← ifTrue.build
      let ifFalse ← buildElse ifFalse
      Stmt.branch offset isStatic test ifTrue ifFalse
  | .relocate offset stmt => do
      let stmt ← stmt.build
      return stmt.withOffset offset
  | .ifTrueOf stmt => do
      let stmt ← stmt.build
      let parts ← stmt.parts
      return parts.ifTrue
  | .given stmt => return stmt
  | .missing cause => BuildM.fault cause

def buildBody : List StmtRecipe → BuildM (List Stmt)
  | [] => return []
  | recipe :: recipes => do
      let first ← recipe.build
      let rest ← buildBody recipes
      return first :: rest

def buildElse : Option StmtRecipe → BuildM (Option Stmt)
  | none => return none
  | some recipe => do
      let stmt ← recipe.build
      return some stmt

end

end StmtRecipe

end ShaderIR
