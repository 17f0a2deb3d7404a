import ShaderIR.Binary64.Basic
import ShaderIR.Operator
import ShaderIR.Variable

/-!
Expression trees. Every node carries the source offset it came from and its type; neither is
computed from its children, so that a tree can be relabelled without being rebuilt.
-/

namespace ShaderIR

/-- A position in the source text. -/
abbrev Offset := Nat

inductive Expr where
  | int (offset : Offset) (ty : Ty) (value : Int64)
  | float (offset : Offset) (ty : Ty) (value : Binary64)
  | bool (offset : Offset) (ty : Ty) (value : Bool)
  | construct (offset : Offset) (ty : Ty) (arguments : List Expr)
  | unary (offset : Offset) (ty : Ty) (operator : Operator) (operand : Expr)
  | reference (offset : Offset) (ty : Ty) (var : Variable) (access : Access)
deriving Repr

inductive ExprKind where
  | intLiteral
  | floatLiteral
  | boolLiteral
  | constructor
  | unary
  | reference
deriving DecidableEq, Repr

def ExprKind.text : ExprKind → String
  | .intLiteral => "int literal"
  | .floatLiteral => "float literal"
  | .boolLiteral => "bool literal"
  | .constructor => "constructor"
  | .unary => "prefix"
  | .reference => "variable reference"

namespace Expr

def kind : Expr → ExprKind
  | .int .. => .intLiteral
  | .float .. => .floatLiteral
  | .bool .. => .boolLiteral
  | .construct .. => .constructor
  | .unary .. => .unary
  | .reference .. => .reference

def offset : Expr → Offset
  | .int offset .. | .float offset .. | .bool offset .. | .construct offset ..
  | .unary offset .. | .reference offset .. => offset

def ty : Expr → Ty
  | .int _ ty _ | .float _ ty _ | .bool _ ty _ | .construct _ ty _
  | .unary _ ty .. | .reference _ ty .. => ty

/-- The same tree with another offset at its root; the nodes below keep theirs. -/
def withOffset (offset : Offset) : Expr → Expr
  | .int _ ty value => .int offset ty value
  | .float _ ty value => .float offset ty value
  | .bool _ ty value => .bool offset ty value
  | .construct _ ty arguments => .construct offset ty arguments
  | .unary _ ty operator operand => .unary offset ty operator operand
  | .reference _ ty var access => .reference offset ty var access

@[simp]
theorem offset_withOffset (expr : Expr) (offset : Offset) :
    (expr.withOffset offset).offset = offset := by
  cases expr <;> rfl

@[simp]
theorem ty_withOffset (expr : Expr) (offset : Offset) : (expr.withOffset offset).ty = expr.ty := by
  cases expr <;> rfl

@[simp]
theorem withOffset_offset (expr : Expr) : expr.withOffset expr.offset = expr := by
  cases expr <;> rfl

@[simp]
theorem withOffset_withOffset (expr : Expr) (first second : Offset) :
    (expr.withOffset first).withOffset second = expr.withOffset second := by
  cases expr <;> rfl

def isUnary : Expr → Bool
  | .unary .. => true
  | _ => false

/-- An operator node over an operand, with the offset and the type of that operand. -/
def apply (operator : Operator) (operand : Expr) : Expr :=
  .unary operand.offset operand.ty operator operand

/-- A reference to a variable, which has the variable's type. -/
def referTo (offset : Offset) (var : Variable) (access : Access) : Expr :=
  .reference offset var.ty var access

mutual

/-- Whether the value is known while compiling: literals, constructors of known values, and
negations of known values. No other operator and no variable counts. -/
def isConstant : Expr → Bool
  | .int .. | .float .. | .bool .. => true
  | .construct _ _ arguments => allConstant arguments
  | .unary _ _ operator operand => operator == .minus && operand.isConstant
  | .reference .. => false

def allConstant : List Expr → Bool
  | [] => true
  | argument :: arguments => argument.isConstant && allConstant arguments

end

theorem allConstant_eq_all (arguments : List Expr) :
    allConstant arguments = arguments.all isConstant := by
  induction arguments with
  | nil => rfl
  | cons argument arguments ih => simp [allConstant, ih]

@[simp]
theorem isConstant_withOffset (expr : Expr) (offset : Offset) :
    (expr.withOffset offset).isConstant = expr.isConstant := by
  cases expr <;> simp [withOffset, isConstant]

mutual

/-- The nodes of a tree from the root down and from left to right, each with its depth. -/
def outline (depth : Nat) : Expr → List (Nat × Expr)
  | .int offset ty value => [(depth, .int offset ty value)]
  | .float offset ty value => [(depth, .float offset ty value)]
  | .bool offset ty value => [(depth, .bool offset ty value)]
  | .construct offset ty arguments =>
      (depth, .construct offset ty arguments) :: outlineAll (depth + 1) arguments
  | .unary offset ty operator operand =>
      (depth, .unary offset ty operator operand) :: operand.outline (depth + 1)
  | .reference offset ty var access => [(depth, .reference offset ty var access)]

def outlineAll (depth : Nat) : List Expr → List (Nat × Expr)
  | [] => []
  | argument :: arguments => argument.outline depth ++ outlineAll depth arguments

end

/-- Induction over expression trees, with the hypothesis for every argument of a constructor. -/
@[elab_as_elim, induction_eliminator]
theorem induction {motive : Expr → Prop}
    (int : ∀ offset ty value, motive (.int offset ty value))
    (float : ∀ offset ty value, motive (.float offset ty value))
    (bool : ∀ offset ty value, motive (.bool offset ty value))
    (construct : ∀ offset ty arguments, (∀ argument ∈ arguments, motive argument) →
      motive (.construct offset ty arguments))
    (unary : ∀ offset ty operator operand, motive operand →
      motive (.unary offset ty operator operand))
    (reference : ∀ offset ty var access, motive (.reference offset ty var access))
    (expr : Expr) : motive expr :=
  @Expr.rec motive (fun arguments => ∀ argument ∈ arguments, motive argument)
    int float bool construct unary reference
    (fun _ absent => nomatch absent)
    (fun _ _ first rest _ member => by
      rcases List.mem_cons.mp member with rfl | member
      · exact first
      · exact rest _ member)
    expr

end Expr

end ShaderIR
