import ShaderIR.Expr.Basic

/-!
Statement trees: conditionals, blocks, expressions evaluated for their effect, and statements that
do nothing. As with expressions, a statement can be relabelled without being rebuilt.
-/

namespace ShaderIR

inductive Stmt where
  | conditional (offset : Offset) (isStatic : Bool) (test : Expr) (ifTrue : Stmt)
      (ifFalse : Option Stmt)
  | block (offset : Offset) (body : List Stmt)
  | expression (offset : Offset) (expr : Expr)
  | nop (offset : Offset)
deriving Repr

inductive StmtKind where
  | conditional
  | block
  | expression
  | nop
deriving DecidableEq, Repr

def StmtKind.text : StmtKind → String
  | .conditional => "If"
  | .block => "Block"
  | .expression => "Expression"
  | .nop => "Nop"

namespace Stmt

def kind : Stmt → StmtKind
  | .conditional .. => .conditional
  | .block .. => .block
  | .expression .. => .expression
  | .nop .. => .nop

def offset : Stmt → Offset
  | .conditional offset .. | .block offset .. | .expression offset .. | .nop offset => offset

/-- The same statement with another offset at its root; everything below keeps its own. -/
def withOffset (offset : Offset) : Stmt → Stmt
  | .conditional _ isStatic test ifTrue ifFalse =>
      .conditional offset isStatic test ifTrue ifFalse
  | .block _ body => .block offset body
  | .expression _ expr => .expression offset expr
  | .nop _ => .nop offset

@[simp]
theorem offset_withOffset (stmt : Stmt) (offset : Offset) :
    (stmt.withOffset offset).offset = offset := by
  cases stmt <;> rfl

@[simp]
theorem withOffset_offset (stmt : Stmt) : stmt.withOffset stmt.offset = stmt := by
  cases stmt <;> rfl

@[simp]
theorem withOffset_withOffset (stmt : Stmt) (first second : Offset) :
    (stmt.withOffset first).withOffset second = stmt.withOffset second := by
  cases stmt <;> rfl

/-- An expression as a statement stands where the expression does. -/
def ofExpr (expr : Expr) : Stmt :=
  .expression expr.offset expr

/-- A node of a statement tree. -/
inductive Node where
  | stmt (stmt : Stmt)
  | expr (expr : Expr)
deriving Repr

def exprOutline (depth : Nat) (expr : Expr) : List (Nat × Node) :=
  (expr.outline depth).map fun (depth, node) => (depth, .expr node)

mutual

/-- The nodes of a tree from the root down and from left to right, each with its depth. -/
def outline (depth : Nat) : Stmt → List (Nat × Node)
  | .conditional offset isStatic test ifTrue ifFalse =>
      (depth, .stmt (.conditional offset isStatic test ifTrue ifFalse)) ::
        (exprOutline (depth + 1) test ++ ifTrue.outline (depth + 1) ++
          elseOutline (depth + 1) ifFalse)
  | .block offset body => (depth, .stmt (.block offset body)) :: bodyOutline (depth + 1) body
  | .expression offset expr =>
      (depth, .stmt (.expression offset expr)) :: exprOutline (depth + 1) expr
  | .nop offset => [(depth, .stmt (.nop offset))]

def bodyOutline (depth : Nat) : List Stmt → List (Nat × Node)
  | [] => []
  | stmt :: body => stmt.outline depth ++ bodyOutline depth body

def elseOutline (depth : Nat) : Option Stmt → List (Nat × Node)
  | none => []
  | some stmt => stmt.outline depth

end

/-- Induction over statement trees, with the hypotheses for a block's statements and for the
second branch if there is one. -/
@[elab_as_elim, induction_eliminator]
theorem induction {motive : Stmt → Prop}
    (conditional : ∀ offset isStatic test ifTrue ifFalse, motive ifTrue →
      (∀ stmt ∈ ifFalse, motive stmt) →
      motive (.conditional offset isStatic test ifTrue ifFalse))
    (block : ∀ offset body, (∀ stmt ∈ body, motive stmt) → motive (.block offset body))
    (expression : ∀ offset expr, motive (.expression offset expr))
    (nop : ∀ offset, motive (.nop offset))
    (stmt : Stmt) : motive stmt :=
  @Stmt.rec motive (fun ifFalse => ∀ stmt ∈ ifFalse, motive stmt)
    (fun body => ∀ stmt ∈ body, motive stmt)
    conditional block expression nop
    (fun _ absent => nomatch absent)
    (fun _ only _ member => by
      cases member
      exact only)
    (fun _ absent => nomatch absent)
    (fun _ _ first rest _ member => by
      rcases List.mem_cons.mp member with rfl | member
      · exact first
      · exact rest _ member)
    stmt

end Stmt

end ShaderIR
