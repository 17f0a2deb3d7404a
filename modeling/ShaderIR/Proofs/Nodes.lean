import Mathlib.Data.List.Basic
import ShaderIR.Program

/-!
The nodes of a tree, and properties that hold at every one of them. Nodes are those that the
outline of the tree lists; at what depth they stand does not matter here.
-/

namespace ShaderIR

theorem map_eq_self_iff {α : Type} {f : α → α} {list : List α} :
    list.map f = list ↔ ∀ entry ∈ list, f entry = entry := by
  calc
    list.map f = list ↔ list.map f = list.map id := by rw [List.map_id]
    _ ↔ ∀ entry ∈ list, f entry = entry := List.map_inj_left

namespace Expr

def nodes (expr : Expr) : List Expr :=
  (expr.outline 0).map Prod.snd

theorem outlineAll_eq_flatMap (depth : Nat) (arguments : List Expr) :
    outlineAll depth arguments = arguments.flatMap (outline depth) := by
  induction arguments with
  | nil => rfl
  | cons argument arguments ih => simp only [outlineAll, List.flatMap_cons, ih]

theorem map_outline (expr : Expr) (depth : Nat) :
    (expr.outline depth).map Prod.snd = expr.nodes := by
  suffices same : ∀ first second,
      (expr.outline first).map Prod.snd = (expr.outline second).map Prod.snd from same depth 0
  induction expr with
  | construct offset ty arguments ih =>
      intro first second
      simp only [outline, outlineAll_eq_flatMap, List.map_cons, List.map_flatMap]
      congr 1
      exact List.flatMap_congr fun argument member => ih argument member (first + 1) (second + 1)
  | unary offset ty operator operand ih =>
      intro first second
      simp only [outline, List.map_cons, ih (first + 1) (second + 1)]
  | _ => intro first second; rfl

@[simp]
theorem nodes_int (offset : Offset) (ty : Ty) (value : Int64) :
    (Expr.int offset ty value).nodes = [.int offset ty value] := rfl

@[simp]
theorem nodes_float (offset : Offset) (ty : Ty) (value : Binary64) :
    (Expr.float offset ty value).nodes = [.float offset ty value] := rfl

@[simp]
theorem nodes_bool (offset : Offset) (ty : Ty) (value : Bool) :
    (Expr.bool offset ty value).nodes = [.bool offset ty value] := rfl

@[simp]
theorem nodes_reference (offset : Offset) (ty : Ty) (var : Variable) (access : Access) :
    (Expr.reference offset ty var access).nodes = [.reference offset ty var access] := rfl

@[simp]
theorem nodes_construct (offset : Offset) (ty : Ty) (arguments : List Expr) :
    (Expr.construct offset ty arguments).nodes =
      .construct offset ty arguments :: arguments.flatMap nodes := by
  simp only [nodes, outline, outlineAll_eq_flatMap, List.map_cons, List.map_flatMap]
  congr 1
  exact List.flatMap_congr fun argument _ => argument.map_outline 1

@[simp]
theorem nodes_unary (offset : Offset) (ty : Ty) (operator : Operator) (operand : Expr) :
    (Expr.unary offset ty operator operand).nodes =
      .unary offset ty operator operand :: operand.nodes := by
  simp only [nodes, outline, List.map_cons]
  exact congrArg _ (operand.map_outline 1)

theorem self_mem_nodes (expr : Expr) : expr ∈ expr.nodes := by
  cases expr <;> simp

/-- A property holds at every node of the tree. -/
def Every (holds : Expr → Prop) (expr : Expr) : Prop :=
  ∀ node ∈ expr.nodes, holds node

variable {holds : Expr → Prop} {offset : Offset} {ty : Ty}

@[simp]
theorem every_int {value : Int64} :
    (Expr.int offset ty value).Every holds ↔ holds (.int offset ty value) := by
  simp [Every]

@[simp]
theorem every_float {value : Binary64} :
    (Expr.float offset ty value).Every holds ↔ holds (.float offset ty value) := by
  simp [Every]

@[simp]
theorem every_bool {value : Bool} :
    (Expr.bool offset ty value).Every holds ↔ holds (.bool offset ty value) := by
  simp [Every]

@[simp]
theorem every_reference {var : Variable} {access : Access} :
    (Expr.reference offset ty var access).Every holds ↔
      holds (.reference offset ty var access) := by
  simp [Every]

@[simp]
theorem every_construct {arguments : List Expr} :
    (Expr.construct offset ty arguments).Every holds ↔
      holds (.construct offset ty arguments) ∧ ∀ argument ∈ arguments, argument.Every holds := by
  simp only [Every, nodes_construct, List.mem_cons, List.mem_flatMap, forall_eq_or_imp,
    forall_exists_index, and_imp]
  refine and_congr_right fun _ => ⟨?_, ?_⟩
  · exact fun all argument member node inside => all node argument member inside
  · exact fun all node argument member inside => all argument member node inside

@[simp]
theorem every_unary {operator : Operator} {operand : Expr} :
    (Expr.unary offset ty operator operand).Every holds ↔
      holds (.unary offset ty operator operand) ∧ operand.Every holds := by
  simp [Every]

@[simp]
theorem every_apply {operator : Operator} {operand : Expr} :
    (apply operator operand).Every holds ↔
      holds (apply operator operand) ∧ operand.Every holds :=
  every_unary

theorem Every.root {expr : Expr} (every : expr.Every holds) : holds expr :=
  every expr expr.self_mem_nodes

theorem Every.imp {expr : Expr} {weaker : Expr → Prop} (every : expr.Every holds)
    (implies : ∀ node, holds node → weaker node) : expr.Every weaker :=
  fun node member => implies node (every node member)

theorem Every.at_node {expr node : Expr} (every : expr.Every holds) (member : node ∈ expr.nodes) :
    node.Every holds := by
  induction expr with
  | int | float | bool | reference =>
      cases List.mem_singleton.mp member
      exact every
  | construct offset ty arguments ih =>
      rw [nodes_construct] at member
      rcases List.mem_cons.mp member with rfl | below
      · exact every
      · obtain ⟨argument, inside, found⟩ := List.mem_flatMap.mp below
        exact ih argument inside ((every_construct.mp every).2 argument inside) found
  | unary offset ty operator operand ih =>
      rw [nodes_unary] at member
      rcases List.mem_cons.mp member with rfl | below
      · exact every
      · exact ih (every_unary.mp every).2 below

/-- Relabelling a tree touches its root only. -/
theorem Every.withOffset {expr : Expr} (every : expr.Every holds)
    (relabelled : holds (expr.withOffset offset)) : (expr.withOffset offset).Every holds := by
  cases expr <;> simp_all [Expr.withOffset]

end Expr

namespace Stmt

def nodes (stmt : Stmt) : List Node :=
  (stmt.outline 0).map Prod.snd

theorem map_exprOutline (depth : Nat) (expr : Expr) :
    (exprOutline depth expr).map Prod.snd = expr.nodes.map Node.expr := by
  rw [← expr.map_outline depth]
  simp only [exprOutline, List.map_map]
  rfl

theorem bodyOutline_eq_flatMap (depth : Nat) (body : List Stmt) :
    bodyOutline depth body = body.flatMap (outline depth) := by
  induction body with
  | nil => rfl
  | cons stmt body ih => simp only [bodyOutline, List.flatMap_cons, ih]

theorem elseOutline_eq_flatMap (depth : Nat) (ifFalse : Option Stmt) :
    elseOutline depth ifFalse = ifFalse.toList.flatMap (outline depth) := by
  cases ifFalse <;> simp [elseOutline]

theorem map_outline (stmt : Stmt) (depth : Nat) :
    (stmt.outline depth).map Prod.snd = stmt.nodes := by
  suffices same : ∀ first second,
      (stmt.outline first).map Prod.snd = (stmt.outline second).map Prod.snd from same depth 0
  induction stmt with
  | conditional offset isStatic test ifTrue ifFalse ihTrue ihFalse =>
      intro first second
      have branches : (elseOutline (first + 1) ifFalse).map Prod.snd =
          (elseOutline (second + 1) ifFalse).map Prod.snd := by
        cases ifFalse with
        | none => rfl
        | some stmt => exact ihFalse stmt rfl (first + 1) (second + 1)
      simp only [outline, List.map_cons, List.map_append, map_exprOutline, branches,
        ihTrue (first + 1) (second + 1)]
  | block offset body ih =>
      intro first second
      simp only [outline, bodyOutline_eq_flatMap, List.map_cons, List.map_flatMap]
      congr 1
      exact List.flatMap_congr fun stmt member => ih stmt member (first + 1) (second + 1)
  | expression offset expr =>
      intro first second
      simp only [outline, List.map_cons, map_exprOutline]
  | nop offset => intro first second; rfl

/-- A property of expressions, asked of all expressions in a statement. -/
def Node.Within (holds : Expr → Prop) : Node → Prop
  | .expr inner => holds inner
  | .stmt _ => True

def Every (holds : Node → Prop) (stmt : Stmt) : Prop :=
  ∀ node ∈ stmt.nodes, holds node

variable {holds : Node → Prop} {offset : Offset}

@[simp]
theorem every_conditional {isStatic : Bool} {test : Expr} {ifTrue : Stmt}
    {ifFalse : Option Stmt} :
    (Stmt.conditional offset isStatic test ifTrue ifFalse).Every holds ↔
      holds (.stmt (.conditional offset isStatic test ifTrue ifFalse)) ∧
        test.Every (fun node => holds (.expr node)) ∧ ifTrue.Every holds ∧
        ∀ stmt ∈ ifFalse, stmt.Every holds := by
  have listed : (Stmt.conditional offset isStatic test ifTrue ifFalse).nodes =
      .stmt (.conditional offset isStatic test ifTrue ifFalse) ::
        (test.nodes.map Node.expr ++ ifTrue.nodes ++ ifFalse.toList.flatMap nodes) := by
    rw [nodes]
    simp only [outline, elseOutline_eq_flatMap, List.map_cons, List.map_append,
      map_exprOutline, List.map_flatMap, map_outline]
  cases ifFalse <;>
    simp [Every, Expr.Every, listed, or_imp, forall_and]

@[simp]
theorem every_block {body : List Stmt} :
    (Stmt.block offset body).Every holds ↔
      holds (.stmt (.block offset body)) ∧ ∀ stmt ∈ body, stmt.Every holds := by
  have listed : (Stmt.block offset body).nodes =
      .stmt (.block offset body) :: body.flatMap nodes := by
    rw [nodes]
    simp only [outline, bodyOutline_eq_flatMap, List.map_cons, List.map_flatMap, map_outline]
  simp only [Every, listed, List.mem_cons, List.mem_flatMap, forall_eq_or_imp,
    forall_exists_index, and_imp]
  refine and_congr_right fun _ => ⟨?_, ?_⟩
  · exact fun all stmt member node inside => all node stmt member inside
  · exact fun all node stmt member inside => all stmt member node inside

@[simp]
theorem every_expression {expr : Expr} :
    (Stmt.expression offset expr).Every holds ↔
      holds (.stmt (.expression offset expr)) ∧ expr.Every (fun node => holds (.expr node)) := by
  have listed : (Stmt.expression offset expr).nodes =
      .stmt (.expression offset expr) :: expr.nodes.map Node.expr := by
    simp only [nodes, outline, List.map_cons, map_exprOutline]
  simp [Every, Expr.Every, listed]

@[simp]
theorem every_nop : (Stmt.nop offset).Every holds ↔ holds (.stmt (.nop offset)) := by
  simp [Every, nodes, outline]

theorem Every.root {stmt : Stmt} (every : stmt.Every holds) : holds (.stmt stmt) :=
  every (.stmt stmt) (by cases stmt <;> simp [nodes, outline])

theorem Every.withOffset {stmt : Stmt} (every : stmt.Every holds)
    (relabelled : holds (.stmt (stmt.withOffset offset))) :
    (stmt.withOffset offset).Every holds := by
  cases stmt <;> simp_all [Stmt.withOffset]

end Stmt

def Program.Every (holds : Stmt.Node → Prop) (program : Program) : Prop :=
  ∀ stmt ∈ program.statements, stmt.Every holds

end ShaderIR
