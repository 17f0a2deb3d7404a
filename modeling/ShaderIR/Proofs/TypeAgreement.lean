import Mathlib.Data.List.Flatten
import Mathlib.Data.List.Forall2
import ShaderIR.Proofs.Complements

/-!
What propagation does to types. It checks none: an operator takes the type that its operand has in
the end, and everything else keeps its own, except that a definition brings along its own type. So a
tree keeps its type up to any relation between types that its definitions keep, and its constructors
stay what they are. If definitions and variables have the same types once untyped literals are
committed, the test of a conditional stays a boolean.
-/

namespace ShaderIR

theorem Ty.isBoolean_concrete (ty : Ty) : ty.concrete.isBoolean = ty.isBoolean := by
  cases ty <;> rfl

namespace Expr

/-- An operator node has the type of its operand, and a reference that of its variable. -/
def Typed : Expr → Prop
  | .unary _ ty _ operand => ty = operand.ty
  | .reference _ ty var _ => ty = var.ty
  | _ => True

/-- If the node reads a variable with a constant definition, the types of the two agree. -/
def Agrees (agree : Ty → Ty → Prop) (definitions : Definitions) : Expr → Prop
  | .reference _ _ var .read =>
      ∀ value, definitions.constant? var = some value → agree value.ty var.ty
  | _ => True

variable {agree : Ty → Ty → Prop} {settings : Settings} {definitions : Definitions} {expr : Expr}

theorem Every.labelled_of_typed (typed : expr.Every Typed) : expr.Every Labelled := by
  refine typed.imp fun node holds => ?_
  cases node with
  | unary => exact holds
  | int | float | bool | construct | reference => trivial

theorem agree_ty_propagate (equivalence : Equivalence agree) (typed : expr.Every Typed)
    (agrees : expr.Every (Agrees agree definitions)) :
    agree (expr.propagate settings definitions).value.ty expr.ty := by
  have labelled := typed.labelled_of_typed
  rw [ty_propagate settings definitions labelled]
  cases reads : expr.reads? with
  | none => exact equivalence.refl expr.ty
  | some var =>
      cases found : definitions.constant? var with
      | none => simpa [found] using equivalence.refl expr.ty
      | some value =>
          -- The read at the base has the type of the tree and of its variable.
          obtain ⟨offset, ty, isRead⟩ := base_eq_of_reads reads
          have atBase := agrees expr.base expr.base_mem_nodes
          have declared := typed expr.base expr.base_mem_nodes
          have sameTy := ty_base labelled
          rw [isRead] at atBase declared sameTy
          have sameTy : var.ty = expr.ty := declared.symm.trans sameTy
          simpa [found, ← sameTy] using atBase value found

/-! ## Constructors -/

/-- Where a constructor stands, of what type it is, and how many arguments it has. -/
def constructor? : Expr → Option (Offset × Ty × Nat)
  | .construct offset ty arguments => some (offset, ty, arguments.length)
  | _ => none

/-- The constructors of a tree, from the root down and from left to right. -/
def constructors (expr : Expr) : List (Offset × Ty × Nat) :=
  expr.nodes.filterMap constructor?

@[simp]
theorem constructors_construct (offset : Offset) (ty : Ty) (arguments : List Expr) :
    (Expr.construct offset ty arguments).constructors =
      (offset, ty, arguments.length) :: arguments.flatMap constructors := by
  have root : (Expr.construct offset ty arguments).constructor? =
      some (offset, ty, arguments.length) := rfl
  rw [constructors, nodes_construct, List.filterMap_cons_some root, List.filterMap_flatMap]
  rfl

@[simp]
theorem constructors_unary (offset : Offset) (ty : Ty) (operator : Operator) (operand : Expr) :
    (Expr.unary offset ty operator operand).constructors = operand.constructors := by
  rw [constructors, nodes_unary, List.filterMap_cons_none rfl]
  rfl

@[simp]
theorem constructors_negate (settings : Settings) (expr : Expr) :
    (expr.negate settings).value.constructors = expr.constructors := by
  refine negate_induction settings
    (motive := fun before after => after.constructors = before.constructors) ?_ ?_ ?_ ?_ expr
  · intro offset ty value
    rfl
  · intro offset ty value
    rfl
  · intro offset ty arguments _ _ ih
    rw [constructors_construct, constructors_construct, List.length_map, List.flatMap_map]
    exact congrArg _ (List.flatMap_congr ih)
  · intro operand _
    exact constructors_unary ..

theorem constructors_refolded (settings : Settings) (operator : Operator) (operand : Expr) :
    (refolded settings operator operand).constructors = operand.constructors := by
  refine refolded_cases settings
    (motive := fun after => after.constructors = operand.constructors) operator operand ?_ ?_ ?_
  · exact fun _ => constructors_negate settings operand
  · intro _
    cases operand with
    | bool => rfl
    | int | float | construct | unary | reference => exact constructors_unary ..
  · exact fun _ _ => constructors_unary ..

/-- Definitions may bring further constructors with them; those of the tree are all kept. -/
theorem constructors_sublist_propagate (settings : Settings) (definitions : Definitions)
    (expr : Expr) :
    expr.constructors.Sublist (expr.propagate settings definitions).value.constructors := by
  induction expr with
  | int | float | bool => exact List.Sublist.refl []
  | reference => exact List.nil_sublist _
  | construct offset ty arguments ih =>
      rw [propagate_construct, constructors_construct, constructors_construct, List.length_map,
        List.flatMap_map]
      exact (List.Sublist.flatMap_right arguments ih).cons_cons _
  | unary offset ty operator operand ih =>
      rw [propagate_unary, constructors_refolded, constructors_unary]
      exact ih

end Expr

/-! ## Tests of conditionals -/

/-- If the node is a conditional, its test is a boolean. -/
def Stmt.Node.TestsBoolean : Stmt.Node → Prop
  | .stmt (.conditional _ _ test _ _) => test.ty.isBoolean = true
  | _ => True

/-- Two types are the same once untyped literals are committed. -/
def SameConcrete (first second : Ty) : Prop :=
  first.concrete = second.concrete

theorem sameConcrete_equivalence : Equivalence SameConcrete where
  refl _ := rfl
  symm same := same.symm
  trans first second := first.trans second

namespace Stmt

variable {settings : Settings} {definitions : Definitions} {stmt : Stmt}

theorem every_testsBoolean_propagate (typed : stmt.Every (Node.Within Expr.Typed))
    (agrees : stmt.Every (Node.Within (Expr.Agrees SameConcrete definitions)))
    (boolean : stmt.Every Node.TestsBoolean) :
    (stmt.propagate settings definitions).value.Every Node.TestsBoolean := by
  have every : stmt.Every fun node => node.Within Expr.Typed ∧
      node.Within (Expr.Agrees SameConcrete definitions) ∧ node.TestsBoolean :=
    fun node inside => ⟨typed node inside, agrees node inside, boolean node inside⟩
  refine every.propagate ?_ ?_ ?_ ?_
  · intro stmt offset boolean
    cases stmt with
    | conditional => exact boolean
    | block | expression | nop => trivial
  · intro stmt other
    cases stmt with
    | conditional => exact absurd rfl other
    | block | expression | nop => trivial
  · exact fun _ _ _ _ => trivial
  · intro offset isStatic test _ _ _ _ root everyTest _
    have sameConcrete : SameConcrete (test.propagate settings definitions).value.ty test.ty :=
      Expr.agree_ty_propagate sameConcrete_equivalence (everyTest.imp fun _ holds => holds.1)
        (everyTest.imp fun _ holds => holds.2.1)
    calc
      (test.propagate settings definitions).value.ty.isBoolean
          = (test.propagate settings definitions).value.ty.concrete.isBoolean :=
        (Ty.isBoolean_concrete _).symm
      _ = test.ty.concrete.isBoolean := by rw [sameConcrete]
      _ = test.ty.isBoolean := Ty.isBoolean_concrete _
      _ = true := root.2.2

end Stmt

/-- If constant definitions agree with the variables that a tree reads, in any sense of agreement,
the tree agrees with what propagation makes of it. A constructor stays one of the same type, with as
many arguments, which agree one by one; and all constructors in the tree are kept. So where a
definition has the type of its variable up to committing untyped literals, a conditional that stays
in a program has a boolean test if it had one before. -/
theorem types_after_propagation (settings : Settings) (definitions : Definitions) :
    (∀ agree : Ty → Ty → Prop, Equivalence agree → ∀ expr : Expr, expr.Every Expr.Typed →
      expr.Every (Expr.Agrees agree definitions) →
      agree (expr.propagate settings definitions).value.ty expr.ty ∧
      (∀ offset ty arguments, expr = .construct offset ty arguments → ∃ propagated,
        (expr.propagate settings definitions).value = .construct offset ty propagated ∧
        List.Forall₂ (fun after before => agree after.ty before.ty) propagated arguments) ∧
      expr.constructors.Sublist (expr.propagate settings definitions).value.constructors) ∧
    ∀ program : Program, program.Every (Stmt.Node.Within Expr.Typed) →
      program.Every (Stmt.Node.Within (Expr.Agrees SameConcrete definitions)) →
      program.Every Stmt.Node.TestsBoolean →
      (program.propagate settings definitions).value.Every Stmt.Node.TestsBoolean := by
  refine ⟨fun agree equivalence expr typed agrees => ⟨?_, ?_, ?_⟩, fun program typed agrees => ?_⟩
  · exact Expr.agree_ty_propagate equivalence typed agrees
  · rintro offset ty arguments rfl
    have typedParts := (Expr.every_construct.mp typed).2
    have agreeingParts := (Expr.every_construct.mp agrees).2
    refine ⟨_, Expr.propagate_construct .., ?_⟩
    rw [List.forall₂_map_left_iff, List.forall₂_same]
    exact fun argument member => Expr.agree_ty_propagate equivalence (typedParts argument member)
      (agreeingParts argument member)
  · exact expr.constructors_sublist_propagate settings definitions
  · intro boolean propagated member
    rw [Program.propagate_statements] at member
    obtain ⟨stmt, inside, rfl⟩ := List.mem_map.mp member
    exact Stmt.every_testsBoolean_propagate (typed stmt inside) (agrees stmt inside)
      (boolean stmt inside)

/-- A negated vector with a column that is defined by an untyped literal, behind a test whose
definition is a constant but no literal. The sign is moved into the vector and the conditional stays.
-/
theorem types_after_propagation_column :
    let x : Variable := ⟨0, "x", .float, ⟨true, false⟩⟩
    let flag : Variable := ⟨1, "flag", .bool, ⟨true, false⟩⟩
    let tree : Expr := .apply .minus (.construct 5 (.vector .float .two)
      [.apply .minus (.referTo 6 x .read), .int 7 (.literal .int) 1])
    let program : Program := ⟨[.conditional 1 true (.apply .logicalNot (.referTo 2 flag .read))
      (.ofExpr tree) none]⟩
    let definitions := (Definitions.empty.insert x (.float 8 (.literal .float) .zero)).insert flag
      (.construct 9 .bool [.int 10 .int 1])
    program.Every (Stmt.Node.Within Expr.Typed) ∧
      program.Every (Stmt.Node.Within (Expr.Agrees SameConcrete definitions)) ∧
      program.Every Stmt.Node.TestsBoolean ∧
      SameConcrete (tree.propagate {} definitions).value.ty (.vector .float .two) ∧
      List.Sublist [(5, .vector .float .two, 2)]
        (tree.propagate {} definitions).value.constructors ∧
      (program.propagate {} definitions).value.Every Stmt.Node.TestsBoolean := by
  intro x flag tree program definitions
  have typedTree : tree.Every Expr.Typed := by
    simp [tree, x, Expr.referTo, Expr.apply, Expr.Typed]
  have typed : program.Every (Stmt.Node.Within Expr.Typed) := by
    intro stmt member
    cases List.mem_singleton.mp member
    refine Stmt.every_conditional.mpr ⟨trivial, ?_, ?_, by simp⟩
    · simp [flag, Expr.referTo, Expr.apply, Expr.Typed, Stmt.Node.Within]
    · exact Stmt.every_expression.mpr ⟨trivial, typedTree⟩
  have agreesX : ∀ value, definitions.constant? x = some value → SameConcrete value.ty x.ty := by
    rintro value ⟨⟩
    rfl
  have agreesFlag : ∀ value, definitions.constant? flag = some value →
      SameConcrete value.ty flag.ty := by
    rintro value ⟨⟩
    rfl
  have agreesTree : tree.Every (Expr.Agrees SameConcrete definitions) := by
    simpa [tree, Expr.referTo, Expr.apply, Expr.Agrees] using agreesX
  have agrees : program.Every (Stmt.Node.Within (Expr.Agrees SameConcrete definitions)) := by
    intro stmt member
    cases List.mem_singleton.mp member
    refine Stmt.every_conditional.mpr ⟨trivial, ?_, ?_, by simp⟩
    · simpa [Expr.referTo, Expr.apply, Expr.Agrees, Stmt.Node.Within] using agreesFlag
    · exact Stmt.every_expression.mpr ⟨trivial, agreesTree⟩
  have boolean : program.Every Stmt.Node.TestsBoolean := by
    intro stmt member
    cases List.mem_singleton.mp member
    refine Stmt.every_conditional.mpr ⟨rfl, fun _ _ => trivial, ?_, by simp⟩
    exact Stmt.every_expression.mpr ⟨trivial, fun _ _ => trivial⟩
  have after := types_after_propagation {} definitions
  obtain ⟨sameTy, _, kept⟩ := after.1 SameConcrete sameConcrete_equivalence tree typedTree agreesTree
  exact ⟨typed, agrees, boolean, sameTy, kept, after.2 program typed agrees boolean⟩

end ShaderIR
