import Mathlib.Data.List.Flatten
import ShaderIR.Proofs.Folding

/-!
The references through which a tree writes to variables. Propagation drops trees, copies
definitions and replaces operator nodes, but all it drops or copies is constant, and a constant has
no references. So an expression keeps its writes, and a statement loses just those in the branches
that its static conditionals drop.
-/

namespace ShaderIR

/-- A reference that writes, with the operators above it, the nearest one first. -/
structure Write where
  offset : Offset
  var : Variable
  access : Access
  operators : List Operator
deriving DecidableEq, Repr

namespace Expr

mutual

/-- The references that write, from left to right, below the given operators. -/
def writesUnder (operators : List Operator) : Expr → List Write
  | .int .. | .float .. | .bool .. => []
  | .construct _ _ arguments => writesUnderAll operators arguments
  | .unary _ _ operator operand => operand.writesUnder (operator :: operators)
  | .reference _ _ _ .read => []
  | .reference offset _ var access => [⟨offset, var, access, operators⟩]

def writesUnderAll (operators : List Operator) : List Expr → List Write
  | [] => []
  | argument :: arguments => argument.writesUnder operators ++ writesUnderAll operators arguments

end

def writes (expr : Expr) : List Write :=
  expr.writesUnder []

theorem writesUnderAll_eq_flatMap (operators : List Operator) (arguments : List Expr) :
    writesUnderAll operators arguments = arguments.flatMap (writesUnder operators) := by
  induction arguments with
  | nil => rfl
  | cons argument arguments ih => rw [writesUnderAll, ih, List.flatMap_cons]

variable {expr : Expr}

theorem writesUnder_of_isConstant (constant : expr.isConstant = true) (operators : List Operator) :
    expr.writesUnder operators = [] := by
  induction expr generalizing operators with
  | int | float | bool => rfl
  | construct offset ty arguments ih =>
      rw [isConstant, allConstant_eq_all, List.all_eq_true] at constant
      rw [writesUnder, writesUnderAll_eq_flatMap, List.flatMap_eq_nil_iff]
      exact fun argument member => ih argument member (constant argument member) operators
  | unary offset ty operator operand ih =>
      rw [isConstant, Bool.and_eq_true] at constant
      exact ih constant.2 (operator :: operators)
  | reference => cases constant

theorem isConstant_refolded_of_foldable {settings : Settings} {operator : Operator} {operand : Expr}
    (folds : foldable settings operator operand = true) :
    (refolded settings operator operand).isConstant = true := by
  refine refolded_cases settings (motive := fun after => after.isConstant = true) operator operand
    ?_ ?_ ?_
  · intro _
    rw [isConstant_negate]
    exact isConstant_of_foldable settings folds
  · rintro rfl
    cases operand with
    | bool => rfl
    | int | float | construct | unary | reference => cases folds
  · intro notMinus notInversion
    rw [foldable_of_ne settings notMinus notInversion] at folds
    cases folds

theorem writesUnder_refolded (settings : Settings) (operator : Operator) (operand : Expr)
    (operators : List Operator) :
    (refolded settings operator operand).writesUnder operators =
      operand.writesUnder (operator :: operators) := by
  cases folds : foldable settings operator operand with
  | false =>
      rw [refolded_of_not_foldable settings folds]
      rfl
  | true =>
      rw [writesUnder_of_isConstant (isConstant_refolded_of_foldable folds),
        writesUnder_of_isConstant (isConstant_of_foldable settings folds)]

theorem writesUnder_propagate (settings : Settings) (definitions : Definitions) (expr : Expr)
    (operators : List Operator) :
    (expr.propagate settings definitions).value.writesUnder operators =
      expr.writesUnder operators := by
  induction expr generalizing operators with
  | int | float | bool => rfl
  | construct offset ty arguments ih =>
      rw [propagate_construct, writesUnder, writesUnder, writesUnderAll_eq_flatMap,
        writesUnderAll_eq_flatMap, List.flatMap_map]
      exact List.flatMap_congr fun argument member => ih argument member operators
  | unary offset ty operator operand ih =>
      rw [propagate_unary, writesUnder_refolded, ih, writesUnder]
  | reference offset ty var access =>
      rcases propagate_reference settings offset ty definitions var access with
        kept | ⟨rfl, value, found, replaced⟩
      · rw [kept]
      · have constant : (value.withOffset offset).isConstant = true := by
          rw [isConstant_withOffset]
          exact Definitions.isConstant_of_constant? found
        rw [replaced, writesUnder_of_isConstant constant]
        rfl

end Expr

namespace Stmt

mutual

/-- The writes of a statement in order, less those in branches that are ruled out. A verdict on the
test of a static conditional rules out the branch it does not select. -/
def writesGiven (verdict : Expr → Option Bool) : Stmt → List Write
  | .conditional _ isStatic test ifTrue ifFalse =>
      test.writes ++
        match isStatic, verdict test with
        | true, some true => ifTrue.writesGiven verdict
        | true, some false => writesGivenElse verdict ifFalse
        | _, _ => ifTrue.writesGiven verdict ++ writesGivenElse verdict ifFalse
  | .block _ body => writesGivenBody verdict body
  | .expression _ expr => expr.writes
  | .nop _ => []

def writesGivenBody (verdict : Expr → Option Bool) : List Stmt → List Write
  | [] => []
  | stmt :: body => stmt.writesGiven verdict ++ writesGivenBody verdict body

def writesGivenElse (verdict : Expr → Option Bool) : Option Stmt → List Write
  | none => []
  | some stmt => stmt.writesGiven verdict

end

/-- All writes of a statement, no branch being ruled out. -/
def writes (stmt : Stmt) : List Write :=
  stmt.writesGiven fun _ => none

variable {verdict : Expr → Option Bool}

theorem writesGivenBody_eq_flatMap (verdict : Expr → Option Bool) (body : List Stmt) :
    writesGivenBody verdict body = body.flatMap (writesGiven verdict) := by
  induction body with
  | nil => rfl
  | cons stmt body ih => rw [writesGivenBody, ih, List.flatMap_cons]

@[simp]
theorem writes_withOffset (stmt : Stmt) (offset : Offset) :
    (stmt.withOffset offset).writes = stmt.writes := by
  cases stmt <;> rfl

theorem writesGiven_conditional (verdict : Expr → Option Bool) (offset : Offset) (isStatic : Bool)
    (test : Expr) (ifTrue : Stmt) (ifFalse : Option Stmt) :
    (Stmt.conditional offset isStatic test ifTrue ifFalse).writesGiven verdict =
      test.writes ++
        match isStatic, verdict test with
        | true, some true => ifTrue.writesGiven verdict
        | true, some false => writesGivenElse verdict ifFalse
        | _, _ => ifTrue.writesGiven verdict ++ writesGivenElse verdict ifFalse := rfl

theorem writes_conditional (offset : Offset) (isStatic : Bool) (test : Expr) (ifTrue : Stmt)
    (ifFalse : Option Stmt) :
    (Stmt.conditional offset isStatic test ifTrue ifFalse).writes =
      test.writes ++ (ifTrue.writes ++ writesGivenElse (fun _ => none) ifFalse) := by
  cases isStatic <;> rfl

theorem writes_branch (offset : Offset) (isStatic : Bool) (test : Expr) (ifTrue : Stmt)
    (ifFalse : Option Stmt) :
    (branch offset isStatic test ifTrue ifFalse).value.writes =
      test.writes ++
        match isStatic, test.verdict? with
        | true, some true => ifTrue.writes
        | true, some false => writesGivenElse (fun _ => none) ifFalse
        | _, _ => ifTrue.writes ++ writesGivenElse (fun _ => none) ifFalse := by
  obtain undecided | ⟨rfl, testOffset, ty, value, rfl⟩ := undecided_or_literal isStatic test
  · rw [branch_of_undecided offset undecided, writes_conditional]
    cases isStatic with
    | false => rfl
    | true =>
        cases test with
        | bool => exact absurd rfl (undecided rfl)
        | int | float | construct | unary | reference => rfl
  · cases value with
    | true =>
        rw [branch_true, writes_withOffset]
        rfl
    | false =>
        rw [branch_false, writes_withOffset]
        cases ifFalse <;> rfl

theorem writes_propagate (settings : Settings) (definitions : Definitions) (stmt : Stmt) :
    (stmt.propagate settings definitions).value.writes =
      stmt.writesGiven fun test => (test.propagate settings definitions).value.verdict? := by
  induction stmt with
  | conditional offset isStatic test ifTrue ifFalse ihTrue ihFalse =>
      have branches : writesGivenElse (fun _ => none)
          (ifFalse.map fun stmt => (stmt.propagate settings definitions).value) =
          writesGivenElse (fun test => (test.propagate settings definitions).value.verdict?)
            ifFalse := by
        cases ifFalse with
        | none => rfl
        | some stmt => exact ihFalse stmt rfl
      rw [propagate_conditional, writes_branch, ihTrue, branches, Expr.writes,
        Expr.writesUnder_propagate, writesGiven_conditional, Expr.writes]
  | block offset body ih =>
      rw [propagate_block, writes, writesGiven, writesGiven, writesGivenBody_eq_flatMap,
        writesGivenBody_eq_flatMap, List.flatMap_map]
      exact List.flatMap_congr ih
  | expression offset expr => exact expr.writesUnder_propagate settings definitions []
  | nop offset => rfl

/-- Ruling out branches takes writes away and changes nothing else about the list. -/
theorem writesGiven_sublist (verdict : Expr → Option Bool) (stmt : Stmt) :
    (stmt.writesGiven verdict).Sublist stmt.writes := by
  induction stmt with
  | conditional offset isStatic test ifTrue ifFalse ihTrue ihFalse =>
      have branches : (writesGivenElse verdict ifFalse).Sublist
          (writesGivenElse (fun _ => none) ifFalse) := by
        cases ifFalse with
        | none => exact List.Sublist.refl []
        | some stmt => exact ihFalse stmt rfl
      rw [writes_conditional, writesGiven_conditional]
      refine (List.Sublist.refl test.writes).append ?_
      split
      · exact ihTrue.trans (List.sublist_append_left _ _)
      · exact branches.trans (List.sublist_append_right _ _)
      · exact ihTrue.append branches
  | block offset body ih =>
      rw [writes, writesGiven, writesGiven, writesGivenBody_eq_flatMap, writesGivenBody_eq_flatMap]
      exact List.Sublist.flatMap_right body ih
  | expression offset expr => exact List.Sublist.refl expr.writes
  | nop offset => exact List.Sublist.refl []

end Stmt

/-- Propagation keeps the writes of an expression: none is lost, repeated, moved or added, and each
stays under the operators it was under. Of the writes of a statement it keeps all but those in the
branches that are not selected by a static conditional whose propagated test is a literal. -/
theorem writes_after_propagation (settings : Settings) (definitions : Definitions) :
    (∀ expr : Expr, (expr.propagate settings definitions).value.writes = expr.writes) ∧
    ∀ stmt : Stmt,
      let kept := stmt.writesGiven fun test => (test.propagate settings definitions).value.verdict?
      (stmt.propagate settings definitions).value.writes = kept ∧ kept.Sublist stmt.writes := by
  refine ⟨fun expr => ?_, fun stmt => ⟨?_, ?_⟩⟩
  · exact expr.writesUnder_propagate settings definitions []
  · exact stmt.writes_propagate settings definitions
  · exact stmt.writesGiven_sublist _

end ShaderIR
