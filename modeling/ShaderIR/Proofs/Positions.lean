import ShaderIR.Proofs.Composition
import ShaderIR.Proofs.Labels
import ShaderIR.Proofs.Representation

/-!
Where trees stand after propagation. Statements keep their offsets. An expression is moved to the
offset of its base, so it keeps its own only if the two agree. Building puts every operator where
its operand stands, and propagation keeps it there unless a definition that starts with an operator
is put in: such a definition is relabelled at its root, and the next run drops that label again.
-/

namespace ShaderIR

namespace Expr

variable {expr : Expr}

theorem anchored_of_not_unary (expr : Expr) (notUnary : expr.isUnary = false) : expr.Anchored := by
  cases expr with
  | unary => cases notUnary
  | int | float | bool | construct | reference => trivial

theorem inherited_anchored (settings : Settings) : Inherited settings (Every Anchored) := by
  refine inherited_of_apply anchored_of_not_unary ?_ ?_ ?_ ?_
  · exact fun _ => rfl
  · exact fun _ => rfl
  · exact fun _ _ => rfl
  · exact fun _ _ _ => rfl

theorem Plain.anchored (plain : expr.Plain) : expr.Every Anchored :=
  plain.imp anchored_of_not_unary

theorem every_anchored_propagate (settings : Settings) {definitions : Definitions}
    (plain : definitions.Plain) (anchored : expr.Every Anchored) :
    (expr.propagate settings definitions).value.Every Anchored := by
  induction expr with
  | int | float | bool => exact anchored
  | reference offset ty var access =>
      rcases propagate_reference settings offset ty definitions var access with
        kept | ⟨_, value, found, replaced⟩
      · rw [kept]
        exact anchored
      · rw [replaced]
        exact ((plain var value found).withOffset offset).anchored
  | construct offset ty arguments ih =>
      have parts := (every_construct.mp anchored).2
      rw [propagate_construct]
      refine every_construct.mpr ⟨trivial, fun propagated member => ?_⟩
      obtain ⟨argument, inside, rfl⟩ := List.mem_map.mp member
      exact ih argument inside (parts argument inside)
  | unary offset ty operator operand ih =>
      have below := ih (every_unary.mp anchored).2
      rw [propagate_unary]
      refine refolded_cases settings (motive := fun after => after.Every Anchored) operator _
        ?_ ?_ ?_
      · exact fun _ => (inherited_anchored settings).negate _ below
      · exact fun _ => (inherited_anchored settings).invert _ below
      · exact fun _ _ => every_apply.mpr ⟨rfl, below⟩

end Expr

namespace Stmt

theorem offset_branch (offset : Offset) (isStatic : Bool) (test : Expr) (ifTrue : Stmt)
    (ifFalse : Option Stmt) :
    (branch offset isStatic test ifTrue ifFalse).value.offset = offset := by
  obtain undecided | ⟨rfl, testOffset, ty, value, rfl⟩ := undecided_or_literal isStatic test
  · rw [branch_of_undecided offset undecided]
    rfl
  · cases value with
    | true => rw [branch_true, offset_withOffset]
    | false => rw [branch_false, offset_withOffset]

theorem offset_propagate (settings : Settings) (definitions : Definitions) (stmt : Stmt) :
    (stmt.propagate settings definitions).value.offset = stmt.offset := by
  cases stmt with
  | conditional offset isStatic test ifTrue ifFalse =>
      rw [propagate_conditional, offset_branch]
      rfl
  | block offset body => rw [propagate_block]; rfl
  | expression offset expr => rw [propagate_expression]; rfl
  | nop offset => rfl

end Stmt

/-- A statement keeps its offset, whether it is flattened or not. An expression keeps the offset of
its root exactly if its base stands there as well. That is so if it was built by a script, which
relabels nothing, and then went through runs with plain definitions only. -/
theorem positions_after_propagation (settings : Settings) (definitions : Definitions) :
    (∀ stmt : Stmt, (stmt.propagate settings definitions).value.offset = stmt.offset) ∧
    (∀ expr : Expr, (expr.propagate settings definitions).value.offset = expr.offset ↔
      expr.base.offset = expr.offset) ∧
    ∀ (recipe : ExprRecipe) (building : Settings) (journal : Journal) (expr : Expr)
      (runs : List (Settings × Definitions)), recipe.isScript = true →
      (recipe.build.run building journal).1 = .ok expr → (∀ run ∈ runs, run.2.Plain) →
      ((expr.afterRuns runs).propagate settings definitions).value.offset =
        (expr.afterRuns runs).offset := by
  refine ⟨Stmt.offset_propagate settings definitions, fun expr => ?_, ?_⟩
  · rw [Expr.offset_propagate]
  · intro recipe building journal expr runs script built plain
    have anchored : expr.Every Expr.Anchored :=
      ExprRecipe.build_ensures (Expr.inherited_anchored building) recipe script journal expr built
    have stays : (expr.afterRuns runs).Every Expr.Anchored :=
      Expr.afterRuns_induction anchored fun run member _ =>
        Expr.every_anchored_propagate run.1 (plain run member)
    rw [Expr.offset_propagate, Expr.offset_base stays]

/-- A negated vector with a column that the first run finds out and the second folds. -/
theorem positions_after_propagation_column :
    let x : Variable := ⟨0, "x", .float, ⟨true, false⟩⟩
    let recipe : ExprRecipe := .unary .minus (.construct 1 (.vector .float .two)
      [.reference 2 x .read, .int 3 (.literal .int) 1])
    let expr : Expr := .unary 1 (.vector .float .two) .minus (.construct 1 (.vector .float .two)
      [.reference 2 .float x .read, .int 3 (.literal .int) 1])
    let definitions := Definitions.empty.insert x (.float 50 .float ⟨0x3FF0000000000000⟩)
    let runs : List (Settings × Definitions) := [({ optimize := false }, definitions)]
    recipe.isScript = true ∧ (recipe.build.run {} {}).1 = .ok expr ∧ (∀ run ∈ runs, run.2.Plain) ∧
      ((expr.afterRuns runs).propagate {} .empty).value.offset = (expr.afterRuns runs).offset ∧
      (expr.afterRuns runs).offset = 1 := by
  intro x recipe expr definitions runs
  have script : recipe.isScript = true := rfl
  have built : (recipe.build.run {} {}).1 = .ok expr := rfl
  have plain : ∀ run ∈ runs, run.2.Plain := by
    intro run member
    rw [List.mem_singleton.mp member]
    exact Definitions.plain_empty.insert x (Expr.every_float.mpr rfl)
  exact ⟨script, built, plain,
    (positions_after_propagation {} .empty).2.2 recipe {} {} expr runs script built plain, rfl⟩

/-- The two ways in which an operator can stand elsewhere than its operand: it was relabelled, or it
is the root of a definition that a run without optimization has put in place of a read. In both
cases the next run moves it. -/
theorem operator_moved_by_propagation :
    let x : Variable := ⟨0, "x", .int, ⟨false, false⟩⟩
    let relabelled : Expr := .unary 9 .int .minus (.reference 4 .int x .read)
    let pair : Expr := .construct 60 (.vector .int .two) [.int 61 .int 1, .int 62 .int 2]
    let substituted : Expr := .unary 5 (.vector .int .two) .minus pair
    Obtainable (.expr relabelled) ∧
      (relabelled.propagate {} .empty).value.offset ≠ relabelled.offset ∧
    Obtainable (.expr substituted) ∧
      (substituted.propagate { optimize := false } .empty).value.offset ≠ substituted.offset := by
  intro x relabelled pair substituted
  let v : Variable := ⟨1, "v", .vector .int .two, ⟨true, false⟩⟩
  have obtained : Obtainable (.expr relabelled) :=
    .relocate 9 (@Obtainable.buildUnary _ _ {} {} .minus (.referTo 4 x .read) rfl)
  have columns : ∀ column ∈ [Expr.int 61 .int 1, .int 62 .int 2], Obtainable (.expr column) := by
    simp [Obtainable.int]
  have vector : Obtainable (.expr pair) := .construct 60 (.vector .int .two) columns
  have negated : Obtainable (.expr (.unary 60 (.vector .int .two) .minus pair)) :=
    @Obtainable.buildUnary _ _ { optimize := false } {} .minus vector rfl
  have known := Obtainable.insert v .noDefinitions negated
  have read : Obtainable (.stmt (.ofExpr (.referTo 5 v .read))) := .ofExpr (.referTo 5 v .read)
  have replaced : Obtainable (.expr substituted) :=
    .exprOf (.statement
      (.propagate { optimize := false }
        (.push .noStatements fun _ same => Except.ok.inj same ▸ read) known)
      (List.mem_singleton.mpr rfl))
  exact ⟨obtained, by decide, replaced, by decide⟩

end ShaderIR
