import ShaderIR.Proofs.Representation

/-!
Propagation emits an event for everything that it changes, and for nothing else. A run without events
copies every node, except that an operator node takes its labels from its operand. In the other
direction, whatever emits an event leaves a tree of another form behind: a definition is not a
reference, what has been computed is not an operator node, and a conditional that gives way to a
branch leaves fewer statements than there were. What comes after cannot make up for that.
-/

namespace ShaderIR

namespace Expr

/-- An operator node has the type and the offset of its operand. -/
def Applied (expr : Expr) : Prop :=
  expr.Labelled ∧ expr.Anchored

variable {settings : Settings} {definitions : Definitions}

theorem events_refold_ne_nil {operator : Operator} {operand : Expr}
    (folds : foldable settings operator operand = true) :
    (refold settings operator operand).events ≠ [] := by
  have constant := isConstant_of_foldable settings folds
  cases operator with
  | minus =>
      have computed := isUnary_negate_of_foldable settings folds
      cases operand with
      | int | float => simp [refold, constant, isUnary]
      | construct => simp [refold, constant, computed]
      | bool | unary | reference => cases folds
  | logicalNot =>
      cases operand with
      | bool => simp [refold, constant]
      | int | float | construct | unary | reference => cases folds
  | _ => cases folds

theorem isUnary_refolded_of_foldable {operator : Operator} {operand : Expr}
    (folds : foldable settings operator operand = true) :
    (refolded settings operator operand).isUnary = false := by
  cases operator with
  | minus =>
      rw [refolded_minus]
      exact isUnary_negate_of_foldable settings folds
  | logicalNot =>
      cases operand with
      | bool => rfl
      | int | float | construct | unary | reference => cases folds
  | _ => cases folds

theorem events_propagate_unary (offset : Offset) (ty : Ty) (operator : Operator)
    (operand : Expr) :
    ((Expr.unary offset ty operator operand).propagate settings definitions).events =
      (operand.propagate settings definitions).events ++
        (refold settings operator (operand.propagate settings definitions).value).events := by
  simp [propagate]

/-- A reference is either left as it is without an event, or a constant takes its place. -/
theorem propagate_reference_eq_self_iff (offset : Offset) (ty : Ty) (var : Variable)
    (access : Access) :
    ((Expr.reference offset ty var access).propagate settings definitions).value =
        .reference offset ty var access ↔
      ((Expr.reference offset ty var access).propagate settings definitions).events = [] := by
  unfold propagate
  split
  · rename_i value found
    have constant := Definitions.isConstant_of_constant? found
    rw [← isConstant_withOffset value offset] at constant
    refine iff_of_false (fun same => ?_) (by simp)
    have same : value.withOffset offset = .reference offset ty var .read := same
    rw [same] at constant
    cases constant
  · exact iff_of_true rfl rfl

theorem propagate_eq_self_iff (expr : Expr) :
    (expr.propagate settings definitions).value = expr ↔
      (expr.propagate settings definitions).events = [] ∧ expr.Every Applied := by
  induction expr with
  | int | float | bool => simp [propagate, Applied, Labelled, Anchored]
  | reference offset ty var access =>
      rw [propagate_reference_eq_self_iff, every_reference]
      exact (and_iff_left ⟨trivial, trivial⟩).symm
  | construct offset ty arguments ih =>
      have events : ((Expr.construct offset ty arguments).propagate settings definitions).events =
          arguments.flatMap fun argument => (argument.propagate settings definitions).events := by
        simp [propagate, propagateAll_events]
      have root : (Expr.construct offset ty arguments).Applied := ⟨trivial, trivial⟩
      rw [propagate_construct, events, List.flatMap_eq_nil_iff, every_construct,
        and_iff_right root, ← forall₂_and]
      calc
        _ ↔ arguments.map (fun argument => (argument.propagate settings definitions).value) =
            arguments := by rw [Expr.construct.injEq]; simp
        _ ↔ ∀ argument ∈ arguments, (argument.propagate settings definitions).value = argument :=
          map_eq_self_iff
        _ ↔ _ := forall₂_congr ih
  | unary offset ty operator operand ih =>
      rw [propagate_unary, events_propagate_unary, List.append_eq_nil_iff, every_unary]
      cases folds : foldable settings operator (operand.propagate settings definitions).value with
      | true =>
          refine iff_of_false (fun same => ?_) fun unchanged => ?_
          · have computed := isUnary_refolded_of_foldable folds
            rw [same] at computed
            cases computed
          · exact events_refold_ne_nil folds unchanged.1.2
      | false =>
          rw [refolded_of_not_foldable settings folds, refold_eq_pure settings folds]
          constructor
          · intro same
            obtain ⟨sameOffset, sameTy, _, kept⟩ := Expr.unary.inj same
            obtain ⟨silent, below⟩ := ih.mp kept
            rw [kept] at sameOffset sameTy
            exact ⟨⟨silent, rfl⟩, ⟨sameTy.symm, sameOffset.symm⟩, below⟩
          · rintro ⟨⟨silent, _⟩, ⟨sameTy, sameOffset⟩, below⟩
            have kept := ih.mpr ⟨silent, below⟩
            rw [apply, kept, ← sameTy, ← sameOffset]

end Expr

namespace Stmt

mutual

/-- The number of statements in a statement, itself included. -/
def size : Stmt → Nat
  | .conditional _ _ _ ifTrue ifFalse => ifTrue.size + elseSize ifFalse + 1
  | .block _ body => bodySize body + 1
  | .expression .. | .nop .. => 1

def bodySize : List Stmt → Nat
  | [] => 0
  | stmt :: body => stmt.size + bodySize body

def elseSize : Option Stmt → Nat
  | none => 0
  | some stmt => stmt.size

end

variable {settings : Settings} {definitions : Definitions}

@[simp]
theorem size_withOffset (stmt : Stmt) (offset : Offset) :
    (stmt.withOffset offset).size = stmt.size := by
  cases stmt <;> rfl

theorem size_pos (stmt : Stmt) : 0 < stmt.size := by
  cases stmt <;> simp [size]

/-- A branch that takes the place of its conditional is smaller than the conditional was. -/
theorem size_branch_literal (offset testOffset : Offset) (ty : Ty) (value : Bool) (ifTrue : Stmt)
    (ifFalse : Option Stmt) :
    (branch offset true (.bool testOffset ty value) ifTrue ifFalse).value.size ≤
      ifTrue.size + elseSize ifFalse := by
  cases value with
  | true =>
      rw [branch_true, size_withOffset]
      omega
  | false =>
      have positive := ifTrue.size_pos
      rw [branch_false, size_withOffset]
      cases ifFalse with
      | none =>
          simp only [Option.getD_none, size, elseSize]
          omega
      | some stmt => simp [elseSize]

theorem size_branch_le (offset : Offset) (isStatic : Bool) (test : Expr) (ifTrue : Stmt)
    (ifFalse : Option Stmt) :
    (branch offset isStatic test ifTrue ifFalse).value.size ≤
      ifTrue.size + elseSize ifFalse + 1 := by
  obtain undecided | ⟨rfl, testOffset, ty, value, rfl⟩ := undecided_or_literal isStatic test
  · rw [branch_of_undecided offset undecided]
    exact Nat.le_refl _
  · have smaller := size_branch_literal offset testOffset ty value ifTrue ifFalse
    omega

theorem bodySize_map_le (rewrite : Stmt → Stmt) {body : List Stmt}
    (each : ∀ stmt ∈ body, (rewrite stmt).size ≤ stmt.size) :
    bodySize (body.map rewrite) ≤ bodySize body := by
  induction body with
  | nil => exact Nat.le_refl 0
  | cons stmt body ih =>
      obtain ⟨first, rest⟩ := List.forall_mem_cons.mp each
      exact Nat.add_le_add first (ih rest)

theorem elseSize_map_le (rewrite : Stmt → Stmt) {ifFalse : Option Stmt}
    (each : ∀ stmt ∈ ifFalse, (rewrite stmt).size ≤ stmt.size) :
    elseSize (ifFalse.map rewrite) ≤ elseSize ifFalse := by
  cases ifFalse with
  | none => exact Nat.le_refl 0
  | some stmt => exact each stmt rfl

theorem size_propagate_le (settings : Settings) (definitions : Definitions) (stmt : Stmt) :
    (stmt.propagate settings definitions).value.size ≤ stmt.size := by
  induction stmt with
  | conditional offset isStatic test ifTrue ifFalse ihTrue ihFalse =>
      have second := elseSize_map_le _ ihFalse
      rw [propagate_conditional, size]
      refine Nat.le_trans (size_branch_le ..) ?_
      omega
  | block offset body ih =>
      rw [propagate_block, size, size]
      exact Nat.succ_le_succ (bodySize_map_le _ ih)
  | expression | nop => exact Nat.le_refl 1

/-- What a branch becomes is too small to be the conditional that it comes from. -/
theorem branch_propagate_ne (offset testOffset : Offset) (ty : Ty) (value : Bool) (test : Expr)
    (ifTrue : Stmt) (ifFalse : Option Stmt) :
    (branch offset true (.bool testOffset ty value) (ifTrue.propagate settings definitions).value
        (ifFalse.map fun stmt => (stmt.propagate settings definitions).value)).value ≠
      .conditional offset true test ifTrue ifFalse := by
  intro same
  have smaller := size_branch_literal offset testOffset ty value
    (ifTrue.propagate settings definitions).value
    (ifFalse.map fun stmt => (stmt.propagate settings definitions).value)
  have first := ifTrue.size_propagate_le settings definitions
  have second : elseSize (ifFalse.map fun stmt => (stmt.propagate settings definitions).value) ≤
      elseSize ifFalse :=
    elseSize_map_le _ fun stmt _ => stmt.size_propagate_le settings definitions
  rw [same, size] at smaller
  omega

theorem events_branch_of_undecided {isStatic : Bool} {test : Expr}
    (undecided : isStatic = true → test.kind ≠ .boolLiteral) (offset : Offset) (ifTrue : Stmt)
    (ifFalse : Option Stmt) : (branch offset isStatic test ifTrue ifFalse).events = [] := by
  cases isStatic with
  | false => rfl
  | true =>
      cases test with
      | bool => exact absurd rfl (undecided rfl)
      | int | float | construct | unary | reference => rfl

theorem events_branch_literal (offset testOffset : Offset) (ty : Ty) (value : Bool) (ifTrue : Stmt)
    (ifFalse : Option Stmt) :
    (branch offset true (.bool testOffset ty value) ifTrue ifFalse).events ≠ [] := by
  simp [branch]

theorem events_propagate_conditional (offset : Offset) (isStatic : Bool) (test : Expr)
    (ifTrue : Stmt) (ifFalse : Option Stmt) :
    ((Stmt.conditional offset isStatic test ifTrue ifFalse).propagate settings
        definitions).events =
      (test.propagate settings definitions).events ++
        ((ifTrue.propagate settings definitions).events ++
          ((ifFalse.toList.flatMap fun stmt => (stmt.propagate settings definitions).events) ++
            (branch offset isStatic (test.propagate settings definitions).value
              (ifTrue.propagate settings definitions).value
              (ifFalse.map fun stmt => (stmt.propagate settings definitions).value)).events)) := by
  simp [propagate, propagateElse_events, propagateElse_value]

theorem propagate_eq_self_iff (stmt : Stmt) :
    (stmt.propagate settings definitions).value = stmt ↔
      (stmt.propagate settings definitions).events = [] ∧
        stmt.Every (Node.Within Expr.Applied) := by
  induction stmt with
  | nop => simp [propagate, Node.Within]
  | expression offset expr =>
      have events : ((Stmt.expression offset expr).propagate settings definitions).events =
          (expr.propagate settings definitions).events := by
        simp [propagate]
      rw [propagate_expression, events, every_expression, Stmt.expression.injEq,
        Expr.propagate_eq_self_iff]
      simp [Node.Within]
  | block offset body ih =>
      have events : ((Stmt.block offset body).propagate settings definitions).events =
          body.flatMap fun stmt => (stmt.propagate settings definitions).events := by
        simp [propagate, propagateBody_events]
      have root : (Node.stmt (.block offset body)).Within Expr.Applied := trivial
      rw [propagate_block, events, List.flatMap_eq_nil_iff, every_block, and_iff_right root,
        ← forall₂_and]
      calc
        _ ↔ body.map (fun stmt => (stmt.propagate settings definitions).value) = body := by
          rw [Stmt.block.injEq]; simp
        _ ↔ ∀ stmt ∈ body, (stmt.propagate settings definitions).value = stmt :=
          map_eq_self_iff
        _ ↔ _ := forall₂_congr ih
  | conditional offset isStatic test ifTrue ifFalse ihTrue ihFalse =>
      rw [propagate_conditional, events_propagate_conditional]
      obtain undecided | ⟨rfl, testOffset, ty, value, literal⟩ :=
        undecided_or_literal isStatic (test.propagate settings definitions).value
      · have second : (ifFalse.map fun stmt => (stmt.propagate settings definitions).value) =
              ifFalse ↔
            (ifFalse.toList.flatMap fun stmt => (stmt.propagate settings definitions).events) = [] ∧
              ∀ stmt ∈ ifFalse, stmt.Every (Node.Within Expr.Applied) := by
          cases ifFalse with
          | none => simp
          | some stmt => simpa using ihFalse stmt rfl
        rw [branch_of_undecided offset undecided, events_branch_of_undecided undecided,
          every_conditional, Stmt.conditional.injEq, Expr.propagate_eq_self_iff, ihTrue, second]
        simp only [List.append_eq_nil_iff]
        constructor
        · rintro ⟨_, _, ⟨silentTest, test⟩, ⟨silentTrue, first⟩, silentFalse, others⟩
          exact ⟨⟨silentTest, silentTrue, silentFalse, trivial⟩, trivial, test, first, others⟩
        · rintro ⟨⟨silentTest, silentTrue, silentFalse, _⟩, _, test, first, others⟩
          exact ⟨trivial, trivial, ⟨silentTest, test⟩, ⟨silentTrue, first⟩, silentFalse, others⟩
      · rw [literal]
        refine iff_of_false (branch_propagate_ne _ _ _ _ _ _ _) fun unchanged => ?_
        simp only [List.append_eq_nil_iff] at unchanged
        exact events_branch_literal _ _ _ _ _ _ unchanged.1.2.2.2

end Stmt

namespace Program

variable {settings : Settings} {definitions : Definitions}

theorem propagate_eq_self_iff (program : Program) :
    (program.propagate settings definitions).value = program ↔
      (program.propagate settings definitions).events = [] ∧
        program.Every (Stmt.Node.Within Expr.Applied) := by
  have events : (program.propagate settings definitions).events =
      program.statements.flatMap fun stmt => (stmt.propagate settings definitions).events := by
    simp [propagate, Stmt.propagateBody_events]
  have whole : (program.propagate settings definitions).value = program ↔
      (program.propagate settings definitions).value.statements = program.statements :=
    ⟨congrArg statements, congrArg mk⟩
  rw [whole, propagate_statements, map_eq_self_iff, events, List.flatMap_eq_nil_iff, Every,
    ← forall₂_and]
  exact forall₂_congr fun stmt _ => stmt.propagate_eq_self_iff

/-- Propagation leaves a program as it is exactly if it emits no event and every operator is labelled
like its operand. In what the operations of this library put together operators have the types of
their operands, so where they also stand at the same offsets, no event and no change are the same. -/
theorem silent_iff_unchanged (settings : Settings) (definitions : Definitions)
    (program : Program) :
    ((program.propagate settings definitions).value = program ↔
      (program.propagate settings definitions).events = [] ∧
        program.Every (Stmt.Node.Within Expr.Applied)) ∧
    (Obtainable (.program program) → program.Every (Stmt.Node.Within Expr.Anchored) →
      ((program.propagate settings definitions).events = [] ↔
        (program.propagate settings definitions).value = program)) := by
  refine ⟨program.propagate_eq_self_iff, fun obtained anchored => ?_⟩
  have applied : program.Every (Stmt.Node.Within Expr.Applied) := by
    intro stmt member node inside
    have sound : node.Sound := obtained.artifact_sound stmt member node inside
    have stands := anchored stmt member node inside
    cases node with
    | stmt => trivial
    | expr => exact ⟨Expr.Sound.labelled sound, stands⟩
  rw [program.propagate_eq_self_iff, and_iff_left applied]

/-- A negated vector behind a test that is not known, although another variable of that name is. If
nothing is optimized the sign stays where it is, otherwise it is moved and reported. -/
theorem silent_iff_unchanged_vector :
    let flag : Variable := ⟨0, "flag", .bool, ⟨true, false⟩⟩
    let other : Variable := ⟨1, "flag", .bool, ⟨true, false⟩⟩
    let vector : Expr := .construct 5 (.vector .float .two)
      [.int 6 (.literal .int) 1, .bool 7 .bool true]
    let program : Program := ⟨[.conditional 1 true (.referTo 2 flag .read)
      (.ofExpr (.apply .minus vector)) none]⟩
    let definitions := Definitions.empty.insert other (.bool 9 .bool true)
    Obtainable (.program program) ∧ program.Every (Stmt.Node.Within Expr.Anchored) ∧
      (program.propagate { optimize := false } definitions).value = program ∧
      (program.propagate {} definitions).value ≠ program := by
  intro flag other vector program definitions
  have parts : ∀ argument ∈ [Expr.int 6 (.literal .int) 1, .bool 7 .bool true],
      Obtainable (.expr argument) := by
    simp [Obtainable.int, Obtainable.bool]
  have negated : Obtainable (.expr (.apply .minus vector)) :=
    .negate { optimize := false } (.construct 5 (.vector .float .two) parts)
  have guarded : Obtainable (.stmt (.conditional 1 true (.referTo 2 flag .read)
      (.ofExpr (.apply .minus vector)) none)) :=
    .branch 1 true (.referTo 2 flag .read) (.ofExpr negated) fun _ absent => nomatch absent
  have obtained : Obtainable (.program program) :=
    .push .noStatements fun _ same => Except.ok.inj same ▸ guarded
  have anchored : program.Every (Stmt.Node.Within Expr.Anchored) := by
    simp [program, vector, Program.Every, Stmt.Node.Within, Stmt.ofExpr, Expr.apply, Expr.referTo,
      Expr.Anchored]
  have unchanged (settings : Settings) :=
    (silent_iff_unchanged settings definitions program).2 obtained anchored
  refine ⟨obtained, anchored, (unchanged { optimize := false }).mp rfl, fun same => ?_⟩
  have reported : (program.propagate {} definitions).events ≠ [] := by decide
  exact reported ((unchanged {}).mpr same)

end Program

end ShaderIR
