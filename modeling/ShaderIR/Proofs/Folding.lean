import ShaderIR.Proofs.Nodes

/-!
What folding and propagation compute, apart from the events they emit. An operator node that
propagation puts together anew is negated, inverted or left standing, exactly as if the operator
were being applied for the first time; `refolded_minus` and `refolded_logicalNot` say so, and let
every statement about propagation be read off statements about folding.
-/

namespace ShaderIR

namespace Expr

/-- Whether an operator is computed away on an operand of this shape. -/
def foldable (settings : Settings) : Operator → Expr → Bool
  | .minus, .int .. | .minus, .float .. | .logicalNot, .bool .. => true
  | .minus, .construct _ _ arguments => settings.optimize && allConstant arguments
  | _, _ => false

/-- The value of a boolean literal; nothing else is one. -/
def verdict? : Expr → Option Bool
  | .bool _ _ value => some value
  | _ => none

@[simp]
theorem verdict?_withOffset (expr : Expr) (offset : Offset) :
    (expr.withOffset offset).verdict? = expr.verdict? := by
  cases expr <;> rfl

theorem verdict?_eq_some_iff {expr : Expr} {value : Bool} :
    expr.verdict? = some value ↔ ∃ offset ty, expr = .bool offset ty value := by
  cases expr <;> simp [verdict?]

variable (settings : Settings) (offset : Offset) (ty : Ty)

@[simp]
theorem negate_int (value : Int64) :
    ((Expr.int offset ty value).negate settings).value = .int offset ty (-value) := rfl

@[simp]
theorem negate_float (value : Binary64) :
    ((Expr.float offset ty value).negate settings).value = .float offset ty (-value) := rfl

theorem negateAll_value (arguments : List Expr) :
    (negateAll settings arguments).value =
      arguments.map fun argument => (argument.negate settings).value := by
  induction arguments with
  | nil => rfl
  | cons argument arguments ih => simp [negateAll, ih]

theorem negateAll_events (arguments : List Expr) :
    (negateAll settings arguments).events =
      arguments.flatMap fun argument => (argument.negate settings).events := by
  induction arguments with
  | nil => rfl
  | cons argument arguments ih => simp [negateAll, ih]

theorem negate_construct {arguments : List Expr} (optimizes : settings.optimize = true)
    (constant : allConstant arguments = true) :
    ((Expr.construct offset ty arguments).negate settings).value =
      .construct offset ty (arguments.map fun argument => (argument.negate settings).value) := by
  simp [negate, optimizes, constant, negateAll_value]

/-- A negation moves through a constructor around a constant. -/
theorem negate_wrapped {argument : Expr} (optimizes : settings.optimize = true)
    (constant : argument.isConstant = true) :
    ((Expr.construct offset ty [argument]).negate settings).value =
      .construct offset ty [(argument.negate settings).value] := by
  have arguments : allConstant [argument] = true := by
    rw [allConstant, constant]
    rfl
  exact negate_construct settings offset ty optimizes arguments

/-- A negation that is not computed leaves no trace. -/
theorem negate_eq_pure {operand : Expr} (unfoldable : foldable settings .minus operand = false) :
    operand.negate settings = pure (apply .minus operand) := by
  cases operand with
  | construct offset ty arguments =>
      have kept : (settings.optimize && allConstant arguments) = false := unfoldable
      simp [negate, kept]
  | int | float => cases unfoldable
  | bool | unary | reference => rfl

theorem negate_of_not_foldable {operand : Expr}
    (unfoldable : foldable settings .minus operand = false) :
    (operand.negate settings).value = apply .minus operand := by
  rw [negate_eq_pure settings unfoldable, Traced.value_pure]

@[simp]
theorem invert_bool (value : Bool) :
    (Expr.bool offset ty value).invert.value = .bool offset ty (!value) := rfl

theorem invert_of_not_foldable {operand : Expr}
    (unfoldable : foldable settings .logicalNot operand = false) :
    operand.invert.value = apply .logicalNot operand := by
  cases operand with
  | bool => cases unfoldable
  | int | float | construct | unary | reference => rfl

/-- An operator is computed only on a constant. -/
theorem isConstant_of_foldable {operator : Operator} {operand : Expr}
    (folds : foldable settings operator operand = true) : operand.isConstant = true := by
  cases operator with
  | minus =>
      cases operand with
      | construct offset ty arguments => exact (Bool.and_eq_true_iff.mp folds).2
      | int | float => rfl
      | bool | unary | reference => cases folds
  | logicalNot =>
      cases operand with
      | bool => rfl
      | int | float | construct | unary | reference => cases folds
  | _ => cases folds

theorem isUnary_negate_of_foldable {operand : Expr}
    (folds : foldable settings .minus operand = true) :
    (operand.negate settings).value.isUnary = false := by
  cases operand with
  | construct offset ty arguments =>
      have pushed : settings.optimize = true ∧ allConstant arguments = true := by
        simpa only [foldable, Bool.and_eq_true] using folds
      rw [negate_construct settings offset ty pushed.1 pushed.2]
      rfl
  | int | float => rfl
  | bool | unary | reference => cases folds

/-- An operator node over `operand` as propagation leaves it. -/
def refolded (operator : Operator) (operand : Expr) : Expr :=
  (refold settings operator operand).value.getD (apply operator operand)

theorem refold_eq_pure {operator : Operator} {operand : Expr}
    (unfoldable : foldable settings operator operand = false) :
    refold settings operator operand = pure none := by
  unfold refold
  by_cases constant : operand.isConstant = true
  · rw [if_pos constant]
    split
    · cases unfoldable
    · cases unfoldable
    · rw [negate_eq_pure settings unfoldable]
      rfl
    · cases unfoldable
    · rfl
  · rw [if_neg constant]

theorem refolded_of_not_foldable {operator : Operator} {operand : Expr}
    (unfoldable : foldable settings operator operand = false) :
    refolded settings operator operand = apply operator operand := by
  rw [refolded, refold_eq_pure settings unfoldable, Traced.value_pure, Option.getD_none]

/-- Propagation negates just as building a negation does. -/
theorem refolded_minus (operand : Expr) :
    refolded settings .minus operand = (operand.negate settings).value := by
  cases folds : foldable settings .minus operand with
  | false =>
      rw [refolded_of_not_foldable settings folds, negate_of_not_foldable settings folds]
  | true =>
      have computed := isUnary_negate_of_foldable settings folds
      have constant := isConstant_of_foldable settings folds
      cases operand with
      | int | float => rfl
      | construct => simp [refolded, refold, constant, computed]
      | bool | unary | reference => cases folds

theorem refolded_logicalNot (operand : Expr) :
    refolded settings .logicalNot operand = operand.invert.value := by
  cases operand with
  | bool => rfl
  | int | float | construct | unary | reference =>
      rw [refolded_of_not_foldable settings rfl, invert_of_not_foldable settings rfl]

/-- No other operator is ever computed. -/
theorem foldable_of_ne {operator : Operator} (notMinus : operator ≠ .minus)
    (notInversion : operator ≠ .logicalNot) (operand : Expr) :
    foldable settings operator operand = false := by
  cases operator with
  | minus | logicalNot => contradiction
  | _ => rfl

theorem refolded_of_ne {operator : Operator} (notMinus : operator ≠ .minus)
    (notInversion : operator ≠ .logicalNot) (operand : Expr) :
    refolded settings operator operand = apply operator operand :=
  refolded_of_not_foldable settings (foldable_of_ne settings notMinus notInversion operand)

/-- Induction along a negation: it computes a literal, moves on to the arguments of a constructor,
or leaves an operator node standing. -/
theorem negate_induction {motive : Expr → Expr → Prop}
    (int : ∀ offset ty value, motive (.int offset ty value) (.int offset ty (-value)))
    (float : ∀ offset ty value, motive (.float offset ty value) (.float offset ty (-value)))
    (pushed : ∀ offset ty arguments, settings.optimize = true → allConstant arguments = true →
      (∀ argument ∈ arguments, motive argument (argument.negate settings).value) →
      motive (.construct offset ty arguments)
        (.construct offset ty (arguments.map fun argument => (argument.negate settings).value)))
    (kept : ∀ operand, foldable settings .minus operand = false →
      motive operand (apply .minus operand))
    (expr : Expr) : motive expr (expr.negate settings).value := by
  induction expr with
  | int offset ty value => exact int offset ty value
  | float offset ty value => exact float offset ty value
  | construct offset ty arguments ih =>
      cases folds : foldable settings .minus (.construct offset ty arguments) with
      | false =>
          rw [negate_of_not_foldable settings folds]
          exact kept _ folds
      | true =>
          have conditions : settings.optimize = true ∧ allConstant arguments = true := by
            simpa only [foldable, Bool.and_eq_true] using folds
          rw [negate_construct settings offset ty conditions.1 conditions.2]
          exact pushed offset ty arguments conditions.1 conditions.2 ih
  | bool offset ty value => exact kept _ rfl
  | unary offset ty operator operand => exact kept _ rfl
  | reference offset ty var access => exact kept _ rfl

/-- What an operator node can become when it is put together anew. -/
theorem refolded_cases {motive : Expr → Prop} (operator : Operator) (operand : Expr)
    (negated : operator = .minus → motive (operand.negate settings).value)
    (inverted : operator = .logicalNot → motive operand.invert.value)
    (kept : operator ≠ .minus → operator ≠ .logicalNot → motive (apply operator operand)) :
    motive (refolded settings operator operand) := by
  by_cases minus : operator = .minus
  · subst minus
    rw [refolded_minus]
    exact negated rfl
  · by_cases inversion : operator = .logicalNot
    · subst inversion
      rw [refolded_logicalNot]
      exact inverted rfl
    · rw [refolded_of_ne settings minus inversion]
      exact kept minus inversion

variable (expr : Expr)

@[simp]
theorem offset_negate : (expr.negate settings).value.offset = expr.offset :=
  negate_induction settings (motive := fun before after => after.offset = before.offset)
    (fun _ _ _ => rfl) (fun _ _ _ => rfl) (fun _ _ _ _ _ _ => rfl) (fun _ _ => rfl) expr

@[simp]
theorem ty_negate : (expr.negate settings).value.ty = expr.ty :=
  negate_induction settings (motive := fun before after => after.ty = before.ty)
    (fun _ _ _ => rfl) (fun _ _ _ => rfl) (fun _ _ _ _ _ _ => rfl) (fun _ _ => rfl) expr

@[simp]
theorem isConstant_negate : (expr.negate settings).value.isConstant = expr.isConstant := by
  refine negate_induction settings
    (motive := fun before after => after.isConstant = before.isConstant) ?_ ?_ ?_ ?_ expr
  · intro offset ty value
    rfl
  · intro offset ty value
    rfl
  · intro offset ty arguments _ constant ih
    simp only [isConstant, allConstant_eq_all, List.all_map] at constant ⊢
    rw [constant, List.all_eq_true]
    intro argument member
    exact (ih argument member).trans (List.all_eq_true.mp constant argument member)
  · intro operand _
    simp [apply, isConstant]

/-- Whether negation moves into a constructor is all that it takes from the settings. -/
theorem negate_congr {settings other : Settings} (same : settings.optimize = other.optimize)
    (expr : Expr) : (expr.negate settings).value = (expr.negate other).value := by
  have sameFoldable (operand : Expr) :
      foldable settings .minus operand = foldable other .minus operand := by
    cases operand <;> simp [foldable, same]
  refine negate_induction settings (motive := fun before after =>
    after = (before.negate other).value) ?_ ?_ ?_ ?_ expr
  · intro offset ty value
    rfl
  · intro offset ty value
    rfl
  · intro offset ty arguments optimizes constant ih
    rw [negate_construct other offset ty (same ▸ optimizes) constant]
    exact congrArg _ (List.map_congr_left ih)
  · intro operand unfoldable
    exact (negate_of_not_foldable other (sameFoldable operand ▸ unfoldable)).symm

/-- A property of nodes that does not look at the values of literals or at the arguments of
constructors survives a negation if it holds of the minus nodes that are left standing. -/
theorem Every.negate {holds : Expr → Prop} {expr : Expr} (every : expr.Every holds)
    (int : ∀ offset ty value negated,
      holds (.int offset ty value) → holds (.int offset ty negated))
    (float : ∀ offset ty value negated,
      holds (.float offset ty value) → holds (.float offset ty negated))
    (construct : ∀ offset ty arguments negated,
      holds (.construct offset ty arguments) → holds (.construct offset ty negated))
    (kept : ∀ operand, operand.Every holds → foldable settings .minus operand = false →
      holds (apply .minus operand)) :
    (expr.negate settings).value.Every holds := by
  revert every
  refine negate_induction settings (motive := fun before after =>
    before.Every holds → after.Every holds) ?_ ?_ ?_ ?_ expr
  · intro offset ty value every
    exact every_int.mpr (int offset ty value _ (every_int.mp every))
  · intro offset ty value every
    exact every_float.mpr (float offset ty value _ (every_float.mp every))
  · intro offset ty arguments _ _ ih every
    obtain ⟨root, below⟩ := every_construct.mp every
    refine every_construct.mpr ⟨construct offset ty arguments _ root, fun negated member => ?_⟩
    obtain ⟨argument, inside, rfl⟩ := List.mem_map.mp member
    exact ih argument inside (below argument inside)
  · intro operand unfoldable every
    exact every_apply.mpr ⟨kept operand every unfoldable, every⟩

theorem Every.invert {holds : Expr → Prop} {expr : Expr} (every : expr.Every holds)
    (bool : ∀ offset ty value inverted,
      holds (.bool offset ty value) → holds (.bool offset ty inverted))
    (kept : expr.kind ≠ .boolLiteral → holds (apply .logicalNot expr)) :
    expr.invert.value.Every holds := by
  cases expr with
  | bool offset ty value =>
      exact every_bool.mpr (bool offset ty value _ (every_bool.mp every))
  | int | float | construct | unary | reference =>
      exact every_apply.mpr ⟨kept (by simp [kind]), every⟩

theorem Every.coerce {holds : Expr → Prop} {expr : Expr} (every : expr.Every holds) (target : Ty)
    (int : ∀ offset value, target.isInteger = true → holds (.int offset target value))
    (float : ∀ offset value, target.isFloat = true → holds (.float offset target value))
    (construct : ∀ offset arguments, holds (.construct offset target arguments)) :
    (expr.coerce target).Every holds := by
  have wrapped (offset : Offset) : (Expr.construct offset target [expr]).Every holds := by
    refine every_construct.mpr ⟨construct offset [expr], fun argument member => ?_⟩
    rw [List.mem_singleton.mp member]
    exact every
  cases expr with
  | int offset ty value =>
      simp only [Expr.coerce]
      split_ifs with same integer isFloat
      · exact every
      · exact every_int.mpr (int offset value integer)
      · exact every_float.mpr (float offset _ isFloat)
      · exact wrapped offset
  | float offset ty value =>
      simp only [Expr.coerce]
      split_ifs with same isFloat
      · exact every
      · exact every_float.mpr (float offset value isFloat)
      · exact wrapped offset
  | bool | construct | unary | reference =>
      simp only [Expr.coerce]
      split_ifs with same
      · exact every
      · exact wrapped _

theorem ty_coerce (expr : Expr) (target : Ty) : (expr.coerce target).ty = target := by
  cases expr with
  | int offset ty value =>
      simp only [Expr.coerce]
      split_ifs with same
      · exact same
      · rfl
      · rfl
      · rfl
  | float offset ty value =>
      simp only [Expr.coerce]
      split_ifs with same
      · exact same
      · rfl
      · rfl
  | bool | construct | unary | reference =>
      simp only [Expr.coerce]
      split_ifs with same
      · exact same
      · rfl

@[simp]
theorem offset_invert : expr.invert.value.offset = expr.offset := by
  cases expr <;> rfl

@[simp]
theorem ty_invert : expr.invert.value.ty = expr.ty := by
  cases expr <;> rfl

@[simp]
theorem offset_refolded (operator : Operator) :
    (refolded settings operator expr).offset = expr.offset := by
  refine refolded_cases settings (motive := fun after => after.offset = expr.offset) operator expr
    ?_ ?_ ?_
  · exact fun _ => offset_negate settings expr
  · exact fun _ => offset_invert expr
  · exact fun _ _ => rfl

@[simp]
theorem ty_refolded (operator : Operator) : (refolded settings operator expr).ty = expr.ty := by
  refine refolded_cases settings (motive := fun after => after.ty = expr.ty) operator expr ?_ ?_ ?_
  · exact fun _ => ty_negate settings expr
  · exact fun _ => ty_invert expr
  · exact fun _ _ => rfl

theorem kind_negate_ne_reference : (expr.negate settings).value.kind ≠ .reference :=
  negate_induction settings (motive := fun _ after => after.kind ≠ .reference)
    (fun _ _ _ => by simp [kind]) (fun _ _ _ => by simp [kind])
    (fun _ _ _ _ _ _ => by simp [kind]) (fun _ _ => by simp [kind, apply]) expr

theorem kind_invert_ne_reference : expr.invert.value.kind ≠ .reference := by
  cases expr <;> simp [invert, apply, kind]

theorem kind_refolded_ne_reference (operator : Operator) :
    (refolded settings operator expr).kind ≠ .reference := by
  refine refolded_cases settings (motive := fun after => after.kind ≠ .reference) operator expr
    ?_ ?_ ?_
  · exact fun _ => kind_negate_ne_reference settings expr
  · exact fun _ => kind_invert_ne_reference expr
  · exact fun _ _ => by simp [kind, apply]

section Propagate

variable (definitions : Definitions)

@[simp]
theorem propagate_int (value : Int64) :
    ((Expr.int offset ty value).propagate settings definitions).value =
      .int offset ty value := rfl

@[simp]
theorem propagate_float (value : Binary64) :
    ((Expr.float offset ty value).propagate settings definitions).value =
      .float offset ty value := rfl

@[simp]
theorem propagate_bool (value : Bool) :
    ((Expr.bool offset ty value).propagate settings definitions).value =
      .bool offset ty value := rfl

theorem propagateAll_value (arguments : List Expr) :
    (propagateAll settings definitions arguments).value =
      arguments.map fun argument => (argument.propagate settings definitions).value := by
  induction arguments with
  | nil => rfl
  | cons argument arguments ih => simp [propagateAll, ih]

theorem propagateAll_events (arguments : List Expr) :
    (propagateAll settings definitions arguments).events =
      arguments.flatMap fun argument => (argument.propagate settings definitions).events := by
  induction arguments with
  | nil => rfl
  | cons argument arguments ih => simp [propagateAll, ih]

@[simp]
theorem propagate_construct (arguments : List Expr) :
    ((Expr.construct offset ty arguments).propagate settings definitions).value =
      .construct offset ty
        (arguments.map fun argument => (argument.propagate settings definitions).value) := by
  simp [propagate, propagateAll_value]

@[simp]
theorem propagate_unary (operator : Operator) (operand : Expr) :
    ((Expr.unary offset ty operator operand).propagate settings definitions).value =
      refolded settings operator (operand.propagate settings definitions).value := by
  simp [propagate, refolded]

@[simp]
theorem propagate_apply (operator : Operator) (operand : Expr) :
    ((apply operator operand).propagate settings definitions).value =
      refolded settings operator (operand.propagate settings definitions).value :=
  propagate_unary ..

/-- Only a reference that reads a variable with a constant definition is replaced. -/
theorem propagate_reference (var : Variable) (access : Access) :
    ((Expr.reference offset ty var access).propagate settings definitions).value =
        .reference offset ty var access ∨
      access = .read ∧ ∃ value, definitions.constant? var = some value ∧
        ((Expr.reference offset ty var access).propagate settings definitions).value =
          value.withOffset offset := by
  unfold propagate
  split
  · rename_i value found
    exact .inr ⟨rfl, value, found, rfl⟩
  · exact .inl rfl

theorem propagate_read (var : Variable) :
    ((Expr.reference offset ty var .read).propagate settings definitions).value =
      ((definitions.constant? var).map (withOffset offset)).getD
        (.reference offset ty var .read) := by
  cases found : definitions.constant? var <;> simp [propagate, found]

theorem propagate_reference_of_unknown {var : Variable} (unknown : definitions.constant? var = none)
    (access : Access) :
    ((Expr.reference offset ty var access).propagate settings definitions).value =
      .reference offset ty var access := by
  simp [propagate, unknown]

theorem propagate_reference_of_written {access : Access} (written : access ≠ .read)
    (var : Variable) :
    ((Expr.reference offset ty var access).propagate settings definitions).value =
      .reference offset ty var access := by
  cases access with
  | read => contradiction
  | write | readWrite => simp [propagate]

end Propagate

end Expr

namespace Stmt

variable (settings : Settings) (definitions : Definitions) (offset : Offset)

theorem undecided_or_literal (isStatic : Bool) (test : Expr) :
    (isStatic = true → test.kind ≠ .boolLiteral) ∨
      isStatic = true ∧ ∃ offset ty value, test = .bool offset ty value := by
  cases test with
  | bool offset ty value =>
      cases isStatic with
      | true => exact .inr ⟨rfl, offset, ty, value, rfl⟩
      | false => exact .inl fun static => nomatch static
  | int | float | construct | unary | reference => exact .inl fun _ => by simp [Expr.kind]

theorem branch_of_undecided {isStatic : Bool} {test : Expr}
    (undecided : isStatic = true → test.kind ≠ .boolLiteral) (ifTrue : Stmt)
    (ifFalse : Option Stmt) :
    (branch offset isStatic test ifTrue ifFalse).value =
      .conditional offset isStatic test ifTrue ifFalse := by
  cases isStatic with
  | false => rfl
  | true =>
      cases test with
      | bool => exact absurd rfl (undecided rfl)
      | int | float | construct | unary | reference => rfl

theorem branch_true (testOffset : Offset) (ty : Ty) (ifTrue : Stmt) (ifFalse : Option Stmt) :
    (branch offset true (.bool testOffset ty true) ifTrue ifFalse).value =
      ifTrue.withOffset offset := rfl

theorem branch_false (testOffset : Offset) (ty : Ty) (ifTrue : Stmt) (ifFalse : Option Stmt) :
    (branch offset true (.bool testOffset ty false) ifTrue ifFalse).value =
      (ifFalse.getD (.nop offset)).withOffset offset := rfl

/-- What becomes of a conditional: a static one whose test is a literal gives way to a branch. -/
theorem branch_value (isStatic : Bool) (test : Expr) (ifTrue : Stmt) (ifFalse : Option Stmt) :
    (branch offset isStatic test ifTrue ifFalse).value =
      match isStatic, test.verdict? with
      | true, some true => ifTrue.withOffset offset
      | true, some false => (ifFalse.getD (.nop offset)).withOffset offset
      | _, _ => .conditional offset isStatic test ifTrue ifFalse := by
  cases isStatic with
  | false => rfl
  | true =>
      cases test with
      | bool testOffset ty value => cases value <;> rfl
      | int | float | construct | unary | reference => rfl

theorem propagateElse_value (ifFalse : Option Stmt) :
    (propagateElse settings definitions ifFalse).value =
      ifFalse.map fun stmt => (stmt.propagate settings definitions).value := by
  cases ifFalse <;> rfl

theorem propagateElse_events (ifFalse : Option Stmt) :
    (propagateElse settings definitions ifFalse).events =
      ifFalse.toList.flatMap fun stmt => (stmt.propagate settings definitions).events := by
  cases ifFalse <;> simp [propagateElse]

theorem propagateBody_value (body : List Stmt) :
    (propagateBody settings definitions body).value =
      body.map fun stmt => (stmt.propagate settings definitions).value := by
  induction body with
  | nil => rfl
  | cons stmt body ih => simp [propagateBody, ih]

theorem propagateBody_events (body : List Stmt) :
    (propagateBody settings definitions body).events =
      body.flatMap fun stmt => (stmt.propagate settings definitions).events := by
  induction body with
  | nil => rfl
  | cons stmt body ih => simp [propagateBody, ih]

@[simp]
theorem propagate_conditional (isStatic : Bool) (test : Expr) (ifTrue : Stmt)
    (ifFalse : Option Stmt) :
    ((Stmt.conditional offset isStatic test ifTrue ifFalse).propagate settings definitions).value =
      (branch offset isStatic (test.propagate settings definitions).value
        (ifTrue.propagate settings definitions).value
        (ifFalse.map fun stmt => (stmt.propagate settings definitions).value)).value := by
  simp [propagate, propagateElse_value]

@[simp]
theorem propagate_block (body : List Stmt) :
    ((Stmt.block offset body).propagate settings definitions).value =
      .block offset (body.map fun stmt => (stmt.propagate settings definitions).value) := by
  simp [propagate, propagateBody_value]

@[simp]
theorem propagate_expression (expr : Expr) :
    ((Stmt.expression offset expr).propagate settings definitions).value =
      .expression offset (expr.propagate settings definitions).value := rfl

@[simp]
theorem propagate_nop :
    ((Stmt.nop offset).propagate settings definitions).value = .nop offset := rfl

section Every

variable {settings definitions offset} {before holds : Node → Prop}

/-- A property of statements is kept when a conditional is put together if it can be relabelled and
holds of everything but conditionals, and of this conditional if it stays one. -/
theorem every_branch {isStatic : Bool} {test : Expr} {ifTrue : Stmt} {ifFalse : Option Stmt}
    (relabelled : ∀ stmt offset, holds (.stmt stmt) → holds (.stmt (stmt.withOffset offset)))
    (other : ∀ stmt : Stmt, stmt.kind ≠ .conditional → holds (.stmt stmt))
    (kept : (isStatic = true → test.kind ≠ .boolLiteral) →
      holds (.stmt (.conditional offset isStatic test ifTrue ifFalse)))
    (everyTest : test.Every fun node => holds (.expr node)) (everyTrue : ifTrue.Every holds)
    (everyFalse : ∀ stmt ∈ ifFalse, stmt.Every holds) :
    (branch offset isStatic test ifTrue ifFalse).value.Every holds := by
  have moved (stmt : Stmt) (every : stmt.Every holds) : (stmt.withOffset offset).Every holds :=
    every.withOffset (relabelled stmt offset every.root)
  obtain undecided | ⟨rfl, testOffset, ty, value, rfl⟩ := undecided_or_literal isStatic test
  · rw [branch_of_undecided offset undecided]
    exact every_conditional.mpr ⟨kept undecided, everyTest, everyTrue, everyFalse⟩
  · cases value with
    | true =>
        rw [branch_true]
        exact moved ifTrue everyTrue
    | false =>
        rw [branch_false]
        cases ifFalse with
        | none => exact every_nop.mpr (other _ (by simp [kind]))
        | some stmt => exact moved stmt (everyFalse stmt rfl)

/-- What propagation makes of a statement has a property at every node if the expressions get it and
the conditionals that stay get it. -/
theorem Every.propagate {stmt : Stmt} (every : stmt.Every before)
    (relabelled : ∀ stmt offset, holds (.stmt stmt) → holds (.stmt (stmt.withOffset offset)))
    (other : ∀ stmt : Stmt, stmt.kind ≠ .conditional → holds (.stmt stmt))
    (propagated : ∀ expr : Expr, (expr.Every fun node => before (.expr node)) →
      (expr.propagate settings definitions).value.Every fun node => holds (.expr node))
    (kept : ∀ offset isStatic test ifTrue ifFalse ifTruePropagated ifFalsePropagated,
      before (.stmt (.conditional offset isStatic test ifTrue ifFalse)) →
      (test.Every fun node => before (.expr node)) →
      (isStatic = true → (test.propagate settings definitions).value.kind ≠ .boolLiteral) →
      holds (.stmt (.conditional offset isStatic (test.propagate settings definitions).value
        ifTruePropagated ifFalsePropagated))) :
    (stmt.propagate settings definitions).value.Every holds := by
  induction stmt with
  | conditional offset isStatic test ifTrue ifFalse ihTrue ihFalse =>
      obtain ⟨root, everyTest, everyTrue, everyFalse⟩ := every_conditional.mp every
      rw [propagate_conditional]
      refine every_branch relabelled other ?_ (propagated test everyTest) (ihTrue everyTrue) ?_
      · exact kept offset isStatic test ifTrue ifFalse _ _ root everyTest
      · intro after member
        obtain ⟨stmt, inside, rfl⟩ := Option.map_eq_some_iff.mp member
        exact ihFalse stmt inside (everyFalse stmt inside)
  | block offset body ih =>
      have parts := (every_block.mp every).2
      rw [propagate_block]
      refine every_block.mpr ⟨other _ (by simp [kind]), fun after member => ?_⟩
      obtain ⟨stmt, inside, rfl⟩ := List.mem_map.mp member
      exact ih stmt inside (parts stmt inside)
  | expression offset expr =>
      rw [propagate_expression]
      exact every_expression.mpr
        ⟨other _ (by simp [kind]), propagated expr (every_expression.mp every).2⟩
  | nop offset => exact every_nop.mpr (other _ (by simp [kind]))

end Every

end Stmt

theorem Program.propagate_statements (settings : Settings) (definitions : Definitions)
    (program : Program) :
    (program.propagate settings definitions).value.statements =
      program.statements.map fun stmt => (stmt.propagate settings definitions).value :=
  Stmt.propagateBody_value settings definitions program.statements

end ShaderIR
