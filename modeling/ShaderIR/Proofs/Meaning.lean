import ShaderIR.Proofs.Evaluation
import ShaderIR.Proofs.Folding

/-!
Constant propagation keeps the meaning of programs. The argument has two halves. Folding an
operator is computing it early, which `evaluate_refolded` states for any store. Substituting a
definition is reading the variable early, which is sound as long as the store holds what the
definitions say; `HeldBy` is that invariant, and it survives every step of a run because no defined
variable is ever stepped.
-/

namespace ShaderIR

namespace Reached

variable {α β : Type}

@[simp]
theorem andThen_some (value : α) (store : Store) (next : α → Store → Reached β) :
    andThen (some value, store) next = next value store := rfl

@[simp]
theorem andThen_none (store : Store) (next : α → Store → Reached β) :
    andThen (none, store) next = (none, store) := rfl

theorem andThen_congr {reached : Reached α} {first second : α → Store → Reached β}
    (same : ∀ value, first value reached.2 = second value reached.2) :
    reached.andThen first = reached.andThen second := by
  obtain ⟨result, store⟩ := reached
  cases result with
  | none => rfl
  | some value => exact same value

theorem andThen_invariant {invariant : Store → Prop} {reached : Reached α}
    {next : α → Store → Reached β} (before : invariant reached.2)
    (kept : ∀ value, invariant (next value reached.2).2) :
    invariant (reached.andThen next).2 := by
  obtain ⟨result, store⟩ := reached
  cases result with
  | none => exact before
  | some value => exact kept value

end Reached

namespace Expr

variable (meaning : Interpretation)

theorem evaluateAll_constant {arguments : List Expr}
    (each : ∀ argument ∈ arguments,
      ∃ result, ∀ store, argument.evaluate meaning store = (result, store)) :
    ∃ results, ∀ store, evaluateAll meaning arguments store = (results, store) := by
  induction arguments with
  | nil => exact ⟨some [], fun _ => rfl⟩
  | cons argument arguments ih =>
      obtain ⟨first, evaluated⟩ := each argument (by simp)
      obtain ⟨rest, evaluatedRest⟩ := ih fun later member => each later (by simp [member])
      cases first with
      | none => exact ⟨none, fun store => by simp [evaluateAll, evaluated]⟩
      | some value =>
          refine ⟨rest.map (value :: ·), fun store => ?_⟩
          simp only [evaluateAll, evaluated, evaluatedRest, Reached.andThen_some]
          cases rest <;> rfl

/-- A constant has one result, whatever the store, and leaves the store alone. -/
theorem evaluate_constant {expr : Expr} (constant : expr.isConstant = true) :
    ∃ result, ∀ store, expr.evaluate meaning store = (result, store) := by
  induction expr with
  | int offset ty value => exact ⟨some (.int value), fun _ => rfl⟩
  | float offset ty value => exact ⟨some (.float value), fun _ => rfl⟩
  | bool offset ty value => exact ⟨some (.bool value), fun _ => rfl⟩
  | construct offset ty arguments ih =>
      have constants : ∀ argument ∈ arguments, argument.isConstant = true := by
        simpa only [isConstant, allConstant_eq_all, List.all_eq_true] using constant
      obtain ⟨results, evaluated⟩ := evaluateAll_constant meaning fun argument member =>
        ih argument member (constants argument member)
      refine ⟨results.map (.aggregate ty), fun store => ?_⟩
      simp only [evaluate, evaluated]
      cases results <;> rfl
  | unary offset ty operator operand ih =>
      have parts : operator = .minus ∧ operand.isConstant = true := by
        simpa only [isConstant, Bool.and_eq_true, beq_iff_eq] using constant
      obtain ⟨rfl, constantOperand⟩ := parts
      obtain ⟨result, evaluated⟩ := ih constantOperand
      refine ⟨result.bind (Value.negate meaning), fun store => ?_⟩
      simp only [evaluate, Operator.isStep, evaluated]
      cases result <;> rfl
  | reference offset ty var access => simp [isConstant] at constant

/-- Negating the arguments of a constructor negates the components of its value. -/
theorem evaluateAll_negated (settings : Settings) {arguments : List Expr}
    (constants : ∀ argument ∈ arguments, argument.isConstant = true)
    (each : ∀ argument ∈ arguments, ∀ store,
      (argument.negate settings).value.evaluate meaning store =
        (apply .minus argument).evaluate meaning store) (store : Store) :
    evaluateAll meaning (arguments.map fun argument => (argument.negate settings).value) store =
      (evaluateAll meaning arguments store).andThen fun values after =>
        (Value.negateAll meaning values, after) := by
  induction arguments with
  | nil => rfl
  | cons argument arguments ih =>
      obtain ⟨first, evaluated⟩ := evaluate_constant meaning (constants argument (by simp))
      obtain ⟨rest, evaluatedRest⟩ := evaluateAll_constant meaning fun later member =>
        evaluate_constant meaning (constants later (List.mem_cons_of_mem _ member))
      have tail := ih (fun later member => constants later (List.mem_cons_of_mem _ member))
        (fun later member => each later (List.mem_cons_of_mem _ member))
      have head : (argument.negate settings).value.evaluate meaning store =
          (first.bind (Value.negate meaning), store) := by
        rw [each argument (by simp) store]
        simp only [apply, evaluate, Operator.isStep, evaluated]
        cases first <;> rfl
      simp only [List.map_cons, evaluateAll, head, evaluated]
      -- The left side negates each value before it evaluates the next argument, the right side
      -- negates at the end. Constants leave the store alone, so where a run gets stuck is the same.
      cases first with
      | none => rfl
      | some value =>
          simp only [Option.bind_some, Reached.andThen_some, evaluatedRest]
          cases negated : value.negate meaning with
          | none => cases rest <;> simp [Value.negateAll, negated]
          | some negatedValue =>
              simp only [Reached.andThen_some, tail, evaluatedRest]
              cases rest with
              | none => rfl
              | some values =>
                  simp only [Reached.andThen_some, Value.negateAll, negated]
                  cases Value.negateAll meaning values <;> rfl

theorem evaluate_negate (settings : Settings) (expr : Expr) (store : Store) :
    (expr.negate settings).value.evaluate meaning store =
      (apply .minus expr).evaluate meaning store := by
  revert store
  refine negate_induction settings (motive := fun before after => ∀ store,
    after.evaluate meaning store = (apply .minus before).evaluate meaning store) ?_ ?_ ?_ ?_ expr
  · intro offset ty value store
    rfl
  · intro offset ty value store
    rfl
  · intro offset ty arguments _ constant ih store
    have constants : ∀ argument ∈ arguments, argument.isConstant = true := by
      simpa only [allConstant_eq_all, List.all_eq_true] using constant
    simp only [apply, evaluate, Operator.isStep, evaluateAll_negated meaning settings constants ih]
    obtain ⟨results, evaluated⟩ := evaluateAll_constant meaning fun argument member =>
      evaluate_constant meaning (constants argument member)
    rw [evaluated]
    cases results with
    | none => rfl
    | some values =>
        simp only [Reached.andThen_some, Interpretation.apply, Value.negate]
        cases Value.negateAll meaning values <;> rfl
  · intro operand _ store
    rfl

/-- An operator node that propagation puts together anew means what the operator means. -/
theorem evaluate_refolded (settings : Settings) (operator : Operator) (operand : Expr)
    (store : Store) :
    (refolded settings operator operand).evaluate meaning store =
      (apply operator operand).evaluate meaning store := by
  refine refolded_cases settings (motive := fun after =>
    after.evaluate meaning store = (apply operator operand).evaluate meaning store)
    operator operand ?_ ?_ ?_
  · rintro rfl
    exact evaluate_negate meaning settings operand store
  · rintro rfl
    cases operand <;> rfl
  · intro _ _
    rfl

@[simp]
theorem evaluate_withOffset (expr : Expr) (offset : Offset) (store : Store) :
    (expr.withOffset offset).evaluate meaning store = expr.evaluate meaning store := by
  cases expr <;> simp [withOffset, evaluate]

end Expr

namespace Definitions

theorem constant?_congr (definitions : Definitions) {first second : Variable}
    (same : first.id = second.id) : definitions.constant? first = definitions.constant? second := by
  simp only [constant?, get?, same]

/-- Every variable with a constant definition holds the value of that definition. -/
def HeldBy (definitions : Definitions) (meaning : Interpretation) (store : Store) : Prop :=
  ∀ var value, definitions.constant? var = some value →
    value.evaluate meaning store = (some (store var.id), store)

/-- An increment or decrement does not write to a variable with a constant definition. -/
def Spares (definitions : Definitions) : Expr → Prop
  | .unary _ _ operator operand =>
      operator.isStep = true → ∀ var ∈ operand.referent?, definitions.constant? var = none
  | _ => True

variable {definitions : Definitions} {meaning : Interpretation} {store : Store}

theorem HeldBy.empty : Definitions.empty.HeldBy meaning store := by
  intro var value known
  cases known

theorem HeldBy.insert (held : definitions.HeldBy meaning store) {defined : Variable}
    {value : Expr} (evaluated : value.evaluate meaning store = (some (store defined.id), store)) :
    (definitions.insert defined value).HeldBy meaning store := by
  intro var found known
  by_cases same : var.id = defined.id
  · have found_eq : value = found := by
      simp only [constant?, get?_insert, if_pos same, Option.filter_eq_some_iff] at known
      exact Option.some.inj known.1
    rw [← found_eq, same]
    exact evaluated
  · have older : definitions.constant? var = some found := by
      simpa only [constant?, get?_insert, if_neg same] using known
    exact held var found older

theorem HeldBy.put (held : definitions.HeldBy meaning store) {target : Variable}
    (unknown : definitions.constant? target = none) (stored : Value) :
    definitions.HeldBy meaning (store.put target stored) := by
  intro var value known
  have different : var.id ≠ target.id := by
    intro same
    rw [definitions.constant?_congr same, unknown] at known
    cases known
  -- The definition is constant, so the write does not change its value either.
  obtain ⟨result, evaluated⟩ :=
    Expr.evaluate_constant meaning (isConstant_of_constant? known)
  have before := held var value known
  rw [evaluated] at before
  have result_eq : result = some (store var.id) := congrArg Prod.fst before
  rw [evaluated, result_eq]
  simp [Store.put, different]

theorem HeldBy.stepAt (held : definitions.HeldBy meaning store) (operator : Operator)
    {target : Option Variable} (unknown : ∀ var ∈ target, definitions.constant? var = none) :
    definitions.HeldBy meaning (meaning.stepAt operator target store).2 := by
  cases target with
  | none => exact held
  | some var =>
      simp only [Interpretation.stepAt]
      split
      · exact held
      · exact held.put (unknown var rfl) _

theorem HeldBy.evaluateAll {arguments : List Expr}
    (each : ∀ argument ∈ arguments, ∀ store, definitions.HeldBy meaning store →
      definitions.HeldBy meaning (argument.evaluate meaning store).2)
    (held : definitions.HeldBy meaning store) :
    definitions.HeldBy meaning (Expr.evaluateAll meaning arguments store).2 := by
  induction arguments generalizing store with
  | nil => exact held
  | cons argument arguments ih =>
      have afterFirst := each argument (by simp) store held
      refine Reached.andThen_invariant afterFirst fun value => ?_
      have afterRest := ih (fun later member => each later (by simp [member])) afterFirst
      exact Reached.andThen_invariant afterRest fun _ => afterRest

theorem HeldBy.evaluate {expr : Expr} (spared : expr.Every definitions.Spares)
    (held : definitions.HeldBy meaning store) :
    definitions.HeldBy meaning (expr.evaluate meaning store).2 := by
  induction expr generalizing store with
  | int | float | bool | reference => exact held
  | construct offset ty arguments ih =>
      have parts := (Expr.every_construct.mp spared).2
      have after := HeldBy.evaluateAll
        (fun argument member store => ih argument member (parts argument member)) held
      exact Reached.andThen_invariant after fun _ => after
  | unary offset ty operator operand ih =>
      obtain ⟨root, below⟩ := Expr.every_unary.mp spared
      simp only [Expr.evaluate]
      split
      · rename_i isStep
        exact held.stepAt operator (root isStep)
      · have after := ih below held
        exact Reached.andThen_invariant after fun _ => after

end Definitions

namespace Expr

variable (settings : Settings) {definitions : Definitions} {meaning : Interpretation}

theorem referent?_refolded (operator : Operator) (operand : Expr) :
    (refolded settings operator operand).referent? = none := by
  have notReference := kind_refolded_ne_reference settings operand operator
  cases made : refolded settings operator operand with
  | reference => rw [made] at notReference; exact absurd rfl notReference
  | int | float | bool | construct | unary => rfl

theorem referent?_propagate {operand : Expr}
    (unknown : ∀ var ∈ operand.referent?, definitions.constant? var = none) :
    (operand.propagate settings definitions).value.referent? = operand.referent? := by
  cases operand with
  | reference offset ty var access =>
      rw [propagate_reference_of_unknown settings offset ty definitions (unknown var rfl)]
  | unary offset ty operator operand =>
      rw [propagate_unary, referent?_refolded]
      rfl
  | construct offset ty arguments => rw [propagate_construct]; rfl
  | int | float | bool => rfl

theorem evaluateAll_propagated {arguments : List Expr}
    (spared : ∀ argument ∈ arguments, argument.Every definitions.Spares)
    (each : ∀ argument ∈ arguments, ∀ store, definitions.HeldBy meaning store →
      (argument.propagate settings definitions).value.evaluate meaning store =
        argument.evaluate meaning store)
    {store : Store} (held : definitions.HeldBy meaning store) :
    evaluateAll meaning
        (arguments.map fun argument => (argument.propagate settings definitions).value) store =
      evaluateAll meaning arguments store := by
  induction arguments generalizing store with
  | nil => rfl
  | cons argument arguments ih =>
      simp only [List.map_cons, evaluateAll, each argument (by simp) store held]
      refine Reached.andThen_congr fun value => ?_
      rw [ih (fun later member => spared later (by simp [member]))
        (fun later member => each later (by simp [member]))
        (held.evaluate (spared argument (by simp)))]

theorem evaluate_propagate {expr : Expr} (spared : expr.Every definitions.Spares) {store : Store}
    (held : definitions.HeldBy meaning store) :
    (expr.propagate settings definitions).value.evaluate meaning store =
      expr.evaluate meaning store := by
  induction expr generalizing store with
  | int | float | bool => rfl
  | reference offset ty var access =>
      obtain kept | ⟨_, value, known, replaced⟩ :=
        propagate_reference settings offset ty definitions var access
      · rw [kept]
      · rw [replaced, evaluate_withOffset, held var value known]
        rfl
  | construct offset ty arguments ih =>
      have parts := (every_construct.mp spared).2
      simp only [propagate_construct, evaluate]
      rw [evaluateAll_propagated settings parts
        (fun argument member store => ih argument member (parts argument member)) held]
  | unary offset ty operator operand ih =>
      obtain ⟨root, below⟩ := every_unary.mp spared
      rw [propagate_unary, evaluate_refolded]
      simp only [apply, evaluate]
      split
      · rename_i isStep
        rw [referent?_propagate settings (root isStep)]
      · rw [ih below held]

end Expr

namespace Definitions

variable {definitions : Definitions} {meaning : Interpretation} {store : Store}

def SparesNode (definitions : Definitions) : Stmt.Node → Prop
  | .expr node => definitions.Spares node
  | .stmt _ => True

theorem HeldBy.runBody {body : List Stmt}
    (each : ∀ stmt ∈ body, ∀ store, definitions.HeldBy meaning store →
      definitions.HeldBy meaning (stmt.run meaning store).2)
    (held : definitions.HeldBy meaning store) :
    definitions.HeldBy meaning (Stmt.runBody meaning body store).2 := by
  induction body generalizing store with
  | nil => exact held
  | cons stmt body ih =>
      have afterFirst := each stmt (by simp) store held
      refine Reached.andThen_invariant afterFirst fun value => ?_
      have afterRest := ih (fun later member => each later (by simp [member])) afterFirst
      exact Reached.andThen_invariant afterRest fun _ => afterRest

theorem HeldBy.run {stmt : Stmt} (spared : stmt.Every definitions.SparesNode)
    (held : definitions.HeldBy meaning store) :
    definitions.HeldBy meaning (stmt.run meaning store).2 := by
  induction stmt generalizing store with
  | conditional offset isStatic test ifTrue ifFalse ihTrue ihFalse =>
      obtain ⟨_, sparedTest, sparedTrue, sparedFalse⟩ := Stmt.every_conditional.mp spared
      have afterTest : definitions.HeldBy meaning (test.evaluate meaning store).2 :=
        held.evaluate sparedTest
      refine Reached.andThen_invariant afterTest fun verdict => ?_
      split
      · exact ihTrue sparedTrue afterTest
      · cases ifFalse with
        | none => exact afterTest
        | some stmt => exact ihFalse stmt rfl (sparedFalse stmt rfl) afterTest
      · exact afterTest
  | block offset body ih =>
      have parts := (Stmt.every_block.mp spared).2
      exact HeldBy.runBody (fun stmt member store => ih stmt member (parts stmt member)) held
  | expression offset expr =>
      have after : definitions.HeldBy meaning (expr.evaluate meaning store).2 :=
        held.evaluate (Stmt.every_expression.mp spared).2
      exact Reached.andThen_invariant after fun _ => after
  | nop offset => exact held

end Definitions

namespace Stmt

variable (meaning : Interpretation)

@[simp]
theorem run_withOffset (stmt : Stmt) (offset : Offset) (store : Store) :
    (stmt.withOffset offset).run meaning store = stmt.run meaning store := by
  cases stmt <;> simp [withOffset, run]

/-- The branch that takes the place of a static conditional runs as the conditional does. -/
theorem run_branch (offset : Offset) (isStatic : Bool) (test : Expr) (ifTrue : Stmt)
    (ifFalse : Option Stmt) (store : Store) :
    (branch offset isStatic test ifTrue ifFalse).value.run meaning store =
      (Stmt.conditional offset isStatic test ifTrue ifFalse).run meaning store := by
  obtain undecided | ⟨rfl, testOffset, ty, value, rfl⟩ := undecided_or_literal isStatic test
  · rw [branch_of_undecided offset undecided]
  · cases value with
    | true => rw [branch_true, run_withOffset]; rfl
    | false =>
        rw [branch_false, run_withOffset]
        cases ifFalse <;> rfl

variable (settings : Settings) {definitions : Definitions} {meaning}

theorem runBody_propagated {body : List Stmt}
    (spared : ∀ stmt ∈ body, stmt.Every definitions.SparesNode)
    (each : ∀ stmt ∈ body, ∀ store, definitions.HeldBy meaning store →
      (stmt.propagate settings definitions).value.run meaning store = stmt.run meaning store)
    {store : Store} (held : definitions.HeldBy meaning store) :
    runBody meaning (body.map fun stmt => (stmt.propagate settings definitions).value) store =
      runBody meaning body store := by
  induction body generalizing store with
  | nil => rfl
  | cons stmt body ih =>
      simp only [List.map_cons, runBody, each stmt (by simp) store held]
      refine Reached.andThen_congr fun value => ?_
      rw [ih (fun later member => spared later (by simp [member]))
        (fun later member => each later (by simp [member]))
        (held.run (spared stmt (by simp)))]

theorem run_propagate {stmt : Stmt} (spared : stmt.Every definitions.SparesNode) {store : Store}
    (held : definitions.HeldBy meaning store) :
    (stmt.propagate settings definitions).value.run meaning store = stmt.run meaning store := by
  induction stmt generalizing store with
  | conditional offset isStatic test ifTrue ifFalse ihTrue ihFalse =>
      obtain ⟨_, sparedTest, sparedTrue, sparedFalse⟩ := every_conditional.mp spared
      have afterTest : definitions.HeldBy meaning (test.evaluate meaning store).2 :=
        held.evaluate sparedTest
      rw [propagate_conditional, run_branch]
      simp only [run, Expr.evaluate_propagate settings sparedTest held]
      refine Reached.andThen_congr fun verdict => ?_
      split
      · exact ihTrue sparedTrue afterTest
      · cases ifFalse with
        | none => rfl
        | some stmt => exact ihFalse stmt rfl (sparedFalse stmt rfl) afterTest
      · rfl
  | block offset body ih =>
      have parts := (every_block.mp spared).2
      rw [propagate_block]
      exact runBody_propagated settings parts
        (fun stmt member store => ih stmt member (parts stmt member)) held
  | expression offset expr =>
      have sparedExpr := (every_expression.mp spared).2
      simp only [propagate_expression, run, Expr.evaluate_propagate settings sparedExpr held]
  | nop offset => rfl

end Stmt

/-- A propagated program runs as the program does: it finishes with the same values and the same
store, or gets stuck with the same store. -/
theorem Program.propagate_preserves_runs (meaning : Interpretation) (settings : Settings)
    (definitions : Definitions) (program : Program) (store : Store)
    (held : definitions.HeldBy meaning store) (spared : program.Every definitions.SparesNode) :
    (program.propagate settings definitions).value.run meaning store =
      program.run meaning store := by
  simp only [run, propagate_statements]
  exact Stmt.runBody_propagated settings spared
    (fun stmt member _ held => Stmt.run_propagate settings (spared stmt member) held) held

/-- With `k` defined as `true` and `v` as `int2(3, 4)`, the program `@if (!k) ; else {-v; ++n;}`
loses its conditional and its minus, and still yields the negated components and steps `n`. -/
theorem Program.propagate_preserves_runs_defined_test :
    let k : Variable := ⟨0, "k", .bool, ⟨true, false⟩⟩
    let v : Variable := ⟨1, "v", .vector .int .two, ⟨true, false⟩⟩
    let n : Variable := ⟨2, "n", .int, ⟨false, false⟩⟩
    let meaning : Interpretation :=
      { negateBool := fun _ => none, invertOther := fun _ => none, operate := fun _ _ => none
        step := fun _ _ value => some (.aggregate .int [value], value) }
    let definitions := (Definitions.empty.insert k (.bool 3 .bool true)).insert v
      (.construct 4 (.vector .int .two) [.int 5 .int 3, .int 6 .int 4])
    let program : Program :=
      ⟨[.conditional 10 true (.apply .logicalNot (.referTo 11 k .read)) (.nop 12)
        (some (.block 13 [.ofExpr (.apply .minus (.referTo 14 v .read)),
          .ofExpr (.apply .increment (.referTo 15 n .readWrite))]))]⟩
    let store : Store := fun id =>
      if id = 0 then .bool true
      else if id = 1 then .aggregate (.vector .int .two) [.int 3, .int 4]
      else .int 7
    definitions.HeldBy meaning store ∧ program.Every definitions.SparesNode ∧
      (program.propagate {} definitions).value.run meaning store = program.run meaning store ∧
      (program.run meaning store).1 =
        some [.aggregate (.vector .int .two) [.int (-3), .int (-4)], .int 7] ∧
      (program.propagate {} definitions).value =
        ⟨[.block 10 [.expression 14 (.construct 14 (.vector .int .two)
            [.int 5 .int (-3), .int 6 .int (-4)]),
          .ofExpr (.apply .increment (.referTo 15 n .readWrite))]]⟩ := by
  intro k v n meaning definitions program store
  have held : definitions.HeldBy meaning store :=
    (Definitions.HeldBy.empty.insert rfl).insert rfl
  have unknown : definitions.constant? n = none := rfl
  have spared : program.Every definitions.SparesNode := by
    intro stmt member
    obtain rfl := List.mem_singleton.mp member
    simp [Definitions.SparesNode, Definitions.Spares, Expr.apply, Expr.referTo, Stmt.ofExpr,
      Operator.isStep, Expr.referent?, unknown]
  exact ⟨held, spared, propagate_preserves_runs meaning {} definitions program store held spared,
    rfl, rfl⟩

end ShaderIR
