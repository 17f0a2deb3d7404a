import ShaderIR.Proofs.Folding

/-!
What propagation finds out, told from the tree it is given. A tree becomes a boolean literal exactly
if it `resolves?` to that value, and a constant exactly if it `isKnown`; both look only at the shape
of the tree and at the constant definitions of the variables it reads, and neither depends on the
settings. So which static conditionals give way to a branch, and to which one, is settled before the
pass runs.
-/

namespace ShaderIR

namespace Expr

/-- The boolean that a tree comes down to by inversions and constant definitions alone. -/
def resolves? (definitions : Definitions) : Expr → Option Bool
  | .bool _ _ value => some value
  | .reference _ _ var .read => (definitions.constant? var).bind verdict?
  | .unary _ _ .logicalNot operand => (operand.resolves? definitions).map not
  | _ => none

mutual

/-- Whether propagation makes a constant of the tree. An inversion has to be computed for that, a
negation may be left standing. -/
def isKnown (definitions : Definitions) : Expr → Bool
  | .int .. | .float .. | .bool .. => true
  | .construct _ _ arguments => allKnown definitions arguments
  | .unary _ _ .minus operand => operand.isKnown definitions
  | .unary _ _ .logicalNot operand => (operand.resolves? definitions).isSome
  | .reference _ _ var .read => (definitions.constant? var).isSome
  | _ => false

def allKnown (definitions : Definitions) : List Expr → Bool
  | [] => true
  | argument :: arguments => argument.isKnown definitions && allKnown definitions arguments

end

theorem allKnown_eq_all (definitions : Definitions) (arguments : List Expr) :
    allKnown definitions arguments = arguments.all (isKnown definitions) := by
  induction arguments with
  | nil => rfl
  | cons argument arguments ih => rw [allKnown, ih, List.all_cons]

variable (settings : Settings) (definitions : Definitions) (expr : Expr)

theorem verdict?_negate : (expr.negate settings).value.verdict? = none :=
  negate_induction settings (motive := fun _ after => after.verdict? = none)
    (fun _ _ _ => rfl) (fun _ _ _ => rfl) (fun _ _ _ _ _ _ => rfl) (fun _ _ => rfl) expr

theorem verdict?_invert : expr.invert.value.verdict? = expr.verdict?.map not := by
  cases expr <;> rfl

theorem isConstant_invert : expr.invert.value.isConstant = expr.verdict?.isSome := by
  cases expr <;> rfl

theorem verdict?_propagate :
    (expr.propagate settings definitions).value.verdict? = expr.resolves? definitions := by
  induction expr with
  | int | float | bool => rfl
  | construct offset ty arguments =>
      rw [propagate_construct]
      rfl
  | reference offset ty var access =>
      cases access with
      | read =>
          rw [propagate_read, resolves?]
          cases definitions.constant? var with
          | none => rfl
          | some value => exact verdict?_withOffset value offset
      | write | readWrite =>
          rw [propagate_reference_of_written settings offset ty definitions (by simp)]
          rfl
  | unary offset ty operator operand ih =>
      rw [propagate_unary]
      cases operator with
      | minus =>
          rw [refolded_minus, verdict?_negate]
          rfl
      | logicalNot => rw [refolded_logicalNot, verdict?_invert, ih, resolves?]
      | _ =>
          rw [refolded_of_ne settings (by simp) (by simp)]
          rfl

theorem isConstant_propagate_eq_isKnown :
    (expr.propagate settings definitions).value.isConstant = expr.isKnown definitions := by
  induction expr with
  | int | float | bool => rfl
  | construct offset ty arguments ih =>
      rw [propagate_construct, isConstant, isKnown, allConstant_eq_all, allKnown_eq_all,
        List.all_map]
      rw [Bool.eq_iff_iff, List.all_eq_true, List.all_eq_true]
      refine forall₂_congr fun argument member => ?_
      rw [← ih argument member]
      rfl
  | reference offset ty var access =>
      cases access with
      | read =>
          rw [propagate_read, isKnown]
          cases found : definitions.constant? var with
          | none => rfl
          | some value =>
              calc
                (value.withOffset offset).isConstant = value.isConstant :=
                  isConstant_withOffset value offset
                _ = true := Definitions.isConstant_of_constant? found
      | write | readWrite =>
          rw [propagate_reference_of_written settings offset ty definitions (by simp)]
          rfl
  | unary offset ty operator operand ih =>
      rw [propagate_unary]
      cases operator with
      | minus => rw [refolded_minus, isConstant_negate, ih, isKnown]
      | logicalNot =>
          -- An inversion of a constant that is no literal stays, and is itself no constant.
          rw [refolded_logicalNot, isConstant_invert, verdict?_propagate, isKnown]
      | _ =>
          rw [refolded_of_ne settings (by simp) (by simp)]
          rfl

end Expr

/-! ## Conditionals that give way to a branch -/

/-- Where a conditional was flattened, and by which value of its test. -/
def Event.flattening? : Event → Option (Offset × Bool)
  | .flattenedConditional offset taken => some (offset, taken)
  | _ => none

namespace Traced

variable {α β γ : Type}

def flattenings (traced : Traced α) : List (Offset × Bool) :=
  traced.events.filterMap Event.flattening?

@[simp]
theorem flattenings_pure (value : α) : (pure value : Traced α).flattenings = [] := rfl

@[simp]
theorem flattenings_bind (first : Traced α) (next : α → Traced β) :
    (first >>= next).flattenings = first.flattenings ++ (next first.value).flattenings := by
  simp only [flattenings, events_bind, List.filterMap_append]

@[simp]
theorem flattenings_emit (event : Event) :
    (emit event).flattenings = event.flattening?.toList := by
  cases event <;> rfl

theorem flattenings_of_parts {traced : Traced α} {parts : List β} {part : β → Traced γ}
    (events : traced.events = parts.flatMap fun piece => (part piece).events) :
    traced.flattenings = parts.flatMap fun piece => (part piece).flattenings := by
  rw [flattenings, events, List.filterMap_flatMap]
  rfl

end Traced

namespace Expr

variable (settings : Settings) (definitions : Definitions)

theorem flattenings_negate (expr : Expr) : (expr.negate settings).flattenings = [] := by
  induction expr with
  | construct offset ty arguments ih =>
      have parts := Traced.flattenings_of_parts (negateAll_events settings arguments)
      rw [List.flatMap_eq_nil_iff.mpr ih] at parts
      rw [negate]
      split
      · simp [parts, Event.flattening?]
      · rfl
  | int | float | bool | unary | reference => rfl

theorem flattenings_refold (operator : Operator) (operand : Expr) :
    (refold settings operator operand).flattenings = [] := by
  unfold refold
  split
  · split
    · rfl
    · rfl
    · rw [Traced.flattenings_bind, flattenings_negate]
      split <;> rfl
    · rfl
    · rfl
  · rfl

theorem flattenings_propagate (expr : Expr) :
    (expr.propagate settings definitions).flattenings = [] := by
  induction expr with
  | int | float | bool => rfl
  | construct offset ty arguments ih =>
      have parts := Traced.flattenings_of_parts
        (propagateAll_events settings definitions arguments)
      rw [List.flatMap_eq_nil_iff.mpr ih] at parts
      simp [propagate, parts]
  | unary offset ty operator operand ih => simp [propagate, ih, flattenings_refold]
  | reference offset ty var access =>
      unfold propagate
      split <;> rfl

end Expr

namespace Stmt

mutual

/-- A statement with every expression rewritten, in which each static conditional whose test
resolves has given way to the branch it selects, or to nothing if that branch is missing. -/
def flattened (definitions : Definitions) (rewrite : Expr → Expr) : Stmt → Stmt
  | .conditional offset isStatic test ifTrue ifFalse =>
      match isStatic, test.resolves? definitions with
      | true, some true => (ifTrue.flattened definitions rewrite).withOffset offset
      | true, some false =>
          ((flattenedElse definitions rewrite ifFalse).getD (.nop offset)).withOffset offset
      | _, _ =>
          .conditional offset isStatic (rewrite test) (ifTrue.flattened definitions rewrite)
            (flattenedElse definitions rewrite ifFalse)
  | .block offset body => .block offset (flattenedBody definitions rewrite body)
  | .expression offset expr => .expression offset (rewrite expr)
  | .nop offset => .nop offset

def flattenedBody (definitions : Definitions) (rewrite : Expr → Expr) : List Stmt → List Stmt
  | [] => []
  | stmt :: body =>
      stmt.flattened definitions rewrite :: flattenedBody definitions rewrite body

def flattenedElse (definitions : Definitions) (rewrite : Expr → Expr) :
    Option Stmt → Option Stmt
  | none => none
  | some stmt => some (stmt.flattened definitions rewrite)

end

mutual

/-- The static conditionals whose tests resolve, with the values of the tests. A conditional comes
after those inside its branches, and those in a branch that is dropped count as well. -/
def decided (definitions : Definitions) : Stmt → List (Offset × Bool)
  | .conditional offset isStatic test ifTrue ifFalse =>
      ifTrue.decided definitions ++ decidedElse definitions ifFalse ++
        if isStatic then (test.resolves? definitions).toList.map (Prod.mk offset) else []
  | .block _ body => decidedBody definitions body
  | .expression .. | .nop .. => []

def decidedBody (definitions : Definitions) : List Stmt → List (Offset × Bool)
  | [] => []
  | stmt :: body => stmt.decided definitions ++ decidedBody definitions body

def decidedElse (definitions : Definitions) : Option Stmt → List (Offset × Bool)
  | none => []
  | some stmt => stmt.decided definitions

end

theorem flattenedBody_eq_map (definitions : Definitions) (rewrite : Expr → Expr)
    (body : List Stmt) :
    flattenedBody definitions rewrite body = body.map (flattened definitions rewrite) := by
  induction body with
  | nil => rfl
  | cons stmt body ih => rw [flattenedBody, ih, List.map_cons]

theorem flattenedElse_eq_map (definitions : Definitions) (rewrite : Expr → Expr)
    (ifFalse : Option Stmt) :
    flattenedElse definitions rewrite ifFalse = ifFalse.map (flattened definitions rewrite) := by
  cases ifFalse <;> rfl

theorem decidedBody_eq_flatMap (definitions : Definitions) (body : List Stmt) :
    decidedBody definitions body = body.flatMap (decided definitions) := by
  induction body with
  | nil => rfl
  | cons stmt body ih => rw [decidedBody, ih, List.flatMap_cons]

theorem decidedElse_eq_flatMap (definitions : Definitions) (ifFalse : Option Stmt) :
    decidedElse definitions ifFalse = ifFalse.toList.flatMap (decided definitions) := by
  cases ifFalse <;> simp [decidedElse]

variable (settings : Settings) (definitions : Definitions)

theorem propagate_eq_flattened (stmt : Stmt) :
    (stmt.propagate settings definitions).value =
      stmt.flattened definitions fun expr => (expr.propagate settings definitions).value := by
  induction stmt with
  | conditional offset isStatic test ifTrue ifFalse ihTrue ihFalse =>
      have branches : (ifFalse.map fun stmt => (stmt.propagate settings definitions).value) =
          flattenedElse definitions (fun expr => (expr.propagate settings definitions).value)
            ifFalse := by
        rw [flattenedElse_eq_map]
        exact Option.map_congr ihFalse
      rw [propagate_conditional, branch_value, Expr.verdict?_propagate, ihTrue, branches]
      rfl
  | block offset body ih =>
      rw [propagate_block, flattened, flattenedBody_eq_map]
      exact congrArg _ (List.map_congr_left ih)
  | expression offset expr => rfl
  | nop offset => rfl

theorem flattenings_branch (offset : Offset) (isStatic : Bool) (test : Expr) (ifTrue : Stmt)
    (ifFalse : Option Stmt) :
    (branch offset isStatic test ifTrue ifFalse).flattenings =
      if isStatic then test.verdict?.toList.map (Prod.mk offset) else [] := by
  cases isStatic with
  | false => rfl
  | true =>
      cases test with
      | bool testOffset ty value => cases value <;> rfl
      | int | float | construct | unary | reference => rfl

theorem flattenings_propagate (stmt : Stmt) :
    (stmt.propagate settings definitions).flattenings = stmt.decided definitions := by
  induction stmt with
  | conditional offset isStatic test ifTrue ifFalse ihTrue ihFalse =>
      have others := Traced.flattenings_of_parts
        (propagateElse_events settings definitions ifFalse)
      have each : ∀ stmt ∈ ifFalse.toList,
          (stmt.propagate settings definitions).flattenings = stmt.decided definitions :=
        fun stmt member => ihFalse stmt (Option.mem_toList.mp member)
      rw [List.flatMap_congr each] at others
      simp only [propagate, decided, decidedElse_eq_flatMap, Traced.flattenings_bind,
        Expr.flattenings_propagate, ihTrue, others, flattenings_branch, Expr.verdict?_propagate,
        List.nil_append, List.append_assoc]
  | block offset body ih =>
      have statements := Traced.flattenings_of_parts
        (propagateBody_events settings definitions body)
      rw [List.flatMap_congr ih] at statements
      simp [propagate, decided, decidedBody_eq_flatMap, statements]
  | expression offset expr => simp [propagate, decided, Expr.flattenings_propagate]
  | nop offset => rfl

end Stmt

/-- What propagation makes constant can be read off the tree it is given. An expression becomes a
boolean literal exactly if it resolves, and a constant exactly if it is known. In a program just the
static conditionals whose tests resolve are flattened, at any depth, each to the branch its value
selects, and everything else stays in place. -/
theorem constants_after_propagation (settings : Settings) (definitions : Definitions) :
    (∀ (expr : Expr) (value : Bool),
      (∃ offset ty, (expr.propagate settings definitions).value = .bool offset ty value) ↔
        expr.resolves? definitions = some value) ∧
    (∀ expr : Expr, (expr.propagate settings definitions).value.isConstant = true ↔
      expr.isKnown definitions = true) ∧
    ∀ program : Program,
      (program.propagate settings definitions).value.statements =
        program.statements.map (Stmt.flattened definitions fun expr =>
          (expr.propagate settings definitions).value) ∧
      (program.propagate settings definitions).flattenings =
        program.statements.flatMap (Stmt.decided definitions) := by
  refine ⟨fun expr value => ?_, fun expr => ?_, fun program => ⟨?_, ?_⟩⟩
  · rw [← Expr.verdict?_eq_some_iff, Expr.verdict?_propagate]
  · rw [Expr.isConstant_propagate_eq_isKnown]
  · rw [Program.propagate_statements]
    exact List.map_congr_left fun stmt _ => stmt.propagate_eq_flattened settings definitions
  · have statements := Traced.flattenings_of_parts
      (Stmt.propagateBody_events settings definitions program.statements)
    simp [Program.propagate, statements, Stmt.flattenings_propagate]

end ShaderIR
