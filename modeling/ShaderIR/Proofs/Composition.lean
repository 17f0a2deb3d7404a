import ShaderIR.Proofs.Folding

/-!
Propagating more than once. Folding commutes with propagation: it does not matter whether an
operator is folded before the variables below it become known or after. So what the first of two
runs leaves is what the second would have met on its way up in a single run over the definitions of
both, as long as the definitions that the first run puts in have nothing left to fold in them.
-/

namespace ShaderIR

namespace Expr

variable {settings plain pass : Settings} {expr : Expr}

/-- Nothing in a constant is read, so propagation can only fold it. -/
theorem isConstant_propagate_of_constant (settings : Settings) (definitions : Definitions)
    (constant : expr.isConstant = true) :
    (expr.propagate settings definitions).value.isConstant = true := by
  induction expr with
  | int | float | bool => rfl
  | reference => cases constant
  | construct offset ty arguments ih =>
      have parts : ∀ argument ∈ arguments, argument.isConstant = true := by
        simpa only [isConstant, allConstant_eq_all, List.all_eq_true] using constant
      rw [propagate_construct]
      simp only [isConstant, allConstant_eq_all, List.all_map, List.all_eq_true]
      exact fun argument member => ih argument member (parts argument member)
  | unary offset ty operator operand ih =>
      obtain ⟨isMinus, below⟩ : operator = .minus ∧ operand.isConstant = true := by
        simpa only [isConstant, Bool.and_eq_true, beq_iff_eq] using constant
      subst isMinus
      rw [propagate_unary, refolded_minus, isConstant_negate]
      exact ih below

/-- A negation can be left to a pass that moves signs at least as far as building does. -/
theorem propagate_negate (weaker : plain.optimize = true → pass.optimize = true)
    (definitions : Definitions) (expr : Expr) :
    ((expr.negate plain).value.propagate pass definitions).value =
      ((expr.propagate pass definitions).value.negate pass).value := by
  refine negate_induction plain (motive := fun before after =>
    (after.propagate pass definitions).value =
      ((before.propagate pass definitions).value.negate pass).value) ?_ ?_ ?_ ?_ expr
  · intro offset ty value
    rfl
  · intro offset ty value
    rfl
  · intro offset ty arguments optimizes constant ih
    -- The arguments are still constant after the pass, so the sign moves in then as well.
    have stays : allConstant
        (arguments.map fun argument => (argument.propagate pass definitions).value) = true := by
      have whole : ((Expr.construct offset ty arguments).propagate pass
          definitions).value.isConstant = true :=
        isConstant_propagate_of_constant pass definitions constant
      rwa [propagate_construct] at whole
    rw [propagate_construct, propagate_construct,
      negate_construct pass offset ty (weaker optimizes) stays, List.map_map, List.map_map]
    exact congrArg _ (List.map_congr_left ih)
  · intro operand _
    rw [propagate_apply, refolded_minus]

theorem propagate_invert (pass : Settings) (definitions : Definitions) (expr : Expr) :
    (expr.invert.value.propagate pass definitions).value =
      (expr.propagate pass definitions).value.invert.value := by
  cases expr with
  | bool => rfl
  | int | float | construct | unary | reference =>
      rw [invert_of_not_foldable pass rfl, propagate_apply, refolded_logicalNot]

theorem propagate_refolded (settings : Settings) (definitions : Definitions)
    (operator : Operator) (operand : Expr) :
    ((refolded settings operator operand).propagate settings definitions).value =
      refolded settings operator (operand.propagate settings definitions).value := by
  refine refolded_cases settings (motive := fun after =>
    (after.propagate settings definitions).value =
      refolded settings operator (operand.propagate settings definitions).value)
    operator operand ?_ ?_ ?_
  · rintro rfl
    rw [refolded_minus, propagate_negate id]
  · rintro rfl
    rw [refolded_logicalNot, propagate_invert]
  · intro _ _
    exact propagate_apply settings definitions operator operand

/-- A tree without operators. -/
def Plain (expr : Expr) : Prop :=
  expr.Every fun node => node.isUnary = false

theorem Plain.withOffset (plain : expr.Plain) (offset : Offset) :
    (expr.withOffset offset).Plain := by
  refine Every.withOffset plain ?_
  have root := plain.root
  cases expr with
  | unary => cases root
  | int | float | bool | construct | reference => rfl

theorem Plain.propagate (plain : expr.Plain) (constant : expr.isConstant = true)
    (settings : Settings) (definitions : Definitions) :
    (expr.propagate settings definitions).value = expr := by
  induction expr with
  | int | float | bool => rfl
  | unary => cases plain.root
  | reference => cases constant
  | construct offset ty arguments ih =>
      have plainParts := (every_construct.mp plain).2
      have constantParts : ∀ argument ∈ arguments, argument.isConstant = true := by
        simpa only [isConstant, allConstant_eq_all, List.all_eq_true] using constant
      rw [propagate_construct]
      refine congrArg _ (map_eq_self_iff.mpr fun argument member => ?_)
      exact ih argument member (plainParts argument member) (constantParts argument member)

/-- A tree after several runs, each with settings and definitions of its own. -/
def afterRuns (expr : Expr) (runs : List (Settings × Definitions)) : Expr :=
  runs.foldl (fun expr run => (expr.propagate run.1 run.2).value) expr

/-- What every run keeps is there in the end. -/
theorem afterRuns_induction {holds : Expr → Prop} {runs : List (Settings × Definitions)}
    (start : holds expr)
    (run : ∀ run ∈ runs, ∀ expr, holds expr → holds (expr.propagate run.1 run.2).value) :
    holds (expr.afterRuns runs) := by
  induction runs generalizing expr with
  | nil => exact start
  | cons first rest ih =>
      have afterFirst := run first (by simp) expr start
      exact ih afterFirst fun later member => run later (by simp [member])

end Expr

namespace Definitions

/-- No constant definition has an operator in it. -/
def Plain (definitions : Definitions) : Prop :=
  ∀ var value, definitions.constant? var = some value → value.Plain

theorem constant?_insert (definitions : Definitions) (var other : Variable) (value : Expr) :
    (definitions.insert var value).constant? other =
      if other.id = var.id then (some value).filter Expr.isConstant
      else definitions.constant? other := by
  rw [constant?, get?_insert]
  split <;> rfl

@[simp]
theorem constant?_empty (var : Variable) : Definitions.empty.constant? var = none := rfl

theorem plain_empty : Definitions.empty.Plain := by
  intro var value known
  cases known

theorem Plain.insert {definitions : Definitions} (plain : definitions.Plain) (var : Variable)
    {value : Expr} (plainValue : value.Plain) : (definitions.insert var value).Plain := by
  intro other found known
  rw [constant?_insert] at known
  split at known
  · cases Option.eq_some_of_filter_eq_some known
    exact plainValue
  · exact plain other found known

/-- The constants of the first map, and those of the second for the other variables. -/
def MergeOf (merged first second : Definitions) : Prop :=
  ∀ var, merged.constant? var = (first.constant? var).or (second.constant? var)

/-- A map that has the constants of two maps, the first of them having precedence. Definitions in
the first map that are not constant are left out, since they would hide those of the second. -/
def orElse (first second : Definitions) : Definitions :=
  ⟨first.entries.filter (fun entry => (first.entries.lookup entry.1).any Expr.isConstant) ++
    second.entries⟩

theorem lookup_filter_key (keep : Nat → Bool) (entries : List (Nat × Expr)) (key : Nat) :
    (entries.filter fun entry => keep entry.1).lookup key =
      if keep key then entries.lookup key else none := by
  induction entries with
  | nil => simp
  | cons entry entries ih =>
      obtain ⟨found, value⟩ := entry
      by_cases same : key = found
      · subst same
        cases kept : keep key with
        | true => simp [kept]
        | false =>
            rw [kept] at ih
            simpa [kept] using ih
      · cases kept : keep found <;>
          simp [kept, ih, List.lookup_cons, beq_false_of_ne same]

theorem mergeOf_orElse (first second : Definitions) :
    (first.orElse second).MergeOf first second := by
  intro var
  simp only [constant?, get?, orElse, List.lookup_append]
  rw [lookup_filter_key fun key => (first.entries.lookup key).any Expr.isConstant]
  cases found : first.entries.lookup var.id with
  | none => simp
  | some value => cases constant : value.isConstant <;> simp [constant, Option.filter_some]

theorem mergeOf_self (definitions : Definitions) :
    definitions.MergeOf definitions definitions := by
  intro var
  cases definitions.constant? var <;> rfl

variable {merged first second : Definitions}

/-- Where no variable has two definitions, none has precedence. -/
theorem MergeOf.symm (merges : merged.MergeOf first second)
    (disjoint : ∀ var, first.constant? var = none ∨ second.constant? var = none) :
    merged.MergeOf second first := by
  intro var
  rw [merges var]
  rcases disjoint var with absent | absent <;> simp [absent]

end Definitions

section Twice

variable {merged first second : Definitions} (settings : Settings)

theorem Expr.propagate_propagate (plain : first.Plain) (merges : merged.MergeOf first second)
    (expr : Expr) :
    ((expr.propagate settings first).value.propagate settings second).value =
      (expr.propagate settings merged).value := by
  induction expr with
  | int | float | bool => rfl
  | construct offset ty arguments ih =>
      simp only [propagate_construct, List.map_map]
      exact congrArg _ (List.map_congr_left ih)
  | unary offset ty operator operand ih =>
      rw [propagate_unary, propagate_refolded, ih, propagate_unary]
  | reference offset ty var access =>
      by_cases reads : access = .read
      · subst reads
        rw [propagate_read, propagate_read, merges var]
        cases found : first.constant? var with
        | none => exact propagate_read settings offset ty second var
        | some value =>
            have constant := Definitions.isConstant_of_constant? found
            rw [← isConstant_withOffset value offset] at constant
            exact ((plain var value found).withOffset offset).propagate constant settings second
      · have kept (definitions : Definitions) :=
          propagate_reference_of_written settings offset ty definitions reads var
        rw [kept, kept, kept]

namespace Stmt

theorem branch_withOffset (offset later : Offset) (isStatic : Bool) (test : Expr) (ifTrue : Stmt)
    (ifFalse : Option Stmt) :
    (branch offset isStatic test ifTrue ifFalse).value.withOffset later =
      (branch later isStatic test ifTrue ifFalse).value := by
  obtain undecided | ⟨rfl, testOffset, ty, value, rfl⟩ := undecided_or_literal isStatic test
  · rw [branch_of_undecided offset undecided, branch_of_undecided later undecided]
    rfl
  · cases value with
    | true => rw [branch_true, branch_true, withOffset_withOffset]
    | false =>
        rw [branch_false, branch_false, withOffset_withOffset]
        cases ifFalse <;> rfl

theorem propagate_withOffset (definitions : Definitions) (stmt : Stmt) (offset : Offset) :
    ((stmt.withOffset offset).propagate settings definitions).value =
      (stmt.propagate settings definitions).value.withOffset offset := by
  cases stmt with
  | conditional original isStatic test ifTrue ifFalse =>
      rw [propagate_conditional, branch_withOffset, withOffset, propagate_conditional]
  | block original body => simp only [withOffset, propagate_block]
  | expression original expr => rfl
  | nop original => rfl

/-- A static conditional that was dropped while building would be dropped by propagation. -/
theorem propagate_branch (definitions : Definitions) (offset : Offset) (isStatic : Bool)
    (test : Expr) (ifTrue : Stmt) (ifFalse : Option Stmt) :
    ((branch offset isStatic test ifTrue ifFalse).value.propagate settings definitions).value =
      (branch offset isStatic (test.propagate settings definitions).value
        (ifTrue.propagate settings definitions).value
        (ifFalse.map fun stmt => (stmt.propagate settings definitions).value)).value := by
  obtain undecided | ⟨rfl, testOffset, ty, value, rfl⟩ := undecided_or_literal isStatic test
  · rw [branch_of_undecided offset undecided, propagate_conditional]
  · rw [Expr.propagate_bool]
    cases value with
    | true => rw [branch_true, branch_true, propagate_withOffset]
    | false =>
        rw [branch_false, branch_false, propagate_withOffset]
        cases ifFalse <;> rfl

theorem propagate_propagate (plain : first.Plain) (merges : merged.MergeOf first second)
    (stmt : Stmt) :
    ((stmt.propagate settings first).value.propagate settings second).value =
      (stmt.propagate settings merged).value := by
  induction stmt with
  | conditional offset isStatic test ifTrue ifFalse ihTrue ihFalse =>
      have second_branch : (ifFalse.map fun stmt => (stmt.propagate settings first).value).map
          (fun stmt => (stmt.propagate settings second).value) =
          ifFalse.map fun stmt => (stmt.propagate settings merged).value := by
        rw [Option.map_map]
        exact Option.map_congr ihFalse
      rw [propagate_conditional, propagate_branch, ihTrue, second_branch,
        Expr.propagate_propagate settings plain merges, propagate_conditional]
  | block offset body ih =>
      simp only [propagate_block, List.map_map]
      exact congrArg _ (List.map_congr_left ih)
  | expression offset expr =>
      rw [propagate_expression, propagate_expression,
        Expr.propagate_propagate settings plain merges, propagate_expression]
  | nop offset => rfl

end Stmt

theorem Program.propagate_propagate (plain : first.Plain) (merges : merged.MergeOf first second)
    (program : Program) :
    ((program.propagate settings first).value.propagate settings second).value =
      (program.propagate settings merged).value := by
  have same : ((program.propagate settings first).value.propagate settings second).value.statements
      = (program.propagate settings merged).value.statements := by
    simp only [propagate_statements, List.map_map]
    exact List.map_congr_left fun stmt _ => Stmt.propagate_propagate settings plain merges stmt
  exact congrArg Program.mk same

/-- Two runs with plain definitions do together what one run does with the constants of both maps,
those of the first having precedence. So a run repeated changes nothing, and runs whose maps have no
variable in common can be exchanged. -/
theorem Program.propagation_runs_compose (program : Program) (plainFirst : first.Plain)
    (plainSecond : second.Plain) :
    (∃ merged : Definitions, merged.MergeOf first second) ∧
    (∀ merged : Definitions, merged.MergeOf first second →
      ((program.propagate settings first).value.propagate settings second).value =
        (program.propagate settings merged).value) ∧
    ((program.propagate settings first).value.propagate settings first).value =
      (program.propagate settings first).value ∧
    ((∀ var, first.constant? var = none ∨ second.constant? var = none) →
      ((program.propagate settings first).value.propagate settings second).value =
        ((program.propagate settings second).value.propagate settings first).value) := by
  have merges := Definitions.mergeOf_orElse first second
  refine ⟨⟨_, merges⟩, ?_, ?_, ?_⟩
  · intro merged merges
    exact propagate_propagate settings plainFirst merges program
  · exact propagate_propagate settings plainFirst first.mergeOf_self program
  · intro disjoint
    calc
      ((program.propagate settings first).value.propagate settings second).value
          = (program.propagate settings (first.orElse second)).value :=
        propagate_propagate settings plainFirst merges program
      _ = ((program.propagate settings second).value.propagate settings first).value :=
        (propagate_propagate settings plainSecond (merges.symm disjoint) program).symm

/-- The first run knows one column of a vector under two signs and leaves both signs standing. The
second knows the other column and the test of the conditional around the vector. -/
theorem Program.propagation_runs_compose_columns :
    let x : Variable := ⟨0, "x", .float, ⟨true, false⟩⟩
    let y : Variable := ⟨1, "y", .float, ⟨true, false⟩⟩
    let flag : Variable := ⟨2, "flag", .bool, ⟨true, false⟩⟩
    let pair (left right : Expr) : Expr := .construct 7 (.vector .float .two) [left, right]
    let program : Program := ⟨[.conditional 1 true
      (.apply .logicalNot (.referTo 2 flag .read)) (.nop 3)
      (some (.ofExpr (.apply .minus (.apply .minus
        (pair (.referTo 8 x .read) (.apply .minus (.referTo 9 y .read)))))))]⟩
    let first := Definitions.empty.insert x (.float 50 .float ⟨0x3FF0000000000000⟩)
    let second := (Definitions.empty.insert y
      (.construct 60 .float [.int 61 (.literal .int) 2])).insert flag (.bool 70 .bool true)
    first.Plain ∧ second.Plain ∧
      ((program.propagate {} first).value.propagate {} second).value =
        ((program.propagate {} second).value.propagate {} first).value ∧
      ((program.propagate {} second).value.propagate {} first).value =
        ⟨[.expression 1 (pair (.float 8 .float ⟨0x3FF0000000000000⟩)
          (.construct 9 .float [.int 61 (.literal .int) (-2)]))]⟩ := by
  intro x y flag pair program first second
  have plainFirst : first.Plain :=
    Definitions.plain_empty.insert x (Expr.every_float.mpr rfl)
  have plainSecond : second.Plain := by
    refine (Definitions.plain_empty.insert y ?_).insert flag (Expr.every_bool.mpr rfl)
    simp [Expr.Plain, Expr.isUnary]
  have disjoint (var : Variable) : first.constant? var = none ∨ second.constant? var = none := by
    by_cases same : var.id = x.id
    · right
      simp [second, Definitions.constant?_insert, same, x, y, flag]
    · left
      simp [first, Definitions.constant?_insert, same]
  -- Computing both runs in one step is slow.
  have afterSecond : (program.propagate {} second).value =
      ⟨[.expression 1 (.apply .minus (.apply .minus
        (pair (.referTo 8 x .read) (.construct 9 .float [.int 61 (.literal .int) (-2)]))))]⟩ := rfl
  have outcome : ((program.propagate {} second).value.propagate {} first).value =
      ⟨[.expression 1 (pair (.float 8 .float ⟨0x3FF0000000000000⟩)
        (.construct 9 .float [.int 61 (.literal .int) (-2)]))]⟩ := by
    rw [afterSecond]
    rfl
  exact ⟨plainFirst, plainSecond,
    (propagation_runs_compose {} program plainFirst plainSecond).2.2.2 disjoint, outcome⟩

end Twice

end ShaderIR
