import ShaderIR.Proofs.Composition
import ShaderIR.Proofs.Construction
import ShaderIR.Proofs.NormalForm

/-!
Constants known before building. Filling a recipe puts, in place of every read of a variable with a
constant definition, that definition itself. What the filled recipe builds is what propagation makes
of the tree that the recipe builds as it stands. The relation `Filled` between the two trees is kept
by every step: a definition has the type of its variable, so the checks decide alike, and folding
commutes with propagation. Only two things could tell the trees apart: coercing a read, which turns
a literal into another literal, and stepping a read, which turns it into a write.
-/

namespace ShaderIR

namespace Expr

def isRead : Expr → Bool
  | .reference _ _ _ .read => true
  | _ => false

theorem isRead_of_kind {expr : Expr} (other : expr.kind ≠ .reference) : expr.isRead = false := by
  cases expr with
  | reference => exact absurd rfl other
  | int | float | bool | construct | unary => rfl

/-- A read has no untyped literal type, and a definition that takes its place has its type. -/
def Suits (definitions : Definitions) : Expr → Prop
  | .reference _ ty var .read =>
      ty.isLiteral = false ∧ ∀ value, definitions.constant? var = some value → value.ty = ty
  | _ => True

/-- A tree, and what it becomes once the definitions are put in. -/
structure Filled (settings : Settings) (definitions : Definitions) (plain filled : Expr) :
    Prop where
  normal : plain.Every (Normal settings)
  suits : plain.Every (Suits definitions)
  propagated : filled = (plain.propagate settings definitions).value

variable {settings : Settings} {definitions : Definitions} {plain filled : Expr}

theorem Filled.suits_read (related : Filled settings definitions plain filled) {var : Variable}
    (reads : plain.reads? = some var) :
    plain.ty.isLiteral = false ∧
      ∀ value, definitions.constant? var = some value → value.ty = plain.ty := by
  obtain ⟨offset, ty, base⟩ := base_eq_of_reads reads
  have suits := related.suits plain.base plain.base_mem_nodes
  have sameTy := ty_base related.normal.labelled
  rw [base] at suits sameTy
  rw [← sameTy]
  exact suits

theorem Filled.ty_eq (related : Filled settings definitions plain filled) :
    filled.ty = plain.ty := by
  rw [related.propagated, ty_propagate settings definitions related.normal.labelled]
  cases reads : plain.reads? with
  | none => rfl
  | some var =>
      cases found : definitions.constant? var with
      | none => simp [found]
      | some value => simpa [found] using (related.suits_read reads).2 value found

theorem Filled.offset_eq (related : Filled settings definitions plain filled) :
    filled.offset = plain.offset := by
  rw [related.propagated, offset_propagate, offset_base related.normal.anchored]

/-- What has an untyped literal type is not read from a variable. -/
theorem Filled.keptBy (related : Filled settings definitions plain filled)
    (untyped : plain.ty.isLiteral = true) : plain.KeptBy definitions := by
  cases reads : plain.reads? with
  | none => simp [KeptBy, reads]
  | some var =>
      have typed := (related.suits_read reads).1
      rw [untyped] at typed
      cases typed

theorem Filled.negate (related : Filled settings definitions plain filled) :
    Filled settings definitions (plain.negate settings).value (filled.negate settings).value where
  normal := related.normal.normal_negate
  suits := by
    refine related.suits.negate settings ?_ ?_ ?_ ?_
    · exact fun _ _ _ _ _ => trivial
    · exact fun _ _ _ _ _ => trivial
    · exact fun _ _ _ _ _ => trivial
    · exact fun _ _ _ => trivial
  propagated := by rw [propagate_negate id, ← related.propagated]

theorem Filled.invert (related : Filled settings definitions plain filled) :
    Filled settings definitions plain.invert.value filled.invert.value where
  normal := related.normal.normal_invert
  suits := related.suits.invert (fun _ _ _ _ _ => trivial) fun _ => trivial
  propagated := by rw [propagate_invert, ← related.propagated]

theorem Filled.apply (related : Filled settings definitions plain filled) {operator : Operator}
    (notMinus : operator ≠ .minus) (notInversion : operator ≠ .logicalNot) :
    Filled settings definitions (apply operator plain) (apply operator filled) where
  normal :=
    every_apply.mpr ⟨⟨rfl, rfl, foldable_of_ne settings notMinus notInversion plain⟩,
      related.normal⟩
  suits := every_apply.mpr ⟨trivial, related.suits⟩
  propagated := by
    rw [propagate_apply, refolded_of_ne settings notMinus notInversion, ← related.propagated]

theorem Filled.committed (related : Filled settings definitions plain filled) :
    Filled settings definitions plain.committed filled.committed := by
  simp only [Expr.committed, related.ty_eq]
  cases found : plain.ty.committed? with
  | none => exact related
  | some scalar =>
      have untyped : plain.ty.isLiteral = true := by simp [Ty.isLiteral, found]
      refine ⟨related.normal.normal_coerce scalar, related.suits.coerce scalar ?_ ?_ ?_, ?_⟩
      · exact fun _ _ _ => trivial
      · exact fun _ _ _ => trivial
      · exact fun _ _ => trivial
      · rw [propagate_coerce settings related.normal (related.keptBy untyped),
          ← related.propagated]

theorem assigned_of_kind {expr : Expr} (other : expr.kind ≠ .reference) (access : Access) :
    expr.assigned access = .error .notAssignable := by
  cases expr with
  | reference => exact absurd rfl other
  | int | float | bool | construct | unary => rfl

/-- Only a read can cease to be a reference. -/
theorem kind_propagate_ne_reference {expr : Expr} (other : expr.kind ≠ .reference) :
    (expr.propagate settings definitions).value.kind ≠ .reference := by
  cases expr with
  | reference => exact absurd rfl other
  | unary offset ty operator operand =>
      rw [propagate_unary]
      exact kind_refolded_ne_reference settings _ operator
  | construct offset ty arguments => rw [propagate_construct]; simp [kind]
  | int | float | bool => exact other

theorem filled_referTo (offset : Offset) (var : Variable) {access : Access}
    (written : access ≠ .read) :
    Filled settings definitions (referTo offset var access) (referTo offset var access) where
  normal := every_reference.mpr trivial
  suits := by
    cases access with
    | read => contradiction
    | write | readWrite => exact every_reference.mpr trivial
  propagated :=
    (propagate_reference_of_written settings offset var.ty definitions written var).symm

theorem Filled.assigned (related : Filled settings definitions plain filled)
    (written : plain.isRead = false) :
    BuildM.AlikeOutcomes (Filled settings definitions) (plain.assigned .readWrite)
      (filled.assigned .readWrite) := by
  by_cases other : plain.kind = .reference
  · cases plain with
    | reference offset ty var access =>
        have notRead : access ≠ .read := by
          rintro rfl
          cases written
        have same : filled = .reference offset ty var access :=
          related.propagated.trans
            (propagate_reference_of_written settings offset ty definitions notRead var)
        subst same
        simp only [Expr.assigned]
        split
        · rfl
        · exact filled_referTo offset var (by simp)
    | int | float | bool | construct | unary => cases other
  · have otherFilled : filled.kind ≠ .reference := by
      rw [related.propagated]
      exact kind_propagate_ne_reference other
    rw [assigned_of_kind other, assigned_of_kind otherFilled]
    rfl

theorem Filled.unaryResult (related : Filled settings definitions plain filled)
    {operator : Operator}
    (written : operator = .increment ∨ operator = .decrement → plain.isRead = false) :
    BuildM.AlikeOutcomes (Filled settings definitions) (plain.unaryResult settings operator)
      (filled.unaryResult settings operator) := by
  have complemented : Filled settings definitions (Expr.apply .bitwiseNot plain.committed)
      (Expr.apply .bitwiseNot filled.committed) :=
    related.committed.apply (by decide) (by decide)
  refine unaryResult_alike related.ty_eq rfl related related.negate related.invert complemented
    fun isStep => ?_
  refine (related.assigned (written isStep)).map fun _ _ target => target.apply ?_ ?_
  · rcases isStep with rfl | rfl <;> decide
  · rcases isStep with rfl | rfl <;> decide

theorem Filled.buildUnary (related : Filled settings definitions plain filled)
    {operator : Operator}
    (written : operator = .increment ∨ operator = .decrement → plain.isRead = false) :
    BuildM.Agree (Filled settings definitions) (plain.buildUnary operator) settings
      (filled.buildUnary operator) settings := by
  cases isPrefix : operator.isPrefix with
  | true =>
      have ends : (plain.buildUnary operator).Ends settings _ := plain.buildUnary_ends isPrefix
      have otherEnds : (filled.buildUnary operator).Ends settings _ :=
        filled.buildUnary_ends isPrefix
      rw [related.offset_eq] at otherEnds
      exact .inl (.of_ends ends otherEnds ((related.unaryResult written).reportedAt plain.offset))
  | false =>
      rw [buildUnary_of_other isPrefix, buildUnary_of_other isPrefix]
      exact .inr ⟨_, BuildM.faults_fault _, BuildM.faults_fault _⟩

end Expr

/-! ## Recipes with definitions put in -/

namespace ExprRecipe

mutual

/-- A definition stands where the read that it replaces stood. -/
def fill (definitions : Definitions) : ExprRecipe → ExprRecipe
  | .reference offset var .read =>
      match definitions.constant? var with
      | some value => .given (value.withOffset offset)
      | none => .reference offset var .read
  | .construct offset ty arguments => .construct offset ty (fillAll definitions arguments)
  | .unary operator operand => .unary operator (operand.fill definitions)
  | .negate operand => .negate (operand.fill definitions)
  | .invert operand => .invert (operand.fill definitions)
  | .coerce target operand => .coerce target (operand.fill definitions)
  | .relocate offset operand => .relocate offset (operand.fill definitions)
  | .assignTo access operand => .assignTo access (operand.fill definitions)
  | .operandOf node => .operandOf (node.fill definitions)
  | .argumentOf index node => .argumentOf index (node.fill definitions)
  | .refold node => .refold (node.fill definitions)
  | recipe => recipe

def fillAll (definitions : Definitions) : List ExprRecipe → List ExprRecipe
  | [] => []
  | recipe :: recipes => recipe.fill definitions :: fillAll definitions recipes

end

/-- A read, with nothing before it but signs that leave it as it is. -/
def isRead : ExprRecipe → Bool
  | .reference _ _ .read => true
  | .unary .plus operand => operand.isRead
  | _ => false

mutual

/-- Every operator is applied with its checks, none of them steps a read, and the variables that are
read have the types of their definitions, which are not those of untyped literals. -/
def admits (definitions : Definitions) : ExprRecipe → Bool
  | .int .. | .float .. | .bool .. => true
  | .reference _ var .read =>
      !var.ty.isLiteral && (definitions.constant? var).all fun value => value.ty == var.ty
  | .reference .. => true
  | .construct _ _ arguments => admitsAll definitions arguments
  | .unary .increment operand | .unary .decrement operand =>
      !operand.isRead && operand.admits definitions
  | .unary _ operand => operand.admits definitions
  | .negate .. | .invert .. | .coerce .. | .relocate .. | .assignTo .. | .operandOf ..
  | .argumentOf .. | .refold .. | .given .. | .missing .. => false

def admitsAll (definitions : Definitions) : List ExprRecipe → Bool
  | [] => true
  | recipe :: recipes => recipe.admits definitions && admitsAll definitions recipes

end

variable {settings : Settings} {definitions : Definitions}

theorem of_admits_unary {operator : Operator} {operand : ExprRecipe}
    (admitted : (unary operator operand).admits definitions = true) :
    operand.admits definitions = true ∧
      (operator = .increment ∨ operator = .decrement → operand.isRead = false) := by
  cases operator with
  | increment | decrement =>
      have parts : operand.isRead = false ∧ operand.admits definitions = true := by
        simpa only [admits, Bool.and_eq_true, Bool.not_eq_true'] using admitted
      exact ⟨parts.2, fun _ => parts.1⟩
  | _ => exact ⟨admitted, fun isStep => by simp at isStep⟩

/-- What is built is a read only if the recipe says so. -/
theorem build_isRead : ∀ recipe : ExprRecipe, recipe.admits definitions = true →
    recipe.build.Ensures settings fun expr => expr.isRead = true → recipe.isRead = true
  | .int .., _ | .float .., _ | .bool .., _ => .pure fun reads => nomatch reads
  | .reference _ _ .read, _ => .pure fun _ => rfl
  | .reference _ _ .write, _ | .reference _ _ .readWrite, _ => .pure fun reads => nomatch reads
  | .construct _ _ arguments, _ => by
      have whatever : (buildAll arguments).Ensures settings fun _ => True := fun _ _ _ => trivial
      exact whatever.bind fun _ _ => .pure fun reads => nomatch reads
  | .unary operator operand, admitted => by
      refine (build_isRead operand (of_admits_unary admitted).1).bind fun built known => ?_
      intro journal result ran
      cases Expr.UnaryBuilt.of_run_ok ran with
      | plus => exact known
      | minus =>
          rw [Expr.isRead_of_kind (Expr.kind_negate_ne_reference settings built)]
          exact fun reads => nomatch reads
      | logicalNot =>
          rw [Expr.isRead_of_kind (Expr.kind_invert_ne_reference built)]
          exact fun reads => nomatch reads
      | bitwiseNot => exact fun reads => nomatch reads
      | step => exact fun reads => nomatch reads

theorem filled_read (offset : Offset) {var : Variable}
    (admitted : (reference offset var .read).admits definitions = true) :
    BuildM.Agree (Expr.Filled settings definitions)
      (reference offset var .read).build settings
      ((reference offset var .read).fill definitions).build settings := by
  have suits : (Expr.referTo offset var .read).Suits definitions := by
    simp only [admits, Bool.and_eq_true, Bool.not_eq_true', Option.all_eq_true, beq_iff_eq]
      at admitted
    exact ⟨admitted.1, admitted.2⟩
  have related {filled : Expr}
      (same : filled = ((Expr.referTo offset var .read).propagate settings definitions).value) :
      Expr.Filled settings definitions (.referTo offset var .read) filled :=
    ⟨Expr.every_reference.mpr trivial, Expr.every_reference.mpr suits, same⟩
  have replaced := Expr.propagate_read settings offset var.ty definitions var
  cases found : definitions.constant? var with
  | none =>
      rw [found] at replaced
      simp only [fill, found]
      exact .pure (related replaced.symm)
  | some value =>
      rw [found] at replaced
      simp only [fill, found]
      exact .pure (related replaced.symm)

mutual

theorem build_fill : ∀ recipe : ExprRecipe, recipe.admits definitions = true →
    BuildM.Agree (Expr.Filled settings definitions) recipe.build settings
      (recipe.fill definitions).build settings
  | .int .., _ => .pure ⟨Expr.every_int.mpr trivial, Expr.every_int.mpr trivial, rfl⟩
  | .float .., _ => .pure ⟨Expr.every_float.mpr trivial, Expr.every_float.mpr trivial, rfl⟩
  | .bool .., _ => .pure ⟨Expr.every_bool.mpr trivial, Expr.every_bool.mpr trivial, rfl⟩
  | .reference offset var .read, admitted => filled_read offset admitted
  | .reference offset var .write, _ => .pure (Expr.filled_referTo offset var (by simp))
  | .reference offset var .readWrite, _ => .pure (Expr.filled_referTo offset var (by simp))
  | .construct offset ty arguments, admitted => by
      refine (buildAll_fill arguments admitted).bind fun built filled related => ?_
      refine .pure ⟨Expr.every_construct.mpr ⟨trivial, fun argument member => ?_⟩,
        Expr.every_construct.mpr ⟨trivial, fun argument member => ?_⟩, ?_⟩
      · exact (related.1 argument member).1
      · exact (related.1 argument member).2
      · rw [Expr.propagate_construct, related.2]
  | .unary operator operand, admitted => by
      obtain ⟨below, written⟩ := of_admits_unary admitted
      have agree := (build_fill operand below).ensuring (build_isRead operand below)
      refine agree.bind fun plain filled ⟨related, known⟩ => related.buildUnary fun isStep => ?_
      rw [written isStep] at known
      exact Bool.eq_false_iff.mpr fun reads => nomatch known reads

theorem buildAll_fill : ∀ recipes : List ExprRecipe, admitsAll definitions recipes = true →
    BuildM.Agree
      (fun built filled =>
        (∀ expr ∈ built, expr.Every (Expr.Normal settings) ∧ expr.Every (Expr.Suits definitions)) ∧
        filled = built.map fun expr => (expr.propagate settings definitions).value)
      (buildAll recipes) settings (buildAll (fillAll definitions recipes)) settings
  | [], _ => .pure ⟨fun _ absent => (nomatch absent), rfl⟩
  | recipe :: recipes, admitted => by
      have parts : recipe.admits definitions = true ∧ admitsAll definitions recipes = true := by
        simpa only [admitsAll, Bool.and_eq_true] using admitted
      refine (build_fill recipe parts.1).bind fun first filled related => ?_
      refine (buildAll_fill recipes parts.2).bind fun rest filledRest relatedRest => ?_
      refine .pure ⟨List.forall_mem_cons.mpr ⟨⟨related.normal, related.suits⟩, relatedRest.1⟩, ?_⟩
      rw [related.propagated, relatedRest.2, List.map_cons]

end

end ExprRecipe

namespace StmtRecipe

mutual

def fill (definitions : Definitions) : StmtRecipe → StmtRecipe
  | .expression expr => .expression (expr.fill definitions)
  | .nop offset => .nop offset
  | .block offset body => .block offset (fillBody definitions body)
  | .conditional offset isStatic test ifTrue ifFalse =>
      .conditional offset isStatic (test.fill definitions) (ifTrue.fill definitions)
        (fillElse definitions ifFalse)
  | .branch offset isStatic test ifTrue ifFalse =>
      .branch offset isStatic (test.fill definitions) (ifTrue.fill definitions)
        (fillElse definitions ifFalse)
  | .relocate offset stmt => .relocate offset (stmt.fill definitions)
  | .ifTrueOf stmt => .ifTrueOf (stmt.fill definitions)
  | .given stmt => .given stmt
  | .missing cause => .missing cause

def fillBody (definitions : Definitions) : List StmtRecipe → List StmtRecipe
  | [] => []
  | recipe :: recipes => recipe.fill definitions :: fillBody definitions recipes

def fillElse (definitions : Definitions) : Option StmtRecipe → Option StmtRecipe
  | none => none
  | some recipe => some (recipe.fill definitions)

end

mutual

def admits (definitions : Definitions) : StmtRecipe → Bool
  | .expression expr => expr.admits definitions
  | .nop _ => true
  | .block _ body => admitsBody definitions body
  | .conditional _ _ test ifTrue ifFalse =>
      test.admits definitions && ifTrue.admits definitions && admitsElse definitions ifFalse
  | .branch .. | .relocate .. | .ifTrueOf .. | .given .. | .missing .. => false

def admitsBody (definitions : Definitions) : List StmtRecipe → Bool
  | [] => true
  | recipe :: recipes => recipe.admits definitions && admitsBody definitions recipes

def admitsElse (definitions : Definitions) : Option StmtRecipe → Bool
  | none => true
  | some recipe => recipe.admits definitions

end

variable {settings : Settings} {definitions : Definitions}

/-- The test has its type and offset before and after, and a conditional is dropped in the end
whether the test was known at once or is found out later. -/
theorem buildConditional_fill (offset : Offset) (isStatic : Bool) {test filled : Expr}
    (related : Expr.Filled settings definitions test filled) (ifTrue : Stmt)
    (ifFalse : Option Stmt) :
    BuildM.Agree (fun built filled => filled = (built.propagate settings definitions).value)
      (Stmt.buildConditional offset isStatic test ifTrue ifFalse) settings
      (Stmt.buildConditional offset isStatic filled (ifTrue.propagate settings definitions).value
        (ifFalse.map fun stmt => (stmt.propagate settings definitions).value)) settings := by
  simp only [Stmt.buildConditional, related.ty_eq, related.offset_eq]
  split
  · have folds := Stmt.propagate_branch settings definitions offset isStatic test ifTrue ifFalse
    rw [← related.propagated] at folds
    exact .inl (.record folds.symm)
  · exact .inl (.inr ⟨_, BuildM.refuses_refuse _ _, BuildM.refuses_refuse _ _⟩)

mutual

theorem build_fill : ∀ recipe : StmtRecipe, recipe.admits definitions = true →
    BuildM.Agree (fun built filled => filled = (built.propagate settings definitions).value)
      recipe.build settings (recipe.fill definitions).build settings
  | .expression expr, admitted => by
      refine (ExprRecipe.build_fill expr admitted).bind fun built filled related => .pure ?_
      rw [Stmt.ofExpr, Stmt.ofExpr, Stmt.propagate_expression, related.offset_eq,
        ← related.propagated]
  | .nop offset, _ => .pure rfl
  | .block offset body, admitted => by
      refine (buildBody_fill body admitted).bind fun built filled related => .pure ?_
      rw [related, Stmt.propagate_block]
  | .conditional offset isStatic test ifTrue ifFalse, admitted => by
      have parts : (test.admits definitions = true ∧ ifTrue.admits definitions = true) ∧
          admitsElse definitions ifFalse = true := by
        simpa only [admits, Bool.and_eq_true] using admitted
      refine (ExprRecipe.build_fill test parts.1.1).bind fun test filledTest relatedTest => ?_
      refine (build_fill ifTrue parts.1.2).bind fun ifTrue filledTrue relatedTrue => ?_
      refine (buildElse_fill ifFalse parts.2).bind fun ifFalse filledFalse relatedFalse => ?_
      rw [relatedTrue, relatedFalse]
      exact buildConditional_fill offset isStatic relatedTest ifTrue ifFalse

theorem buildBody_fill : ∀ recipes : List StmtRecipe, admitsBody definitions recipes = true →
    BuildM.Agree
      (fun built filled =>
        filled = built.map fun stmt => (stmt.propagate settings definitions).value)
      (buildBody recipes) settings (buildBody (fillBody definitions recipes)) settings
  | [], _ => .pure rfl
  | recipe :: recipes, admitted => by
      have parts : recipe.admits definitions = true ∧ admitsBody definitions recipes = true := by
        simpa only [admitsBody, Bool.and_eq_true] using admitted
      refine (build_fill recipe parts.1).bind fun first filled related => ?_
      refine (buildBody_fill recipes parts.2).bind fun rest filledRest relatedRest => .pure ?_
      rw [related, relatedRest, List.map_cons]

theorem buildElse_fill : ∀ recipe : Option StmtRecipe, admitsElse definitions recipe = true →
    BuildM.Agree
      (fun built filled =>
        filled = built.map fun stmt => (stmt.propagate settings definitions).value)
      (buildElse recipe) settings (buildElse (fillElse definitions recipe)) settings
  | none, _ => .pure rfl
  | some recipe, admitted => by
      refine (build_fill recipe admitted).bind fun built filled related => .pure ?_
      rw [related, Option.map_some]

end

end StmtRecipe

/-- Putting constant definitions in place of the reads of a recipe and building gives the tree that
building the recipe and propagating the definitions gives, be it a statement or an expression. If
one of the two builds fails, both fail and report the same one diagnostic. -/
theorem propagating_agrees_with_filling (settings : Settings) (definitions : Definitions) :
    (∀ recipe : StmtRecipe, recipe.admits definitions = true →
      BuildM.Agree
        (fun built filled =>
          ((Program.mk [built]).propagate settings definitions).value = ⟨[filled]⟩)
        recipe.build settings (recipe.fill definitions).build settings) ∧
    ∀ recipe : ExprRecipe, recipe.admits definitions = true →
      BuildM.Agree (fun built filled => (built.propagate settings definitions).value = filled)
        recipe.build settings (recipe.fill definitions).build settings := by
  constructor
  · intro recipe admitted
    refine (StmtRecipe.build_fill recipe admitted).imp fun built filled related => ?_
    rw [related]
    rfl
  · intro recipe admitted
    exact (ExprRecipe.build_fill recipe admitted).imp fun built filled related =>
      related.propagated.symm

/-- The branch that a static conditional keeps negates a vector with a known column, complements a
known number and steps the variable that the number is known for. -/
theorem propagating_agrees_with_filling_branch :
    let flag : Variable := ⟨0, "flag", .bool, ⟨true, false⟩⟩
    let x : Variable := ⟨1, "x", .float, ⟨true, false⟩⟩
    let y : Variable := ⟨2, "y", .float, ⟨false, false⟩⟩
    let n : Variable := ⟨3, "n", .int, ⟨false, false⟩⟩
    let definitions := ((Definitions.empty.insert flag (.bool 90 .bool true)).insert x
      (.construct 91 .float [.int 92 (.literal .int) 2])).insert n (.int 93 .int 5)
    let recipe : StmtRecipe := .conditional 1 true (.unary .logicalNot (.reference 2 flag .read))
      (.nop 3) (some (.block 4
        [.expression (.unary .minus (.construct 5 (.vector .float .two)
          [.unary .minus (.reference 6 x .read), .reference 7 y .read])),
        .expression (.unary .bitwiseNot (.reference 8 n .read)),
        .expression (.unary .increment (.unary .plus (.reference 9 n .write)))]))
    recipe.admits definitions = true ∧
      BuildM.Agree
        (fun built filled => ((Program.mk [built]).propagate {} definitions).value = ⟨[filled]⟩)
        recipe.build {} (recipe.fill definitions).build {} ∧
      ((recipe.fill definitions).build.run {} {}).1 =
        .ok (.block 1
          [.expression 5 (.unary 5 (.vector .float .two) .minus (.construct 5 (.vector .float .two)
            [.construct 6 .float [.int 92 (.literal .int) (-2)], .reference 7 .float y .read])),
          .expression 8 (.unary 8 .int .bitwiseNot (.int 8 .int 5)),
          .expression 9 (.unary 9 .int .increment (.reference 9 .int n .readWrite))]) := by
  intro flag x y n definitions recipe
  have admitted : recipe.admits definitions = true := rfl
  exact ⟨admitted, (propagating_agrees_with_filling {} definitions).1 recipe admitted, rfl⟩

end ShaderIR
