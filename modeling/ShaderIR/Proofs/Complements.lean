import ShaderIR.Proofs.Composition
import ShaderIR.Proofs.Labels
import ShaderIR.Proofs.Representation

/-!
What bitwise complements are taken of. Building gives the operand of a complement a concrete integer
type: an untyped literal is committed to its scalar first. Propagation puts definitions in place of
reads as they are. A variable of an integer type may be defined by an untyped literal, and where a
complement is taken of such a variable the literal ends up below it without having been committed.
-/

namespace ShaderIR

namespace Ty

/-- The scalar that an untyped literal commits to, and any other type itself. -/
def concrete (ty : Ty) : Ty :=
  ty.committed?.getD ty

theorem concrete_concrete (ty : Ty) : ty.concrete.concrete = ty.concrete := by
  cases ty <;> rfl

theorem isInteger_concrete (ty : Ty) : ty.concrete.isInteger = ty.isInteger := by
  cases ty <;> rfl

theorem isLiteral_concrete (ty : Ty) : ty.concrete.isLiteral = false := by
  cases ty <;> rfl

def IsIntegerScalar (ty : Ty) : Prop :=
  ty.isInteger = true ∧ ∃ kind, ty = .scalar kind

theorem isIntegerScalar_iff {ty : Ty} :
    ty.IsIntegerScalar ↔ ty.isInteger = true ∧ ty.isLiteral = false := by
  refine and_congr_right fun integer => ?_
  cases ty with
  | scalar kind => exact iff_of_true ⟨kind, rfl⟩ rfl
  | literal kind =>
      have notScalar : ¬ ∃ scalar, Ty.literal kind = .scalar scalar := fun ⟨_, same⟩ => nomatch same
      exact iff_of_false notScalar (by simp [isLiteral, committed?])
  | vector => cases integer

end Ty

namespace Expr

/-- The type of a tree once the variables that are known have been replaced. -/
def tyGiven (known : Variable → Option Expr) (expr : Expr) : Ty :=
  ((expr.reads?.bind known).map Expr.ty).getD expr.ty

/-- If the node is a complement, the type of its operand will have a property. -/
def ComplementOf (holds : Ty → Prop) (known : Variable → Option Expr) : Expr → Prop
  | .unary _ _ .bitwiseNot operand => holds (operand.tyGiven known)
  | _ => True

/-- If the node is a complement, its type is that of its operand and has a property. -/
def ComplementTy (holds : Ty → Prop) : Expr → Prop
  | .unary _ ty .bitwiseNot operand => ty = operand.ty ∧ holds operand.ty
  | _ => True

variable {settings : Settings} {definitions : Definitions} {expr operand : Expr}
  {holds : Ty → Prop} {known : Variable → Option Expr}

@[simp]
theorem tyGiven_none (expr : Expr) : expr.tyGiven (fun _ => none) = expr.ty := by
  unfold tyGiven
  cases expr.reads? <;> rfl

theorem every_complementTy_iff (sound : expr.Every Sound) :
    expr.Every (ComplementTy holds) ↔ expr.Every (ComplementOf holds fun _ => none) := by
  refine forall₂_congr fun node member => ?_
  have root := (sound.at_node member).root
  cases node with
  | unary offset ty operator operand =>
      cases operator with
      | bitwiseNot => simp [ComplementTy, ComplementOf, root.1]
      | _ => exact Iff.rfl
  | int | float | bool | construct | reference => exact Iff.rfl

theorem tyGiven_propagate (labelled : expr.Every Labelled) :
    (expr.propagate settings definitions).value.tyGiven known =
      expr.tyGiven fun var => (definitions.constant? var).or (known var) := by
  unfold tyGiven
  rw [reads?_propagate, ty_propagate settings definitions labelled]
  cases reads : expr.reads? with
  | none => rfl
  | some var => cases found : definitions.constant? var <;> simp [Option.filter_some, found]

/-! ## Folding leaves complements alone -/

theorem every_complementOf_constant (constant : expr.isConstant = true) :
    expr.Every (ComplementOf holds known) := by
  induction expr with
  | int | float | bool => simp [ComplementOf]
  | reference => cases constant
  | construct offset ty arguments ih =>
      have parts : ∀ argument ∈ arguments, argument.isConstant = true := by
        simpa only [isConstant, allConstant_eq_all, List.all_eq_true] using constant
      exact every_construct.mpr ⟨trivial, fun argument member =>
        ih argument member (parts argument member)⟩
  | unary offset ty operator operand ih =>
      obtain ⟨isMinus, below⟩ : operator = .minus ∧ operand.isConstant = true := by
        simpa only [isConstant, Bool.and_eq_true, beq_iff_eq] using constant
      subst isMinus
      exact every_unary.mpr ⟨trivial, ih below⟩

theorem every_complementOf_negate :
    (expr.negate settings).value.Every (ComplementOf holds known) ↔
      expr.Every (ComplementOf holds known) := by
  refine negate_induction settings (motive := fun before after =>
    after.Every (ComplementOf holds known) ↔ before.Every (ComplementOf holds known))
    ?_ ?_ ?_ ?_ expr
  · intro offset ty value
    simp [ComplementOf]
  · intro offset ty value
    simp [ComplementOf]
  · intro offset ty arguments _ _ ih
    simp only [every_construct, List.forall_mem_map]
    exact and_congr Iff.rfl (forall₂_congr ih)
  · intro operand _
    simp [ComplementOf, apply]

theorem every_complementOf_refolded (operator : Operator) (operand : Expr) :
    (refolded settings operator operand).Every (ComplementOf holds known) ↔
      (apply operator operand).Every (ComplementOf holds known) := by
  refine refolded_cases settings (motive := fun after =>
    after.Every (ComplementOf holds known) ↔
      (apply operator operand).Every (ComplementOf holds known)) operator operand ?_ ?_ ?_
  · rintro rfl
    simp [every_complementOf_negate, ComplementOf, apply]
  · rintro rfl
    cases operand <;> simp [invert, ComplementOf, apply]
  · exact fun _ _ => Iff.rfl

/-- After a run complements stand where they stood, over operands with the types that they had or
that definitions have brought in. -/
theorem every_complementOf_propagate (labelled : expr.Every Labelled) :
    (expr.propagate settings definitions).value.Every (ComplementOf holds known) ↔
      expr.Every (ComplementOf holds fun var => (definitions.constant? var).or (known var)) := by
  induction expr with
  | int | float | bool => simp [ComplementOf]
  | reference offset ty var access =>
      have untouched : (Expr.reference offset ty var access).Every
          (ComplementOf holds fun var => (definitions.constant? var).or (known var)) :=
        every_reference.mpr trivial
      refine iff_of_true ?_ untouched
      rcases propagate_reference settings offset ty definitions var access with
        kept | ⟨_, value, found, replaced⟩
      · rw [kept]
        exact every_reference.mpr trivial
      · rw [replaced]
        apply every_complementOf_constant
        rw [isConstant_withOffset]
        exact Definitions.isConstant_of_constant? found
  | construct offset ty arguments ih =>
      have parts := (every_construct.mp labelled).2
      rw [propagate_construct]
      simp only [every_construct, List.forall_mem_map]
      exact and_congr Iff.rfl (forall₂_congr fun argument member =>
        ih argument member (parts argument member))
  | unary offset ty operator operand ih =>
      have below := (every_unary.mp labelled).2
      rw [propagate_unary, every_complementOf_refolded, every_apply, every_unary, ih below]
      refine and_congr_left fun _ => ?_
      cases operator with
      | bitwiseNot => simp only [ComplementOf, apply, tyGiven_propagate below]
      | _ => exact Iff.rfl

/-- The constant that takes the place of a variable in the first run that has one. -/
def firstConstant? (runs : List (Settings × Definitions)) (var : Variable) : Option Expr :=
  runs.findSome? fun run => run.2.constant? var

theorem firstConstant?_cons (run : Settings × Definitions) (runs : List (Settings × Definitions)) :
    firstConstant? (run :: runs) =
      fun var => (run.2.constant? var).or (firstConstant? runs var) := by
  funext var
  unfold firstConstant?
  rw [List.findSome?_cons]
  cases run.2.constant? var <;> rfl

theorem every_complementOf_afterRuns {runs : List (Settings × Definitions)}
    (known : ∀ run ∈ runs, run.2.Sound) (sound : expr.Every Sound) :
    (expr.afterRuns runs).Every (ComplementOf holds fun _ => none) ↔
      expr.Every (ComplementOf holds (firstConstant? runs)) := by
  induction runs generalizing expr with
  | nil => exact Iff.rfl
  | cons run runs ih =>
      have afterFirst := every_sound_propagate run.1 (known run (by simp)) sound
      have later := ih (fun run member => known run (by simp [member])) afterFirst
      rw [firstConstant?_cons, ← every_complementOf_propagate sound.labelled_of_sound]
      exact later

/-! ## Complements as built -/

theorem ty_committed (expr : Expr) : expr.committed.ty = expr.ty.concrete := by
  unfold committed Ty.concrete
  cases expr.ty.committed? with
  | none => rfl
  | some scalar => exact expr.ty_coerce scalar

theorem isIntegerScalar_ty_committed (integer : operand.ty.isInteger = true) :
    operand.committed.ty.IsIntegerScalar := by
  rw [ty_committed, Ty.isIntegerScalar_iff, Ty.isInteger_concrete]
  exact ⟨integer, Ty.isLiteral_concrete operand.ty⟩

theorem inherited_complementTy (settings : Settings) :
    Inherited settings (Every (ComplementTy Ty.IsIntegerScalar)) := by
  refine inherited_of_apply ?_ ?_ ?_ ?_ ?_
  · intro expr notUnary
    cases expr with
    | unary => cases notUnary
    | int | float | bool | construct | reference => trivial
  · exact fun _ => trivial
  · exact fun _ => trivial
  · exact fun _ integer => ⟨rfl, isIntegerScalar_ty_committed integer⟩
  · rintro operator operand (rfl | rfl)
    · trivial
    · trivial

/-! ## Definitions of the declared types -/

/-- If the node reads a variable, a definition has the type of the variable or commits to it. -/
def Fits (definitions : Definitions) : Expr → Prop
  | .reference _ _ var .read =>
      ∀ value, definitions.constant? var = some value → value.ty.concrete = var.ty
  | _ => True

/-- If the node is a complement of a variable, no untyped literal replaces the variable. -/
def Spared (runs : List (Settings × Definitions)) : Expr → Prop
  | .unary _ _ .bitwiseNot operand =>
      ∀ var value, operand.reads? = some var → firstConstant? runs var = some value →
        value.ty.isLiteral = false
  | _ => True

variable {runs : List (Settings × Definitions)}

/-- Definitions that fit change the type of a tree at most to one that commits to the same. -/
theorem concrete_tyGiven (sound : expr.Every Sound)
    (fits : ∀ run ∈ runs, expr.Every (Fits run.2)) :
    (expr.tyGiven (firstConstant? runs)).concrete = expr.ty.concrete := by
  unfold tyGiven
  cases reads : expr.reads? with
  | none => rfl
  | some var =>
      cases found : firstConstant? runs var with
      | none => simp [found]
      | some value =>
          obtain ⟨run, member, defined⟩ := List.exists_of_findSome?_eq_some found
          obtain ⟨offset, ty, isRead⟩ := base_eq_of_reads reads
          have fitting : value.ty.concrete = var.ty := by
            have atBase := fits run member expr.base expr.base_mem_nodes
            rw [isRead] at atBase
            exact atBase value defined
          have declared : expr.ty = var.ty := by
            have atBase := sound expr.base expr.base_mem_nodes
            rw [← ty_base sound.labelled_of_sound]
            rw [isRead] at atBase ⊢
            exact atBase
          simp [found, declared, ← fitting, Ty.concrete_concrete]

theorem isInteger_tyGiven (sound : expr.Every Sound)
    (fits : ∀ run ∈ runs, expr.Every (Fits run.2)) :
    (expr.tyGiven (firstConstant? runs)).isInteger = expr.ty.isInteger := by
  rw [← Ty.isInteger_concrete, concrete_tyGiven sound fits, Ty.isInteger_concrete]

/-- A tree of a concrete type is given an untyped one by an untyped definition only. -/
theorem isLiteral_tyGiven (typed : expr.ty.isLiteral = false) :
    (expr.tyGiven (firstConstant? runs)).isLiteral = false ↔
      ∀ var value, expr.reads? = some var → firstConstant? runs var = some value →
        value.ty.isLiteral = false := by
  unfold tyGiven
  cases reads : expr.reads? with
  | none => simp [typed]
  | some var =>
      cases found : firstConstant? runs var with
      | none =>
          refine iff_of_true (by simpa [found] using typed) ?_
          rintro _ value ⟨⟩ same
          cases found.symm.trans same
      | some value =>
          simp only [Option.bind_some, found, Option.map_some, Option.getD_some]
          constructor
          · rintro literal _ _ ⟨⟩ same
            cases found.symm.trans same
            exact literal
          · exact fun spared => spared var value rfl found

/-- What complements are taken of in the end, read off the tree as it was built. -/
theorem complementOf_firstConstant {offset : Offset} {ty : Ty} {operator : Operator}
    (sound : operand.Every Sound) (fits : ∀ run ∈ runs, operand.Every (Fits run.2))
    (built : (Expr.unary offset ty operator operand).ComplementTy Ty.IsIntegerScalar) :
    (Expr.unary offset ty operator operand).ComplementOf (fun ty => ty.isInteger = true)
        (firstConstant? runs) ∧
      ((Expr.unary offset ty operator operand).ComplementOf Ty.IsIntegerScalar
          (firstConstant? runs) ↔
        (Expr.unary offset ty operator operand).Spared runs) := by
  cases operator with
  | bitwiseNot =>
      obtain ⟨integer, typed⟩ := Ty.isIntegerScalar_iff.mp built.2
      have stays : (operand.tyGiven (firstConstant? runs)).isInteger = true :=
        (isInteger_tyGiven sound fits).trans integer
      refine ⟨stays, ?_⟩
      simp only [ComplementOf, Spared, Ty.isIntegerScalar_iff, stays, true_and]
      exact isLiteral_tyGiven typed
  | _ => exact ⟨trivial, Iff.rfl⟩

end Expr

/-- Building takes complements of integer scalars only. After any runs whose definitions have the
declared types, up to committing, complements are still taken of integers and have the types of
their operands. Their types are all scalars exactly if no run has put an untyped literal in place of
a variable whose complement, possibly behind further operators, is taken. -/
theorem complements_after_runs (recipe : ExprRecipe) (script : recipe.isScript = true)
    (settings : Settings) (journal : Journal) (expr : Expr)
    (built : (recipe.build.run settings journal).1 = .ok expr)
    (runs : List (Settings × Definitions))
    (obtained : ∀ run ∈ runs, Obtainable (.definitions run.2))
    (fits : ∀ run ∈ runs, expr.Every (Expr.Fits run.2)) :
    expr.Every (Expr.ComplementTy Ty.IsIntegerScalar) ∧
    (expr.afterRuns runs).Every (Expr.ComplementTy fun ty => ty.isInteger = true) ∧
    ((expr.afterRuns runs).Every (Expr.ComplementTy Ty.IsIntegerScalar) ↔
      expr.Every (Expr.Spared runs)) := by
  have asBuilt : expr.Every (Expr.ComplementTy Ty.IsIntegerScalar) :=
    ExprRecipe.build_ensures (Expr.inherited_complementTy settings) recipe script journal expr built
  have sound : expr.Every Expr.Sound :=
    ExprRecipe.build_ensures (Expr.inherited_sound settings) recipe script journal expr built
  have known : ∀ run ∈ runs, run.2.Sound := fun run member =>
    (obtained run member).artifact_sound
  have soundAfter : (expr.afterRuns runs).Every Expr.Sound :=
    Expr.afterRuns_induction sound fun run member _ =>
      Expr.every_sound_propagate run.1 (known run member)
  have atNode : ∀ node ∈ expr.nodes,
      node.ComplementOf (fun ty => ty.isInteger = true) (Expr.firstConstant? runs) ∧
        (node.ComplementOf Ty.IsIntegerScalar (Expr.firstConstant? runs) ↔ node.Spared runs) := by
    intro node member
    cases node with
    | unary offset ty operator operand =>
        have below := (Expr.every_unary.mp (sound.at_node member)).2
        have fitsBelow : ∀ run ∈ runs, operand.Every (Expr.Fits run.2) := fun run inside =>
          (Expr.every_unary.mp ((fits run inside).at_node member)).2
        exact Expr.complementOf_firstConstant below fitsBelow (asBuilt _ member)
    | int | float | bool | construct | reference => exact ⟨trivial, Iff.rfl⟩
  refine ⟨asBuilt, ?_, ?_⟩
  · rw [Expr.every_complementTy_iff soundAfter, Expr.every_complementOf_afterRuns known sound]
    exact fun node member => (atNode node member).1
  · rw [Expr.every_complementTy_iff soundAfter, Expr.every_complementOf_afterRuns known sound]
    exact forall₂_congr fun node member => (atNode node member).2

/-- A complement of a negated variable that the first run finds out. The second run puts in an
untyped literal, which no complement is taken of. -/
theorem complements_after_runs_pair :
    let x : Variable := ⟨0, "x", .int, ⟨true, false⟩⟩
    let y : Variable := ⟨1, "y", .int, ⟨true, false⟩⟩
    let recipe : ExprRecipe := .construct 1 (.vector .int .two)
      [.unary .bitwiseNot (.unary .minus (.reference 2 x .read)), .reference 3 y .read]
    let expr : Expr := .construct 1 (.vector .int .two)
      [.unary 2 .int .bitwiseNot (.unary 2 .int .minus (.reference 2 .int x .read)),
        .reference 3 .int y .read]
    let first := Definitions.empty.insert x (.int 50 .int 3)
    let second := Definitions.empty.insert y (.int 51 (.literal .int) 4)
    let runs : List (Settings × Definitions) := [({}, first), ({ optimize := false }, second)]
    recipe.isScript = true ∧ (recipe.build.run {} {}).1 = .ok expr ∧
      (∀ run ∈ runs, Obtainable (.definitions run.2)) ∧
      (∀ run ∈ runs, expr.Every (Expr.Fits run.2)) ∧ expr.Every (Expr.Spared runs) ∧
      expr.afterRuns runs = .construct 1 (.vector .int .two)
        [.unary 2 .int .bitwiseNot (.int 2 .int (-3)), .int 3 (.literal .int) 4] ∧
      (expr.afterRuns runs).Every (Expr.ComplementTy Ty.IsIntegerScalar) := by
  intro x y recipe expr first second runs
  have script : recipe.isScript = true := rfl
  have built : (recipe.build.run {} {}).1 = .ok expr := rfl
  have obtained : ∀ run ∈ runs, Obtainable (.definitions run.2) := by
    have known : Obtainable (.definitions first) := .insert x .noDefinitions (.int 50 .int 3)
    have later : Obtainable (.definitions second) :=
      .insert y .noDefinitions (.int 51 (.literal .int) 4)
    simpa [runs] using And.intro known later
  have fits : ∀ run ∈ runs, expr.Every (Expr.Fits run.2) := by
    simp [runs, expr, x, y, first, second, Expr.Fits, Definitions.constant?_insert,
      Definitions.constant?_empty, Expr.isConstant, Expr.ty, Ty.concrete, Ty.committed?,
      LiteralKind.scalar]
  have spared : expr.Every (Expr.Spared runs) := by
    simp only [expr, Expr.every_construct, List.forall_mem_cons, Expr.every_unary,
      Expr.every_reference]
    refine ⟨trivial, ⟨?_, trivial, trivial⟩, trivial, by simp⟩
    rintro _ value ⟨⟩ found
    cases found
    rfl
  have settled := complements_after_runs recipe script {} {} expr built runs obtained fits
  exact ⟨script, built, obtained, fits, spared, rfl, settled.2.2.mpr spared⟩

/-- A complement of a variable whose definition is an untyped literal, as a definition of an `int`
may be. Propagation leaves the literal untyped below the complement. -/
theorem complement_of_untyped_literal :
    let x : Variable := ⟨0, "x", .int, ⟨false, false⟩⟩
    let recipe : ExprRecipe := .unary .bitwiseNot (.reference 4 x .read)
    let expr : Expr := .unary 4 .int .bitwiseNot (.reference 4 .int x .read)
    let definitions := Definitions.empty.insert x (.int 8 (.literal .int) 3)
    recipe.isScript = true ∧ (recipe.build.run {} {}).1 = .ok expr ∧
      Obtainable (.definitions definitions) ∧ expr.Every (Expr.Fits definitions) ∧
      expr.afterRuns [({}, definitions)] =
        .unary 4 (.literal .int) .bitwiseNot (.int 4 (.literal .int) 3) ∧
      ¬ (expr.afterRuns [({}, definitions)]).Every (Expr.ComplementTy Ty.IsIntegerScalar) := by
  intro x recipe expr definitions
  have fits : expr.Every (Expr.Fits definitions) := by
    simp [expr, x, definitions, Expr.Fits, Definitions.constant?_insert, Expr.isConstant, Expr.ty,
      Ty.concrete, Ty.committed?, LiteralKind.scalar]
  refine ⟨rfl, rfl, .insert x .noDefinitions (.int 8 (.literal .int) 3), fits, rfl, ?_⟩
  intro every
  obtain ⟨_, _, kind, isScalar⟩ := every.root
  cases isScalar

end ShaderIR
