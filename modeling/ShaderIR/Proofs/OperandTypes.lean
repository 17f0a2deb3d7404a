import ShaderIR.Proofs.DeferredFolding

/-!
What operators stand on. Building checks the operand that an operator is written before, but a
negation that moves into a constructor reaches arguments that nobody checked. Inversions stay on
booleans. Negations stay on numbers unless one was written before a constant that has a boolean
literal somewhere inside: there folding leaves a minus on that literal.
-/

namespace ShaderIR

namespace Expr

/-- The literal's type matches its kind, and what is inverted is a boolean. -/
def WellSorted : Expr → Prop
  | .int _ ty _ => ty.isInteger = true
  | .float _ ty _ => ty.isFloat = true
  | .bool _ ty _ => ty = .bool
  | .unary _ _ .logicalNot operand => operand.ty.isBoolean = true
  | _ => True

def NegatesNumber : Expr → Prop
  | .unary _ _ .minus operand => operand.ty.component.isNumber = true
  | _ => True

def BoolFree (expr : Expr) : Prop :=
  expr.Every fun node => node.kind ≠ .boolLiteral

/-- A constant that is negated has no boolean literals in it. -/
def NegatesNoBool : Expr → Prop
  | .unary _ _ .minus operand => operand.isConstant = true → operand.BoolFree
  | _ => True

variable {settings plain : Settings} {expr : Expr}

theorem Every.wellSorted_negate (sorted : expr.Every WellSorted) :
    (expr.negate settings).value.Every WellSorted := by
  refine sorted.negate settings ?_ ?_ ?_ ?_
  · exact fun _ _ _ _ integer => integer
  · exact fun _ _ _ _ isFloat => isFloat
  · exact fun _ _ _ _ _ => trivial
  · exact fun _ _ _ => trivial

theorem Every.wellSorted_invert (sorted : expr.Every WellSorted)
    (boolean : expr.ty.isBoolean = true) : expr.invert.value.Every WellSorted :=
  sorted.invert (fun _ _ _ _ isBool => isBool) fun _ => boolean

theorem Every.wellSorted_coerce (sorted : expr.Every WellSorted) (target : Ty) :
    (expr.coerce target).Every WellSorted := by
  refine sorted.coerce target ?_ ?_ ?_
  · exact fun _ _ integer => integer
  · exact fun _ _ isFloat => isFloat
  · exact fun _ _ => trivial

theorem Every.negatesNumber_coerce (numeric : expr.Every NegatesNumber) (target : Ty) :
    (expr.coerce target).Every NegatesNumber := by
  refine numeric.coerce target ?_ ?_ ?_
  · exact fun _ _ _ => trivial
  · exact fun _ _ _ => trivial
  · exact fun _ _ => trivial

theorem every_wellSorted_propagate (pass : Settings) (normal : expr.Every (Normal settings))
    (sorted : expr.Every WellSorted) : (expr.propagate pass .empty).value.Every WellSorted := by
  induction expr with
  | int | float | bool => exact sorted
  | reference offset ty var access => rw [propagate_reference_empty]; exact sorted
  | construct offset ty arguments ih =>
      have normalParts := (every_construct.mp normal).2
      have sortedParts := (every_construct.mp sorted).2
      rw [propagate_construct]
      refine every_construct.mpr ⟨trivial, fun propagated member => ?_⟩
      obtain ⟨argument, inside, rfl⟩ := List.mem_map.mp member
      exact ih argument inside (normalParts argument inside) (sortedParts argument inside)
  | unary offset ty operator operand ih =>
      have normalBelow := (every_unary.mp normal).2
      obtain ⟨root, sortedBelow⟩ := every_unary.mp sorted
      have propagated := ih normalBelow sortedBelow
      rw [propagate_unary]
      refine refolded_cases pass (motive := fun after => after.Every WellSorted) operator _ ?_ ?_ ?_
      · exact fun _ => propagated.wellSorted_negate
      · rintro rfl
        refine propagated.wellSorted_invert ?_
        rw [(labels_propagate_of_normal pass normalBelow (keptBy_empty operand)).1]
        exact root
      · intro notMinus notInversion
        refine every_apply.mpr ⟨?_, propagated⟩
        cases operator with
        | logicalNot => contradiction
        | _ => trivial

/-! ## Boolean literals inside constants -/

theorem boolFree_negate : (expr.negate settings).value.BoolFree ↔ expr.BoolFree := by
  refine negate_induction settings (motive := fun before after =>
    after.BoolFree ↔ before.BoolFree) ?_ ?_ ?_ ?_ expr
  · intro offset ty value
    simp [BoolFree, kind]
  · intro offset ty value
    simp [BoolFree, kind]
  · intro offset ty arguments _ _ ih
    simp only [BoolFree, every_construct, List.forall_mem_map]
    exact and_congr Iff.rfl (forall₂_congr ih)
  · intro operand _
    simp [BoolFree, apply, kind]

theorem boolFree_refolded (operator : Operator) (operand : Expr) :
    (refolded settings operator operand).BoolFree ↔ operand.BoolFree := by
  refine refolded_cases settings (motive := fun after => after.BoolFree ↔ operand.BoolFree)
    operator operand ?_ ?_ ?_
  · exact fun _ => boolFree_negate
  · intro _
    cases operand <;> simp [BoolFree, invert, apply, kind]
  · intro _ _
    simp [BoolFree, apply, kind]

theorem boolFree_propagate (pass : Settings) (expr : Expr) :
    (expr.propagate pass .empty).value.BoolFree ↔ expr.BoolFree := by
  induction expr with
  | int | float | bool => exact Iff.rfl
  | reference offset ty var access => rw [propagate_reference_empty]
  | construct offset ty arguments ih =>
      rw [propagate_construct]
      simp only [BoolFree, every_construct, List.forall_mem_map]
      exact and_congr Iff.rfl (forall₂_congr ih)
  | unary offset ty operator operand ih =>
      rw [propagate_unary, boolFree_refolded, ih]
      simp [BoolFree, kind]

/-- Propagation does not bring a boolean literal under an inversion. -/
theorem foldable_inversion_propagate (pass : Settings) (normal : expr.Every (Normal settings)) :
    foldable settings .logicalNot (expr.propagate pass .empty).value =
      foldable settings .logicalNot expr := by
  cases compound : expr.isCompound with
  | false => rw [propagate_of_not_compound pass compound (keptBy_empty expr)]
  | true =>
      have notFoldable (operand : Expr) (isCompound : operand.isCompound = true) :
          foldable settings .logicalNot operand = false := by
        cases operand with
        | construct | unary => rfl
        | int | float | bool | reference => cases isCompound
      have sameShape := (isCompound_propagate pass normal (keptBy_empty expr)).trans compound
      rw [notFoldable _ sameShape, notFoldable expr compound]

theorem isConstant_propagate (pass : Settings) (normal : expr.Every (Normal settings)) :
    (expr.propagate pass .empty).value.isConstant = expr.isConstant := by
  induction expr with
  | int | float | bool => rfl
  | reference offset ty var access => rw [propagate_reference_empty]
  | construct offset ty arguments ih =>
      have parts := (every_construct.mp normal).2
      rw [propagate_construct]
      simp only [isConstant, allConstant_eq_all, List.all_map]
      rw [Bool.eq_iff_iff, List.all_eq_true, List.all_eq_true]
      refine forall₂_congr fun argument member => ?_
      rw [← ih argument member (parts argument member)]
      rfl
  | unary offset ty operator operand ih =>
      obtain ⟨⟨_, _, unfoldable⟩, below⟩ := every_unary.mp normal
      have sameOperand := ih below
      rw [propagate_unary]
      cases operator with
      | minus => rw [refolded_minus, isConstant_negate, sameOperand]; rfl
      | logicalNot =>
          rw [← foldable_inversion_propagate pass below] at unfoldable
          rw [refolded_logicalNot, invert_of_not_foldable settings unfoldable]
          rfl
      | _ =>
          rw [refolded_of_ne pass (by simp) (by simp)]
          rfl

/-- A sign before a constant has moved in as far as it can, and a constant that is a number lets it
in everywhere. So a folded constant has no sign left. -/
theorem isUnary_of_folded_constant (optimizes : settings.optimize = true)
    (normal : expr.Every (Normal settings)) (sorted : expr.Every WellSorted)
    (numeric : expr.Every NegatesNumber) (constant : expr.isConstant = true) :
    expr.isUnary = false := by
  induction expr with
  | int | float | bool | construct | reference => rfl
  | unary offset ty operator operand ih =>
      obtain ⟨⟨_, _, unfoldable⟩, normalBelow⟩ := every_unary.mp normal
      have sortedBelow := (every_unary.mp sorted).2
      obtain ⟨number, numericBelow⟩ := every_unary.mp numeric
      cases operator with
      | minus =>
          have constantBelow : operand.isConstant = true := constant
          have notUnary := ih normalBelow sortedBelow numericBelow constantBelow
          cases operand with
          | int | float => cases unfoldable
          | bool offset ty value =>
              -- A boolean is no number, so no minus was accepted here.
              have isBool : ty = .bool := sortedBelow.root
              subst isBool
              cases number
          | construct offset ty arguments =>
              have folds : (settings.optimize && allConstant arguments) = true := by
                rw [optimizes]
                exact constantBelow
              exact absurd folds (Bool.eq_false_iff.mp unfoldable)
          | unary => cases notUnary
          | reference => cases constantBelow
      | _ => cases constant

theorem foldable_minus_of_not_constant (settings : Settings) (unknown : expr.isConstant = false) :
    foldable settings .minus expr = false := by
  cases expr with
  | int | float | bool => cases unknown
  | construct offset ty arguments =>
      have notAll : allConstant arguments = false := unknown
      simp only [foldable, notAll, Bool.and_false]
  | unary | reference => rfl

theorem negatesNumber_of_negate (numeric : (expr.negate settings).value.Every NegatesNumber) :
    expr.Every NegatesNumber := by
  revert numeric
  refine negate_induction settings (motive := fun before after =>
    after.Every NegatesNumber → before.Every NegatesNumber) ?_ ?_ ?_ ?_ expr
  · exact fun _ _ _ _ => every_int.mpr trivial
  · exact fun _ _ _ _ => every_float.mpr trivial
  · intro offset ty arguments _ _ ih numeric
    have parts := (every_construct.mp numeric).2
    refine every_construct.mpr ⟨trivial, fun argument member => ?_⟩
    exact ih argument member (parts _ (List.mem_map_of_mem member))
  · exact fun _ _ numeric => (every_apply.mp numeric).2

/-- Negating a folded constant puts a minus on each boolean literal inside, and nowhere else. -/
theorem negatesNumber_negate_constant_iff (optimizes : settings.optimize = true)
    (normal : expr.Every (Normal settings)) (sorted : expr.Every WellSorted)
    (numeric : expr.Every NegatesNumber) (constant : expr.isConstant = true) :
    (expr.negate settings).value.Every NegatesNumber ↔ expr.BoolFree := by
  induction expr with
  | int | float => simp [BoolFree, NegatesNumber, kind]
  | bool offset ty value =>
      have isBool : ty = .bool := sorted.root
      subst isBool
      constructor
      · intro every
        have number : Ty.bool.component.isNumber = true := every.root
        cases number
      · intro free
        exact absurd rfl free.root
  | construct offset ty arguments ih =>
      have constants : allConstant arguments = true := constant
      rw [negate_construct settings offset ty optimizes constants]
      rw [allConstant_eq_all, List.all_eq_true] at constants
      simp only [BoolFree, every_construct, List.forall_mem_map]
      refine and_congr (by simp [NegatesNumber, kind]) ?_
      refine forall₂_congr fun argument member => ?_
      exact ih argument member ((every_construct.mp normal).2 argument member)
        ((every_construct.mp sorted).2 argument member)
        ((every_construct.mp numeric).2 argument member) (constants argument member)
  | unary =>
      have notUnary := isUnary_of_folded_constant optimizes normal sorted numeric constant
      cases notUnary
  | reference => cases constant

theorem negatesNumber_negate_iff (optimizes : settings.optimize = true)
    (normal : expr.Every (Normal settings)) (sorted : expr.Every WellSorted)
    (number : expr.ty.component.isNumber = true) :
    (expr.negate settings).value.Every NegatesNumber ↔
      (expr.isConstant = true → expr.BoolFree) ∧ expr.Every NegatesNumber := by
  cases constant : expr.isConstant with
  | true =>
      constructor
      · intro negated
        have numeric := negatesNumber_of_negate negated
        have free := (negatesNumber_negate_constant_iff optimizes normal sorted numeric
          constant).mp negated
        exact ⟨fun _ => free, numeric⟩
      · rintro ⟨free, numeric⟩
        exact (negatesNumber_negate_constant_iff optimizes normal sorted numeric
          constant).mpr (free rfl)
  | false =>
      have kept := foldable_minus_of_not_constant settings constant
      rw [negate_of_not_foldable settings kept, every_apply]
      refine and_congr_left fun _ => iff_of_true number fun isConstant => ?_
      cases isConstant

/-- In a tree where every sign that was written stands before a number, propagation leaves a sign on
something else exactly if it moves one into a constant with a boolean literal. -/
theorem negatesNumber_propagate_iff (pass : Settings) (normal : expr.Every (Normal plain))
    (sorted : expr.Every WellSorted) (numeric : expr.Every NegatesNumber) :
    (expr.propagate pass .empty).value.Every NegatesNumber ↔
      pass.optimize = false ∨ expr.Every NegatesNoBool := by
  cases optimizes : pass.optimize with
  | false =>
      have unchanged : (expr.propagate pass .empty).value = expr :=
        propagate_of_normal (normal.normal_mono fun on => by rw [optimizes] at on; cases on)
      rw [unchanged]
      exact iff_of_true numeric (.inl rfl)
  | true =>
      suffices moved : (expr.propagate pass .empty).value.Every NegatesNumber ↔
          expr.Every NegatesNoBool by simpa using moved
      induction expr with
      | int | float | bool => simp [NegatesNumber, NegatesNoBool]
      | reference offset ty var access =>
          rw [propagate_reference_empty]
          simp [NegatesNumber, NegatesNoBool]
      | construct offset ty arguments ih =>
          rw [propagate_construct]
          simp only [every_construct, List.forall_mem_map]
          refine and_congr Iff.rfl (forall₂_congr fun argument member => ?_)
          exact ih argument member ((every_construct.mp normal).2 argument member)
            ((every_construct.mp sorted).2 argument member)
            ((every_construct.mp numeric).2 argument member)
      | unary offset ty operator operand ih =>
          obtain ⟨⟨_, _, unfoldable⟩, normalBelow⟩ := every_unary.mp normal
          have sortedBelow := (every_unary.mp sorted).2
          obtain ⟨number, numericBelow⟩ := every_unary.mp numeric
          have below := ih normalBelow sortedBelow numericBelow
          rw [propagate_unary, every_unary, ← below]
          cases operator with
          | minus =>
              have typed : operand.ty.component.isNumber = true := number
              rw [← (labels_propagate_of_normal pass normalBelow (keptBy_empty operand)).1] at typed
              have folded := every_normal_propagate pass operand
              have foldedSorted := every_wellSorted_propagate pass normalBelow sortedBelow
              rw [refolded_minus, negatesNumber_negate_iff optimizes folded foldedSorted typed,
                isConstant_propagate pass normalBelow, boolFree_propagate]
              exact Iff.rfl
          | logicalNot =>
              rw [← foldable_inversion_propagate pass normalBelow] at unfoldable
              rw [refolded_logicalNot, invert_of_not_foldable plain unfoldable, every_apply]
              exact and_congr Iff.rfl Iff.rfl
          | _ =>
              rw [refolded_of_ne pass (by simp) (by simp), every_apply]
              exact and_congr Iff.rfl Iff.rfl

/-- Without optimization an operator goes no further than the operand that was checked. -/
theorem UnaryBuilt.wellSorted {operator : Operator} {operand result : Expr}
    (built : UnaryBuilt plain operand operator result) (off : plain.optimize = false)
    (kept : operand.Every WellSorted ∧ operand.Every NegatesNumber) :
    result.Every WellSorted ∧ result.Every NegatesNumber := by
  obtain ⟨sorted, numeric⟩ := kept
  cases built with
  | plus => exact ⟨sorted, numeric⟩
  | minus number =>
      refine ⟨sorted.wellSorted_negate, ?_⟩
      cases folds : foldable plain .minus operand with
      | false =>
          rw [negate_of_not_foldable plain folds]
          exact every_apply.mpr ⟨number, numeric⟩
      | true =>
          cases operand with
          | int | float => simp [NegatesNumber]
          | construct offset ty arguments =>
              rw [foldable, off] at folds
              cases folds
          | bool | unary | reference => cases folds
  | logicalNot boolean =>
      refine ⟨sorted.wellSorted_invert boolean, ?_⟩
      exact numeric.invert (fun _ _ _ _ _ => trivial) fun _ => trivial
  | bitwiseNot =>
      refine committed_cases (motive := fun committed =>
        (apply .bitwiseNot committed).Every WellSorted ∧
          (apply .bitwiseNot committed).Every NegatesNumber) operand ?_ ?_
      · exact ⟨every_apply.mpr ⟨trivial, sorted⟩, every_apply.mpr ⟨trivial, numeric⟩⟩
      · intro target
        exact ⟨every_apply.mpr ⟨trivial, sorted.wellSorted_coerce target⟩,
          every_apply.mpr ⟨trivial, numeric.negatesNumber_coerce target⟩⟩
  | step isStep =>
      rcases isStep with rfl | rfl <;> simp [referTo, apply, WellSorted, NegatesNumber]

end Expr

namespace ExprRecipe

mutual

/-- Literals have types that match their kinds, and every operator is applied with its checks. -/
def isTyped : ExprRecipe → Bool
  | .int _ ty _ => ty.isInteger
  | .float _ ty _ => ty.isFloat
  | .bool _ ty _ => ty == .bool
  | .reference .. => true
  | .construct _ _ arguments => areTyped arguments
  | .unary operator operand => operator.isPrefix && operand.isTyped
  | .coerce _ operand => operand.isTyped
  | .negate .. | .invert .. | .assignTo .. | .relocate .. | .operandOf .. | .argumentOf ..
  | .refold .. | .given .. | .missing .. => false

def areTyped : List ExprRecipe → Bool
  | [] => true
  | recipe :: recipes => recipe.isTyped && areTyped recipes

end

mutual

theorem isScript_of_isTyped : ∀ recipe : ExprRecipe, recipe.isTyped = true →
    recipe.isScript = true
  | .int .., _ | .float .., _ | .bool .., _ | .reference .., _ => rfl
  | .construct _ _ arguments, typed => areScripts_of_areTyped arguments typed
  | .unary operator operand, typed => by
      have parts : operator.isPrefix = true ∧ operand.isTyped = true := by
        simpa only [isTyped, Bool.and_eq_true] using typed
      rw [isScript, parts.1, isScript_of_isTyped operand parts.2]
      rfl
  | .coerce _ operand, typed => isScript_of_isTyped operand typed

theorem areScripts_of_areTyped : ∀ recipes : List ExprRecipe, areTyped recipes = true →
    areScripts recipes = true
  | [], _ => rfl
  | recipe :: recipes, typed => by
      have parts : recipe.isTyped = true ∧ areTyped recipes = true := by
        simpa only [areTyped, Bool.and_eq_true] using typed
      rw [areScripts, isScript_of_isTyped recipe parts.1, areScripts_of_areTyped recipes parts.2]
      rfl

end

mutual

theorem build_wellSorted {plain : Settings} (off : plain.optimize = false) :
    ∀ recipe : ExprRecipe, recipe.isTyped = true → recipe.build.Ensures plain fun expr =>
      expr.Every Expr.WellSorted ∧ expr.Every Expr.NegatesNumber
  | .int .., typed => .pure ⟨Expr.every_int.mpr typed, Expr.every_int.mpr trivial⟩
  | .float .., typed => .pure ⟨Expr.every_float.mpr typed, Expr.every_float.mpr trivial⟩
  | .bool .., typed => .pure ⟨Expr.every_bool.mpr (eq_of_beq typed), Expr.every_bool.mpr trivial⟩
  | .reference .., _ => .pure ⟨Expr.every_reference.mpr trivial, Expr.every_reference.mpr trivial⟩
  | .construct _ _ arguments, typed => by
      refine (buildAll_wellSorted off arguments typed).bind fun built kept => ?_
      refine .pure ⟨Expr.every_construct.mpr ⟨trivial, fun argument member => ?_⟩,
        Expr.every_construct.mpr ⟨trivial, fun argument member => ?_⟩⟩
      · exact (kept argument member).1
      · exact (kept argument member).2
  | .unary operator operand, typed => by
      have parts : operator.isPrefix = true ∧ operand.isTyped = true := by
        simpa only [isTyped, Bool.and_eq_true] using typed
      refine (build_wellSorted off operand parts.2).bind fun built kept => ?_
      intro journal result ran
      exact (Expr.UnaryBuilt.of_run_ok ran).wellSorted off kept
  | .coerce target operand, typed => by
      refine (build_wellSorted off operand typed).bind fun built kept => ?_
      exact .pure ⟨kept.1.wellSorted_coerce target, kept.2.negatesNumber_coerce target⟩

theorem buildAll_wellSorted {plain : Settings} (off : plain.optimize = false) :
    ∀ recipes : List ExprRecipe, areTyped recipes = true →
      (buildAll recipes).Ensures plain fun built => ∀ expr ∈ built,
        expr.Every Expr.WellSorted ∧ expr.Every Expr.NegatesNumber
  | [], _ => .pure fun _ absent => (nomatch absent)
  | recipe :: recipes, typed => by
      have parts : recipe.isTyped = true ∧ areTyped recipes = true := by
        simpa only [areTyped, Bool.and_eq_true] using typed
      refine (build_wellSorted off recipe parts.1).bind fun first kept => ?_
      refine (buildAll_wellSorted off recipes parts.2).bind fun rest keptRest => ?_
      exact .pure (List.forall_mem_cons.mpr ⟨kept, keptRest⟩)

end

/-- A typed recipe that can be built can be built without optimization too, and that tree, with
every sign where it was written, tells how far the types can be trusted. Literal types and the
operands of inversions are right in the tree that was built and in what propagation makes of it.
Every minus has a numeric operand in them exactly if nothing was optimized, or if no constant that
has a boolean literal in it was negated. -/
theorem operands_of_built_operators (recipe : ExprRecipe) (typed : recipe.isTyped = true)
    (settings pass : Settings) (journal : Journal) (expr : Expr)
    (built : (recipe.build.run settings journal).1 = .ok expr) :
    ∃ written,
      (recipe.build.run { settings with optimize := false } journal).1 = .ok written ∧
      expr.Every Expr.WellSorted ∧
      (expr.Every Expr.NegatesNumber ↔
        settings.optimize = false ∨ written.Every Expr.NegatesNoBool) ∧
      (expr.propagate pass .empty).value.Every Expr.WellSorted ∧
      ((expr.propagate pass .empty).value.Every Expr.NegatesNumber ↔
        settings.optimize = false ∧ pass.optimize = false ∨ written.Every Expr.NegatesNoBool) := by
  have off : { settings with optimize := false }.optimize = false := rfl
  have alike : BuildM.EndAlike (Expr.Deferred { settings with optimize := false } settings)
      recipe.build { settings with optimize := false } recipe.build settings := by
    refine build_deferred off ?_ ?_ recipe (isScript_of_isTyped recipe typed) <;> rfl
  obtain ⟨written, yields, normal, rfl⟩ := alike.of_run_ok built
  have ran := yields.run_ok journal
  obtain ⟨sorted, numeric⟩ := build_wellSorted off recipe typed journal written ran
  have foldedSorted := Expr.every_wellSorted_propagate settings normal sorted
  have folded := Expr.negatesNumber_propagate_iff settings normal sorted numeric
  refine ⟨written, ran, foldedSorted, folded, ?_⟩
  cases optimizes : settings.optimize with
  | true =>
      -- Nothing is left to fold, so propagation changes nothing.
      have folds := Expr.every_normal_propagate settings written
      have unchanged := Expr.propagate_of_normal
        (folds.normal_mono fun _ : pass.optimize = true => optimizes)
      rw [unchanged, folded, optimizes]
      exact ⟨foldedSorted, by simp⟩
  | false =>
      -- The tree is the one that was written, and only this pass can move signs.
      have unchanged : (written.propagate settings .empty).value = written :=
        Expr.propagate_of_normal (normal.normal_mono fun on => by rw [optimizes] at on; cases on)
      rw [unchanged, Expr.negatesNumber_propagate_iff pass normal sorted numeric]
      exact ⟨Expr.every_wellSorted_propagate pass normal sorted, by simp⟩

/-- A sign before a vector of a converted number and a constructor with another sign inside. -/
theorem operands_of_built_operators_vector :
    let recipe : ExprRecipe := .unary .minus (.construct 1 (.vector .float .two)
      [.coerce .float (.int 2 (.literal .int) 7),
        .unary .minus (.construct 3 .float [.float 4 .float ⟨0x3FF0000000000000⟩])])
    let expr : Expr := .construct 1 (.vector .float .two)
      [.float 2 .float (-.ofInt 7), .construct 3 .float [.float 4 .float ⟨0x3FF0000000000000⟩]]
    recipe.isTyped = true ∧ (recipe.build.run {} {}).1 = .ok expr ∧
      ∃ written, (recipe.build.run { optimize := false } {}).1 = .ok written ∧
        (expr.Every Expr.NegatesNumber ↔ written.Every Expr.NegatesNoBool) := by
  intro recipe expr
  have typed : recipe.isTyped = true := rfl
  have built : (recipe.build.run {} {}).1 = .ok expr := rfl
  obtain ⟨written, ran, _, numeric, _⟩ :=
    operands_of_built_operators recipe typed {} {} {} expr built
  exact ⟨typed, built, written, ran, by simpa using numeric⟩

/-- A minus is refused before a boolean. Before a boolean that was converted to a number it is
accepted, and folding moves it onto the boolean. -/
theorem minus_folded_onto_bool_literal :
    let literal : Expr := .bool 4 .bool true
    let recipe : ExprRecipe := .unary .minus (.coerce .float (.bool 4 .bool true))
    let expr : Expr := .construct 4 .float [.unary 4 .bool .minus literal]
    recipe.isTyped = true ∧ (recipe.build.run {} {}).1 = .ok expr ∧
      (expr.propagate {} .empty).value = expr ∧ ¬expr.Every Expr.NegatesNumber ∧
      ((literal.buildUnary .minus).run {} {}).1 = .error .reported := by
  intro literal recipe expr
  refine ⟨rfl, rfl, rfl, fun every => ?_, rfl⟩
  have inside := (Expr.every_construct.mp every).2 _ (List.mem_singleton.mpr rfl)
  have number : literal.ty.component.isNumber = true := inside.root
  cases number

end ExprRecipe

end ShaderIR
