import Mathlib.Algebra.Ring.Parity
import ShaderIR.Proofs.Construction
import ShaderIR.Proofs.Folding

/-!
Several signs before one operand. A plus leaves its operand alone, so a chain of signs does what its
minuses do one after another. There are two ways in which that can go. Where a negation is computed
it gives a tree of the same form, on which the next one is computed as well, and two of them cancel.
Where it leaves an operator node, so does every later one, and nothing cancels.
-/

namespace ShaderIR

/-- Two functions do the same over and over if they do where a property holds that the second keeps.
-/
theorem iterate_eq_of_kept {α : Type} {first second : α → α} (holds : α → Prop)
    (step : ∀ value, holds value → first value = second value ∧ holds (second value))
    {value : α} (start : holds value) (times : Nat) :
    first^[times] value = second^[times] value := by
  induction times generalizing value with
  | zero => rfl
  | succ times ih =>
      obtain ⟨same, kept⟩ := step value start
      rw [Function.iterate_succ_apply, Function.iterate_succ_apply, same, ih kept]

namespace Expr

mutual

/-- The tree with every number in it negated, an integer wrapping around at the ends of its range and
a floating-point number by its sign bit. Constructors stay as they are. -/
def flipped : Expr → Expr
  | .int offset ty value => .int offset ty (-value)
  | .float offset ty value => .float offset ty (-value)
  | .construct offset ty arguments => .construct offset ty (flippedAll arguments)
  | expr => expr

def flippedAll : List Expr → List Expr
  | [] => []
  | argument :: arguments => argument.flipped :: flippedAll arguments

end

theorem flippedAll_eq_map (arguments : List Expr) :
    flippedAll arguments = arguments.map flipped := by
  induction arguments with
  | nil => rfl
  | cons argument arguments ih => rw [flippedAll, ih, List.map_cons]

theorem flipped_construct (offset : Offset) (ty : Ty) (arguments : List Expr) :
    (Expr.construct offset ty arguments).flipped =
      .construct offset ty (arguments.map flipped) := by
  rw [flipped, flippedAll_eq_map]

theorem flipped_involutive : Function.Involutive flipped := by
  intro expr
  induction expr with
  | int offset ty value => simp [flipped, Int64.neg_neg]
  | float offset ty value => simp [flipped]
  | construct offset ty arguments ih =>
      rw [flipped_construct, flipped_construct, List.map_map]
      exact congrArg _ (map_eq_self_iff.mpr ih)
  | bool | unary | reference => rfl

/-- A tree of numeric literals and constructors. -/
def Numeral (expr : Expr) : Prop :=
  expr.Every fun node =>
    node.kind = .intLiteral ∨ node.kind = .floatLiteral ∨ node.kind = .constructor

variable {settings : Settings} {expr : Expr}

theorem numeral_construct {offset : Offset} {ty : Ty} {arguments : List Expr} :
    (Expr.construct offset ty arguments).Numeral ↔ ∀ argument ∈ arguments, argument.Numeral := by
  simp [Numeral, kind]

theorem numeral_of_isConstant (constant : expr.isConstant = true)
    (numbers : expr.Every fun node => node.kind ≠ .unary ∧ node.kind ≠ .boolLiteral) :
    expr.Numeral := by
  induction expr with
  | int | float => simp [Numeral, kind]
  | bool => exact absurd rfl numbers.root.2
  | unary => exact absurd rfl numbers.root.1
  | reference => cases constant
  | construct offset ty arguments ih =>
      rw [isConstant, allConstant_eq_all, List.all_eq_true] at constant
      have parts := (every_construct.mp numbers).2
      exact numeral_construct.mpr fun argument member =>
        ih argument member (constant argument member) (parts argument member)

theorem Numeral.isConstant (numeral : expr.Numeral) : expr.isConstant = true := by
  induction expr with
  | int | float | bool => rfl
  | unary | reference => simpa [kind] using numeral.root
  | construct offset ty arguments ih =>
      rw [Expr.isConstant, allConstant_eq_all, List.all_eq_true]
      exact fun argument member => ih argument member (numeral_construct.mp numeral argument member)

theorem Numeral.flipped (numeral : expr.Numeral) : expr.flipped.Numeral := by
  induction expr with
  | int | float => simp [Numeral, Expr.flipped, kind]
  | bool | unary | reference => exact numeral
  | construct offset ty arguments ih =>
      rw [flipped_construct]
      refine numeral_construct.mpr fun flipped member => ?_
      obtain ⟨argument, inside, rfl⟩ := List.mem_map.mp member
      exact ih argument inside (numeral_construct.mp numeral argument inside)

theorem Numeral.negate_eq_flipped (optimizes : settings.optimize = true)
    (numeral : expr.Numeral) : (expr.negate settings).value = expr.flipped := by
  induction expr with
  | int | float => rfl
  | bool | unary | reference => simpa [kind] using numeral.root
  | construct offset ty arguments ih =>
      rw [negate_construct settings offset ty optimizes numeral.isConstant, flipped_construct]
      exact congrArg _ (List.map_congr_left fun argument member =>
        ih argument member (numeral_construct.mp numeral argument member))

/-- Every sign before the tree is computed: it is a numeric literal, or its constructors hold nothing
else and are optimized. -/
def FoldsSigns (settings : Settings) (expr : Expr) : Prop :=
  expr.kind = .intLiteral ∨ expr.kind = .floatLiteral ∨
    settings.optimize = true ∧ expr.kind = .constructor ∧ expr.isConstant = true ∧
      expr.Every fun node => node.kind ≠ .unary ∧ node.kind ≠ .boolLiteral

/-- No sign before the tree is ever computed. -/
def KeepsSigns (settings : Settings) (expr : Expr) : Prop :=
  expr.kind = .reference ∨ expr.kind = .unary ∨
    expr.kind = .constructor ∧ (expr.isConstant = false ∨ settings.optimize = false)

theorem FoldsSigns.iterate_negate (folds : expr.FoldsSigns settings) (times : Nat) :
    (fun expr => (expr.negate settings).value)^[times] expr = flipped^[times] expr := by
  have literal (same : expr.kind = .intLiteral ∨ expr.kind = .floatLiteral) :
      (fun expr => (expr.negate settings).value)^[times] expr = flipped^[times] expr := by
    refine iterate_eq_of_kept (fun expr => expr.kind = .intLiteral ∨ expr.kind = .floatLiteral)
      (fun expr same => ?_) same times
    cases expr with
    | int => exact ⟨rfl, .inl rfl⟩
    | float => exact ⟨rfl, .inr rfl⟩
    | bool | construct | unary | reference => simp [kind] at same
  rcases folds with int | float | ⟨optimizes, _, constant, numbers⟩
  · exact literal (.inl int)
  · exact literal (.inr float)
  · exact iterate_eq_of_kept Numeral
      (fun expr numeral => ⟨numeral.negate_eq_flipped optimizes, numeral.flipped⟩)
      (numeral_of_isConstant constant numbers) times

theorem KeepsSigns.not_foldable (keeps : expr.KeepsSigns settings) :
    foldable settings .minus expr = false := by
  cases expr with
  | int | float | bool => simp [KeepsSigns, kind] at keeps
  | unary | reference => rfl
  | construct offset ty arguments =>
      have conditions : allConstant arguments = false ∨ settings.optimize = false := by
        simpa [KeepsSigns, kind, isConstant] using keeps
      rcases conditions with unknown | off
      · rw [foldable, unknown, Bool.and_false]
      · rw [foldable, off, Bool.false_and]

theorem KeepsSigns.iterate_negate (keeps : expr.KeepsSigns settings) (times : Nat) :
    (fun expr => (expr.negate settings).value)^[times] expr = (apply .minus)^[times] expr :=
  -- What is under one operator node is never looked at again.
  iterate_eq_of_kept (fun expr => foldable settings .minus expr = false)
    (fun _ unfoldable => ⟨negate_of_not_foldable settings unfoldable, rfl⟩) keeps.not_foldable times

theorem buildUnary_plus_yields (number : expr.ty.component.isNumber = true) :
    (expr.buildUnary .plus).Yields settings expr := by
  have ends : (expr.buildUnary .plus).Ends settings _ := buildUnary_ends rfl expr
  simp only [unaryResult, number, if_true] at ends
  exact ends

theorem buildUnary_minus_yields (number : expr.ty.component.isNumber = true) :
    (expr.buildUnary .minus).Yields settings (expr.negate settings).value := by
  have ends : (expr.buildUnary .minus).Ends settings _ := buildUnary_ends rfl expr
  simp only [unaryResult, number, if_true] at ends
  exact ends

end Expr

namespace ExprRecipe

/-- Only the minuses of a chain of signs do something. -/
theorem chain_yields {settings : Settings} {operators : List Operator}
    (signs : ∀ operator ∈ operators, operator = .plus ∨ operator = .minus)
    {recipe : ExprRecipe} {expr : Expr} (built : recipe.build.Yields settings expr)
    (number : expr.ty.component.isNumber = true) :
    (chain operators recipe).build.Yields settings
      ((fun expr => (expr.negate settings).value)^[operators.count .minus] expr) := by
  induction operators generalizing recipe expr with
  | nil => exact built
  | cons operator operators ih =>
      obtain ⟨isSign, later⟩ := List.forall_mem_cons.mp signs
      rcases isSign with rfl | rfl
      · have first : (unary .plus recipe).build.Yields settings expr := by
          rw [build]
          exact built.bind (Expr.buildUnary_plus_yields number)
        exact ih later first number
      · have first : (unary .minus recipe).build.Yields settings (expr.negate settings).value := by
          rw [build]
          exact built.bind (Expr.buildUnary_minus_yields number)
        rw [List.count_cons_self, Function.iterate_succ_apply]
        exact ih later first (by rwa [Expr.ty_negate])

/-- A chain of signs before a tree of a numeric type is accepted without a diagnostic and keeps the
offset and the type of the tree. Where signs are computed, an even number of minuses gives the tree
itself and an odd number gives it with all its numbers negated. Where they are not, there is one
operator node for every minus. -/
theorem chains_of_signs (settings : Settings) (expr : Expr) (operators : List Operator)
    (number : expr.ty.component.isNumber = true)
    (signs : ∀ operator ∈ operators, operator = .plus ∨ operator = .minus) :
    ∃ result, (chain operators (.given expr)).build.Yields settings result ∧
      result.offset = expr.offset ∧ result.ty = expr.ty ∧
      (expr.FoldsSigns settings →
        result = if Even (operators.count .minus) then expr else expr.flipped) ∧
      (expr.KeepsSigns settings → result = (Expr.apply .minus)^[operators.count .minus] expr) := by
  refine ⟨_, chain_yields signs (BuildM.yields_pure expr) number, ?_, ?_, fun folds => ?_, ?_⟩
  · exact Function.Iterate.rec (fun result : Expr => result.offset = expr.offset) rfl
      (fun result same => (Expr.offset_negate settings result).trans same) _
  · exact Function.Iterate.rec (fun result : Expr => result.ty = expr.ty) rfl
      (fun result same => (Expr.ty_negate settings result).trans same) _
  · rw [folds.iterate_negate]
    split_ifs with even
    · rw [Expr.flipped_involutive.iterate_even even, id]
    · rw [Expr.flipped_involutive.iterate_odd (Nat.not_even_iff_odd.mp even)]
  · exact fun keeps => keeps.iterate_negate _

/-- Three minuses and a plus before a vector that holds the least integer, a negative zero and a NaN,
with optimization and without. -/
theorem chains_of_signs_vector :
    let vector (first : Int64) (second third : Binary64) : Expr :=
      .construct 1 (.vector .float .three) [.construct 2 .float [.int 3 .int first],
        .construct 4 (.vector .float .two) [.float 5 .float second, .float 6 .float third]]
    let expr := vector Int64.minValue ⟨0x8000000000000000⟩ ⟨0x7FF8000000000000⟩
    let operators : List Operator := [.minus, .plus, .minus, .minus]
    expr.ty.component.isNumber = true ∧
      (∀ operator ∈ operators, operator = .plus ∨ operator = .minus) ∧
      (chain operators (.given expr)).build.Yields {}
        (vector Int64.minValue ⟨0⟩ ⟨0xFFF8000000000000⟩) ∧
      (chain operators (.given expr)).build.Yields { optimize := false }
        (Expr.apply .minus (Expr.apply .minus (Expr.apply .minus expr))) := by
  intro vector expr operators
  have number : expr.ty.component.isNumber = true := rfl
  have signs : ∀ operator ∈ operators, operator = .plus ∨ operator = .minus := by decide
  have folds : expr.FoldsSigns {} := by
    refine .inr (.inr ⟨rfl, rfl, rfl, ?_⟩)
    simp [expr, vector, Expr.kind]
  have keeps : expr.KeepsSigns { optimize := false } := .inr (.inr ⟨rfl, .inr rfl⟩)
  obtain ⟨computed, yields, _, _, flips, _⟩ := chains_of_signs {} expr operators number signs
  obtain ⟨wrapped, wraps, _, _, _, stands⟩ :=
    chains_of_signs { optimize := false } expr operators number signs
  have odd : ¬Even (operators.count .minus) := by decide
  rw [flips folds, if_neg odd] at yields
  rw [stands keeps] at wraps
  exact ⟨number, signs, yields, wraps⟩

end ExprRecipe

end ShaderIR
