import ShaderIR.Proofs.Folding
import ShaderIR.Proofs.IntegerRounding

/-!
Taking the negation of a constant before or after it is given another type. A numeric literal takes
the type itself, and anything else is wrapped in a constructor, through which a negation moves down
with optimization; so both ways end in the same tree. The exception is an integer that is its own
negation and becomes a floating-point number, since no such number is its own negation.
-/

namespace ShaderIR

/-- A negation wraps around only at the least integer. -/
theorem toInt_neg_cases (value : Int64) :
    (value = Int64.minValue ∧ (-value).toInt = value.toInt) ∨
      (value ≠ Int64.minValue ∧ (-value).toInt = -value.toInt) := by
  have least := value.le_toInt
  have greatest := value.toInt_lt
  rw [ne_eq, ← Int64.toInt_inj, Int64.toInt_minValue, Int64.toInt_neg, Int.bmod_def]
  split <;> omega

/-- Rounding to a double commutes with a wrapping negation except at the two integers that are their
own negation: no double is. -/
theorem ofInt_toInt_neg_iff (value : Int64) :
    Binary64.ofInt (-value).toInt = -Binary64.ofInt value.toInt ↔
      ¬ (value = 0 ∨ value = Int64.minValue) := by
  rcases toInt_neg_cases value with ⟨least, same⟩ | ⟨notLeast, negated⟩
  · rw [same, eq_comm]
    simp [least, Binary64.neg_ne_self]
  · by_cases zero : value = 0
    · subst zero
      simp only [Int64.toInt_zero, Int64.neg_zero, true_or, not_true_eq_false, iff_false]
      exact (Binary64.neg_ne_self _).symm
    · have nonzero : value.toInt ≠ 0 := fun none => zero (Int64.toInt_inj.mp none)
      rw [negated, Binary64.ofInt_neg nonzero]
      simp [zero, notLeast]

theorem Ty.isInteger_of_isFloat {ty : Ty} (isFloat : ty.isFloat = true) : ty.isInteger = false := by
  have float : ty.numberKind? = some .float := by simpa [Ty.isFloat] using isFloat
  simp [Ty.isInteger, float]

namespace Expr

variable {settings : Settings} {expr : Expr} {target : Ty}

theorem coerce_of_ty_eq (same : expr.ty = target) : expr.coerce target = expr := by
  simp only [coerce, if_pos same]

/-- Whether the expression is a literal that takes a type of numbers without a constructor. -/
def isNumeric : Expr → Bool
  | .int .. | .float .. => true
  | _ => false

theorem coerce_of_not_isNumeric (differs : expr.ty ≠ target) (other : expr.isNumeric = false) :
    expr.coerce target = .construct expr.offset target [expr] := by
  cases expr with
  | int | float => cases other
  | bool | construct | unary | reference => simp only [coerce, if_neg differs]

theorem isNumeric_negate : (expr.negate settings).value.isNumeric = expr.isNumeric := by
  refine negate_induction settings
    (motive := fun before after => after.isNumeric = before.isNumeric)
    (fun _ _ _ => rfl) (fun _ _ _ => rfl) (fun _ _ _ _ _ _ => rfl) ?_ expr
  intro operand kept
  cases operand with
  | int | float => cases kept
  | bool | construct | unary | reference => rfl

/-- The negation of an expression can be taken before or after it is given a type. -/
def NegatesAlike (settings : Settings) (target : Ty) (expr : Expr) : Prop :=
  (expr.negate settings).value.coerce target = ((expr.coerce target).negate settings).value

theorem negatesAlike_of_ty_eq (same : expr.ty = target) : NegatesAlike settings target expr := by
  have negated : (expr.negate settings).value.ty = target := by rw [ty_negate, same]
  rw [NegatesAlike, coerce_of_ty_eq same, coerce_of_ty_eq negated]

/-- Where both the constant and its negation are wrapped, the negation moves into the wrapping. -/
theorem negatesAlike_of_wrapped (optimizes : settings.optimize = true)
    (constant : expr.isConstant = true)
    (wrapped : expr.coerce target = .construct expr.offset target [expr])
    (negated : (expr.negate settings).value.coerce target =
      .construct expr.offset target [(expr.negate settings).value]) :
    NegatesAlike settings target expr := by
  rw [NegatesAlike, wrapped, negated, negate_wrapped settings _ _ optimizes constant]

theorem negatesAlike_of_not_isNumeric (optimizes : settings.optimize = true)
    (constant : expr.isConstant = true) (other : expr.isNumeric = false) :
    NegatesAlike settings target expr := by
  by_cases same : expr.ty = target
  · exact negatesAlike_of_ty_eq same
  · refine negatesAlike_of_wrapped optimizes constant (coerce_of_not_isNumeric same other) ?_
    have negated : (expr.negate settings).value.ty ≠ target := by rwa [ty_negate]
    rw [coerce_of_not_isNumeric negated (isNumeric_negate.trans other), offset_negate]

theorem negatesAlike_float (optimizes : settings.optimize = true) (offset : Offset) (ty : Ty)
    (value : Binary64) : NegatesAlike settings target (.float offset ty value) := by
  by_cases same : ty = target
  · exact negatesAlike_of_ty_eq same
  · cases isFloat : target.isFloat with
    | true => simp [NegatesAlike, coerce, Expr.ty, same, isFloat]
    | false =>
        refine negatesAlike_of_wrapped optimizes rfl ?_ ?_
        · simp [coerce, Expr.ty, Expr.offset, same, isFloat]
        · simp [coerce, Expr.ty, Expr.offset, same, isFloat]

theorem coerce_int_float {offset : Offset} {ty : Ty} (differs : ty ≠ target)
    (isFloat : target.isFloat = true) (value : Int64) :
    (Expr.int offset ty value).coerce target =
      .float offset target (.ofInt value.toInt) := by
  simp [coerce, Expr.ty, differs, isFloat, Ty.isInteger_of_isFloat isFloat]

/-- An integer literal stays an integer, becomes a floating-point number, or is wrapped. -/
theorem negatesAlike_int_iff (optimizes : settings.optimize = true) (offset : Offset) (ty : Ty)
    (value : Int64) :
    NegatesAlike settings target (.int offset ty value) ↔
      ¬ (ty ≠ target ∧ target.isFloat = true ∧ (value = 0 ∨ value = Int64.minValue)) := by
  by_cases same : ty = target
  · exact iff_of_true (negatesAlike_of_ty_eq same) fun moved => moved.1 same
  cases isFloat : target.isFloat with
  | true =>
      rw [NegatesAlike, negate_int, coerce_int_float same isFloat, coerce_int_float same isFloat,
        negate_float]
      simp only [Expr.float.injEq, true_and, ofInt_toInt_neg_iff, ne_eq, same, not_false_eq_true]
  | false =>
      have alike : NegatesAlike settings target (.int offset ty value) := by
        cases isInteger : target.isInteger with
        | true => simp [NegatesAlike, coerce, Expr.ty, same, isInteger]
        | false =>
            refine negatesAlike_of_wrapped optimizes rfl ?_ ?_
            · simp [coerce, Expr.ty, Expr.offset, same, isFloat, isInteger]
            · simp [coerce, Expr.ty, Expr.offset, same, isFloat, isInteger]
      simp [alike]

/-- With optimization the negation of a constant can be taken before or after it is given another
type, unless that makes a floating-point number out of an integer that is its own negation. The
number that such a literal becomes has the sign of the integer and is the double nearest to it. -/
theorem negation_commutes_with_coercion (optimizes : settings.optimize = true)
    (constant : expr.isConstant = true) (target : Ty) :
    ((expr.negate settings).value.coerce target = ((expr.coerce target).negate settings).value ↔
      ¬ ∃ offset ty value, expr = .int offset ty value ∧ ty ≠ target ∧ target.isFloat = true ∧
        (value = 0 ∨ value = Int64.minValue)) ∧
    ∀ offset ty value, expr = .int offset ty value → ty ≠ target → target.isFloat = true →
      ∃ number, expr.coerce target = .float offset target number ∧
        number.isNegative = decide (value.toInt < 0) ∧
        Binary64.Rounds number.rank |(value.toInt : ℚ)| := by
  constructor
  · change NegatesAlike settings target expr ↔ _
    cases expr with
    | int offset ty value => simpa using negatesAlike_int_iff optimizes offset ty value
    | float offset ty value => simpa using negatesAlike_float optimizes offset ty value
    | bool | construct | unary | reference =>
        simpa using negatesAlike_of_not_isNumeric optimizes constant rfl
  · rintro offset ty value rfl differs isFloat
    have least := value.le_toInt
    have greatest := value.toInt_lt
    exact ⟨_, coerce_int_float differs isFloat value, Binary64.rounds_ofInt (by omega)⟩

/-- An integer that lies halfway between two doubles. -/
theorem negation_commutes_with_coercion_tie :
    let expr : Expr := .int 4 .int (-9007199254740993)
    expr.isConstant = true ∧
      (expr.negate {}).value.coerce (.literal .float) =
        ((expr.coerce (.literal .float)).negate {}).value := by
  intro expr
  refine ⟨rfl, (negation_commutes_with_coercion rfl rfl (.literal .float)).1.mpr ?_⟩
  rintro ⟨offset, ty, value, same, -, -, fixed⟩
  obtain ⟨rfl, rfl, rfl⟩ := Expr.int.inj same
  revert fixed
  decide

end Expr

end ShaderIR
