import ShaderIR.Proofs.Construction
import ShaderIR.Proofs.Folding

/-!
What a negation does to a constant that is converted from one type to another. Constructors of one
argument are read as conversions between integers and booleans. With optimization a negation moves
through all of them down to the literal. An integer stays the same number when it is converted, so
the sign can be taken before or after. A boolean only tells whether the number is zero, so a sign
that has moved below a conversion to a boolean is lost.
-/

namespace ShaderIR

inductive Converted where
  | int (value : Int64)
  | bool (value : Bool)
deriving DecidableEq, Repr

namespace Converted

/-- Booleans count as zero and one. -/
def number : Converted → Int64
  | .int value => value
  | .bool value => if value then 1 else 0

/-- The value after a conversion to the given type; there are none but those to `int`, `short` and
`bool`. -/
def into? : Ty → Converted → Option Converted
  | .scalar .int, value | .scalar .short, value => some (.int value.number)
  | .scalar .bool, value => some (.bool (value.number != 0))
  | _, _ => none

@[simp]
theorem number_int (value : Int64) : (Converted.int value).number = value := rfl

theorem into?_bool (value : Converted) :
    into? .bool value = some (.bool (value.number != 0)) := rfl

theorem into?_number {ty : Ty} (number : ty = .int ∨ ty = .scalar .short) (value : Converted) :
    into? ty value = some (.int value.number) := by
  rcases number with rfl | rfl <;> rfl

theorem number_bool (value : Bool) :
    (Converted.bool value).number = 0 ∨ (Converted.bool value).number = 1 := by
  cases value
  · exact .inl rfl
  · exact .inr rfl

end Converted

namespace Expr

/-- The value of a tree whose constructors are conversions; a boolean under a minus counts as a
number. -/
def converted? : Expr → Option Converted
  | .int _ _ value => some (.int value)
  | .bool _ _ value => some (.bool value)
  | .construct _ ty [argument] => argument.converted?.bind (Converted.into? ty)
  | .unary _ _ .minus operand => operand.converted?.map fun value => .int (-value.number)
  | _ => none

/-- An integer or boolean literal inside any number of conversions. -/
inductive Conversion : Expr → Prop
  | int (offset : Offset) {ty : Ty} (value : Int64)
      (integer : ty = .int ∨ ty = .scalar .short ∨ ty = .literal .int) :
      Conversion (.int offset ty value)
  | bool (offset : Offset) (ty : Ty) (value : Bool) : Conversion (.bool offset ty value)
  | convert (offset : Offset) {ty : Ty} {argument : Expr}
      (target : (ty = .int ∨ ty = .scalar .short) ∨ ty = .bool) (inner : Conversion argument) :
      Conversion (.construct offset ty [argument])

/-- No constructor in the tree makes a boolean. -/
def KeepsSign (expr : Expr) : Prop :=
  expr.Every fun node => node.kind = .constructor → node.ty ≠ .bool

variable {settings : Settings} {expr : Expr}

theorem converted?_construct (offset : Offset) (ty : Ty) (argument : Expr) :
    (Expr.construct offset ty [argument]).converted? =
      argument.converted?.bind (Converted.into? ty) := rfl

theorem converted?_minus (operand : Expr) :
    (apply .minus operand).converted? =
      operand.converted?.map fun value => .int (-value.number) := rfl

theorem keepsSign_construct {offset : Offset} {ty : Ty} {argument : Expr} :
    (Expr.construct offset ty [argument]).KeepsSign ↔ ty ≠ .bool ∧ argument.KeepsSign := by
  simp [KeepsSign, kind, Expr.ty]

theorem Conversion.isConstant (conversion : expr.Conversion) : expr.isConstant = true := by
  induction conversion with
  | int | bool => rfl
  | convert offset target inner ih =>
      rw [Expr.isConstant, allConstant, ih]
      rfl

theorem Conversion.exists_converted (conversion : expr.Conversion) :
    ∃ value, expr.converted? = some value := by
  induction conversion with
  | int offset value => exact ⟨.int value, rfl⟩
  | bool offset ty value => exact ⟨.bool value, rfl⟩
  | convert offset target inner ih =>
      obtain ⟨value, converted⟩ := ih
      rw [converted?_construct, converted, Option.bind_some]
      rcases target with number | rfl
      · exact ⟨_, Converted.into?_number number value⟩
      · exact ⟨_, Converted.into?_bool value⟩

/-- Without optimization the negation stays in front of the whole conversion. -/
theorem Conversion.converted?_negate_unoptimized (off : settings.optimize = false)
    (conversion : expr.Conversion) :
    (expr.negate settings).value.converted? =
      expr.converted?.map fun value => .int (-value.number) := by
  cases conversion with
  | int => rfl
  | bool => rfl
  | @convert offset ty argument target inner =>
      have kept : foldable settings .minus (.construct offset ty [argument]) = false := by
        rw [foldable, off, Bool.false_and]
      rw [negate_of_not_foldable settings kept, converted?_minus]

/-- A negation that is moved to the literal negates the value if no conversion to a boolean is in
its way. If there is one, the value is what it was, zero or one. -/
theorem Conversion.exists_converted_negate (optimizes : settings.optimize = true)
    (conversion : expr.Conversion) :
    ∃ before after, expr.converted? = some before ∧
      (expr.negate settings).value.converted? = some after ∧
      (expr.KeepsSign ∧ after.number = -before.number ∨
        ¬expr.KeepsSign ∧ after.number = before.number ∧
          (before.number = 0 ∨ before.number = 1)) := by
  induction conversion with
  | int offset value =>
      exact ⟨.int value, .int (-value), rfl, rfl, .inl ⟨by simp [KeepsSign, kind], rfl⟩⟩
  | bool offset ty value =>
      refine ⟨.bool value, .int (-(Converted.bool value).number), rfl, rfl, .inl ⟨?_, rfl⟩⟩
      simp [KeepsSign, kind]
  | @convert offset ty argument target inner ih =>
      obtain ⟨before, after, beforeEq, afterEq, outcome⟩ := ih
      rw [negate_wrapped settings offset ty optimizes inner.isConstant, converted?_construct,
        converted?_construct, beforeEq, afterEq, Option.bind_some, Option.bind_some]
      rcases target with number | rfl
      · have notBool : ty ≠ .bool := by rcases number with rfl | rfl <;> decide
        refine ⟨.int before.number, .int after.number, Converted.into?_number number before,
          Converted.into?_number number after, ?_⟩
        simpa only [keepsSign_construct, ne_eq, notBool, not_false_eq_true, true_and,
          Converted.number_int] using outcome
      · -- The sign makes no difference to whether the number is zero.
        have sameTruth : (after.number != 0) = (before.number != 0) := by
          rcases outcome with ⟨_, negated⟩ | ⟨_, same, _⟩
          · rw [negated, Bool.eq_iff_iff, bne_iff_ne, bne_iff_ne]
            grind
          · rw [same]
        refine ⟨.bool (before.number != 0), .bool (after.number != 0), rfl, rfl, .inr ⟨?_, ?_, ?_⟩⟩
        · exact fun keeps => (keepsSign_construct.mp keeps).1 rfl
        · rw [sameTruth]
        · exact Converted.number_bool _

/-- What a minus is accepted on is a number, and stays one. -/
theorem Conversion.eq_int_of_converted_negate (conversion : expr.Conversion)
    (number : expr.ty.component.isNumber = true) {after : Converted}
    (converted : (expr.negate settings).value.converted? = some after) :
    after = .int after.number := by
  cases conversion with
  | int => cases converted; rfl
  | bool => cases converted; rfl
  | @convert offset ty argument target inner =>
      cases optimizes : settings.optimize with
      | true =>
          rw [negate_wrapped settings offset ty optimizes inner.isConstant,
            converted?_construct] at converted
          obtain ⟨value, _, into⟩ := Option.bind_eq_some_iff.mp converted
          rcases target with target | rfl
          · rw [Converted.into?_number target] at into
            cases into
            rfl
          · cases number
      | false =>
          have whole := Conversion.convert offset target inner
          rw [whole.converted?_negate_unoptimized optimizes] at converted
          obtain ⟨value, _, rfl⟩ := Option.map_eq_some_iff.mp converted
          rfl

theorem of_negation_ok {journal : Journal} {result : Expr}
    (built : ((expr.buildUnary .minus).run settings journal).1 = .ok result) :
    expr.ty.component.isNumber = true ∧ result = (expr.negate settings).value := by
  cases UnaryBuilt.of_run_ok built with
  | minus number => exact ⟨number, rfl⟩
  | step isStep => rcases isStep with impossible | impossible <;> cases impossible

/-- Building a minus before a conversion that it is accepted on negates the value exactly if nothing
is optimized, or no conversion to a boolean is on the way to the literal, or the value is zero. In
every other case the value is one and stays one. -/
theorem value_of_negated_conversion (conversion : expr.Conversion) (settings : Settings)
    (journal : Journal) (result : Expr)
    (built : ((expr.buildUnary .minus).run settings journal).1 = .ok result) :
    ∃ before after, expr.converted? = some before ∧ result.converted? = some (.int after) ∧
      (after = -before.number ↔
        settings.optimize = false ∨ expr.KeepsSign ∨ before.number = 0) ∧
      (after ≠ -before.number → before.number = 1 ∧ after = 1) := by
  obtain ⟨number, rfl⟩ := of_negation_ok built
  cases optimizes : settings.optimize with
  | false =>
      obtain ⟨before, converted⟩ := conversion.exists_converted
      refine ⟨before, -before.number, converted, ?_, by simp, by simp⟩
      rw [conversion.converted?_negate_unoptimized optimizes, converted, Option.map_some]
  | true =>
      obtain ⟨before, after, beforeEq, afterEq, outcome⟩ :=
        conversion.exists_converted_negate optimizes
      rw [conversion.eq_int_of_converted_negate number afterEq] at afterEq
      refine ⟨before, after.number, beforeEq, afterEq, ?_⟩
      rcases outcome with ⟨keeps, negated⟩ | ⟨loses, same, zero | one⟩
      · simp [keeps, negated]
      · simp [loses, same, zero]
      · have differs : (1 : Int64) ≠ -1 := by decide
        have notZero : (1 : Int64) ≠ 0 := by decide
        simp [loses, same, one, differs, notZero]

/-- A boolean literal that is made a number twice over: the minus ends up on the literal. -/
theorem value_of_negated_conversion_flag :
    let expr : Expr := .construct 1 (.scalar .short) [.construct 2 .int [.bool 3 .bool true]]
    let result : Expr := .construct 1 (.scalar .short)
      [.construct 2 .int [.unary 3 .bool .minus (.bool 3 .bool true)]]
    expr.Conversion ∧ ((expr.buildUnary .minus).run {} {}).1 = .ok result ∧ expr.KeepsSign ∧
      ∃ before after, expr.converted? = some before ∧ result.converted? = some (.int after) ∧
        after = -before.number := by
  intro expr result
  have conversion : expr.Conversion :=
    .convert 1 (.inl (.inr rfl)) (.convert 2 (.inl (.inl rfl)) (.bool 3 .bool true))
  have built : ((expr.buildUnary .minus).run {} {}).1 = .ok result := rfl
  have keeps : expr.KeepsSign := by simp [expr, KeepsSign, kind, Expr.ty]
  obtain ⟨before, after, beforeEq, afterEq, negates, _⟩ :=
    value_of_negated_conversion conversion {} {} result built
  exact ⟨conversion, built, keeps, before, after, beforeEq, afterEq,
    negates.mpr (.inr (.inl keeps))⟩

/-- A number that is made a boolean and then a number again: its negation is one, as it is. -/
theorem sign_lost_in_conversion :
    let expr : Expr := .construct 1 .int [.construct 2 .bool [.int 3 .int 5]]
    let result : Expr := .construct 1 .int [.construct 2 .bool [.int 3 .int (-5)]]
    expr.Conversion ∧ ((expr.buildUnary .minus).run {} {}).1 = .ok result ∧
      expr.converted? = some (.int 1) ∧ result.converted? = some (.int 1) ∧
      (1 : Int64) ≠ -1 := by
  intro expr result
  refine ⟨?_, rfl, rfl, rfl, by decide⟩
  exact .convert 1 (.inl (.inl rfl)) (.convert 2 (.inr rfl) (.int 3 5 (.inl rfl)))

end Expr

end ShaderIR
