import ShaderIR.Proofs.Labels

/-!
Trees in which nothing is left to fold. Propagating without definitions produces such trees and
leaves them as they are. Which trees are normal depends on whether negation moves into constructors:
what is normal with that optimization is normal without it.
-/

namespace ShaderIR

namespace Expr

/-- A node with nothing to fold: an operator node has the offset and type of its operand, and the
operator cannot be computed. -/
def Normal (settings : Settings) : Expr → Prop
  | .unary offset ty operator operand =>
      offset = operand.offset ∧ ty = operand.ty ∧ foldable settings operator operand = false
  | _ => True

variable {settings other : Settings}

theorem foldable_mono (weaker : other.optimize = true → settings.optimize = true)
    {operator : Operator} {operand : Expr}
    (unfoldable : foldable settings operator operand = false) :
    foldable other operator operand = false := by
  cases operand with
  | construct offset ty arguments =>
      cases operator with
      | minus =>
          simp only [foldable, Bool.and_eq_false_iff] at unfoldable ⊢
          refine unfoldable.imp_left fun off => ?_
          cases on : other.optimize with
          | false => rfl
          | true => rw [weaker on] at off; cases off
      | _ => rfl
  | int | float | bool | unary | reference => cases operator <;> first | rfl | cases unfoldable

theorem Every.normal_mono {expr : Expr} (normal : expr.Every (Normal settings))
    (weaker : other.optimize = true → settings.optimize = true) : expr.Every (Normal other) := by
  refine normal.imp fun node holds => ?_
  cases node with
  | unary offset ty operator operand =>
      exact ⟨holds.1, holds.2.1, foldable_mono weaker holds.2.2⟩
  | _ => trivial

theorem Every.normal_negate {expr : Expr} (normal : expr.Every (Normal settings)) :
    (expr.negate settings).value.Every (Normal settings) := by
  refine normal.negate settings ?_ ?_ ?_ ?_
  · exact fun _ _ _ _ _ => trivial
  · exact fun _ _ _ _ _ => trivial
  · exact fun _ _ _ _ _ => trivial
  · exact fun operand _ unfoldable => ⟨rfl, rfl, unfoldable⟩

theorem Every.normal_invert {expr : Expr} (normal : expr.Every (Normal settings)) :
    expr.invert.value.Every (Normal settings) := by
  refine normal.invert (fun _ _ _ _ _ => trivial) fun notBool => ⟨rfl, rfl, ?_⟩
  cases expr with
  | bool => contradiction
  | int | float | construct | unary | reference => rfl

theorem Every.normal_refolded {operand : Expr} (normal : operand.Every (Normal settings))
    (operator : Operator) : (refolded settings operator operand).Every (Normal settings) := by
  refine refolded_cases settings (motive := fun after => after.Every (Normal settings))
    operator operand ?_ ?_ ?_
  · exact fun _ => normal.normal_negate
  · exact fun _ => normal.normal_invert
  · exact fun notMinus notInversion =>
      every_apply.mpr ⟨⟨rfl, rfl, foldable_of_ne settings notMinus notInversion operand⟩, normal⟩

theorem propagate_reference_empty (offset : Offset) (ty : Ty) (var : Variable) (access : Access) :
    ((Expr.reference offset ty var access).propagate settings .empty).value =
      .reference offset ty var access :=
  propagate_reference_of_unknown settings offset ty .empty rfl access

theorem every_normal_propagate (settings : Settings) (expr : Expr) :
    (expr.propagate settings .empty).value.Every (Normal settings) := by
  induction expr with
  | int | float | bool => simp [Normal]
  | reference offset ty var access =>
      rw [propagate_reference_empty]
      exact every_reference.mpr trivial
  | construct offset ty arguments ih =>
      rw [propagate_construct]
      refine every_construct.mpr ⟨trivial, fun propagated member => ?_⟩
      obtain ⟨argument, inside, rfl⟩ := List.mem_map.mp member
      exact ih argument inside
  | unary offset ty operator operand ih =>
      rw [propagate_unary]
      exact ih.normal_refolded operator

/-- Propagation without definitions leaves a normal tree as it is. -/
theorem propagate_of_normal {expr : Expr} (normal : expr.Every (Normal settings)) :
    (expr.propagate settings .empty).value = expr := by
  induction expr with
  | int | float | bool => rfl
  | reference offset ty var access => exact propagate_reference_empty offset ty var access
  | construct offset ty arguments ih =>
      have parts := (every_construct.mp normal).2
      rw [propagate_construct]
      refine congrArg _ (map_eq_self_iff.mpr fun argument member => ?_)
      exact ih argument member (parts argument member)
  | unary offset ty operator operand ih =>
      obtain ⟨⟨sameOffset, sameTy, unfoldable⟩, below⟩ := every_unary.mp normal
      rw [propagate_unary, ih below, refolded_of_not_foldable settings unfoldable, apply,
        sameOffset, sameTy]

theorem Every.labelled {expr : Expr} (normal : expr.Every (Normal settings)) :
    expr.Every Labelled := by
  refine normal.imp fun node holds => ?_
  cases node with
  | unary => exact holds.2.1
  | _ => trivial

theorem Every.anchored {expr : Expr} (normal : expr.Every (Normal settings)) :
    expr.Every Anchored := by
  refine normal.imp fun node holds => ?_
  cases node with
  | unary => exact holds.1
  | _ => trivial

/-- No definition takes the place of what is read at the base of the tree. -/
def KeptBy (definitions : Definitions) (expr : Expr) : Prop :=
  expr.reads?.bind definitions.constant? = none

theorem keptBy_empty (expr : Expr) : expr.KeptBy .empty := by
  unfold KeptBy
  cases expr.reads? <;> rfl

variable {definitions : Definitions}

/-- On a tree whose operator nodes are labelled like their operands, propagation changes neither the
type nor the offset of the root, whatever it folds. -/
theorem labels_propagate_of_normal (pass : Settings) {expr : Expr}
    (normal : expr.Every (Normal settings)) (kept : expr.KeptBy definitions) :
    (expr.propagate pass definitions).value.ty = expr.ty ∧
      (expr.propagate pass definitions).value.offset = expr.offset := by
  constructor
  · rw [ty_propagate pass definitions normal.labelled, kept]
    rfl
  · rw [offset_propagate, offset_base normal.anchored]

def isCompound : Expr → Bool
  | .construct .. | .unary .. => true
  | _ => false

theorem propagate_of_not_compound (pass : Settings) {expr : Expr}
    (leaf : expr.isCompound = false) (kept : expr.KeptBy definitions) :
    (expr.propagate pass definitions).value = expr := by
  cases expr with
  | int | float | bool => rfl
  | reference offset ty var access =>
      by_cases reads : access = .read
      · subst reads
        exact propagate_reference_of_unknown pass offset ty definitions kept .read
      · exact propagate_reference_of_written pass offset ty definitions reads var
  | construct | unary => cases leaf

theorem foldable_of_not_compound (settings other : Settings) (operator : Operator)
    {operand : Expr} (leaf : operand.isCompound = false) :
    foldable settings operator operand = foldable other operator operand := by
  cases operand with
  | construct | unary => cases leaf
  | int | float | bool | reference => cases operator <;> rfl

theorem isCompound_refolded (pass : Settings) (operator : Operator) {operand : Expr}
    (compound : operand.isCompound = true) :
    (refolded pass operator operand).isCompound = true := by
  refine refolded_cases pass (motive := fun after => after.isCompound = true) operator operand
    ?_ ?_ ?_
  · intro _
    revert compound
    refine negate_induction pass (motive := fun before after =>
      before.isCompound = true → after.isCompound = true) ?_ ?_ ?_ ?_ operand
    · exact fun _ _ _ leaf => nomatch leaf
    · exact fun _ _ _ leaf => nomatch leaf
    · exact fun _ _ _ _ _ _ _ => rfl
    · exact fun _ _ _ => rfl
  · intro _
    cases operand with
    | construct | unary => rfl
    | int | float | bool | reference => cases compound
  · exact fun _ _ => rfl

theorem isCompound_propagate (pass : Settings) {expr : Expr}
    (normal : expr.Every (Normal settings)) (kept : expr.KeptBy definitions) :
    (expr.propagate pass definitions).value.isCompound = expr.isCompound := by
  induction expr with
  | int | float | bool => rfl
  | reference => rw [propagate_of_not_compound pass rfl kept]
  | construct offset ty arguments => rw [propagate_construct]; rfl
  | unary offset ty operator operand ih =>
      obtain ⟨⟨_, _, unfoldable⟩, below⟩ := every_unary.mp normal
      have sameShape := ih below kept
      rw [propagate_unary]
      -- No operator stands on a literal that it could be computed on. Over a leaf it is kept, and
      -- over anything else it leaves an operator or moves into a constructor.
      cases compound : operand.isCompound with
      | false =>
          rw [foldable_of_not_compound settings pass operator compound] at unfoldable
          rw [propagate_of_not_compound pass compound kept,
            refolded_of_not_foldable pass unfoldable]
          rfl
      | true => exact isCompound_refolded pass operator (sameShape.trans compound)

theorem coerce_of_compound {expr : Expr} (compound : expr.isCompound = true) (target : Ty) :
    expr.coerce target =
      if expr.ty = target then expr else .construct expr.offset target [expr] := by
  cases expr with
  | construct | unary => rfl
  | int | float | bool | reference => cases compound

theorem propagate_coerce (pass : Settings) {expr : Expr} (normal : expr.Every (Normal settings))
    (kept : expr.KeptBy definitions) (target : Ty) :
    ((expr.coerce target).propagate pass definitions).value =
      (expr.propagate pass definitions).value.coerce target := by
  obtain ⟨sameTy, sameOffset⟩ := labels_propagate_of_normal pass normal kept
  have sameShape := isCompound_propagate pass normal kept
  cases compound : expr.isCompound with
  | true =>
      rw [coerce_of_compound compound, coerce_of_compound (sameShape.trans compound), sameTy,
        sameOffset]
      split
      · rfl
      · rw [propagate_construct]
        rfl
  | false =>
      have unchanged := propagate_of_not_compound pass compound kept
      rw [unchanged]
      cases expr with
      | construct | unary => cases compound
      | int | float | bool | reference =>
          simp only [coerce]
          split_ifs <;> simp [unchanged]

theorem Every.normal_coerce {expr : Expr} (normal : expr.Every (Normal settings)) (target : Ty) :
    (expr.coerce target).Every (Normal settings) := by
  refine normal.coerce target ?_ ?_ ?_
  · exact fun _ _ _ => trivial
  · exact fun _ _ _ => trivial
  · exact fun _ _ => trivial

end Expr

end ShaderIR
