import ShaderIR.Proofs.Folding

/-!
The offset and the type that propagation leaves at the root of a tree. An operator node is put
together anew over its propagated operand and takes both labels from it, so in the end they come
from the `base` of the tree, the first node on the way down that is no operator. A base that reads a
variable with a constant definition keeps its own offset, but takes the type of the definition.
-/

namespace ShaderIR

namespace Expr

/-- What is left of a tree without the operators at its root. -/
def base : Expr → Expr
  | .unary _ _ _ operand => operand.base
  | expr => expr

/-- The variable that is read below the operators at the root, if that is all there is. -/
def reads? (expr : Expr) : Option Variable :=
  match expr.base with
  | .reference _ _ var .read => some var
  | _ => none

/-- An operator node has the type of its operand. -/
def Labelled : Expr → Prop
  | .unary _ ty _ operand => ty = operand.ty
  | _ => True

/-- An operator node stands where its operand does. -/
def Anchored : Expr → Prop
  | .unary offset _ _ operand => offset = operand.offset
  | _ => True

variable {expr : Expr}

@[simp]
theorem reads?_read (offset : Offset) (ty : Ty) (var : Variable) :
    (Expr.reference offset ty var .read).reads? = some var := rfl

theorem base_mem_nodes (expr : Expr) : expr.base ∈ expr.nodes := by
  induction expr with
  | unary offset ty operator operand ih =>
      rw [nodes_unary]
      exact List.mem_cons_of_mem _ ih
  | int | float | bool | construct | reference => exact self_mem_nodes _

theorem base_eq_of_reads {var : Variable} (reads : expr.reads? = some var) :
    ∃ offset ty, expr.base = .reference offset ty var .read := by
  unfold reads? at reads
  split at reads
  · rename_i offset ty found same
    cases reads
    exact ⟨offset, ty, same⟩
  · cases reads

theorem ty_base (labelled : expr.Every Labelled) : expr.base.ty = expr.ty := by
  induction expr with
  | unary offset ty operator operand ih =>
      obtain ⟨sameTy, below⟩ := every_unary.mp labelled
      exact (ih below).trans sameTy.symm
  | int | float | bool | construct | reference => rfl

theorem offset_base (anchored : expr.Every Anchored) : expr.base.offset = expr.offset := by
  induction expr with
  | unary offset ty operator operand ih =>
      obtain ⟨sameOffset, below⟩ := every_unary.mp anchored
      exact (ih below).trans sameOffset.symm
  | int | float | bool | construct | reference => rfl

theorem reads?_of_isConstant (constant : expr.isConstant = true) : expr.reads? = none := by
  induction expr with
  | unary offset ty operator operand ih =>
      have below : operand.isConstant = true := by
        simp only [isConstant, Bool.and_eq_true] at constant
        exact constant.2
      exact ih below
  | int | float | bool | construct => rfl
  | reference => cases constant

@[simp]
theorem reads?_negate (settings : Settings) (expr : Expr) :
    (expr.negate settings).value.reads? = expr.reads? :=
  negate_induction settings (motive := fun before after => after.reads? = before.reads?)
    (fun _ _ _ => rfl) (fun _ _ _ => rfl) (fun _ _ _ _ _ _ => rfl) (fun _ _ => rfl) expr

@[simp]
theorem reads?_refolded (settings : Settings) (operator : Operator) (operand : Expr) :
    (refolded settings operator operand).reads? = operand.reads? := by
  refine refolded_cases settings (motive := fun after => after.reads? = operand.reads?)
    operator operand ?_ ?_ ?_
  · exact fun _ => reads?_negate settings operand
  · intro _
    cases operand <;> rfl
  · exact fun _ _ => rfl

theorem offset_propagate (settings : Settings) (definitions : Definitions) (expr : Expr) :
    (expr.propagate settings definitions).value.offset = expr.base.offset := by
  induction expr with
  | int | float | bool => rfl
  | construct offset ty arguments => rw [propagate_construct]; rfl
  | unary offset ty operator operand ih =>
      rw [propagate_unary, offset_refolded, ih]
      rfl
  | reference offset ty var access =>
      rcases propagate_reference settings offset ty definitions var access with
        kept | ⟨_, value, _, replaced⟩
      · rw [kept]
        rfl
      · rw [replaced, offset_withOffset]
        rfl

/-- Once a read is replaced there is nothing left to read. -/
theorem reads?_propagate (settings : Settings) (definitions : Definitions) (expr : Expr) :
    (expr.propagate settings definitions).value.reads? =
      expr.reads?.filter fun var => (definitions.constant? var).isNone := by
  induction expr with
  | int | float | bool => rfl
  | construct offset ty arguments => rw [propagate_construct]; rfl
  | unary offset ty operator operand ih =>
      rw [propagate_unary, reads?_refolded, ih]
      rfl
  | reference offset ty var access =>
      cases access with
      | write | readWrite =>
          rw [propagate_reference_of_written settings offset ty definitions (by simp) var]
          rfl
      | read =>
          rw [propagate_read]
          cases found : definitions.constant? var with
          | none => simp [Option.filter_some, found]
          | some value =>
              have constant := Definitions.isConstant_of_constant? found
              rw [← isConstant_withOffset value offset] at constant
              simp [Option.filter_some, found, reads?_of_isConstant constant]

theorem ty_propagate (settings : Settings) (definitions : Definitions)
    (labelled : expr.Every Labelled) :
    (expr.propagate settings definitions).value.ty =
      ((expr.reads?.bind definitions.constant?).map Expr.ty).getD expr.ty := by
  induction expr with
  | int | float | bool => rfl
  | construct offset ty arguments => rw [propagate_construct]; rfl
  | unary offset ty operator operand ih =>
      obtain ⟨sameTy, below⟩ := every_unary.mp labelled
      rw [propagate_unary, ty_refolded, ih below]
      exact congrArg _ sameTy.symm
  | reference offset ty var access =>
      cases access with
      | write | readWrite =>
          rw [propagate_reference_of_written settings offset ty definitions (by simp) var]
          rfl
      | read =>
          rw [propagate_read]
          cases found : definitions.constant? var <;> simp [found]

end Expr

end ShaderIR
