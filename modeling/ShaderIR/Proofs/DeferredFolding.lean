import ShaderIR.Proofs.Composition
import ShaderIR.Proofs.NormalForm
import ShaderIR.Proofs.StrictMode

/-!
Folding while building and folding afterwards give the same trees. Building without optimization
leaves negations standing before constructors; propagating the result with optimization moves them
in. The relation `Deferred` between the two trees is kept by every operation of a script: the plain
tree is normal, and propagating it gives the other one. Since such a tree has the labels of its
propagated form, and is a literal or a reference exactly if that is, every check decides alike.
-/

namespace ShaderIR

namespace Expr

variable {plain eager pass : Settings}

/-- The tree built without optimization, and the one it becomes by propagation. -/
def Deferred (plain pass : Settings) (deferred folded : Expr) : Prop :=
  deferred.Every (Normal plain) ∧ folded = (deferred.propagate pass .empty).value

variable {deferred folded : Expr}

theorem Deferred.ty_eq (related : Deferred plain pass deferred folded) :
    folded.ty = deferred.ty := by
  rw [related.2]
  exact (labels_propagate_of_normal pass related.1 (keptBy_empty deferred)).1

theorem Deferred.offset_eq (related : Deferred plain pass deferred folded) :
    folded.offset = deferred.offset := by
  rw [related.2]
  exact (labels_propagate_of_normal pass related.1 (keptBy_empty deferred)).2

theorem Deferred.negate (related : Deferred plain pass deferred folded)
    (off : plain.optimize = false) (same : pass.optimize = eager.optimize) :
    Deferred plain pass (deferred.negate plain).value (folded.negate eager).value := by
  refine ⟨related.1.normal_negate, ?_⟩
  have weaker : plain.optimize = true → pass.optimize = true := by simp [off]
  rw [propagate_negate weaker, ← related.2]
  exact (negate_congr same folded).symm

theorem Deferred.invert (related : Deferred plain pass deferred folded) :
    Deferred plain pass deferred.invert.value folded.invert.value := by
  refine ⟨related.1.normal_invert, ?_⟩
  rw [propagate_invert, ← related.2]

theorem Deferred.coerce (related : Deferred plain pass deferred folded) (target : Ty) :
    Deferred plain pass (deferred.coerce target) (folded.coerce target) := by
  refine ⟨related.1.normal_coerce target, ?_⟩
  rw [propagate_coerce pass related.1 (keptBy_empty deferred), ← related.2]

theorem Deferred.committed (related : Deferred plain pass deferred folded) :
    Deferred plain pass deferred.committed folded.committed := by
  simp only [Expr.committed, related.ty_eq]
  split
  · exact related.coerce _
  · exact related

theorem Deferred.apply (related : Deferred plain pass deferred folded) {operator : Operator}
    (notMinus : operator ≠ .minus) (notInversion : operator ≠ .logicalNot) :
    Deferred plain pass (apply operator deferred) (apply operator folded) := by
  have unfoldable := foldable_of_ne plain notMinus notInversion deferred
  refine ⟨every_apply.mpr ⟨⟨rfl, rfl, unfoldable⟩, related.1⟩, ?_⟩
  rw [propagate_apply, refolded_of_ne pass notMinus notInversion, ← related.2]

/-- Whether an operand can be assigned to shows in its plain form already. -/
theorem Deferred.assigned (related : Deferred plain pass deferred folded) (access : Access) :
    BuildM.AlikeOutcomes (Deferred plain pass) (deferred.assigned access)
      (folded.assigned access) := by
  obtain ⟨normal, rfl⟩ := related
  cases compound : deferred.isCompound with
  | true =>
      have sameShape := (isCompound_propagate pass normal (keptBy_empty deferred)).trans compound
      generalize (deferred.propagate pass .empty).value = propagated at sameShape
      have refused (expr : Expr) (isCompound : expr.isCompound = true) :
          expr.assigned access = .error .notAssignable := by
        cases expr with
        | construct | unary => rfl
        | int | float | bool | reference => cases isCompound
      rw [refused deferred compound, refused propagated sameShape]
      rfl
  | false =>
      rw [propagate_of_not_compound pass compound (keptBy_empty deferred)]
      cases deferred with
      | reference offset ty var current =>
          simp only [Expr.assigned]
          split
          · rfl
          · exact ⟨every_reference.mpr trivial, (propagate_reference_empty ..).symm⟩
      | int | float | bool => rfl
      | construct | unary => cases compound

theorem Deferred.unaryResult (related : Deferred plain pass deferred folded)
    (off : plain.optimize = false) (same : pass.optimize = eager.optimize)
    (strictness : plain.isStrict = eager.isStrict) (operator : Operator) :
    BuildM.AlikeOutcomes (Deferred plain pass) (deferred.unaryResult plain operator)
      (folded.unaryResult eager operator) := by
  have complemented : Deferred plain pass (Expr.apply .bitwiseNot deferred.committed)
      (Expr.apply .bitwiseNot folded.committed) :=
    related.committed.apply (by decide) (by decide)
  refine unaryResult_alike related.ty_eq strictness related (related.negate off same)
    related.invert complemented fun isStep => ?_
  refine (related.assigned .readWrite).map fun _ _ target => target.apply ?_ ?_
  · rcases isStep with rfl | rfl <;> decide
  · rcases isStep with rfl | rfl <;> decide

end Expr

section Building

variable {plain eager pass : Settings}

/-- A refusal is reported at the operand, whose offset is the same in both forms. -/
theorem Expr.Deferred.endAlike {deferred folded : Expr} {action other : BuildM Expr}
    {outcome otherOutcome : Except Refusal Expr} (related : Deferred plain pass deferred folded)
    (ends : action.Ends plain (BuildM.reportedAt deferred.offset outcome))
    (otherEnds : other.Ends eager (BuildM.reportedAt folded.offset otherOutcome))
    (alike : BuildM.AlikeOutcomes (Deferred plain pass) outcome otherOutcome) :
    BuildM.EndAlike (Deferred plain pass) action plain other eager := by
  rw [related.offset_eq] at otherEnds
  exact .of_ends ends otherEnds (alike.reportedAt deferred.offset)

namespace Stmt

def Deferred (pass : Settings) (deferred folded : Stmt) : Prop :=
  folded = (deferred.propagate pass .empty).value

variable {test folded : Expr}

theorem branch_deferred (offset : Offset) (isStatic : Bool) (ifTrue : Stmt) (ifFalse : Option Stmt)
    (related : Expr.Deferred plain pass test folded) :
    BuildM.EndAlike (Deferred pass)
      (BuildM.record (branch offset isStatic test ifTrue ifFalse)) plain
      (BuildM.record (branch offset isStatic folded (ifTrue.propagate pass .empty).value
        (ifFalse.map fun stmt => (stmt.propagate pass .empty).value))) eager := by
  have folds := propagate_branch pass .empty offset isStatic test ifTrue ifFalse
  rw [← related.2] at folds
  exact .record folds.symm

theorem buildConditional_deferred (offset : Offset) (isStatic : Bool) (ifTrue : Stmt)
    (ifFalse : Option Stmt) (related : Expr.Deferred plain pass test folded) :
    BuildM.EndAlike (Deferred pass)
      (buildConditional offset isStatic test ifTrue ifFalse) plain
      (buildConditional offset isStatic folded (ifTrue.propagate pass .empty).value
        (ifFalse.map fun stmt => (stmt.propagate pass .empty).value)) eager := by
  simp only [buildConditional, related.ty_eq, related.offset_eq]
  split
  · exact branch_deferred offset isStatic ifTrue ifFalse related
  · exact .inr ⟨_, BuildM.refuses_refuse _ _, BuildM.refuses_refuse _ _⟩

/-- Both kinds of conditional build their parts in the same order and differ in what follows. -/
theorem alike_of_parts {testRecipe : ExprRecipe} {trueRecipe : StmtRecipe}
    {falseRecipe : Option StmtRecipe} {next : Expr → Stmt → Option Stmt → BuildM Stmt}
    (alikeTest : BuildM.EndAlike (Expr.Deferred plain pass) testRecipe.build plain
      testRecipe.build eager)
    (alikeTrue : BuildM.EndAlike (Deferred pass) trueRecipe.build plain trueRecipe.build eager)
    (alikeFalse : BuildM.EndAlike
      (fun built folded => folded = built.map fun stmt => (stmt.propagate pass .empty).value)
      (StmtRecipe.buildElse falseRecipe) plain (StmtRecipe.buildElse falseRecipe) eager)
    (alikeNext : ∀ {test folded : Expr} (ifTrue : Stmt) (ifFalse : Option Stmt),
      Expr.Deferred plain pass test folded →
      BuildM.EndAlike (Deferred pass) (next test ifTrue ifFalse) plain
        (next folded (ifTrue.propagate pass .empty).value
          (ifFalse.map fun stmt => (stmt.propagate pass .empty).value)) eager) :
    let build : BuildM Stmt := do
      let test ← testRecipe.build
      let ifTrue ← trueRecipe.build
      let ifFalse ← StmtRecipe.buildElse falseRecipe
      next test ifTrue ifFalse
    BuildM.EndAlike (Deferred pass) build plain build eager := by
  intro build
  refine alikeTest.bind fun test foldedTest relatedTest => ?_
  refine alikeTrue.bind fun ifTrue foldedTrue relatedTrue => ?_
  refine alikeFalse.bind fun ifFalse foldedFalse relatedFalse => ?_
  rw [relatedTrue, relatedFalse]
  exact alikeNext ifTrue ifFalse relatedTest

end Stmt

variable (off : plain.optimize = false) (same : pass.optimize = eager.optimize)
  (strictness : plain.isStrict = eager.isStrict)

include off same strictness

-- Inside a mutual block the linter overlooks that recursive calls pass these on.
set_option linter.unusedSectionVars false

mutual

theorem ExprRecipe.build_deferred : ∀ recipe : ExprRecipe, recipe.isScript = true →
    BuildM.EndAlike (Expr.Deferred plain pass) recipe.build plain recipe.build eager
  | .int offset ty value, _ => .pure ⟨Expr.every_int.mpr trivial, rfl⟩
  | .float offset ty value, _ => .pure ⟨Expr.every_float.mpr trivial, rfl⟩
  | .bool offset ty value, _ => .pure ⟨Expr.every_bool.mpr trivial, rfl⟩
  | .reference offset var access, _ =>
      .pure ⟨Expr.every_reference.mpr trivial, (Expr.propagate_reference_empty ..).symm⟩
  | .construct offset ty arguments, script => by
      refine (buildAll_deferred arguments script).bind fun built folded related => ?_
      refine .pure ⟨Expr.every_construct.mpr ⟨trivial, related.1⟩, ?_⟩
      rw [Expr.propagate_construct, related.2]
  | .unary operator operand, script => by
      have parts : operator.isPrefix = true ∧ operand.isScript = true := by
        simpa only [isScript, Bool.and_eq_true] using script
      refine (build_deferred operand parts.2).bind fun built folded related => ?_
      exact related.endAlike (built.buildUnary_ends parts.1) (folded.buildUnary_ends parts.1)
        (related.unaryResult off same strictness operator)
  | .negate operand, script => by
      refine (build_deferred operand script).bind fun built folded related => ?_
      exact .inl ⟨_, _, BuildM.yields_read.bind (BuildM.yields_record (built.negate plain)),
        BuildM.yields_read.bind (BuildM.yields_record (folded.negate eager)),
        related.negate off same⟩
  | .invert operand, script => by
      refine (build_deferred operand script).bind fun built folded related => ?_
      exact .record related.invert
  | .coerce target operand, script => by
      refine (build_deferred operand script).bind fun built folded related => ?_
      exact .pure (related.coerce target)
  | .assignTo access operand, script => by
      refine (build_deferred operand script).bind fun built folded related => ?_
      exact related.endAlike (built.assignTo_ends access) (folded.assignTo_ends access)
        (related.assigned access)

theorem ExprRecipe.buildAll_deferred : ∀ recipes : List ExprRecipe, areScripts recipes = true →
    BuildM.EndAlike
      (fun built folded => (∀ expr ∈ built, expr.Every (Expr.Normal plain)) ∧
        folded = built.map fun expr => (expr.propagate pass .empty).value)
      (buildAll recipes) plain (buildAll recipes) eager
  | [], _ => .pure ⟨fun _ absent => (nomatch absent), rfl⟩
  | recipe :: recipes, scripts => by
      have parts : recipe.isScript = true ∧ areScripts recipes = true := by
        simpa only [areScripts, Bool.and_eq_true] using scripts
      refine (build_deferred recipe parts.1).bind fun first folded related => ?_
      refine (buildAll_deferred recipes parts.2).bind fun rest foldedRest relatedRest => ?_
      refine .pure ⟨List.forall_mem_cons.mpr ⟨related.1, relatedRest.1⟩, ?_⟩
      rw [related.2, relatedRest.2, List.map_cons]

end

mutual

theorem StmtRecipe.build_deferred : ∀ recipe : StmtRecipe, recipe.isScript = true →
    BuildM.EndAlike (Stmt.Deferred pass) recipe.build plain recipe.build eager
  | .expression expr, script => by
      refine (ExprRecipe.build_deferred off same strictness expr script).bind
        fun built folded related => ?_
      refine .pure ?_
      rw [Stmt.Deferred, Stmt.ofExpr, Stmt.ofExpr, Stmt.propagate_expression, related.offset_eq,
        ← related.2]
  | .nop offset, _ => .pure rfl
  | .block offset body, script => by
      refine (buildBody_deferred body script).bind fun built folded related => ?_
      refine .pure ?_
      rw [Stmt.Deferred, related, Stmt.propagate_block]
  | .conditional offset isStatic test ifTrue ifFalse, script => by
      have parts : (test.isScript = true ∧ ifTrue.isScript = true) ∧
          elseIsScript ifFalse = true := by
        simpa only [isScript, Bool.and_eq_true] using script
      exact Stmt.alike_of_parts (ExprRecipe.build_deferred off same strictness test parts.1.1)
        (build_deferred ifTrue parts.1.2) (buildElse_deferred ifFalse parts.2)
        (Stmt.buildConditional_deferred offset isStatic)
  | .branch offset isStatic test ifTrue ifFalse, script => by
      have parts : (test.isScript = true ∧ ifTrue.isScript = true) ∧
          elseIsScript ifFalse = true := by
        simpa only [isScript, Bool.and_eq_true] using script
      exact Stmt.alike_of_parts (ExprRecipe.build_deferred off same strictness test parts.1.1)
        (build_deferred ifTrue parts.1.2) (buildElse_deferred ifFalse parts.2)
        (Stmt.branch_deferred offset isStatic)

theorem StmtRecipe.buildBody_deferred : ∀ recipes : List StmtRecipe, areScripts recipes = true →
    BuildM.EndAlike
      (fun built folded => folded = built.map fun stmt => (stmt.propagate pass .empty).value)
      (buildBody recipes) plain (buildBody recipes) eager
  | [], _ => .pure rfl
  | recipe :: recipes, scripts => by
      have parts : recipe.isScript = true ∧ areScripts recipes = true := by
        simpa only [areScripts, Bool.and_eq_true] using scripts
      refine (build_deferred recipe parts.1).bind fun first folded related => ?_
      refine (buildBody_deferred recipes parts.2).bind fun rest foldedRest relatedRest => ?_
      refine .pure ?_
      rw [related, relatedRest, List.map_cons]

theorem StmtRecipe.buildElse_deferred : ∀ recipe : Option StmtRecipe, elseIsScript recipe = true →
    BuildM.EndAlike
      (fun built folded => folded = built.map fun stmt => (stmt.propagate pass .empty).value)
      (buildElse recipe) plain (buildElse recipe) eager
  | none, _ => .pure rfl
  | some recipe, script => by
      refine (build_deferred recipe script).bind fun built folded related => ?_
      refine .pure ?_
      rw [related, Option.map_some]

end

end Building

/-- Where both builds give trees, strictness cannot tell them apart: the one that is strict gives
the same tree under settings that are as strict as the other's. -/
theorem BuildM.related_of_deferred {α : Type} {related : α → α → Prop} {action : BuildM α}
    {applications : Settings → List Application} (terminates : action.Terminates)
    (restricted : ∀ {strict lax : Settings}, strict.isStrict = true →
      strict.optimize = lax.optimize → action.Restricted strict lax applications)
    (alike : ∀ {plain eager : Settings}, plain.optimize = false → eager.optimize = true →
      plain.isStrict = eager.isStrict → EndAlike related action plain action eager)
    {plain eager : Settings} (off : plain.optimize = false) (on : eager.optimize = true)
    {journal otherJournal : Journal} {built folded : α}
    (ran : (action.run plain journal).1 = .ok built)
    (otherRan : (action.run eager otherJournal).1 = .ok folded) : related built folded := by
  cases strict : plain.isStrict with
  | true =>
      let lax : Settings := { eager with optimize := false }
      have yields : action.Yields lax built := (restricted strict off).yields terminates ran
      have alikeLax : EndAlike related action lax action eager := alike rfl on rfl
      exact alikeLax.related_of_runs (yields.run_ok journal) otherRan
  | false =>
      cases strictEager : eager.isStrict with
      | true =>
          let lax : Settings := { plain with optimize := true }
          have yields : action.Yields lax folded :=
            (restricted strictEager on).yields terminates otherRan
          have alikeLax : EndAlike related action plain action lax := alike off rfl rfl
          exact alikeLax.related_of_runs ran (yields.run_ok otherJournal)
      | false => exact (alike off on (strict.trans strictEager.symm)).related_of_runs ran otherRan

theorem StmtRecipe.build_alike {plain eager pass : Settings} (off : plain.optimize = false)
    (on : eager.optimize = true) (optimizes : pass.optimize = true)
    (strictness : plain.isStrict = eager.isStrict) {recipe : StmtRecipe}
    (script : recipe.isScript = true) :
    BuildM.EndAlike
      (fun built folded => ((Program.mk [built]).propagate pass .empty).value = ⟨[folded]⟩)
      recipe.build plain recipe.build eager := by
  have alike := recipe.build_deferred off (optimizes.trans on.symm) strictness script
  refine alike.imp fun built folded related => ?_
  rw [related]
  rfl

theorem ExprRecipe.build_alike {plain eager pass : Settings} (off : plain.optimize = false)
    (on : eager.optimize = true) (optimizes : pass.optimize = true)
    (strictness : plain.isStrict = eager.isStrict) {recipe : ExprRecipe}
    (script : recipe.isScript = true) :
    BuildM.EndAlike (fun built folded => (built.propagate pass .empty).value = folded)
      recipe.build plain recipe.build eager := by
  have alike := recipe.build_deferred off (optimizes.trans on.symm) strictness script
  exact alike.imp fun built folded related => related.2.symm

/-- A script built without optimization and then propagated with it gives the tree that building
with optimization gives, be it a statement or an expression, whatever else the three settings say.
If both builds are strict or neither is, as when only `optimize` differs, then one fails exactly if
the other does, and they report the same one diagnostic. -/
theorem eager_and_deferred_folding_agree {plain eager pass : Settings}
    (off : plain.optimize = false) (on : eager.optimize = true)
    (optimizes : pass.optimize = true) :
    (∀ recipe : StmtRecipe, recipe.isScript = true →
      (∀ journal otherJournal built folded,
        (recipe.build.run plain journal).1 = .ok built →
        (recipe.build.run eager otherJournal).1 = .ok folded →
        ((Program.mk [built]).propagate pass .empty).value = ⟨[folded]⟩) ∧
      (plain.isStrict = eager.isStrict →
        BuildM.EndAlike
          (fun built folded => ((Program.mk [built]).propagate pass .empty).value = ⟨[folded]⟩)
          recipe.build plain recipe.build eager)) ∧
    ∀ recipe : ExprRecipe, recipe.isScript = true →
      (∀ journal otherJournal built folded,
        (recipe.build.run plain journal).1 = .ok built →
        (recipe.build.run eager otherJournal).1 = .ok folded →
        (built.propagate pass .empty).value = folded) ∧
      (plain.isStrict = eager.isStrict →
        BuildM.EndAlike (fun built folded => (built.propagate pass .empty).value = folded)
          recipe.build plain recipe.build eager) := by
  constructor
  · intro recipe script
    refine ⟨fun journal otherJournal built folded ran otherRan => ?_,
      fun strictness => recipe.build_alike off on optimizes strictness script⟩
    exact BuildM.related_of_deferred (recipe.build_terminates script)
      (fun isStrict same => recipe.build_restricted isStrict same script)
      (fun off on strictness => recipe.build_alike off on optimizes strictness script)
      off on ran otherRan
  · intro recipe script
    refine ⟨fun journal otherJournal built folded ran otherRan => ?_,
      fun strictness => recipe.build_alike off on optimizes strictness script⟩
    exact BuildM.related_of_deferred (recipe.build_terminates script)
      (fun isStrict same => recipe.build_restricted isStrict same script)
      (fun off on strictness => recipe.build_alike off on optimizes strictness script)
      off on ran otherRan

/-- A constant constructor under three signs, converted to another vector, in the branch that a
static conditional keeps. Built plainly, all three signs are there when propagation starts. The
other build is for another kind of program and strict. -/
theorem eager_and_deferred_folding_agree_nested :
    let plain : Settings := { optimize := false, kind := .vertex }
    let eager : Settings := { kind := .vertex }
    let strict : Settings := { kind := .runtimeEffect }
    let pair : Ty := .vector .float .two
    let constant : ExprRecipe := .construct 3 pair
      [.float 4 (.literal .float) ⟨0x3FF0000000000000⟩, .int 5 (.literal .int) 2]
    let recipe : StmtRecipe := .branch 0 true (.invert (.bool 1 .bool true)) (.nop 2)
      (some (.expression (.coerce (.vector .half .two) (.negate (.unary .minus
        (.unary .minus constant))))))
    let built : Stmt := .expression 0 (.construct 3 (.vector .half .two)
      [.unary 3 pair .minus (.unary 3 pair .minus (.unary 3 pair .minus (.construct 3 pair
        [.float 4 (.literal .float) ⟨0x3FF0000000000000⟩, .int 5 (.literal .int) 2])))])
    let folded : Stmt := .expression 0 (.construct 3 (.vector .half .two) [.construct 3 pair
      [.float 4 (.literal .float) ⟨0xBFF0000000000000⟩, .int 5 (.literal .int) (-2)]])
    recipe.isScript = true ∧ plain.isStrict = false ∧ strict.isStrict = true ∧
      (recipe.build.run plain {}).1 = .ok built ∧ (recipe.build.run strict {}).1 = .ok folded ∧
      ((Program.mk [built]).propagate {} .empty).value = ⟨[folded]⟩ ∧
      BuildM.EndAlike
        (fun built folded => ((Program.mk [built]).propagate {} .empty).value = ⟨[folded]⟩)
        recipe.build plain recipe.build eager := by
  intro plain eager strict pair constant recipe built folded
  have script : recipe.isScript = true := rfl
  have off : plain.optimize = false := rfl
  have on : eager.optimize = true ∧ strict.optimize = true := ⟨rfl, rfl⟩
  have optimizes : ({} : Settings).optimize = true := rfl
  have ran : (recipe.build.run plain {}).1 = .ok built := rfl
  have otherRan : (recipe.build.run strict {}).1 = .ok folded := rfl
  have agree := ((eager_and_deferred_folding_agree off on.2 optimizes).1 recipe script).1 {} {}
    built folded ran otherRan
  have alike := ((eager_and_deferred_folding_agree off on.1 optimizes).1 recipe script).2 rfl
  exact ⟨script, rfl, rfl, ran, otherRan, agree, alike⟩

end ShaderIR
