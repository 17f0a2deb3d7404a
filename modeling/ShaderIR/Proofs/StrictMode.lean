import ShaderIR.Proofs.Construction
import ShaderIR.Proofs.Folding

/-!
Strict mode against the full language. A strict build goes through the same constructions in the
same order until it comes to a complement, which it refuses whatever the operand is. What it ends
with can therefore be read off the other build: `applications` lists the operators that one applies,
in order, and the first complement among them is where the strict build fails.
-/

namespace ShaderIR

/-- The operand of the first complement. -/
def firstComplement? (applications : List Application) : Option Expr :=
  (applications.find? fun application => application.1 == .bitwiseNot).map Prod.snd

theorem firstComplement?_append (first second : List Application) :
    firstComplement? (first ++ second) =
      (firstComplement? first).or (firstComplement? second) := by
  simp only [firstComplement?, List.find?_append]
  cases first.find? fun application => application.1 == .bitwiseNot <;> rfl

namespace BuildM

variable {α β : Type}

/-- How a strict build ends, from the way the other one does. -/
def strictOutcome (applications : List Application) (full : Except Diagnostic α) :
    Except Diagnostic α :=
  match firstComplement? applications with
  | some operand => .error ⟨operand.offset, "operator '~' is not allowed"⟩
  | none => full

/-- Both builds come to the same first complement, if to any, and the strict one fails there. -/
def Restricted (action : BuildM α) (strict lax : Settings)
    (applications : Settings → List Application) : Prop :=
  firstComplement? (applications strict) = firstComplement? (applications lax) ∧
    ∀ full, action.Ends lax full → action.Ends strict (strictOutcome (applications lax) full)

variable {strict lax : Settings} {action : BuildM α} {applications : Settings → List Application}

/-- Since a build ends in one way only, it is enough to look at one. -/
theorem Restricted.of_ends {full : Except Diagnostic α}
    (sameFirst : firstComplement? (applications strict) = firstComplement? (applications lax))
    (ends : action.Ends lax full)
    (strictEnds : action.Ends strict (strictOutcome (applications lax) full)) :
    action.Restricted strict lax applications := by
  refine ⟨sameFirst, fun other otherEnds => ?_⟩
  rw [otherEnds.unique ends]
  exact strictEnds

/-- A step that does the same under both settings. -/
theorem Restricted.of_ends_alike (full : Except Diagnostic α) (ends : action.Ends lax full)
    (strictEnds : action.Ends strict full) : action.Restricted strict lax fun _ => [] :=
  .of_ends rfl ends strictEnds

theorem Restricted.bind {next : α → BuildM β} {following : α → Settings → List Application}
    (first : action.Restricted strict lax applications) (terminates : action.Terminates)
    (second : ∀ value, (next value).Restricted strict lax (following value))
    (nextTerminates : ∀ value, (next value).Terminates) :
    (action >>= next).Restricted strict lax fun settings =>
      applications settings ++ action.reached settings fun value => following value settings := by
  obtain ⟨sameFirst, restricts⟩ := first
  obtain ⟨full, ends⟩ := terminates lax
  have strictEnds := restricts full ends
  rw [Restricted]
  cases found : firstComplement? (applications lax) with
  | some operand =>
      -- The strict build has failed already, however the other one goes on.
      simp only [strictOutcome, found] at strictEnds
      simp only [strictOutcome, firstComplement?_append, sameFirst, found, Option.some_or]
      exact ⟨trivial, fun _ _ => Refuses.bind strictEnds next⟩
  | none =>
      simp only [strictOutcome, found] at strictEnds
      simp only [strictOutcome, firstComplement?_append, sameFirst, found, Option.none_or]
      cases full with
      | error diagnostic =>
          have whole : (action >>= next).Ends lax (.error diagnostic) := Refuses.bind ends next
          rw [Refuses.reached_eq ends, Refuses.reached_eq strictEnds]
          exact Restricted.of_ends_alike _ whole (Refuses.bind strictEnds next)
      | ok value =>
          obtain ⟨sameNext, restrictsNext⟩ := second value
          obtain ⟨result, nextEnds⟩ := nextTerminates value lax
          rw [Yields.reached_eq ends, Yields.reached_eq strictEnds]
          have whole : (action >>= next).Restricted strict lax (following value) :=
            .of_ends sameNext (Yields.bind_ends ends nextEnds)
              (Yields.bind_ends strictEnds (restrictsNext result nextEnds))
          exact whole

end BuildM

section Building

variable {strict lax : Settings} (isStrict : strict.isStrict = true)
  (same : strict.optimize = lax.optimize)

include isStrict same

theorem Expr.buildUnary_restricted {operator : Operator} (isPrefix : operator.isPrefix = true)
    (operand : Expr) :
    (operand.buildUnary operator).Restricted strict lax fun _ => [(operator, operand)] := by
  have ends : (operand.buildUnary operator).Ends lax _ := operand.buildUnary_ends isPrefix
  have strictEnds : (operand.buildUnary operator).Ends strict _ :=
    operand.buildUnary_ends isPrefix
  refine .of_ends rfl ends ?_
  cases operator with
  | bitwiseNot =>
      rw [unaryResult, isStrict] at strictEnds
      exact strictEnds
  | minus =>
      simp only [unaryResult, negate_congr same] at strictEnds
      exact strictEnds
  | plus | logicalNot | increment | decrement => exact strictEnds
  | _ => cases isPrefix

omit isStrict in
theorem Expr.negate_restricted (operand : Expr) :
    BuildM.Restricted (read >>= fun settings => BuildM.record (operand.negate settings)) strict lax
      fun _ => [] := by
  have yields (settings : Settings) :
      (read >>= fun settings => BuildM.record (operand.negate settings)).Yields settings
        (operand.negate settings).value :=
    BuildM.yields_read.bind (BuildM.yields_record (operand.negate settings))
  have strictYields := yields strict
  rw [negate_congr same] at strictYields
  exact .of_ends_alike (.ok _) (yields lax) strictYields

/-- Strict mode restricts every step of a script, and so the whole of it. -/
theorem BuildM.stepwise_restricted : Stepwise fun _ action applications =>
    action.Terminates ∧ action.Restricted strict lax applications where
  pure value :=
    ⟨stepwise_terminates.pure value,
      .of_ends_alike (.ok value) (yields_pure value) (yields_pure value)⟩
  record traced :=
    ⟨stepwise_terminates.record traced,
      .of_ends_alike (.ok traced.value) (yields_record traced) (yields_record traced)⟩
  refuse offset reason :=
    ⟨stepwise_terminates.refuse offset reason,
      .of_ends_alike (.error _) (refuses_refuse offset reason) (refuses_refuse offset reason)⟩
  negate operand := ⟨stepwise_terminates.negate operand, operand.negate_restricted same⟩
  unary isPrefix operand :=
    ⟨stepwise_terminates.unary isPrefix operand,
      operand.buildUnary_restricted isStrict same isPrefix⟩
  assignTo access operand :=
    ⟨stepwise_terminates.assignTo access operand,
      .of_ends_alike _ (operand.assignTo_ends access) (operand.assignTo_ends access)⟩
  bind first second := by
    obtain ⟨terminates, restricted⟩ := first
    have nextTerminates (value : _) := (second value).1
    exact ⟨terminates.bind nextTerminates,
      restricted.bind terminates (fun value => (second value).2) nextTerminates⟩

theorem StmtRecipe.build_restricted (recipe : StmtRecipe) (script : recipe.isScript = true) :
    recipe.build.Restricted strict lax fun settings => recipe.applications settings :=
  (recipe.build_stepwise (BuildM.stepwise_restricted isStrict same) script).2

theorem ExprRecipe.build_restricted (recipe : ExprRecipe) (script : recipe.isScript = true) :
    recipe.build.Restricted strict lax fun settings => recipe.applications settings :=
  (recipe.build_stepwise (BuildM.stepwise_restricted isStrict same) script).2

end Building

/-- What a strict build may end with, next to a build of the same recipe under other settings. -/
structure BuildM.OnlyRestricts {α : Type} (applications : Settings → List Application)
    (strict lax : Settings) (restricted full : Except Diagnostic α) : Prop where
  kept : ∀ tree, restricted = .ok tree → full = .ok tree
  fails : ∀ diagnostic, full = .error diagnostic → ∃ own, restricted = .error own
  refused : ∀ operand, firstComplement? (applications lax) = some operand →
    restricted = .error ⟨operand.offset, "operator '~' is not allowed"⟩
  differs : restricted ≠ full → ∃ operand,
    firstComplement? (applications strict) = some operand ∧
    firstComplement? (applications lax) = some operand ∧
    restricted = .error ⟨operand.offset, "operator '~' is not allowed"⟩

theorem BuildM.Restricted.onlyRestricts {α : Type} {action : BuildM α} {strict lax : Settings}
    {applications : Settings → List Application}
    (restricted : action.Restricted strict lax applications) (terminates : action.Terminates) :
    ∃ outcome full, action.Ends strict outcome ∧ action.Ends lax full ∧
      OnlyRestricts applications strict lax outcome full := by
  obtain ⟨sameFirst, restricts⟩ := restricted
  obtain ⟨full, ends⟩ := terminates lax
  refine ⟨_, full, restricts full ends, ends, ?_⟩
  cases found : firstComplement? (applications lax) with
  | none =>
      simp only [strictOutcome, found]
      exact
        { kept := fun _ kept => kept
          fails := fun diagnostic failed => ⟨diagnostic, failed⟩
          refused := fun _ absent => by cases found.symm.trans absent
          differs := fun differs => absurd rfl differs }
  | some operand =>
      simp only [strictOutcome, found]
      exact
        { kept := fun _ kept => nomatch kept
          fails := fun _ _ => ⟨_, rfl⟩
          refused := fun other same => by cases found.symm.trans same; rfl
          differs := fun _ => ⟨operand, sameFirst.trans found, found, rfl⟩ }

/-- What strict mode builds, the full language builds too. -/
theorem BuildM.Restricted.yields {α : Type} {action : BuildM α} {strict lax : Settings}
    {applications : Settings → List Application} {journal : Journal} {value : α}
    (restricted : action.Restricted strict lax applications) (terminates : action.Terminates)
    (ran : (action.run strict journal).1 = .ok value) : action.Yields lax value := by
  obtain ⟨outcome, full, strictEnds, ends, restricts⟩ := restricted.onlyRestricts terminates
  rw [restricts.kept value (strictEnds.of_run_ok ran)] at ends
  exact ends

/-- Strict mode takes trees away and changes none. What it builds, the full language builds too;
where the full language fails, so does strict mode; and they differ only in that strict mode stops
at the first complement. Either way a success leaves the sink alone and a failure adds the one
diagnostic that the outcome names. -/
theorem strict_mode_only_restricts {strict lax : Settings} (isStrict : strict.isStrict = true)
    (same : strict.optimize = lax.optimize) :
    (∀ recipe : StmtRecipe, recipe.isScript = true →
      ∃ restricted full, recipe.build.Ends strict restricted ∧ recipe.build.Ends lax full ∧
        BuildM.OnlyRestricts (fun settings => recipe.applications settings) strict lax
          restricted full) ∧
    ∀ recipe : ExprRecipe, recipe.isScript = true →
      ∃ restricted full, recipe.build.Ends strict restricted ∧ recipe.build.Ends lax full ∧
        BuildM.OnlyRestricts (fun settings => recipe.applications settings) strict lax
          restricted full := by
  constructor
  · intro recipe script
    exact (recipe.build_restricted isStrict same script).onlyRestricts
      (recipe.build_terminates script)
  · intro recipe script
    exact (recipe.build_restricted isStrict same script).onlyRestricts
      (recipe.build_terminates script)

/-- A block whose second statement negates a flag. Strict mode does not come that far: it stops at
the complement in the first one, behind a conversion that succeeds in both. -/
theorem strict_mode_only_restricts_early_failure :
    let strict : Settings := { kind := .runtimeEffect }
    let lax : Settings := { kind := .runtimeEffect, enforceRestrictions := false }
    let complement : ExprRecipe := .unary .bitwiseNot (.coerce .int (.int 4 (.literal .int) 3))
    let recipe : StmtRecipe := .block 0
      [.expression complement, .expression (.unary .minus (.bool 7 .bool true))]
    strict.isStrict = true ∧ lax.isStrict = false ∧ recipe.isScript = true ∧
      (∃ restricted full, recipe.build.Ends strict restricted ∧ recipe.build.Ends lax full ∧
        BuildM.OnlyRestricts (fun settings => recipe.applications settings) strict lax
          restricted full) ∧
      (recipe.build.run strict {}).2.sink.diagnostics = [⟨4, "operator '~' is not allowed"⟩] ∧
      (recipe.build.run lax {}).2.sink.diagnostics = [⟨7, "'-' cannot operate on 'bool'"⟩] := by
  intro strict lax complement recipe
  have restricts := (@strict_mode_only_restricts strict lax rfl rfl).1 recipe rfl
  exact ⟨rfl, rfl, rfl, restricts, rfl, rfl⟩

end ShaderIR
