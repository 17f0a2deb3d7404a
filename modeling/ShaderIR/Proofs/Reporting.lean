import ShaderIR.Proofs.Construction
import ShaderIR.Session

/-!
Statements built one after another in one session. Whatever the session has seen before, a script
ends as it does alone: it adds its statement to the program and nothing to the sink, or its one
diagnostic to the sink and nothing to the program.
-/

namespace ShaderIR

namespace BuildM

variable {α : Type} {settings : Settings} {action : BuildM α} {outcome : Except Diagnostic α}

theorem Ends.result_eq (ends : action.Ends settings outcome) (journal : Journal) :
    (action.run settings journal).1 = (action.run settings {}).1 := by
  cases outcome with
  | ok value =>
      obtain ⟨events, run⟩ := ends
      rw [run, run]
  | error diagnostic =>
      obtain ⟨events, run⟩ := ends
      rw [run, run]

theorem Ends.diagnostics_eq (ends : action.Ends settings outcome) (journal : Journal) :
    (action.run settings journal).2.sink.diagnostics =
      journal.sink.diagnostics ++ (action.run settings {}).2.sink.diagnostics := by
  cases outcome with
  | ok value =>
      obtain ⟨events, run⟩ := ends
      rw [run, run]
      simp
  | error diagnostic =>
      obtain ⟨events, run⟩ := ends
      rw [run, run]
      simp

/-- A construction without faults gives a value and no diagnostic, or one diagnostic. -/
theorem Ends.reports_once (ends : action.Ends settings outcome) :
    (∃ value, (action.run settings {}).1 = .ok value ∧
      (action.run settings {}).2.sink.diagnostics = []) ∨
    ∃ diagnostic, (action.run settings {}).1 = .error .reported ∧
      (action.run settings {}).2.sink.diagnostics = [diagnostic] := by
  cases outcome with
  | ok value =>
      obtain ⟨events, run⟩ := ends
      exact .inl ⟨value, by rw [run], by rw [run]⟩
  | error diagnostic =>
      obtain ⟨events, run⟩ := ends
      exact .inr ⟨diagnostic, by rw [run], by rw [run]; rfl⟩

end BuildM

namespace StmtRecipe

/-- A build with nothing before it. -/
def alone (settings : Settings) (recipe : StmtRecipe) : Except Stop Stmt × Journal :=
  recipe.build.run settings {}

def builtAlone? (settings : Settings) (recipe : StmtRecipe) : Option Stmt :=
  (recipe.alone settings).1.toOption

def reportsAlone (settings : Settings) (recipe : StmtRecipe) : List Diagnostic :=
  (recipe.alone settings).2.sink.diagnostics

end StmtRecipe

namespace Session

def pushAll (session : Session) : List StmtRecipe → Session
  | [] => session
  | recipe :: recipes => (session.push recipe).session.pushAll recipes

/-- The session with what each recipe builds and reports alone added in order. -/
def extended (session : Session) (recipes : List StmtRecipe) : Session :=
  { session with
    program := ⟨session.program.statements ++
      recipes.filterMap (StmtRecipe.builtAlone? session.settings)⟩
    sink := ⟨session.sink.diagnostics ++
      recipes.flatMap (StmtRecipe.reportsAlone session.settings)⟩ }

theorem extended_cons (session : Session) (recipe : StmtRecipe) (recipes : List StmtRecipe) :
    session.extended (recipe :: recipes) = (session.extended [recipe]).extended recipes := by
  simp only [extended, List.filterMap_cons, List.flatMap_cons, List.filterMap_nil,
    List.flatMap_nil, List.append_nil, List.append_assoc]
  cases StmtRecipe.builtAlone? session.settings recipe <;> simp

theorem session_push (session : Session) (recipe : StmtRecipe) :
    (session.push recipe).session =
      { session with
        sink := (recipe.build.run session.settings { sink := session.sink }).2.sink
        program := session.program.push
          (recipe.build.run session.settings { sink := session.sink }).1 } := by
  unfold push
  obtain ⟨result, journal⟩ := recipe.build.run session.settings { sink := session.sink }
  rcases result with (_ | _) | _ <;> rfl

theorem push_script (session : Session) {recipe : StmtRecipe} (script : recipe.isScript = true) :
    (session.push recipe).session = session.extended [recipe] := by
  obtain ⟨outcome, ends⟩ := recipe.build_terminates script session.settings
  have sink : (recipe.build.run session.settings { sink := session.sink }).2.sink =
      ⟨session.sink.diagnostics ++ recipe.reportsAlone session.settings⟩ := by
    have diagnostics := ends.diagnostics_eq { sink := session.sink }
    exact congrArg Sink.mk diagnostics
  have program : session.program.push
      (recipe.build.run session.settings { sink := session.sink }).1 =
        ⟨session.program.statements ++ [recipe].filterMap
          (StmtRecipe.builtAlone? session.settings)⟩ := by
    rw [ends.result_eq, List.filterMap_cons, StmtRecipe.builtAlone?, StmtRecipe.alone]
    cases (recipe.build.run session.settings {}).1 <;> simp [Program.push, Except.toOption]
  rw [session_push, sink, program]
  simp [extended]

theorem pushAll_scripts (session : Session) {recipes : List StmtRecipe}
    (scripts : ∀ recipe ∈ recipes, recipe.isScript = true) :
    session.pushAll recipes = session.extended recipes := by
  induction recipes generalizing session with
  | nil => simp [pushAll, extended]
  | cons recipe recipes ih =>
      obtain ⟨script, rest⟩ := List.forall_mem_cons.mp scripts
      rw [pushAll, push_script session script, ih _ rest, ← extended_cons]

/-- Scripts built one after another do not touch each other. The session ends with the statements
of those that succeed alone and with one diagnostic for each of the others, both in order and after
what was there before; everything else in it is unchanged. Each script ends in its place as it does
alone. -/
theorem pushed_scripts_report_once (session : Session) (recipes : List StmtRecipe)
    (scripts : ∀ recipe ∈ recipes, recipe.isScript = true) :
    session.pushAll recipes =
      { session with
        program := ⟨session.program.statements ++
          recipes.filterMap fun recipe => (recipe.alone session.settings).1.toOption⟩
        sink := ⟨session.sink.diagnostics ++
          recipes.flatMap fun recipe => (recipe.alone session.settings).2.sink.diagnostics⟩ } ∧
    (∀ recipe ∈ recipes,
      (∃ stmt, (recipe.alone session.settings).1 = .ok stmt ∧
        (recipe.alone session.settings).2.sink.diagnostics = []) ∨
      ∃ diagnostic, (recipe.alone session.settings).1 = .error .reported ∧
        (recipe.alone session.settings).2.sink.diagnostics = [diagnostic]) ∧
    ∀ before recipe after, recipes = before ++ recipe :: after →
      let reached := session.pushAll before
      (recipe.build.run reached.settings { sink := reached.sink }).1 =
        (recipe.alone session.settings).1 := by
  refine ⟨pushAll_scripts session scripts, fun recipe member => ?_, ?_⟩
  · obtain ⟨outcome, ends⟩ := recipe.build_terminates (scripts recipe member) session.settings
    exact ends.reports_once
  · rintro before recipe after rfl reached
    have earlier : reached = session.extended before :=
      pushAll_scripts session fun other member => scripts other (by simp [member])
    obtain ⟨outcome, ends⟩ := recipe.build_terminates (scripts recipe (by simp)) session.settings
    rw [earlier]
    exact ends.result_eq _

/-- A diagnostic is there already. The first script fails below a sign, the second one succeeds,
and the third fails in the test of a conditional, so its branches are never built. -/
theorem pushed_scripts_report_once_mixed :
    let session : Session := { sink := ⟨[⟨2, "earlier"⟩]⟩ }
    let flag : ExprRecipe := .bool 7 .bool true
    let recipes : List StmtRecipe :=
      [.expression (.unary .minus (.construct 5 .float [.unary .minus flag])),
        .block 8 [.nop 9, .expression (.unary .logicalNot flag)],
        .conditional 10 false (.unary .increment (.int 12 .int 4)) (.expression (.negate flag))
          none]
    (∀ recipe ∈ recipes, recipe.isScript = true) ∧
      session.pushAll recipes =
        { session with
          program := ⟨[.block 8 [.nop 9, .expression 7 (.bool 7 .bool false)]]⟩
          sink := ⟨[⟨2, "earlier"⟩, ⟨7, "'-' cannot operate on 'bool'"⟩,
            ⟨12, "cannot assign to this expression"⟩]⟩ } := by
  intro session flag recipes
  have scripts : ∀ recipe ∈ recipes, recipe.isScript = true := by decide
  exact ⟨scripts, (pushed_scripts_report_once session recipes scripts).1⟩

end Session

end ShaderIR
