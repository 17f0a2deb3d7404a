import Mathlib.Data.List.Induction
import ShaderIR.Proofs.Folding

/-!
What propagation takes from the definitions. They are recorded one after another, and of everything
that was recorded only the last entry for a variable counts, and only if it is a constant. It is
looked up by the identity of the variable, and for the variables that are read. Two histories that
leave the same constants for those give the same program with the same events.
-/

namespace ShaderIR

namespace Definitions

/-- The map that is left when definitions have been recorded one after another. -/
def ofHistory (history : List (Variable × Expr)) : Definitions :=
  history.foldl (fun definitions entry => definitions.insert entry.1 entry.2) .empty

/-- What was last recorded for this very variable. -/
def lastFor? (var : Variable) (history : List (Variable × Expr)) : Option Expr :=
  (history.filter fun entry => entry.1.same var).getLast?.map Prod.snd

/-- Both histories end with the same constant for the variable, or neither of them with any. -/
def KnownAlike (var : Variable) (first second : List (Variable × Expr)) : Prop :=
  (∃ value, value.isConstant = true ∧ lastFor? var first = some value ∧
    lastFor? var second = some value) ∨
  (∀ value, lastFor? var first = some value → value.isConstant = false) ∧
    ∀ value, lastFor? var second = some value → value.isConstant = false

variable {var : Variable} {first second : List (Variable × Expr)}

theorem lastFor?_append (var : Variable) (earlier later : List (Variable × Expr)) :
    lastFor? var (earlier ++ later) = (lastFor? var later).or (lastFor? var earlier) := by
  rw [lastFor?, List.filter_append, List.getLast?_append, Option.map_or]
  rfl

theorem lastFor?_singleton (var recorded : Variable) (value : Expr) :
    lastFor? var [(recorded, value)] = if var.id = recorded.id then some value else none := by
  by_cases same : var.id = recorded.id
  · simp [lastFor?, Variable.same, same]
  · simp [lastFor?, Variable.same, same, Ne.symm same]

theorem get?_ofHistory (var : Variable) (history : List (Variable × Expr)) :
    (ofHistory history).get? var = lastFor? var history := by
  induction history using List.reverseRecOn with
  | nil => rfl
  | append_singleton history entry ih =>
      obtain ⟨recorded, value⟩ := entry
      rw [ofHistory, List.foldl_append, lastFor?_append, lastFor?_singleton]
      calc
        ((ofHistory history).insert recorded value).get? var
            = if var.id = recorded.id then some value else (ofHistory history).get? var :=
          get?_insert ..
        _ = _ := by split <;> simp [ih]

theorem constant?_ofHistory (var : Variable) (history : List (Variable × Expr)) :
    (ofHistory history).constant? var = (lastFor? var history).filter Expr.isConstant := by
  rw [constant?, get?_ofHistory]

theorem KnownAlike.constant?_eq (alike : KnownAlike var first second) :
    (ofHistory first).constant? var = (ofHistory second).constant? var := by
  rw [constant?_ofHistory, constant?_ofHistory]
  rcases alike with ⟨value, _, lastFirst, lastSecond⟩ | ⟨unknownFirst, unknownSecond⟩
  · rw [lastFirst, lastSecond]
  · have nothing (history : List (Variable × Expr))
        (unknown : ∀ value, lastFor? var history = some value → value.isConstant = false) :
        (lastFor? var history).filter Expr.isConstant = none := by
      rw [Option.filter_eq_none_iff]
      exact fun value last => by simp [unknown value last]
    rw [nothing first unknownFirst, nothing second unknownSecond]

end Definitions

/-- If the node reads a variable, two maps have the same constant for it. -/
def Expr.LearnsAlike (first second : Definitions) : Expr → Prop
  | .reference _ _ var .read => first.constant? var = second.constant? var
  | _ => True

section Congruence

variable {first second : Definitions} (settings : Settings)

theorem Expr.propagateAll_congr {arguments : List Expr}
    (each : ∀ argument ∈ arguments,
      argument.propagate settings first = argument.propagate settings second) :
    propagateAll settings first arguments = propagateAll settings second arguments := by
  induction arguments with
  | nil => rfl
  | cons argument arguments ih =>
      obtain ⟨same, rest⟩ := List.forall_mem_cons.mp each
      rw [propagateAll, propagateAll, same, ih rest]

theorem Expr.propagate_congr {expr : Expr} (alike : expr.Every (LearnsAlike first second)) :
    expr.propagate settings first = expr.propagate settings second := by
  induction expr with
  | int | float | bool => rfl
  | construct offset ty arguments ih =>
      have parts := (every_construct.mp alike).2
      have same := propagateAll_congr settings fun argument member =>
        ih argument member (parts argument member)
      rw [propagate, propagate, same]
  | unary offset ty operator operand ih =>
      rw [propagate, propagate, ih (every_unary.mp alike).2]
  | reference offset ty var access =>
      cases access with
      | read =>
          have same : first.constant? var = second.constant? var := every_reference.mp alike
          unfold propagate
          rw [same]
      | write | readWrite => simp [propagate]

namespace Stmt

theorem propagateBody_congr {body : List Stmt}
    (each : ∀ stmt ∈ body, stmt.propagate settings first = stmt.propagate settings second) :
    propagateBody settings first body = propagateBody settings second body := by
  induction body with
  | nil => rfl
  | cons stmt body ih =>
      obtain ⟨same, rest⟩ := List.forall_mem_cons.mp each
      rw [propagateBody, propagateBody, same, ih rest]

theorem propagateElse_congr {ifFalse : Option Stmt}
    (each : ∀ stmt ∈ ifFalse, stmt.propagate settings first = stmt.propagate settings second) :
    propagateElse settings first ifFalse = propagateElse settings second ifFalse := by
  cases ifFalse with
  | none => rfl
  | some stmt => rw [propagateElse, propagateElse, each stmt rfl]

theorem propagate_congr {stmt : Stmt}
    (alike : stmt.Every (Node.Within (Expr.LearnsAlike first second))) :
    stmt.propagate settings first = stmt.propagate settings second := by
  induction stmt with
  | conditional offset isStatic test ifTrue ifFalse ihTrue ihFalse =>
      obtain ⟨_, alikeTest, alikeTrue, alikeFalse⟩ := every_conditional.mp alike
      have sameElse := propagateElse_congr settings fun stmt member =>
        ihFalse stmt member (alikeFalse stmt member)
      rw [propagate, propagate, Expr.propagate_congr settings alikeTest, ihTrue alikeTrue, sameElse]
  | block offset body ih =>
      have parts := (every_block.mp alike).2
      have same := propagateBody_congr settings fun stmt member =>
        ih stmt member (parts stmt member)
      rw [propagate, propagate, same]
  | expression offset expr =>
      rw [propagate, propagate, Expr.propagate_congr settings (every_expression.mp alike).2]
  | nop offset => rfl

end Stmt

namespace Program

/-- A variable is read somewhere in the program. -/
def Reads (program : Program) (var : Variable) : Prop :=
  ∃ stmt ∈ program.statements, ∃ offset ty,
    Stmt.Node.expr (.reference offset ty var .read) ∈ stmt.nodes

theorem propagate_congr {program : Program}
    (same : ∀ var, program.Reads var → first.constant? var = second.constant? var) :
    program.propagate settings first = program.propagate settings second := by
  have statements := Stmt.propagateBody_congr settings fun stmt member =>
    Stmt.propagate_congr settings fun node inside => by
      rcases node with stmt | expr
      · trivial
      · cases expr with
        | reference offset ty var access =>
            cases access with
            | read => exact same var ⟨stmt, member, offset, ty, inside⟩
            | write | readWrite => trivial
        | int | float | bool | construct | unary => trivial
  rw [propagate, propagate, statements]

theorem propagate_ofHistory_congr {program : Program} {first second : List (Variable × Expr)}
    (same : ∀ var, program.Reads var →
      Definitions.lastFor? var first = Definitions.lastFor? var second) :
    program.propagate settings (.ofHistory first) =
      program.propagate settings (.ofHistory second) := by
  refine propagate_congr settings fun var reads => ?_
  rw [Definitions.constant?_ofHistory, Definitions.constant?_ofHistory, same var reads]

end Program

end Congruence

namespace Program

/-- Histories that end alike for every variable that is read give the same program with the same
events. So it makes no difference what is recorded for another variable, however much it is like one
that is read, or what is recorded and replaced later, or in which order different variables are
defined. -/
theorem propagation_depends_on_last_constants (settings : Settings) (program : Program) :
    (∀ first second : List (Variable × Expr),
      (∀ var, program.Reads var → Definitions.KnownAlike var first second) →
      program.propagate settings (.ofHistory first) =
        program.propagate settings (.ofHistory second)) ∧
    (∀ (before after : List (Variable × Expr)) (other : Variable) (value : Expr),
      (∀ var, program.Reads var → var.id ≠ other.id) →
      program.propagate settings (.ofHistory (before ++ [(other, value)] ++ after)) =
        program.propagate settings (.ofHistory (before ++ after))) ∧
    (∀ (before between after : List (Variable × Expr)) (var : Variable) (replaced value : Expr),
      program.propagate settings
          (.ofHistory (before ++ [(var, replaced)] ++ between ++ [(var, value)] ++ after)) =
        program.propagate settings (.ofHistory (before ++ between ++ [(var, value)] ++ after))) ∧
    (∀ first second : List (Variable × Expr),
      (∀ var : Variable, (first.filter fun entry => entry.1.same var) =
        second.filter fun entry => entry.1.same var) →
      program.propagate settings (.ofHistory first) =
        program.propagate settings (.ofHistory second)) := by
  refine ⟨fun first second alike => ?_, fun before after other value distinct => ?_,
    fun before between after var replaced value => ?_, fun first second same => ?_⟩
  · exact propagate_congr settings fun var reads => (alike var reads).constant?_eq
  · refine propagate_ofHistory_congr settings fun var reads => ?_
    simp only [Definitions.lastFor?_append, Definitions.lastFor?_singleton,
      if_neg (distinct var reads), Option.none_or]
  · refine propagate_ofHistory_congr settings fun read _ => ?_
    simp only [Definitions.lastFor?_append, Definitions.lastFor?_singleton]
    split
    · simp only [Option.some_or]
    · simp only [Option.none_or]
  · refine propagate_ofHistory_congr settings fun var _ => ?_
    rw [Definitions.lastFor?, same var, ← Definitions.lastFor?]

/-- Two histories for a program that reads one variable and steps another. They differ in what they
say about the second one and about a variable declared like the first. -/
theorem propagation_depends_on_last_constants_namesake :
    let x : Variable := ⟨0, "x", .int, ⟨false, false⟩⟩
    let i : Variable := ⟨1, "i", .int, ⟨false, false⟩⟩
    let namesake : Variable := ⟨2, "x", .int, ⟨false, false⟩⟩
    let program : Program := ⟨[.block 1 [.ofExpr (.apply .minus (.referTo 2 x .read)),
      .ofExpr (.apply .increment (.referTo 3 i .readWrite))]]⟩
    let first : List (Variable × Expr) :=
      [(x, .int 10 .int 7), (i, .int 11 .int 1), (x, .int 12 .int 3), (namesake, .int 13 .int 9)]
    let second : List (Variable × Expr) :=
      [(namesake, .bool 14 .bool true), (x, .int 12 .int 3), (i, .referTo 15 x .read)]
    (∀ var, program.Reads var → Definitions.KnownAlike var first second) ∧
      program.propagate {} (.ofHistory first) = program.propagate {} (.ofHistory second) ∧
      (program.propagate {} (.ofHistory second)).events =
        [.substitutedDefinition 2 "x", .negatedInt 2 3, .propagatedOperator 2 .minus] := by
  intro x i namesake program first second
  have alike (var : Variable) (reads : program.Reads var) :
      Definitions.KnownAlike var first second := by
    have onlyX : var = x := by
      obtain ⟨stmt, member, offset, ty, inside⟩ := reads
      cases List.mem_singleton.mp member
      have found : offset = 2 ∧ ty = .int ∧ var = x := by
        simpa [Stmt.nodes, Stmt.outline, Stmt.bodyOutline, Stmt.exprOutline, Stmt.ofExpr,
          Expr.apply, Expr.referTo, Expr.outline] using inside
      exact found.2.2
    subst onlyX
    exact .inl ⟨.int 12 .int 3, rfl, rfl, rfl⟩
  have same := (propagation_depends_on_last_constants {} program).1 first second alike
  have events : (program.propagate {} (.ofHistory second)).events =
      [.substitutedDefinition 2 "x", .negatedInt 2 3, .propagatedOperator 2 .minus] := by
    decide +kernel
  exact ⟨alike, same, events⟩

end Program

end ShaderIR
