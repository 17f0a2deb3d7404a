import ShaderIR.Recipe

/-!
How constructions end. Apart from faults, a construction gives a value and leaves the sink alone,
or it fails and adds one diagnostic; neither depends on what the journal held before. `Ends` says
which, and `EndAlike` compares two constructions run under settings of their own, so that later
statements about building need not mention journals at all. The ways in which a prefix operator can
be applied with success are listed once, as `UnaryBuilt`.

Scripts are sequences of few kinds of steps. `Stepwise` collects what has to be shown of each kind
for a property to hold of every script, together with the operators that the script applies. That
every script ends (`Terminates`) is the first use of it.
-/

namespace ShaderIR

namespace BuildM

variable {α β γ δ : Type}

def Yields (action : BuildM α) (settings : Settings) (value : α) : Prop :=
  ∃ events, ∀ journal, action.run settings journal =
    (.ok value, { journal with events := journal.events ++ events })

def Refuses (action : BuildM α) (settings : Settings) (diagnostic : Diagnostic) : Prop :=
  ∃ events, ∀ journal, action.run settings journal =
    (.error .reported,
      { sink := journal.sink.report diagnostic.offset diagnostic.message
        events := journal.events ++ events })

def Ends (action : BuildM α) (settings : Settings) : Except Diagnostic α → Prop
  | .ok value => action.Yields settings value
  | .error diagnostic => action.Refuses settings diagnostic

variable {settings other : Settings}

theorem yields_pure (value : α) : (pure value : BuildM α).Yields settings value :=
  ⟨[], fun journal => by simp⟩

theorem yields_read : (read : BuildM Settings).Yields settings settings :=
  ⟨[], fun journal => by simp⟩

theorem yields_record (traced : Traced α) : (record traced).Yields settings traced.value :=
  ⟨traced.events, fun journal => by simp⟩

theorem refuses_refuse (offset : Offset) (reason : Refusal) :
    (refuse offset reason : BuildM α).Refuses settings ⟨offset, reason.message⟩ :=
  ⟨[], fun journal => by simp⟩

theorem Yields.bind {action : BuildM α} {next : α → BuildM β} {value : α} {result : β}
    (first : action.Yields settings value) (second : (next value).Yields settings result) :
    (action >>= next).Yields settings result := by
  obtain ⟨firstEvents, firstRun⟩ := first
  obtain ⟨secondEvents, secondRun⟩ := second
  refine ⟨firstEvents ++ secondEvents, fun journal => ?_⟩
  rw [run_bind, firstRun]
  simp only [secondRun, List.append_assoc]

theorem Yields.bind_refuses {action : BuildM α} {next : α → BuildM β} {value : α}
    {diagnostic : Diagnostic} (first : action.Yields settings value)
    (second : (next value).Refuses settings diagnostic) :
    (action >>= next).Refuses settings diagnostic := by
  obtain ⟨firstEvents, firstRun⟩ := first
  obtain ⟨secondEvents, secondRun⟩ := second
  refine ⟨firstEvents ++ secondEvents, fun journal => ?_⟩
  rw [run_bind, firstRun]
  simp only [secondRun, List.append_assoc]

theorem Refuses.bind {action : BuildM α} {diagnostic : Diagnostic}
    (refused : action.Refuses settings diagnostic) (next : α → BuildM β) :
    (action >>= next).Refuses settings diagnostic := by
  obtain ⟨events, run⟩ := refused
  refine ⟨events, fun journal => ?_⟩
  rw [run_bind, run]

theorem Yields.bind_ends {action : BuildM α} {next : α → BuildM β} {value : α}
    {outcome : Except Diagnostic β} (first : action.Yields settings value)
    (second : (next value).Ends settings outcome) : (action >>= next).Ends settings outcome := by
  cases outcome with
  | ok result => exact Yields.bind first second
  | error diagnostic => exact Yields.bind_refuses first second

theorem Yields.run_ok {action : BuildM α} {value : α} (yields : action.Yields settings value)
    (journal : Journal) : (action.run settings journal).1 = .ok value := by
  obtain ⟨events, run⟩ := yields
  rw [run]

theorem Ends.of_run_ok {action : BuildM α} {outcome : Except Diagnostic α} {value : α}
    {journal : Journal} (ends : action.Ends settings outcome)
    (ran : (action.run settings journal).1 = .ok value) : outcome = .ok value := by
  cases outcome with
  | ok result =>
      have same := (Yields.run_ok ends journal).symm.trans ran
      exact congrArg Except.ok (Except.ok.inj same)
  | error diagnostic =>
      obtain ⟨events, run⟩ := ends
      rw [run] at ran
      cases ran

theorem Ends.unique {action : BuildM α} {first second : Except Diagnostic α}
    (ends : action.Ends settings first) (endsAgain : action.Ends settings second) :
    first = second := by
  cases second with
  | ok value => exact ends.of_run_ok (Yields.run_ok endsAgain {})
  | error diagnostic =>
      cases first with
      | ok value => exact (endsAgain.of_run_ok (Yields.run_ok ends {})).symm
      | error earlier =>
          obtain ⟨events, run⟩ := ends
          obtain ⟨eventsAgain, runAgain⟩ := endsAgain
          have same := congrArg (fun ran => ran.2.sink.diagnostics)
            ((run {}).symm.trans (runAgain {}))
          exact congrArg Except.error (List.cons.inj same).1

/-- Whatever the settings are, the construction gives a value or one diagnostic. -/
def Terminates (action : BuildM α) : Prop :=
  ∀ settings, ∃ outcome, action.Ends settings outcome

theorem Terminates.bind {action : BuildM α} {next : α → BuildM β} (first : action.Terminates)
    (second : ∀ value, (next value).Terminates) : (action >>= next).Terminates := by
  intro settings
  obtain ⟨outcome, ends⟩ := first settings
  cases outcome with
  | error diagnostic => exact ⟨.error diagnostic, Refuses.bind ends next⟩
  | ok value =>
      obtain ⟨result, endsNext⟩ := second value settings
      exact ⟨result, Yields.bind_ends ends endsNext⟩

/-- Every value that the construction can give has a property. -/
def Ensures (action : BuildM α) (settings : Settings) (holds : α → Prop) : Prop :=
  ∀ journal value, (action.run settings journal).1 = .ok value → holds value

theorem Ensures.of_ends {action : BuildM α} {outcome : Except Diagnostic α} {holds : α → Prop}
    (ends : action.Ends settings outcome) (ensured : ∀ value, outcome = .ok value → holds value) :
    action.Ensures settings holds :=
  fun _ value ran => ensured value (ends.of_run_ok ran)

theorem Ensures.pure {value : α} {holds : α → Prop} (ensured : holds value) :
    (pure value : BuildM α).Ensures settings holds := by
  have ends : (Pure.pure value : BuildM α).Ends settings (.ok value) := yields_pure value
  refine .of_ends ends fun result same => ?_
  cases same
  exact ensured

theorem Ensures.bind {action : BuildM α} {next : α → BuildM β} {holds : α → Prop}
    {holdsNext : β → Prop} (first : action.Ensures settings holds)
    (second : ∀ value, holds value → (next value).Ensures settings holdsNext) :
    (action >>= next).Ensures settings holdsNext := by
  intro journal result ran
  rw [run_bind] at ran
  cases outcome : action.run settings journal with
  | mk ended after =>
      rw [outcome] at ran
      cases ended with
      | error stop => cases ran
      | ok value =>
          have ensured := first journal value (by rw [outcome])
          exact second value ensured after result ran

/-- Two constructions both give values, which are related, or both fail with one diagnostic. -/
def EndAlike (related : α → β → Prop) (first : BuildM α) (firstSettings : Settings)
    (second : BuildM β) (secondSettings : Settings) : Prop :=
  (∃ left right, first.Yields firstSettings left ∧ second.Yields secondSettings right ∧
    related left right) ∨
  ∃ diagnostic, first.Refuses firstSettings diagnostic ∧ second.Refuses secondSettings diagnostic

/-- Two outcomes are values that are related, or one and the same failure. -/
def AlikeOutcomes {ε : Type} (related : α → β → Prop) : Except ε α → Except ε β → Prop
  | .ok left, .ok right => related left right
  | .error reason, .error otherReason => reason = otherReason
  | _, _ => False

theorem AlikeOutcomes.map {ε : Type} {related : α → β → Prop} {relatedNext : γ → δ → Prop}
    {outcome : Except ε α} {otherOutcome : Except ε β} {next : α → γ} {otherNext : β → δ}
    (alike : AlikeOutcomes related outcome otherOutcome)
    (relates : ∀ left right, related left right → relatedNext (next left) (otherNext right)) :
    AlikeOutcomes relatedNext (outcome.map next) (otherOutcome.map otherNext) := by
  cases outcome with
  | ok left =>
      cases otherOutcome with
      | ok right => exact relates left right alike
      | error reason => cases alike
  | error reason =>
      cases otherOutcome with
      | ok right => cases alike
      | error otherReason => exact alike

def reportedAt (offset : Offset) (outcome : Except Refusal α) : Except Diagnostic α :=
  outcome.mapError fun reason => ⟨offset, reason.message⟩

theorem of_reportedAt_ok {offset : Offset} {outcome : Except Refusal α} {value : α}
    (ok : reportedAt offset outcome = .ok value) : outcome = .ok value := by
  cases outcome with
  | ok result => exact congrArg Except.ok (Except.ok.inj ok)
  | error reason => cases ok

theorem AlikeOutcomes.reportedAt {related : α → β → Prop}
    {outcome : Except Refusal α} {otherOutcome : Except Refusal β}
    (alike : AlikeOutcomes related outcome otherOutcome) (offset : Offset) :
    AlikeOutcomes related (reportedAt offset outcome) (reportedAt offset otherOutcome) := by
  cases outcome with
  | ok left =>
      cases otherOutcome with
      | ok right => exact alike
      | error reason => cases alike
  | error reason =>
      cases otherOutcome with
      | ok right => cases alike
      | error otherReason => cases alike; rfl

theorem AlikeOutcomes.checked {ε : Type} {related : α → β → Prop} {outcome : Except ε α}
    {otherOutcome : Except ε β} (alike : AlikeOutcomes related outcome otherOutcome)
    (accepted : Bool) (reason : ε) :
    AlikeOutcomes related (if accepted then outcome else .error reason)
      (if accepted then otherOutcome else .error reason) := by
  cases accepted with
  | true => exact alike
  | false => rfl

theorem EndAlike.of_ends {related : α → β → Prop} {first : BuildM α} {second : BuildM β}
    {outcome : Except Diagnostic α} {otherOutcome : Except Diagnostic β}
    (ends : first.Ends settings outcome) (otherEnds : second.Ends other otherOutcome)
    (alike : AlikeOutcomes related outcome otherOutcome) :
    EndAlike related first settings second other := by
  cases outcome with
  | ok left =>
      cases otherOutcome with
      | ok right => exact .inl ⟨left, right, ends, otherEnds, alike⟩
      | error diagnostic => cases alike
  | error diagnostic =>
      cases otherOutcome with
      | ok right => cases alike
      | error otherDiagnostic =>
          cases alike
          exact .inr ⟨diagnostic, ends, otherEnds⟩

theorem EndAlike.bind {related : α → β → Prop} {relatedNext : γ → δ → Prop}
    {first : BuildM α} {second : BuildM β} {next : α → BuildM γ} {otherNext : β → BuildM δ}
    (alike : EndAlike related first settings second other)
    (alikeNext : ∀ left right, related left right →
      EndAlike relatedNext (next left) settings (otherNext right) other) :
    EndAlike relatedNext (first >>= next) settings (second >>= otherNext) other := by
  obtain ⟨left, right, yields, otherYields, relates⟩ | ⟨diagnostic, refuses, otherRefuses⟩ := alike
  · obtain ⟨result, otherResult, yieldsNext, otherYieldsNext, relatesNext⟩ |
      ⟨diagnostic, refusesNext, otherRefusesNext⟩ := alikeNext left right relates
    · exact .inl ⟨result, otherResult, yields.bind yieldsNext, otherYields.bind otherYieldsNext,
        relatesNext⟩
    · exact .inr ⟨diagnostic, yields.bind_refuses refusesNext,
        otherYields.bind_refuses otherRefusesNext⟩
  · exact .inr ⟨diagnostic, refuses.bind next, otherRefuses.bind otherNext⟩

theorem EndAlike.imp {related weaker : α → β → Prop} {first : BuildM α} {second : BuildM β}
    (alike : EndAlike related first settings second other)
    (implies : ∀ left right, related left right → weaker left right) :
    EndAlike weaker first settings second other := by
  obtain ⟨left, right, yields, otherYields, relates⟩ | refuses := alike
  · exact .inl ⟨left, right, yields, otherYields, implies left right relates⟩
  · exact .inr refuses

theorem EndAlike.pure {related : α → β → Prop} {left : α} {right : β}
    (relates : related left right) :
    EndAlike related (pure left) settings (pure right) other :=
  .inl ⟨left, right, yields_pure left, yields_pure right, relates⟩

theorem EndAlike.record {related : α → β → Prop} {left : Traced α} {right : Traced β}
    (relates : related left.value right.value) :
    EndAlike related (record left) settings (record right) other :=
  .inl ⟨left.value, right.value, yields_record left, yields_record right, relates⟩

theorem EndAlike.of_run_ok {related : α → β → Prop} {first : BuildM α} {second : BuildM β}
    {journal : Journal} {right : β} (alike : EndAlike related first settings second other)
    (ran : (second.run other journal).1 = .ok right) :
    ∃ left, first.Yields settings left ∧ related left right := by
  obtain ⟨left, result, yields, otherYields, relates⟩ | ⟨diagnostic, _, otherRefuses⟩ := alike
  · have same := Except.ok.inj ((otherYields.run_ok journal).symm.trans ran)
    exact ⟨left, yields, same ▸ relates⟩
  · have ends : second.Ends other (.error diagnostic) := otherRefuses
    cases ends.of_run_ok ran

theorem EndAlike.related_of_runs {related : α → β → Prop} {first : BuildM α} {second : BuildM β}
    {journal otherJournal : Journal} {left : α} {right : β}
    (alike : EndAlike related first settings second other)
    (ran : (first.run settings journal).1 = .ok left)
    (otherRan : (second.run other otherJournal).1 = .ok right) : related left right := by
  obtain ⟨value, yields, relates⟩ := alike.of_run_ok otherRan
  have same := Except.ok.inj ((yields.run_ok journal).symm.trans ran)
  exact same ▸ relates

/-- The construction makes no sense, and leaves no diagnostic. -/
def Faults (action : BuildM α) (settings : Settings) (cause : Fault) : Prop :=
  ∃ events, ∀ journal, action.run settings journal =
    (.error (.fault cause), { journal with events := journal.events ++ events })

theorem faults_fault (cause : Fault) : (fault cause : BuildM α).Faults settings cause :=
  ⟨[], fun journal => by simp⟩

theorem Faults.bind {action : BuildM α} {cause : Fault} (faults : action.Faults settings cause)
    (next : α → BuildM β) : (action >>= next).Faults settings cause := by
  obtain ⟨events, run⟩ := faults
  refine ⟨events, fun journal => ?_⟩
  rw [run_bind, run]

theorem Yields.bind_faults {action : BuildM α} {next : α → BuildM β} {value : α} {cause : Fault}
    (first : action.Yields settings value) (second : (next value).Faults settings cause) :
    (action >>= next).Faults settings cause := by
  obtain ⟨firstEvents, firstRun⟩ := first
  obtain ⟨secondEvents, secondRun⟩ := second
  refine ⟨firstEvents ++ secondEvents, fun journal => ?_⟩
  rw [run_bind, firstRun]
  simp only [secondRun, List.append_assoc]

/-- Two constructions end alike, or are one fault. -/
def Agree (related : α → β → Prop) (first : BuildM α) (firstSettings : Settings)
    (second : BuildM β) (secondSettings : Settings) : Prop :=
  EndAlike related first firstSettings second secondSettings ∨
    ∃ cause, first.Faults firstSettings cause ∧ second.Faults secondSettings cause

theorem Agree.pure {related : α → β → Prop} {left : α} {right : β}
    (relates : related left right) :
    Agree related (pure left) settings (pure right) other :=
  .inl (.pure relates)

theorem Agree.bind {related : α → β → Prop} {relatedNext : γ → δ → Prop}
    {first : BuildM α} {second : BuildM β} {next : α → BuildM γ} {otherNext : β → BuildM δ}
    (agree : Agree related first settings second other)
    (agreeNext : ∀ left right, related left right →
      Agree relatedNext (next left) settings (otherNext right) other) :
    Agree relatedNext (first >>= next) settings (second >>= otherNext) other := by
  obtain (⟨left, right, yields, otherYields, relates⟩ | ⟨diagnostic, refuses, otherRefuses⟩) |
    ⟨cause, faults, otherFaults⟩ := agree
  · rcases agreeNext left right relates with alike | ⟨cause, faults, otherFaults⟩
    · have these : EndAlike (fun value otherValue => value = left ∧ otherValue = right)
          first settings second other :=
        .inl ⟨left, right, yields, otherYields, rfl, rfl⟩
      refine .inl (these.bind fun value otherValue same => ?_)
      rw [same.1, same.2]
      exact alike
    · exact .inr ⟨cause, yields.bind_faults faults, otherYields.bind_faults otherFaults⟩
  · exact .inl (.inr ⟨diagnostic, refuses.bind next, otherRefuses.bind otherNext⟩)
  · exact .inr ⟨cause, faults.bind next, otherFaults.bind otherNext⟩

theorem Agree.imp {related weaker : α → β → Prop} {first : BuildM α} {second : BuildM β}
    (agree : Agree related first settings second other)
    (implies : ∀ left right, related left right → weaker left right) :
    Agree weaker first settings second other :=
  Or.imp_left (fun alike => alike.imp implies) agree

theorem Agree.ensuring {related : α → β → Prop} {first : BuildM α} {second : BuildM β}
    {holds : α → Prop} (agree : Agree related first settings second other)
    (ensures : first.Ensures settings holds) :
    Agree (fun left right => related left right ∧ holds left) first settings second other := by
  obtain (⟨left, right, yields, otherYields, relates⟩ | refuses) | faults := agree
  · have ensured := ensures {} left (yields.run_ok {})
    exact .inl (.inl ⟨left, right, yields, otherYields, relates, ensured⟩)
  · exact .inl (.inr refuses)
  · exact .inr faults

end BuildM

def Operator.isPrefix : Operator → Bool
  | .plus | .minus | .logicalNot | .bitwiseNot | .increment | .decrement => true
  | _ => false

namespace Expr

/-- `assignTo` without its effects. -/
def assigned (access : Access) : Expr → Except Refusal Expr
  | .reference offset _ var _ =>
      if var.isImmutable then .error (.immutableVariable var.name)
      else .ok (referTo offset var access)
  | _ => .error .notAssignable

/-- An operand with an untyped literal type is given the scalar that it commits to. -/
def committed (operand : Expr) : Expr :=
  match operand.ty.committed? with
  | some scalar => operand.coerce scalar
  | none => operand

theorem committed_cases {motive : Expr → Prop} (operand : Expr) (kept : motive operand)
    (coerced : ∀ target, motive (operand.coerce target)) : motive operand.committed := by
  unfold committed
  split
  · exact coerced _
  · exact kept

/-- `buildUnary` without its effects. -/
def unaryResult (settings : Settings) (operator : Operator) (operand : Expr) :
    Except Refusal Expr :=
  let checked (accepted : Bool) (result : Except Refusal Expr) : Except Refusal Expr :=
    if accepted then result else .error (.operandType operator operand.ty)
  match operator with
  | .plus => checked operand.ty.component.isNumber (.ok operand)
  | .minus => checked operand.ty.component.isNumber (.ok (operand.negate settings).value)
  | .logicalNot => checked operand.ty.isBoolean (.ok operand.invert.value)
  | .bitwiseNot =>
      if settings.isStrict then .error (.restrictedOperator operator)
      else checked operand.ty.isInteger (.ok (apply operator operand.committed))
  | .increment | .decrement =>
      checked operand.ty.isNumber ((operand.assigned .readWrite).map (apply operator))
  | _ => checked false (.ok operand)

variable {settings : Settings}

theorem assignTo_ends (access : Access) (operand : Expr) :
    (operand.assignTo access).Ends settings
      (BuildM.reportedAt operand.offset (operand.assigned access)) := by
  cases operand with
  | reference offset ty var current =>
      cases immutable : var.isImmutable with
      | true =>
          simp only [assignTo, assigned, immutable, if_true]
          exact BuildM.refuses_refuse offset (.immutableVariable var.name)
      | false =>
          simp only [assignTo, assigned, immutable, Bool.false_eq_true, if_false]
          exact BuildM.yields_pure (referTo offset var access)
  | int | float | bool | construct | unary => exact BuildM.refuses_refuse _ .notAssignable

/-- A check in front of a construction adds a way to be refused. -/
theorem ends_checked {action : BuildM Expr} {outcome : Except Refusal Expr} {offset : Offset}
    (ends : action.Ends settings (BuildM.reportedAt offset outcome)) (accepted : Bool)
    (reason : Refusal) :
    (if accepted then action else BuildM.refuse offset reason).Ends settings
      (BuildM.reportedAt offset (if accepted then outcome else .error reason)) := by
  cases accepted with
  | true => exact ends
  | false => exact BuildM.refuses_refuse offset reason

theorem buildStep_ends (operator : Operator) (operand : Expr) :
    (operand.buildStep operator).Ends settings
      (BuildM.reportedAt operand.offset
        (if operand.ty.isNumber then (operand.assigned .readWrite).map (apply operator)
        else .error (.operandType operator operand.ty))) := by
  have target : (operand.assignTo .readWrite).Ends settings _ := operand.assignTo_ends .readWrite
  refine ends_checked ?_ operand.ty.isNumber (.operandType operator operand.ty)
  cases outcome : operand.assigned .readWrite with
  | error reason =>
      rw [outcome] at target
      exact BuildM.Refuses.bind target _
  | ok assigned =>
      rw [outcome] at target
      exact BuildM.Yields.bind target (BuildM.yields_pure _)

/-- Applying a prefix operator gives what `unaryResult` says, or fails at the operand's offset. -/
theorem buildUnary_ends {operator : Operator} (isPrefix : operator.isPrefix = true)
    (operand : Expr) :
    (operand.buildUnary operator).Ends settings
      (BuildM.reportedAt operand.offset (unaryResult settings operator operand)) := by
  cases operator with
  | plus =>
      refine ends_checked ?_ _ _
      exact BuildM.yields_pure operand
  | minus =>
      refine ends_checked ?_ _ _
      exact BuildM.yields_read.bind (BuildM.yields_record (operand.negate settings))
  | logicalNot =>
      refine ends_checked ?_ _ _
      exact BuildM.yields_record operand.invert
  | bitwiseNot =>
      refine BuildM.yields_read.bind_ends ?_
      cases strict : settings.isStrict with
      | true =>
          simp only [unaryResult, strict, if_true]
          exact BuildM.refuses_refuse _ _
      | false =>
          simp only [unaryResult, strict, Bool.false_eq_true, if_false]
          refine ends_checked ?_ _ _
          cases found : operand.ty.committed? with
          | some scalar =>
              simp only [committed, found]
              exact BuildM.yields_pure (apply .bitwiseNot (operand.coerce scalar))
          | none =>
              simp only [committed, found]
              exact BuildM.yields_pure (apply .bitwiseNot operand)
  | increment => exact operand.buildStep_ends .increment
  | decrement => exact operand.buildStep_ends .decrement
  | _ => cases isPrefix

theorem buildUnary_of_other {operator : Operator} (other : operator.isPrefix = false)
    (operand : Expr) :
    operand.buildUnary operator = BuildM.fault (.notPrefixOperator operator) := by
  cases operator with
  | plus | minus | logicalNot | bitwiseNot | increment | decrement => cases other
  | _ => rfl

/-- Operands of one type, in trees that all that operators do keeps related, are accepted or refused
alike. -/
theorem unaryResult_alike {related : Expr → Expr → Prop} {first second : Expr}
    {settings other : Settings} {operator : Operator} (sameTy : second.ty = first.ty)
    (strictness : settings.isStrict = other.isStrict) (same : related first second)
    (negated : related (first.negate settings).value (second.negate other).value)
    (inverted : related first.invert.value second.invert.value)
    (complemented : related (apply .bitwiseNot first.committed)
      (apply .bitwiseNot second.committed))
    (stepped : operator = .increment ∨ operator = .decrement →
      BuildM.AlikeOutcomes related ((first.assigned .readWrite).map (apply operator))
        ((second.assigned .readWrite).map (apply operator))) :
    BuildM.AlikeOutcomes related (first.unaryResult settings operator)
      (second.unaryResult other operator) := by
  have ok {left right : Expr} (relates : related left right) :
      BuildM.AlikeOutcomes related (Except.ok left : Except Refusal Expr) (.ok right) := relates
  cases operator with
  | plus =>
      simp only [unaryResult, sameTy]
      exact (ok same).checked _ _
  | minus =>
      simp only [unaryResult, sameTy]
      exact (ok negated).checked _ _
  | logicalNot =>
      simp only [unaryResult, sameTy]
      exact (ok inverted).checked _ _
  | bitwiseNot =>
      simp only [unaryResult, sameTy, strictness]
      split
      · rfl
      · exact (ok complemented).checked _ _
  | increment =>
      simp only [unaryResult, sameTy]
      exact (stepped (.inl rfl)).checked _ _
  | decrement =>
      simp only [unaryResult, sameTy]
      exact (stepped (.inr rfl)).checked _ _
  | _ =>
      simp only [unaryResult, sameTy]
      rfl

/-- The ways in which a prefix operator can be applied, each with what has been checked by then. -/
inductive UnaryBuilt (settings : Settings) (operand : Expr) : Operator → Expr → Prop where
  | plus (numeric : operand.ty.component.isNumber = true) :
      UnaryBuilt settings operand .plus operand
  | minus (numeric : operand.ty.component.isNumber = true) :
      UnaryBuilt settings operand .minus (operand.negate settings).value
  | logicalNot (boolean : operand.ty.isBoolean = true) :
      UnaryBuilt settings operand .logicalNot operand.invert.value
  | bitwiseNot (integer : operand.ty.isInteger = true) :
      UnaryBuilt settings operand .bitwiseNot (apply .bitwiseNot operand.committed)
  | step {operator : Operator} {offset : Offset} {ty : Ty} {var : Variable} {access : Access}
      (isStep : operator = .increment ∨ operator = .decrement)
      (reference : operand = .reference offset ty var access) (numeric : ty.isNumber = true)
      (mutable : var.isImmutable = false) :
      UnaryBuilt settings operand operator (apply operator (referTo offset var .readWrite))

theorem of_checked_ok {ε α : Type} {accepted : Bool} {outcome : Except ε α} {reason : ε}
    {result : α} (ok : (if accepted then outcome else .error reason) = .ok result) :
    accepted = true ∧ outcome = .ok result := by
  cases accepted with
  | true => exact ⟨rfl, ok⟩
  | false => cases ok

theorem of_assigned_ok {access : Access} {operand result : Expr}
    (ok : operand.assigned access = .ok result) :
    ∃ offset ty var current, operand = .reference offset ty var current ∧
      var.isImmutable = false ∧ result = referTo offset var access := by
  cases operand with
  | reference offset ty var current =>
      cases immutable : var.isImmutable with
      | true => rw [assigned, immutable] at ok; cases ok
      | false =>
          rw [assigned, immutable] at ok
          cases ok
          exact ⟨offset, ty, var, current, rfl, immutable, rfl⟩
  | int | float | bool | construct | unary => cases ok

theorem UnaryBuilt.of_ok {operator : Operator} {operand result : Expr}
    (ok : unaryResult settings operator operand = .ok result) :
    UnaryBuilt settings operand operator result := by
  have step (isStep : operator = .increment ∨ operator = .decrement)
      (built : (if operand.ty.isNumber then (operand.assigned .readWrite).map (apply operator)
        else .error (.operandType operator operand.ty)) = .ok result) :
      UnaryBuilt settings operand operator result := by
    obtain ⟨numeric, done⟩ := of_checked_ok built
    cases target : operand.assigned .readWrite with
    | error reason => rw [target] at done; cases done
    | ok assigned =>
        rw [target] at done
        cases done
        obtain ⟨offset, ty, var, current, rfl, mutable, rfl⟩ := of_assigned_ok target
        exact .step isStep rfl numeric mutable
  cases operator with
  | plus =>
      obtain ⟨numeric, done⟩ := of_checked_ok ok
      cases done
      exact .plus numeric
  | minus =>
      obtain ⟨numeric, done⟩ := of_checked_ok ok
      cases done
      exact .minus numeric
  | logicalNot =>
      obtain ⟨boolean, done⟩ := of_checked_ok ok
      cases done
      exact .logicalNot boolean
  | bitwiseNot =>
      cases strict : settings.isStrict with
      | true => rw [unaryResult, strict] at ok; cases ok
      | false =>
          rw [unaryResult, strict] at ok
          obtain ⟨integer, done⟩ := of_checked_ok ok
          cases done
          exact .bitwiseNot integer
  | increment => exact step (.inl rfl) ok
  | decrement => exact step (.inr rfl) ok
  | _ => cases ok

theorem UnaryBuilt.of_run_ok {operator : Operator} {operand result : Expr} {journal : Journal}
    (ran : ((operand.buildUnary operator).run settings journal).1 = .ok result) :
    UnaryBuilt settings operand operator result := by
  cases isPrefix : operator.isPrefix with
  | true =>
      have outcome := (operand.buildUnary_ends isPrefix).of_run_ok ran
      exact .of_ok (BuildM.of_reportedAt_ok outcome)
  | false =>
      rw [buildUnary_of_other isPrefix] at ran
      cases ran

end Expr

theorem Stmt.of_buildConditional_ok {settings : Settings} {journal : Journal} {offset : Offset}
    {isStatic : Bool} {test : Expr} {ifTrue result : Stmt} {ifFalse : Option Stmt}
    (ran : ((buildConditional offset isStatic test ifTrue ifFalse).run settings journal).1 =
      .ok result) :
    test.ty.isBoolean = true ∧ result = (branch offset isStatic test ifTrue ifFalse).value := by
  unfold buildConditional at ran
  split at ran
  · rename_i boolean
    exact ⟨boolean, (Except.ok.inj ran).symm⟩
  · cases ran

/-! ## Scripts

A script builds new trees from the leaves up. It neither relabels nor takes apart what it has built,
and puts only prefix operators before operands.
-/

mutual

def ExprRecipe.isScript : ExprRecipe → Bool
  | .int .. | .float .. | .bool .. | .reference .. => true
  | .construct _ _ arguments => areScripts arguments
  | .unary operator operand => operator.isPrefix && operand.isScript
  | .negate operand | .invert operand | .coerce _ operand | .assignTo _ operand =>
      operand.isScript
  | .relocate .. | .operandOf .. | .argumentOf .. | .refold .. | .given .. | .missing .. => false

def ExprRecipe.areScripts : List ExprRecipe → Bool
  | [] => true
  | recipe :: recipes => recipe.isScript && areScripts recipes

end

mutual

def StmtRecipe.isScript : StmtRecipe → Bool
  | .expression expr => expr.isScript
  | .nop _ => true
  | .block _ body => areScripts body
  | .conditional _ _ test ifTrue ifFalse | .branch _ _ test ifTrue ifFalse =>
      test.isScript && ifTrue.isScript && elseIsScript ifFalse
  | .relocate .. | .ifTrueOf .. | .given .. | .missing .. => false

def StmtRecipe.areScripts : List StmtRecipe → Bool
  | [] => true
  | recipe :: recipes => recipe.isScript && areScripts recipes

def StmtRecipe.elseIsScript : Option StmtRecipe → Bool
  | none => true
  | some recipe => recipe.isScript

end

namespace BuildM

variable {α β : Type}

/-- What comes after a construction is reached only if that succeeds. -/
def reached (action : BuildM α) (settings : Settings) (following : α → List β) : List β :=
  match (action.run settings {}).1 with
  | .ok value => following value
  | .error _ => []

variable {settings : Settings} {action : BuildM α}

theorem Yields.reached_eq {value : α} (yields : action.Yields settings value)
    (following : α → List β) : action.reached settings following = following value := by
  rw [reached, yields.run_ok]

theorem Refuses.reached_eq {diagnostic : Diagnostic} (refuses : action.Refuses settings diagnostic)
    (following : α → List β) : action.reached settings following = [] := by
  obtain ⟨events, run⟩ := refuses
  rw [reached, run]

end BuildM

/-- An operator that is put before an operand. -/
abbrev Application := Operator × Expr

mutual

/-- The operators that building a recipe applies, in order, up to the first failure. -/
def ExprRecipe.applications (settings : Settings) : ExprRecipe → List Application
  | .int .. | .float .. | .bool .. | .reference .. | .given .. | .missing .. => []
  | .construct _ _ arguments => applicationsInAll settings arguments
  | .unary operator operand =>
      operand.applications settings ++
        operand.build.reached settings fun built => [(operator, built)]
  | .negate operand | .invert operand | .coerce _ operand | .relocate _ operand
  | .assignTo _ operand => operand.applications settings
  | .operandOf node | .argumentOf _ node | .refold node => node.applications settings

def ExprRecipe.applicationsInAll (settings : Settings) : List ExprRecipe → List Application
  | [] => []
  | recipe :: recipes =>
      recipe.applications settings ++
        recipe.build.reached settings fun _ => applicationsInAll settings recipes

end

mutual

def StmtRecipe.applications (settings : Settings) : StmtRecipe → List Application
  | .nop _ | .given _ | .missing _ => []
  | .expression expr => expr.applications settings
  | .block _ body => applicationsInBody settings body
  | .conditional _ _ test ifTrue ifFalse | .branch _ _ test ifTrue ifFalse =>
      test.applications settings ++ test.build.reached settings fun _ =>
        ifTrue.applications settings ++ ifTrue.build.reached settings fun _ =>
          applicationsInElse settings ifFalse
  | .relocate _ stmt | .ifTrueOf stmt => stmt.applications settings

def StmtRecipe.applicationsInBody (settings : Settings) : List StmtRecipe → List Application
  | [] => []
  | recipe :: recipes =>
      recipe.applications settings ++
        recipe.build.reached settings fun _ => applicationsInBody settings recipes

def StmtRecipe.applicationsInElse (settings : Settings) : Option StmtRecipe → List Application
  | none => []
  | some recipe => recipe.applications settings

end

/-- A property of constructions and of the operators they apply, in order, that every step of a
script has and that steps hand on to their sequence. -/
structure BuildM.Stepwise
    (holds : (α : Type) → BuildM α → (Settings → List Application) → Prop) : Prop where
  pure : ∀ {α : Type} (value : α), holds α (pure value) fun _ => []
  record : ∀ {α : Type} (traced : Traced α), holds α (BuildM.record traced) fun _ => []
  refuse : ∀ {α : Type} (offset : Offset) (reason : Refusal),
    holds α (BuildM.refuse offset reason) fun _ => []
  negate : ∀ operand : Expr,
    holds Expr (read >>= fun settings => BuildM.record (operand.negate settings)) fun _ => []
  unary : ∀ {operator : Operator}, operator.isPrefix = true → ∀ operand : Expr,
    holds Expr (operand.buildUnary operator) fun _ => [(operator, operand)]
  assignTo : ∀ (access : Access) (operand : Expr), holds Expr (operand.assignTo access) fun _ => []
  bind : ∀ {α β : Type} {action : BuildM α} {next : α → BuildM β}
    {applications : Settings → List Application} {following : α → Settings → List Application},
    holds α action applications → (∀ value, holds β (next value) (following value)) →
    holds β (action >>= next) fun settings =>
      applications settings ++ action.reached settings fun value => following value settings

section Stepwise

variable {holds : (α : Type) → BuildM α → (Settings → List Application) → Prop}
  (stepwise : BuildM.Stepwise holds)

include stepwise

/-- What applies no operator itself adds nothing to the list. -/
theorem BuildM.Stepwise.then {α β : Type} {action : BuildM α} {next : α → BuildM β}
    {applications : Settings → List Application} (first : holds α action applications)
    (second : ∀ value, holds β (next value) fun _ => []) :
    holds β (action >>= next) applications := by
  have nothing (settings : Settings) :
      action.reached settings (fun _ => ([] : List Application)) = [] := by
    unfold reached
    split <;> rfl
  have both := stepwise.bind first second
  simpa only [nothing, List.append_nil] using both

-- Inside a mutual block the linter overlooks that recursive calls pass this on.
set_option linter.unusedSectionVars false

mutual

theorem ExprRecipe.build_stepwise : ∀ recipe : ExprRecipe, recipe.isScript = true →
    holds Expr recipe.build fun settings => recipe.applications settings
  | .int .., _ => stepwise.pure _
  | .float .., _ => stepwise.pure _
  | .bool .., _ => stepwise.pure _
  | .reference .., _ => stepwise.pure _
  | .construct offset ty arguments, script =>
      stepwise.then (buildAll_stepwise arguments script) fun _ => stepwise.pure _
  | .unary operator operand, script => by
      have parts : operator.isPrefix = true ∧ operand.isScript = true := by
        simpa only [isScript, Bool.and_eq_true] using script
      exact stepwise.bind (build_stepwise operand parts.2) (stepwise.unary parts.1)
  | .negate operand, script => stepwise.then (build_stepwise operand script) stepwise.negate
  | .invert operand, script =>
      stepwise.then (build_stepwise operand script) fun built => stepwise.record built.invert
  | .coerce target operand, script =>
      stepwise.then (build_stepwise operand script) fun _ => stepwise.pure _
  | .assignTo access operand, script =>
      stepwise.then (build_stepwise operand script) (stepwise.assignTo access)

theorem ExprRecipe.buildAll_stepwise : ∀ recipes : List ExprRecipe, areScripts recipes = true →
    holds (List Expr) (buildAll recipes) fun settings => applicationsInAll settings recipes
  | [], _ => stepwise.pure _
  | recipe :: recipes, scripts => by
      have parts : recipe.isScript = true ∧ areScripts recipes = true := by
        simpa only [areScripts, Bool.and_eq_true] using scripts
      refine stepwise.bind (build_stepwise recipe parts.1) fun _ => ?_
      exact stepwise.then (buildAll_stepwise recipes parts.2) fun _ => stepwise.pure _

end

theorem Stmt.buildConditional_stepwise (offset : Offset) (isStatic : Bool) (test : Expr)
    (ifTrue : Stmt) (ifFalse : Option Stmt) :
    holds Stmt (buildConditional offset isStatic test ifTrue ifFalse) fun _ => [] := by
  unfold buildConditional
  split
  · exact stepwise.record _
  · exact stepwise.refuse _ _

mutual

theorem StmtRecipe.build_stepwise : ∀ recipe : StmtRecipe, recipe.isScript = true →
    holds Stmt recipe.build fun settings => recipe.applications settings
  | .nop _, _ => stepwise.pure _
  | .expression expr, script =>
      stepwise.then (ExprRecipe.build_stepwise stepwise expr script) fun _ => stepwise.pure _
  | .block offset body, script =>
      stepwise.then (buildBody_stepwise body script) fun _ => stepwise.pure _
  | .conditional offset isStatic test ifTrue ifFalse, script => by
      have parts : (test.isScript = true ∧ ifTrue.isScript = true) ∧
          elseIsScript ifFalse = true := by
        simpa only [isScript, Bool.and_eq_true] using script
      refine stepwise.bind (ExprRecipe.build_stepwise stepwise test parts.1.1) fun test => ?_
      refine stepwise.bind (build_stepwise ifTrue parts.1.2) fun ifTrue => ?_
      refine stepwise.then (buildElse_stepwise ifFalse parts.2) fun ifFalse => ?_
      exact Stmt.buildConditional_stepwise stepwise offset isStatic test ifTrue ifFalse
  | .branch offset isStatic test ifTrue ifFalse, script => by
      have parts : (test.isScript = true ∧ ifTrue.isScript = true) ∧
          elseIsScript ifFalse = true := by
        simpa only [isScript, Bool.and_eq_true] using script
      refine stepwise.bind (ExprRecipe.build_stepwise stepwise test parts.1.1) fun test => ?_
      refine stepwise.bind (build_stepwise ifTrue parts.1.2) fun ifTrue => ?_
      refine stepwise.then (buildElse_stepwise ifFalse parts.2) fun ifFalse => ?_
      exact stepwise.record (Stmt.branch offset isStatic test ifTrue ifFalse)

theorem StmtRecipe.buildBody_stepwise : ∀ recipes : List StmtRecipe, areScripts recipes = true →
    holds (List Stmt) (buildBody recipes) fun settings => applicationsInBody settings recipes
  | [], _ => stepwise.pure _
  | recipe :: recipes, scripts => by
      have parts : recipe.isScript = true ∧ areScripts recipes = true := by
        simpa only [areScripts, Bool.and_eq_true] using scripts
      refine stepwise.bind (build_stepwise recipe parts.1) fun _ => ?_
      exact stepwise.then (buildBody_stepwise recipes parts.2) fun _ => stepwise.pure _

theorem StmtRecipe.buildElse_stepwise : ∀ recipe : Option StmtRecipe, elseIsScript recipe = true →
    holds (Option Stmt) (buildElse recipe) fun settings => applicationsInElse settings recipe
  | none, _ => stepwise.pure _
  | some recipe, script =>
      stepwise.then (build_stepwise recipe script) fun _ => stepwise.pure _

end

end Stepwise

theorem BuildM.stepwise_terminates : Stepwise fun _ action _ => action.Terminates where
  pure value _ := ⟨.ok value, yields_pure value⟩
  record traced _ := ⟨.ok traced.value, yields_record traced⟩
  refuse offset reason _ := ⟨.error ⟨offset, reason.message⟩, refuses_refuse offset reason⟩
  negate operand settings :=
    ⟨.ok (operand.negate settings).value, yields_read.bind (yields_record _)⟩
  unary isPrefix operand _ := ⟨_, operand.buildUnary_ends isPrefix⟩
  assignTo access operand _ := ⟨_, operand.assignTo_ends access⟩
  bind first second := first.bind second

theorem StmtRecipe.build_terminates (recipe : StmtRecipe) (script : recipe.isScript = true) :
    recipe.build.Terminates :=
  recipe.build_stepwise BuildM.stepwise_terminates script

theorem ExprRecipe.build_terminates (recipe : ExprRecipe) (script : recipe.isScript = true) :
    recipe.build.Terminates :=
  recipe.build_stepwise BuildM.stepwise_terminates script

/-- A property of trees that the parts of a script hand on to the whole. -/
structure Expr.Inherited (settings : Settings) (holds : Expr → Prop) : Prop where
  int : ∀ offset ty value, holds (.int offset ty value)
  float : ∀ offset ty value, holds (.float offset ty value)
  bool : ∀ offset ty value, holds (.bool offset ty value)
  referTo : ∀ offset var access, holds (.referTo offset var access)
  construct : ∀ offset ty arguments, (∀ argument ∈ arguments, holds argument) →
    holds (.construct offset ty arguments)
  unary : ∀ operator operand result, UnaryBuilt settings operand operator result →
    holds operand → holds result
  negate : ∀ operand, holds operand → holds (operand.negate settings).value
  invert : ∀ operand, holds operand → holds operand.invert.value
  coerce : ∀ operand target, holds operand → holds (operand.coerce target)

section Inherited

variable {settings : Settings} {holds : Expr → Prop} (inherited : Expr.Inherited settings holds)

include inherited

-- Inside a mutual block the linter overlooks that recursive calls pass this on.
set_option linter.unusedSectionVars false

mutual

theorem ExprRecipe.build_ensures : ∀ recipe : ExprRecipe, recipe.isScript = true →
    recipe.build.Ensures settings holds
  | .int offset ty value, _ => .pure (inherited.int offset ty value)
  | .float offset ty value, _ => .pure (inherited.float offset ty value)
  | .bool offset ty value, _ => .pure (inherited.bool offset ty value)
  | .reference offset var access, _ => .pure (inherited.referTo offset var access)
  | .construct offset ty arguments, script => by
      refine (buildAll_ensures arguments script).bind fun built parts => ?_
      exact .pure (inherited.construct offset ty built parts)
  | .unary operator operand, script => by
      have parts : operator.isPrefix = true ∧ operand.isScript = true := by
        simpa only [isScript, Bool.and_eq_true] using script
      refine (build_ensures operand parts.2).bind fun built below => ?_
      intro journal result ran
      exact inherited.unary operator built result (.of_run_ok ran) below
  | .negate operand, script => by
      refine (build_ensures operand script).bind fun built below => ?_
      intro journal result ran
      cases ran
      exact inherited.negate built below
  | .invert operand, script => by
      refine (build_ensures operand script).bind fun built below => ?_
      intro journal result ran
      cases ran
      exact inherited.invert built below
  | .coerce target operand, script => by
      refine (build_ensures operand script).bind fun built below => ?_
      exact .pure (inherited.coerce built target below)
  | .assignTo access operand, script => by
      refine (build_ensures operand script).bind fun built _ => ?_
      refine .of_ends (built.assignTo_ends access) fun result ok => ?_
      obtain ⟨offset, _, var, _, _, _, rfl⟩ := Expr.of_assigned_ok (BuildM.of_reportedAt_ok ok)
      exact inherited.referTo offset var access

theorem ExprRecipe.buildAll_ensures : ∀ recipes : List ExprRecipe, areScripts recipes = true →
    (buildAll recipes).Ensures settings fun built => ∀ expr ∈ built, holds expr
  | [], _ => .pure fun _ absent => (nomatch absent)
  | recipe :: recipes, scripts => by
      have parts : recipe.isScript = true ∧ areScripts recipes = true := by
        simpa only [areScripts, Bool.and_eq_true] using scripts
      refine (build_ensures recipe parts.1).bind fun first holdsFirst => ?_
      refine (buildAll_ensures recipes parts.2).bind fun rest holdsRest => ?_
      exact .pure (List.forall_mem_cons.mpr ⟨holdsFirst, holdsRest⟩)

end

end Inherited

end ShaderIR
