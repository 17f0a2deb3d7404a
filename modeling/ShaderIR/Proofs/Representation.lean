import ShaderIR.Proofs.Construction
import ShaderIR.Proofs.Labels

/-!
What holds of every tree that the operations of this library can produce, in whatever order they are
used: building with or without checks, folding, relabelling, taking trees apart, defining variables
and propagating. `Sound` says it of one node. Each operation keeps it at every node, so it holds of
everything that is `Obtainable`.
-/

namespace ShaderIR

namespace Expr

/-- What an increment or decrement can be applied to. -/
def IsStepTarget (operand : Expr) : Prop :=
  ∃ offset var, operand = referTo offset var .readWrite ∧
    var.isImmutable = false ∧ var.ty.isNumber = true

/-- An operator that can stand on an operand once everything that folds is folded. -/
def StandsOn (operand : Expr) : Operator → Prop
  | .minus => operand.kind ≠ .intLiteral ∧ operand.kind ≠ .floatLiteral
  | .logicalNot => operand.kind ≠ .boolLiteral
  | .bitwiseNot => True
  | .increment | .decrement => operand.IsStepTarget
  | _ => False

def Sound : Expr → Prop
  | .unary _ ty operator operand => ty = operand.ty ∧ operand.StandsOn operator
  | .reference _ ty var _ => ty = var.ty
  | _ => True

variable {settings : Settings} {expr operand : Expr}

theorem Sound.withOffset (sound : expr.Sound) (offset : Offset) :
    (expr.withOffset offset).Sound := by
  cases expr with
  | unary | reference => exact sound
  | int | float | bool | construct => trivial

theorem Every.sound_withOffset (sound : expr.Every Sound) (offset : Offset) :
    (expr.withOffset offset).Every Sound :=
  sound.withOffset (sound.root.withOffset offset)

theorem Sound.labelled (sound : expr.Sound) : expr.Labelled := by
  cases expr with
  | unary => exact sound.1
  | int | float | bool | construct | reference => trivial

theorem Every.labelled_of_sound (sound : expr.Every Sound) : expr.Every Labelled :=
  sound.imp fun _ => Sound.labelled

theorem standsOn_minus (unfoldable : foldable settings .minus operand = false) :
    operand.StandsOn .minus := by
  cases operand with
  | int | float => cases unfoldable
  | bool | construct | unary | reference => simp [StandsOn, kind]

theorem Every.sound_apply (sound : operand.Every Sound) {operator : Operator}
    (stands : operand.StandsOn operator) : (apply operator operand).Every Sound :=
  every_apply.mpr ⟨⟨rfl, stands⟩, sound⟩

theorem Every.sound_negate (sound : expr.Every Sound) :
    (expr.negate settings).value.Every Sound := by
  refine sound.negate settings ?_ ?_ ?_ ?_
  · exact fun _ _ _ _ _ => trivial
  · exact fun _ _ _ _ _ => trivial
  · exact fun _ _ _ _ _ => trivial
  · exact fun operand _ unfoldable => ⟨rfl, standsOn_minus unfoldable⟩

theorem Every.sound_invert (sound : expr.Every Sound) : expr.invert.value.Every Sound :=
  sound.invert (fun _ _ _ _ _ => trivial) fun notBool => ⟨rfl, notBool⟩

theorem Every.sound_coerce (sound : expr.Every Sound) (target : Ty) :
    (expr.coerce target).Every Sound := by
  refine sound.coerce target ?_ ?_ ?_
  · exact fun _ _ _ => trivial
  · exact fun _ _ _ => trivial
  · exact fun _ _ => trivial

theorem every_sound_referTo (offset : Offset) (var : Variable) (access : Access) :
    (referTo offset var access).Every Sound :=
  every_reference.mpr rfl

theorem Every.sound_construct {arguments : List Expr}
    (sound : ∀ argument ∈ arguments, argument.Every Sound) (offset : Offset) (ty : Ty) :
    (Expr.construct offset ty arguments).Every Sound :=
  every_construct.mpr ⟨trivial, sound⟩

theorem UnaryBuilt.sound {operator : Operator} {result : Expr}
    (built : UnaryBuilt settings operand operator result) (sound : operand.Every Sound) :
    result.Every Sound := by
  cases built with
  | plus => exact sound
  | minus => exact sound.sound_negate
  | logicalNot => exact sound.sound_invert
  | bitwiseNot =>
      refine committed_cases (motive := fun committed =>
        (apply .bitwiseNot committed).Every Sound) operand ?_ ?_
      · exact sound.sound_apply trivial
      · exact fun target => (sound.sound_coerce target).sound_apply trivial
  | @step _ offset ty var access isStep reference numeric mutable =>
      -- The check looked at the type of the reference, which is that of the variable.
      have sameTy : ty = var.ty := by
        rw [reference] at sound
        exact sound.root
      subst sameTy
      have target : (referTo offset var .readWrite).IsStepTarget :=
        ⟨offset, var, rfl, mutable, numeric⟩
      refine (every_sound_referTo offset var .readWrite).sound_apply ?_
      rcases isStep with rfl | rfl
      · exact target
      · exact target

/-- What is asked of operators only is inherited if it holds wherever building applies one. -/
theorem inherited_of_apply {holds : Expr → Prop}
    (other : ∀ expr, expr.isUnary = false → holds expr)
    (minus : ∀ operand, holds (apply .minus operand))
    (inversion : ∀ operand, holds (apply .logicalNot operand))
    (complement : ∀ operand : Expr, operand.ty.isInteger = true →
      holds (apply .bitwiseNot operand.committed))
    (step : ∀ operator operand, operator = .increment ∨ operator = .decrement →
      holds (apply operator operand)) : Inherited settings (Every holds) := by
  have negate (expr : Expr) (every : expr.Every holds) :
      (expr.negate settings).value.Every holds := by
    refine every.negate settings ?_ ?_ ?_ ?_
    · exact fun _ _ _ _ _ => other _ rfl
    · exact fun _ _ _ _ _ => other _ rfl
    · exact fun _ _ _ _ _ => other _ rfl
    · exact fun operand _ _ => minus operand
  have invert (expr : Expr) (every : expr.Every holds) : expr.invert.value.Every holds :=
    every.invert (fun _ _ _ _ _ => other _ rfl) fun _ => inversion expr
  have coerce (expr : Expr) (target : Ty) (every : expr.Every holds) :
      (expr.coerce target).Every holds := by
    refine every.coerce target ?_ ?_ ?_
    · exact fun _ _ _ => other _ rfl
    · exact fun _ _ _ => other _ rfl
    · exact fun _ _ => other _ rfl
  refine
    { int := fun _ _ _ => every_int.mpr (other _ rfl)
      float := fun _ _ _ => every_float.mpr (other _ rfl)
      bool := fun _ _ _ => every_bool.mpr (other _ rfl)
      referTo := fun _ _ _ => every_reference.mpr (other _ rfl)
      construct := fun _ _ _ every => every_construct.mpr ⟨other _ rfl, every⟩
      unary := fun operator operand result built every => ?_
      negate := negate
      invert := invert
      coerce := coerce }
  cases built with
  | plus => exact every
  | minus => exact negate operand every
  | logicalNot => exact invert operand every
  | bitwiseNot integer =>
      have below : operand.committed.Every holds :=
        committed_cases operand every fun target => coerce operand target every
      exact every_apply.mpr ⟨complement operand integer, below⟩
  | step isStep =>
      exact every_apply.mpr ⟨step _ _ isStep, every_reference.mpr (other _ rfl)⟩

theorem inherited_sound (settings : Settings) : Inherited settings (Every Sound) where
  int _ _ _ := every_int.mpr trivial
  float _ _ _ := every_float.mpr trivial
  bool _ _ _ := every_bool.mpr trivial
  referTo := every_sound_referTo
  construct offset ty _ sound := Every.sound_construct sound offset ty
  unary _ _ _ built sound := built.sound sound
  negate _ sound := sound.sound_negate
  invert _ sound := sound.sound_invert
  coerce _ target sound := sound.sound_coerce target

theorem Every.sound_refolded (sound : operand.Every Sound) {operator : Operator}
    (stands : operator ≠ .minus → operator ≠ .logicalNot → operand.StandsOn operator) :
    (refolded settings operator operand).Every Sound := by
  refine refolded_cases settings (motive := fun after => after.Every Sound) operator operand
    ?_ ?_ ?_
  · exact fun _ => sound.sound_negate
  · exact fun _ => sound.sound_invert
  · exact fun notMinus notInversion => sound.sound_apply (stands notMinus notInversion)

theorem Every.sound_refold {offset : Offset} {ty : Ty} {operator : Operator} {folded : Expr}
    (sound : (Expr.unary offset ty operator operand).Every Sound)
    (folds : (refold settings operator operand).value = some folded) : folded.Every Sound := by
  obtain ⟨⟨_, stands⟩, below⟩ := every_unary.mp sound
  have computed : refolded settings operator operand = folded := by
    rw [refolded, folds, Option.getD_some]
  rw [← computed]
  exact below.sound_refolded fun _ _ => stands

/-- Propagation does not look behind a reference that is written through. -/
theorem IsStepTarget.propagate (target : operand.IsStepTarget) (definitions : Definitions) :
    (operand.propagate settings definitions).value = operand := by
  obtain ⟨offset, var, rfl, _, _⟩ := target
  exact propagate_reference_of_written settings offset var.ty definitions (by simp) var

theorem StandsOn.propagate {operator : Operator} (stands : operand.StandsOn operator)
    (definitions : Definitions) (notMinus : operator ≠ .minus)
    (notInversion : operator ≠ .logicalNot) :
    (operand.propagate settings definitions).value.StandsOn operator := by
  cases operator with
  | minus | logicalNot => contradiction
  | bitwiseNot => trivial
  | increment | decrement =>
      rw [IsStepTarget.propagate stands definitions]
      exact stands
  | _ => cases stands

end Expr

def Definitions.Sound (definitions : Definitions) : Prop :=
  ∀ var value, definitions.get? var = some value → value.Every Expr.Sound

theorem Definitions.Sound.constant? {definitions : Definitions} (sound : definitions.Sound)
    {var : Variable} {value : Expr} (found : definitions.constant? var = some value) :
    value.Every Expr.Sound :=
  sound var value (Option.eq_some_of_filter_eq_some found)

theorem Definitions.Sound.insert {definitions : Definitions} (sound : definitions.Sound)
    (var : Variable) {value : Expr} (soundValue : value.Every Expr.Sound) :
    (definitions.insert var value).Sound := by
  intro other found lookup
  rw [get?_insert] at lookup
  split at lookup
  · cases lookup
    exact soundValue
  · exact sound other found lookup

theorem Expr.every_sound_propagate (settings : Settings) {definitions : Definitions}
    (known : definitions.Sound) {expr : Expr} (sound : expr.Every Sound) :
    (expr.propagate settings definitions).value.Every Sound := by
  induction expr with
  | int | float | bool => exact sound
  | reference offset ty var access =>
      rcases propagate_reference settings offset ty definitions var access with
        kept | ⟨_, value, found, replaced⟩
      · rw [kept]
        exact sound
      · rw [replaced]
        exact (known.constant? found).sound_withOffset offset
  | construct offset ty arguments ih =>
      have parts := (every_construct.mp sound).2
      rw [propagate_construct]
      refine Every.sound_construct (fun propagated member => ?_) offset ty
      obtain ⟨argument, inside, rfl⟩ := List.mem_map.mp member
      exact ih argument inside (parts argument inside)
  | unary offset ty operator operand ih =>
      obtain ⟨⟨_, stands⟩, below⟩ := every_unary.mp sound
      rw [propagate_unary]
      exact (ih below).sound_refolded (stands.propagate definitions)

namespace Stmt

/-- A static conditional on a literal never stands, since the branch it selects takes its place. -/
def Node.Sound : Node → Prop
  | .expr node => node.Sound
  | .stmt (.conditional _ isStatic test _ _) => isStatic = true → test.kind ≠ .boolLiteral
  | .stmt _ => True

variable {stmt ifTrue : Stmt} {ifFalse : Option Stmt} {test : Expr}

theorem Node.Sound.withOffset (sound : (Node.stmt stmt).Sound) (offset : Offset) :
    (Node.stmt (stmt.withOffset offset)).Sound := by
  cases stmt with
  | conditional => exact sound
  | block | expression | nop => trivial

theorem Node.sound_of_kind (other : stmt.kind ≠ .conditional) : (Node.stmt stmt).Sound := by
  cases stmt with
  | conditional => exact absurd rfl other
  | block | expression | nop => trivial

theorem every_sound_branch (soundTest : test.Every Expr.Sound)
    (soundTrue : ifTrue.Every Node.Sound) (soundFalse : ∀ stmt ∈ ifFalse, stmt.Every Node.Sound)
    (offset : Offset) (isStatic : Bool) :
    (branch offset isStatic test ifTrue ifFalse).value.Every Node.Sound :=
  every_branch (fun _ offset sound => sound.withOffset offset) (fun _ => Node.sound_of_kind)
    (fun undecided => undecided) soundTest soundTrue soundFalse

theorem every_sound_propagate (settings : Settings) {definitions : Definitions}
    (known : definitions.Sound) (sound : stmt.Every Node.Sound) :
    (stmt.propagate settings definitions).value.Every Node.Sound := by
  refine sound.propagate ?_ ?_ ?_ ?_
  · exact fun _ offset sound => sound.withOffset offset
  · exact fun _ => Node.sound_of_kind
  · exact fun _ => Expr.every_sound_propagate settings known
  · exact fun _ _ _ _ _ _ _ _ _ undecided => undecided

end Stmt

inductive Artifact where
  | expr (expr : Expr)
  | stmt (stmt : Stmt)
  | definitions (definitions : Definitions)
  | program (program : Program)

/-- What any finite sequence of operations can produce, each under settings of its own. -/
inductive Obtainable : Artifact → Prop where
  | int (offset : Offset) (ty : Ty) (value : Int64) : Obtainable (.expr (.int offset ty value))
  | float (offset : Offset) (ty : Ty) (value : Binary64) :
      Obtainable (.expr (.float offset ty value))
  | bool (offset : Offset) (ty : Ty) (value : Bool) : Obtainable (.expr (.bool offset ty value))
  | construct (offset : Offset) (ty : Ty) {arguments : List Expr}
      (parts : ∀ argument ∈ arguments, Obtainable (.expr argument)) :
      Obtainable (.expr (.construct offset ty arguments))
  | referTo (offset : Offset) (var : Variable) (access : Access) :
      Obtainable (.expr (.referTo offset var access))
  | buildUnary {operand result : Expr} {settings : Settings} {journal : Journal}
      {operator : Operator} (obtained : Obtainable (.expr operand))
      (built : ((operand.buildUnary operator).run settings journal).1 = .ok result) :
      Obtainable (.expr result)
  | assignTo {operand result : Expr} {settings : Settings} {journal : Journal} {access : Access}
      (obtained : Obtainable (.expr operand))
      (built : ((operand.assignTo access).run settings journal).1 = .ok result) :
      Obtainable (.expr result)
  | negate {operand : Expr} (settings : Settings) (obtained : Obtainable (.expr operand)) :
      Obtainable (.expr (operand.negate settings).value)
  | invert {operand : Expr} (obtained : Obtainable (.expr operand)) :
      Obtainable (.expr operand.invert.value)
  | coerce {operand : Expr} (target : Ty) (obtained : Obtainable (.expr operand)) :
      Obtainable (.expr (operand.coerce target))
  | relocate {expr : Expr} (offset : Offset) (obtained : Obtainable (.expr expr)) :
      Obtainable (.expr (expr.withOffset offset))
  | refold {offset : Offset} {ty : Ty} {operator : Operator} {operand folded : Expr}
      {settings : Settings} (obtained : Obtainable (.expr (.unary offset ty operator operand)))
      (folds : (Expr.refold settings operator operand).value = some folded) :
      Obtainable (.expr folded)
  | operand {offset : Offset} {ty : Ty} {operator : Operator} {operand : Expr}
      (obtained : Obtainable (.expr (.unary offset ty operator operand))) :
      Obtainable (.expr operand)
  | argument {offset : Offset} {ty : Ty} {arguments : List Expr} {argument : Expr}
      (obtained : Obtainable (.expr (.construct offset ty arguments)))
      (member : argument ∈ arguments) : Obtainable (.expr argument)
  | nop (offset : Offset) : Obtainable (.stmt (.nop offset))
  | ofExpr {expr : Expr} (obtained : Obtainable (.expr expr)) : Obtainable (.stmt (.ofExpr expr))
  | block (offset : Offset) {body : List Stmt} (parts : ∀ stmt ∈ body, Obtainable (.stmt stmt)) :
      Obtainable (.stmt (.block offset body))
  | branch (offset : Offset) (isStatic : Bool) {test : Expr} {ifTrue : Stmt}
      {ifFalse : Option Stmt} (tested : Obtainable (.expr test))
      (first : Obtainable (.stmt ifTrue)) (second : ∀ stmt ∈ ifFalse, Obtainable (.stmt stmt)) :
      Obtainable (.stmt (Stmt.branch offset isStatic test ifTrue ifFalse).value)
  | buildConditional {offset : Offset} {isStatic : Bool} {test : Expr} {ifTrue result : Stmt}
      {ifFalse : Option Stmt} {settings : Settings} {journal : Journal}
      (tested : Obtainable (.expr test)) (first : Obtainable (.stmt ifTrue))
      (second : ∀ stmt ∈ ifFalse, Obtainable (.stmt stmt))
      (built : ((Stmt.buildConditional offset isStatic test ifTrue ifFalse).run
        settings journal).1 = .ok result) : Obtainable (.stmt result)
  | relocateStmt {stmt : Stmt} (offset : Offset) (obtained : Obtainable (.stmt stmt)) :
      Obtainable (.stmt (stmt.withOffset offset))
  | test {offset : Offset} {isStatic : Bool} {test : Expr} {ifTrue : Stmt}
      {ifFalse : Option Stmt}
      (obtained : Obtainable (.stmt (.conditional offset isStatic test ifTrue ifFalse))) :
      Obtainable (.expr test)
  | ifTrue {offset : Offset} {isStatic : Bool} {test : Expr} {ifTrue : Stmt}
      {ifFalse : Option Stmt}
      (obtained : Obtainable (.stmt (.conditional offset isStatic test ifTrue ifFalse))) :
      Obtainable (.stmt ifTrue)
  | ifFalse {offset : Offset} {isStatic : Bool} {test : Expr} {ifTrue ifFalse : Stmt}
      (obtained : Obtainable (.stmt (.conditional offset isStatic test ifTrue (some ifFalse)))) :
      Obtainable (.stmt ifFalse)
  | bodyOf {offset : Offset} {body : List Stmt} {stmt : Stmt}
      (obtained : Obtainable (.stmt (.block offset body))) (member : stmt ∈ body) :
      Obtainable (.stmt stmt)
  | exprOf {offset : Offset} {expr : Expr}
      (obtained : Obtainable (.stmt (.expression offset expr))) : Obtainable (.expr expr)
  | noDefinitions : Obtainable (.definitions .empty)
  | insert {definitions : Definitions} {value : Expr} (var : Variable)
      (obtained : Obtainable (.definitions definitions)) (defined : Obtainable (.expr value)) :
      Obtainable (.definitions (definitions.insert var value))
  | lookup {definitions : Definitions} {var : Variable} {value : Expr}
      (obtained : Obtainable (.definitions definitions))
      (found : definitions.get? var = some value) : Obtainable (.expr value)
  | noStatements : Obtainable (.program {})
  | push {program : Program} {result : Except Stop Stmt}
      (obtained : Obtainable (.program program))
      (pushed : ∀ stmt, result = .ok stmt → Obtainable (.stmt stmt)) :
      Obtainable (.program (program.push result))
  | statement {program : Program} {stmt : Stmt} (obtained : Obtainable (.program program))
      (member : stmt ∈ program.statements) : Obtainable (.stmt stmt)
  | propagate {program : Program} {definitions : Definitions} (settings : Settings)
      (obtained : Obtainable (.program program)) (known : Obtainable (.definitions definitions)) :
      Obtainable (.program (program.propagate settings definitions).value)

def Artifact.Sound : Artifact → Prop
  | .expr tree => tree.Every Expr.Sound
  | .stmt tree => tree.Every Stmt.Node.Sound
  | .definitions known => known.Sound
  | .program whole => whole.Every Stmt.Node.Sound

theorem Program.Every.sound_push {program : Program} {result : Except Stop Stmt}
    (sound : program.Every Stmt.Node.Sound)
    (pushed : ∀ stmt, result = .ok stmt → stmt.Every Stmt.Node.Sound) :
    (program.push result).Every Stmt.Node.Sound := by
  cases result with
  | error => exact sound
  | ok last =>
      intro stmt member
      rcases List.mem_append.mp member with earlier | added
      · exact sound stmt earlier
      · rw [List.mem_singleton.mp added]
        exact pushed last rfl

theorem Program.every_sound_propagate (settings : Settings) {program : Program}
    {definitions : Definitions} (known : definitions.Sound)
    (sound : program.Every Stmt.Node.Sound) :
    (program.propagate settings definitions).value.Every Stmt.Node.Sound := by
  intro propagated member
  rw [propagate_statements] at member
  obtain ⟨stmt, inside, rfl⟩ := List.mem_map.mp member
  exact Stmt.every_sound_propagate settings known (sound stmt inside)

theorem Obtainable.artifact_sound {artifact : Artifact} (obtained : Obtainable artifact) :
    artifact.Sound := by
  induction obtained with
  | int => exact Expr.every_int.mpr trivial
  | float => exact Expr.every_float.mpr trivial
  | bool => exact Expr.every_bool.mpr trivial
  | construct offset ty _ ih => exact Expr.Every.sound_construct ih offset ty
  | referTo offset var access => exact Expr.every_sound_referTo offset var access
  | buildUnary _ built ih => exact (Expr.UnaryBuilt.of_run_ok built).sound ih
  | @assignTo operand result settings journal access _ built ih =>
      have outcome := (operand.assignTo_ends access).of_run_ok built
      obtain ⟨offset, _, var, _, _, _, rfl⟩ := Expr.of_assigned_ok (BuildM.of_reportedAt_ok outcome)
      exact Expr.every_sound_referTo offset var access
  | negate settings _ ih => exact ih.sound_negate
  | invert _ ih => exact ih.sound_invert
  | coerce target _ ih => exact ih.sound_coerce target
  | relocate offset _ ih => exact ih.sound_withOffset offset
  | refold _ folds ih => exact Expr.Every.sound_refold ih folds
  | operand _ ih => exact (Expr.every_unary.mp ih).2
  | argument _ member ih => exact (Expr.every_construct.mp ih).2 _ member
  | nop => exact Stmt.every_nop.mpr trivial
  | ofExpr _ ih => exact Stmt.every_expression.mpr ⟨trivial, ih⟩
  | block offset _ ih => exact Stmt.every_block.mpr ⟨trivial, ih⟩
  | branch offset isStatic _ _ _ ihTest ihTrue ihFalse =>
      exact Stmt.every_sound_branch ihTest ihTrue ihFalse offset isStatic
  | @buildConditional offset isStatic _ _ _ _ _ _ _ _ _ built ihTest ihTrue ihFalse =>
      obtain ⟨_, rfl⟩ := Stmt.of_buildConditional_ok built
      exact Stmt.every_sound_branch ihTest ihTrue ihFalse offset isStatic
  | relocateStmt offset _ ih => exact ih.withOffset (ih.root.withOffset offset)
  | test _ ih => exact (Stmt.every_conditional.mp ih).2.1
  | ifTrue _ ih => exact (Stmt.every_conditional.mp ih).2.2.1
  | ifFalse _ ih => exact (Stmt.every_conditional.mp ih).2.2.2 _ rfl
  | bodyOf _ member ih => exact (Stmt.every_block.mp ih).2 _ member
  | exprOf _ ih => exact (Stmt.every_expression.mp ih).2
  | noDefinitions => exact fun _ _ absent => nomatch absent
  | insert var _ _ ih ihValue => exact ih.insert var ihValue
  | lookup _ found ih => exact ih _ _ found
  | noStatements => exact fun _ absent => nomatch absent
  | push _ _ ih ihPushed => exact ih.sound_push ihPushed
  | statement _ member ih => exact ih _ member
  | propagate settings _ _ ih ihKnown => exact Program.every_sound_propagate settings ihKnown ih

/-- Whatever the operations were, at every node of a tree they have produced an operator has the
type of its operand, is one of the five that can stand, and stands on nothing that it could have
been computed on; increments and decrements apply to mutable scalar variables; references have the
types of their variables; and no static conditional tests a literal. -/
theorem Obtainable.sound_at_every_node :
    (∀ expr, Obtainable (.expr expr) → expr.Every Expr.Sound) ∧
      ∀ stmt, Obtainable (.stmt stmt) → stmt.Every Stmt.Node.Sound :=
  ⟨fun _ obtained => obtained.artifact_sound, fun _ obtained => obtained.artifact_sound⟩

/-- A sign before a step on a variable, guarded by a static conditional on another variable.
Propagation finds the second variable false, so the branch takes the place of the conditional. -/
theorem Obtainable.sound_at_every_node_propagated :
    let counter : Variable := ⟨0, "i", .int, ⟨false, false⟩⟩
    let step : Expr := .unary 3 .int .increment (.reference 3 .int counter .readWrite)
    let stmt : Stmt := .expression 1 (.unary 3 .int .minus step)
    Obtainable (.stmt stmt) ∧ stmt.Every Stmt.Node.Sound := by
  intro counter step stmt
  let flag : Variable := ⟨1, "b", .bool, ⟨true, false⟩⟩
  have stepped : Obtainable (.expr step) :=
    @Obtainable.buildUnary _ _ {} {} .increment (.referTo 3 counter .read) rfl
  have guarded : Obtainable (.stmt (.conditional 1 true
      (.unary 2 .bool .logicalNot (.reference 2 .bool flag .read))
      (.expression 5 (.unary 5 .int .minus step)) none)) :=
    .branch 1 true (.invert (.referTo 2 flag .read))
      (.ofExpr (.relocate 5 (.negate {} stepped))) fun _ absent => nomatch absent
  have known : Obtainable (.definitions (Definitions.empty.insert flag (.bool 8 .bool false))) :=
    .insert flag .noDefinitions (.bool 8 .bool false)
  have obtained : Obtainable (.stmt stmt) :=
    .statement
      (.propagate {} (.push .noStatements fun _ same => Except.ok.inj same ▸ guarded) known)
      (List.mem_singleton.mpr rfl)
  exact ⟨obtained, Obtainable.sound_at_every_node.2 stmt obtained⟩

end ShaderIR
