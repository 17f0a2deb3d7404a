import ShaderIR.Program
import ShaderIR.Recipe
import ShaderIR.Report
import ShaderIR.Settings.Load
import ShaderIR.Stmt.Printer

/-!
A session builds one program step by step: it holds the settings, the diagnostics so far, the
variables with their definitions, the program, and trees kept under names. A step that fails
changes nothing but the diagnostics.
-/

namespace ShaderIR

structure Session where
  settings : Settings := {}
  sink : Sink := {}
  declared : List Variable := []
  definitions : Definitions := {}
  program : Program := {}
  keptExprs : List (String × Expr) := []
  keptStmts : List (String × Stmt) := []
deriving Repr

/-- One step of a session. Settings are given as JSON, absent ones stand for the defaults. -/
inductive Command where
  | declare (name typeName : String) (modifiers : Modifiers)
  | compare (first second : Nat)
  | configure (source : Option Json)
  | restart (source : Option Json)
  | buildExpr (recipe : ExprRecipe) (keepAs : Option String)
  | buildStmt (recipe : StmtRecipe) (keepAs : Option String)
  | refold (recipe : ExprRecipe)
  | takeApart (recipe : StmtRecipe)
  | push (recipe : StmtRecipe)
  | showProgram
  | propagate (source : Option Json) (keep : Bool)
  | drain
  | define (index : Nat) (recipe : ExprRecipe)
  | forgetDefinitions
  | lookUp (index : Nat)
  | report (offset : Offset) (message : String)
  | showDiagnostics
  | takeDiagnostics
  | render (source path : String)
deriving Repr

inductive Reply where
  | declared (index : Nat)
  | compared (alike same : Bool)
  | configured (isStrict : Bool)
  | expr (expr : Expr)
  | stmt (stmt : Stmt)
  | refolded (simplified : Option Expr)
  | parts (parts : Stmt.Parts)
  | pushed (accepted : Bool) (size : Nat)
  | program (program : Program)
  | drained (statements : List Stmt)
  | defined (size : Nat)
  | forgotten
  | definition (value constant : Option Expr) (noneDefined : Bool)
  | reported (hasErrors : Bool)
  | diagnostics (diagnostics : List Diagnostic) (hasErrors : Bool)
  | taken (diagnostics : List Diagnostic) (hasErrors : Bool)
  | rendered (text : String)
  /-- The construction was refused; the sink says why. -/
  | refused
  | fault (cause : Fault)
  | mismatch (mismatch : Settings.Mismatch)
deriving Repr

/-- A session after a step, with the step's reply and events. -/
structure Outcome where
  session : Session
  reply : Reply
  events : List Event := []
deriving Repr

def Settings.ofJson? : Option Json → Except Settings.Mismatch Settings
  | none => .ok {}
  | some source => Settings.ofJson source

namespace Session

/-- A reference to one of the variables, by its number. -/
def reference (session : Session) (offset : Offset) (index : Nat) (access : Access) : ExprRecipe :=
  match session.declared[index]? with
  | some var => .reference offset var access
  | none => .missing .unknownVariable

def keptExpr (session : Session) (name : String) : ExprRecipe :=
  match session.keptExprs.lookup name with
  | some expr => .given expr
  | none => .missing .unknownRegister

def keptStmt (session : Session) (name : String) : StmtRecipe :=
  match session.keptStmts.lookup name with
  | some stmt => .given stmt
  | none => .missing .unknownRegister

def keepExpr (session : Session) (name : Option String) (expr : Expr) : Session :=
  match name with
  | some name => { session with keptExprs := (name, expr) :: session.keptExprs }
  | none => session

def keepStmt (session : Session) (name : Option String) (stmt : Stmt) : Session :=
  match name with
  | some name => { session with keptStmts := (name, stmt) :: session.keptStmts }
  | none => session

/-- Runs a construction; diagnostics and events stay whether it succeeds or not. -/
def attempt {α : Type} (session : Session) (action : BuildM α)
    (next : Session → α → Session × Reply) : Outcome :=
  let (result, journal) := action.run session.settings { sink := session.sink }
  let session := { session with sink := journal.sink }
  match result with
  | .ok value =>
      let (session, reply) := next session value
      ⟨session, reply, journal.events⟩
  | .error .reported => ⟨session, .refused, journal.events⟩
  | .error (.fault cause) => ⟨session, .fault cause, journal.events⟩

def declare (session : Session) (name : String) (ty : Ty) (modifiers : Modifiers) : Outcome :=
  let index := session.declared.length
  { session := { session with declared := session.declared ++ [⟨index, name, ty, modifiers⟩] }
    reply := .declared index }

/-- Builds a statement and appends it to the program if that succeeds. -/
def push (session : Session) (recipe : StmtRecipe) : Outcome :=
  let (result, journal) := recipe.build.run session.settings { sink := session.sink }
  let program := session.program.push result
  let session := { session with sink := journal.sink, program }
  match result with
  | .ok _ => ⟨session, .pushed true program.size, journal.events⟩
  | .error .reported => ⟨session, .pushed false program.size, journal.events⟩
  | .error (.fault cause) => ⟨session, .fault cause, journal.events⟩

/-- Propagates constants through the program, under settings of its own if there are any. -/
def propagate (session : Session) (settings : Settings) (keep : Bool) : Outcome :=
  let propagated := session.program.propagate settings session.definitions
  { session := if keep then session else { session with program := propagated.value }
    reply := .program propagated.value
    events := propagated.events }

def define (session : Session) (index : Nat) (value : Expr) : Session × Reply :=
  match session.declared[index]? with
  | some var =>
      let definitions := session.definitions.insert var value
      ({ session with definitions }, .defined definitions.size)
  | none => (session, .fault .unknownVariable)

def lookUp (session : Session) (index : Nat) : Reply :=
  match session.declared[index]? with
  | some var =>
      .definition (session.definitions.get? var) (session.definitions.constant? var)
        session.definitions.isEmpty
  | none => .fault .unknownVariable

/-- Goes on with settings from a document, or reports why it holds none. -/
def withSettings (session : Session) (source : Option Json) (next : Settings → Outcome) :
    Outcome :=
  match Settings.ofJson? source with
  | .ok settings => next settings
  | .error mismatch => { session, reply := .mismatch mismatch }

def perform (session : Session) : Command → Outcome
  | .declare name typeName modifiers =>
      match Ty.ofName? typeName with
      | some ty => session.declare name ty modifiers
      | none => { session, reply := .fault (.unknownType typeName) }
  | .compare first second =>
      match session.declared[first]?, session.declared[second]? with
      | some first, some second =>
          { session, reply := .compared (first.alike second) (first.same second) }
      | _, _ => { session, reply := .fault .unknownVariable }
  | .configure source =>
      session.withSettings source fun settings =>
        { session := { session with settings }, reply := .configured settings.isStrict }
  | .restart source =>
      session.withSettings source fun settings =>
        { session := { session with settings, sink := {} }, reply := .configured settings.isStrict }
  | .buildExpr recipe keepAs =>
      session.attempt recipe.build fun session expr => (session.keepExpr keepAs expr, .expr expr)
  | .buildStmt recipe keepAs =>
      session.attempt recipe.build fun session stmt => (session.keepStmt keepAs stmt, .stmt stmt)
  | .refold recipe =>
      session.attempt (do (← recipe.build).refoldNode) fun session simplified =>
        (session, .refolded simplified)
  | .takeApart recipe =>
      session.attempt (do (← recipe.build).parts) fun session parts => (session, .parts parts)
  | .push recipe => session.push recipe
  | .showProgram => { session, reply := .program session.program }
  | .propagate source keep =>
      match source with
      | none => session.propagate session.settings keep
      | some _ => session.withSettings source fun settings => session.propagate settings keep
  | .drain =>
      { session := { session with program := {} }, reply := .drained session.program.statements }
  | .define index recipe =>
      session.attempt recipe.build fun session value => session.define index value
  | .forgetDefinitions =>
      { session := { session with definitions := .empty }, reply := .forgotten }
  | .lookUp index => { session, reply := session.lookUp index }
  | .report offset message =>
      let sink := session.sink.report offset message
      { session := { session with sink }, reply := .reported sink.hasErrors }
  | .showDiagnostics =>
      { session, reply := .diagnostics session.sink.diagnostics session.sink.hasErrors }
  | .takeDiagnostics =>
      let emptied : Sink := {}
      { session := { session with sink := emptied }
        reply := .taken session.sink.diagnostics emptied.hasErrors }
  | .render source path =>
      { session, reply := .rendered (Report.render source path session.sink.diagnostics) }

/-- The diagnostics that a step added to those the session had before. -/
def newDiagnostics (before after : Session) : List Diagnostic :=
  after.sink.diagnostics.drop before.sink.count

end Session

end ShaderIR
