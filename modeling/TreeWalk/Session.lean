import TreeWalk.Blueprint
import TreeWalk.Eval.Statement
import TreeWalk.Tracing

/-!
# Sessions

A session takes steps one after another. The steps share a registry, a source, a trace setting and
a reporter, most often the console; what a step prints, writes and logs is its own.

* `Step` : what can be asked of a session; what a step works on is built as part of the step;
* `Session` : what one step leaves to the next;
* `Session.perform` : the reply and the transcript of a step, and the session after it;
* `Session.run` : all steps of a list;
* `Session.runProgram` : a program from which only the exit code is wanted.

## What is left out

* The text of a trace has the files and lines of an installation. Here are the calls that it goes
  through (`Call`); their wording is up to the session (`Session.wording`).
* Nothing limits how deep objects are nested and programs run inside programs, nor how many digits
  the text of an integer has.
* Streams and reporters never fail, and texts have no halves of surrogate pairs.
* A label is a text or missing. Registered rules are those of `ExprRule` and `StmtRule`; rules that
  register others are not among them.
-/

namespace TreeWalk

/-! ## Steps -/

inductive Step where
  | interpret (statements : List Blueprint)
  | evaluate (expression : Blueprint)
  | execute (statement : Blueprint)
  | render (node : Blueprint)
  | inspect (node : Blueprint)
  /-- Reports an error that was never raised, so that no trace belongs to it. -/
  | report (token : Blueprint) (message : String) (source : Option String)
  /-- Makes the console forget the errors it has seen. -/
  | reset
  | setSource (source : Option String)
  | setTracing (setting : Option String)
  | addExpr (label : String) (rule : ExprRule)
  | addStmt (label : String) (rule : StmtRule)
  deriving Repr

/-- What there is to see of an object without running it. -/
structure Inspection where
  isTree : Bool
  token : Option Token
  label : Option String
  childCount : Nat
  isExpr : Bool
  isStmt : Bool
  isValue : Bool
  deriving Repr

def Object.inspect (registry : Registry) (o : Object) : Inspection where
  isTree := o.isTree
  token := o.token?
  label := o.label?
  childCount := o.children.length
  isExpr := registry.isExpr o
  isStmt := registry.isStmt o
  isValue := o.value?.isSome

inductive Reply where
  | done
  | summary (s : Summary)
  | value (o : Object)
  | text (s : String)
  | inspection (i : Inspection)
  deriving Repr

/-! ## Sessions -/

structure Session where
  registry : Registry := .initial
  source : Option String := none
  traceSetting : Option String := none
  /-- The text of a trace. -/
  wording : List Call → String := functionNames
  reporter : Reporter := .console
  /-- Whether the console has seen an error since it was last reset. -/
  failed : Bool := false

/-- How a step ended and what it showed. -/
structure Entry where
  reply : Except Failure Reply
  transcript : Transcript

namespace Session

def context (s : Session) : Context where
  registry := s.registry
  source := s.source
  reporter := s.reporter
  tracing := Text.tracingWanted s.traceSetting
  wording := s.wording

/-- The work of a step that runs something. -/
def work (s : Session) : Step → Run Reply
  | .interpret statements => do
    let nodes ← .ofExcept (Blueprint.buildAll statements)
    return .summary (← TreeWalk.interpret s.context nodes)
  | .evaluate expression => do
    let node ← .ofExcept expression.build
    return .value (← eval s.registry node)
  | .execute statement => do
    let node ← .ofExcept statement.build
    exec s.context node
    return .done
  | .render node => do
    let node ← .ofExcept node.build
    return .text (← .ofExcept node.render)
  | .inspect node => do
    let node ← .ofExcept node.build
    return .inspection (node.inspect s.registry)
  | .report token message source => do
    let token ← .ofExcept token.build
    Run.report s.reporter ⟨⟨token, message, source⟩, none⟩
    return .done
  | .reset | .setSource _ | .setTracing _ | .addExpr _ _ | .addStmt _ _ => return .done

/-- What a step changes of the session itself. -/
def adjust (s : Session) : Step → Session
  | .reset => { s with failed := false }
  | .setSource source => { s with source }
  | .setTracing setting => { s with traceSetting := setting }
  | .addExpr label rule => { s with registry := s.registry.addExpr label rule }
  | .addStmt label rule => { s with registry := s.registry.addStmt label rule }
  | _ => s

/-- A step with a fresh transcript; the session remembers whether the console saw an error. -/
def perform (s : Session) (step : Step) : Entry × Session :=
  let s := s.adjust step
  let (reply, transcript) := (s.work step).start { failed := s.failed }
  (⟨reply, transcript⟩, { s with failed := transcript.failed })

def run (s : Session) : List Step → List Entry
  | [] => []
  | step :: rest =>
    let (entry, s) := s.perform step
    entry :: s.run rest

/-- The exit code of a program that returns, and what the program writes. -/
def runProgram (s : Session) (statements : List Blueprint) : Except Failure Nat × Transcript :=
  let (entry, s) := s.perform (.interpret statements)
  (entry.reply.map fun _ => exitCode s.failed, entry.transcript)

end Session

end TreeWalk
