import TreeWalk.Eval.Expression

/-!
# Execution of statements and programs

A statement is executed by the registry's rule for its label, which sees each child with its
evaluation and its execution. A program is a list of statements: they are executed in order until
one ends with a runtime error, which is logged and reported with the program's source; any other
failure ends the program unreported.

* `programEntry`, `statementEntry`, `errorEntry` : what a program logs;
* `Clause` : a child with both computations; `StmtRule.exec` : a rule at work;
* `Clause.runAll`, `Summary` : a program from its clauses; the rule `nested` runs one inside;
* `exec`, `interpret` : the same from objects; `execTrace` : the calls that an error comes through
  if the execution raises one.
-/

namespace TreeWalk

/-- What a run is given and does not change. -/
structure Context where
  registry : Registry := .initial
  /-- The source that the statements stem from. -/
  source : Option String := none
  reporter : Reporter := .console
  /-- Whether reports of raised errors end with a trace. -/
  tracing : Bool := false
  /-- The text of a trace, which is that of an installation: it has paths and line numbers. -/
  wording : List Call → String := functionNames

/-- What a report says of the calls that an error comes through, from the program on: nothing unless
a trace is wanted. -/
def Context.trace? (context : Context) (calls : List Call) : Option String :=
  if context.tracing then some (context.wording (.program :: calls)) else none

/-! ## Entries of the log -/

/-- How the log names a statement. -/
def Object.logName (o : Object) : String := o.label?.getD Plain.none.written

/-- The entry at the start of a program. -/
def programEntry (count : Nat) : String := "interpreting " ++ toString count ++ " statement(s)"

/-- The entry before a statement is executed. -/
def statementEntry (name : String) : String := "executing " ++ name

/-- The entry at a runtime error; statements are counted from 1. -/
def errorEntry (number : Nat) (name : String) (e : RuntimeError) : String :=
  "runtime error in statement " ++ toString number ++ " (" ++ name ++ "): " ++ e.text

/-! ## Programs -/

structure Clause extends Operand where
  effect : Run Unit
  /-- The calls that an error of the evaluation comes through; they are for reports only. -/
  valueTrace : Unit → List Call
  /-- The calls that an error of the execution comes through. -/
  trace : Unit → List Call

/-- How a program ended: the number of statements executed before the end, and the error. -/
structure Summary where
  executed : Nat
  error : Option RuntimeError
  deriving Repr

namespace Clause

def name (clause : Clause) : String := clause.node.logName

/-- Executes clauses, `executed` of which came before. -/
def runFrom (context : Context) (executed : Nat) : List Clause → Run Summary
  | [] => return ⟨executed, none⟩
  | clause :: rest => do
    Run.note (statementEntry clause.name)
    match ← clause.effect.attempt with
    | none => runFrom context (executed + 1) rest
    | some e =>
      let e := e.withSource context.source
      Run.note (errorEntry (executed + 1) clause.name e)
      Run.report context.reporter ⟨e, context.trace? (clause.trace ())⟩
      return ⟨executed, some e⟩

def runAll (context : Context) (clauses : List Clause) : Run Summary := do
  Run.note (programEntry clauses.length)
  runFrom context 0 clauses

end Clause

namespace StmtRule

def valueAt (children : List Clause) (index : Nat) : Run Object := do
  let child ← childAt children index
  child.value

def effectAt (children : List Clause) (index : Nat) : Run Unit := do
  let child ← childAt children index
  child.effect

/-- All effects in order. -/
def effects : List Clause → Run Unit
  | [] => return
  | child :: rest => do
    child.effect
    effects rest

def exec (context : Context) (children : List Clause) : StmtRule → Run Unit
  | .expression => do
    let _ ← valueAt children 0
  | .print => do
    let v ← valueAt children 0
    Run.print v.printed
  | .twice => do
    effectAt children 0
    effectAt children 0
  | .block => effects children
  | .conditional => do
    let v ← valueAt children 0
    if v.truthy then effectAt children 1
    else if children.length ≤ 2 then return
    else effectAt children 2
  | .nested => do
    let summary ← Clause.runAll context children
    Run.print ("nested " ++ toString summary.executed)

/-- The children that a rule works on, in its order; a program that runs inside keeps its errors. -/
def order (children : List Clause) : StmtRule → List Nat
  | .expression | .print | .twice => [0]
  | .block => List.range children.length
  | .conditional =>
    match (valueAt children 0).result with
    | .ok v => [0, if v.truthy then 1 else 2]
    | .error _ => [0]
  | .nested => []

/-- Whether the work on a child is its evaluation; else it is its execution. -/
def evaluates : StmtRule → Nat → Bool
  | .expression, _ | .print, _ => true
  | .conditional, index => index == 0
  | .twice, _ | .block, _ | .nested, _ => false

def stage (rule : StmtRule) (index : Nat) (child : Clause) : Stage :=
  if rule.evaluates index then ⟨child.value.fails, child.valueTrace ()⟩
  else ⟨child.effect.fails, child.trace ()⟩

def trace (children : List Clause) (rule : StmtRule) : List Call :=
  blame (.statement rule) [] (children.mapIdx rule.stage) (rule.order children)

end StmtRule

/-! ## Trees -/

mutual

def exec (context : Context) : Object → Run Unit
  | .tree (some label) children =>
    match context.registry.stmtRule? label with
    | some rule => rule.exec context (clauses context children)
    | none => throw (.cannotExecute (.tree (some label) children))
  | o => throw (.cannotExecute o)

/-- The calls that an error comes through, if the execution of an object raises one. -/
def execTrace (context : Context) : Object → List Call
  | .tree (some label) children =>
    match context.registry.stmtRule? label with
    | some rule => rule.trace (clauses context children)
    | none => []
  | _ => []

def clauses (context : Context) : List Object → List Clause
  | [] => []
  | child :: rest =>
    ⟨⟨child, eval context.registry child⟩, exec context child,
      fun _ => evalTrace context.registry child, fun _ => execTrace context child⟩ ::
        clauses context rest

end

theorem clauses_eq_map (context : Context) : ∀ children : List Object,
    clauses context children = children.map fun child =>
      ⟨⟨child, eval context.registry child⟩, exec context child,
        fun _ => evalTrace context.registry child, fun _ => execTrace context child⟩
  | [] => rfl
  | child :: rest => by rw [clauses, clauses_eq_map context rest, List.map_cons]

/-- Runs a program. -/
def interpret (context : Context) (statements : List Object) : Run Summary :=
  Clause.runAll context (clauses context statements)

theorem clauses_append (context : Context) (xs ys : List Object) :
    clauses context (xs ++ ys) = clauses context xs ++ clauses context ys := by
  simp only [clauses_eq_map, List.map_append]

@[simp] theorem length_clauses (context : Context) (children : List Object) :
    (clauses context children).length = children.length := by
  rw [clauses_eq_map, List.length_map]

theorem start_interpret (context : Context) (statements : List Object) (t : Transcript) :
    (interpret context statements).start t =
      (Clause.runFrom context 0 (clauses context statements)).start
        (t.note (programEntry statements.length)) := by
  rw [interpret, Clause.runAll, Run.start_bind, Run.start_note, length_clauses]

/-- The end of a program at a statement that fails, with `executed` statements before it. -/
def stopAt (context : Context) (executed : Nat) (s : Object) (t : Transcript) :
    Failure → Except Failure Summary × Transcript
  | .runtime e =>
    let e := e.withSource context.source
    (.ok ⟨executed, some e⟩,
      (t.note (errorEntry (executed + 1) s.logName e)).report context.reporter
        ⟨e, context.trace? (execTrace context s)⟩)
  | f => (.error f, t)

theorem stopAt_of_ne {f : Failure} (h : ∀ e, f ≠ .runtime e) (context : Context) (executed : Nat)
    (s : Object) (t : Transcript) : stopAt context executed s t f = (.error f, t) := by
  cases f with
  | runtime e => exact absurd rfl (h e)
  | _ => rfl

/-- A program goes on behind a statement or stops at it. -/
theorem start_runFrom (context : Context) (executed : Nat) (s : Object) (rest : List Object)
    (t : Transcript) :
    (Clause.runFrom context executed (clauses context (s :: rest))).start t =
      match (exec context s).start (t.note (statementEntry s.logName)) with
      | (.ok (), t) => (Clause.runFrom context (executed + 1) (clauses context rest)).start t
      | (.error f, t) => stopAt context executed s t f := by
  rw [clauses, Clause.runFrom, Run.start_bind, Run.start_note]
  simp only [Run.start_bind, Run.start_attempt, Clause.name]
  rcases (exec context s).start (t.note (statementEntry s.logName)) with ⟨f | _, t⟩
  · cases f <;> rfl
  · rfl

end TreeWalk
