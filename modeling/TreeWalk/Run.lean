import TreeWalk.Failure

/-!
# Runs

A run prints lines, writes to the error stream, logs, and hands runtime errors to a reporter, and
it ends with a result or a failure. What was written before a failure stays written.

* `Console`, `Transcript` : what a run has written and reported so far;
* `Report` : an error as it is reported, with the text of its trace if one is wanted;
* `Reporter` : what is done with a report at the console; `Reporter.console` writes it and remembers
  that there was one (`Reporter.receiveAll_console`), `Reporter.recorder` leaves it at the record of
  the reported errors;
* `Run` : computations with a transcript and failures; `Run.start` runs one, and the equations
  `Run.start_bind`, `Run.start_print`, … say what each step does to the transcript;
* `Run.result` : the result of a computation that starts with nothing written;
* `Run.attempt` : turns a runtime error into a result; all other failures pass.
-/

namespace TreeWalk

/-! ## Transcripts -/

structure Console where
  /-- The text of the error stream. -/
  errors : String := ""
  /-- Whether an error has been seen since the last reset. -/
  failed : Bool := false
  deriving Repr

structure Transcript extends Console where
  /-- The printed lines. -/
  printed : List String := []
  log : List String := []
  /-- The errors that were handed to the reporter. -/
  reports : List RuntimeError := []
  deriving Repr

/-- An error as it is reported. -/
structure Report where
  error : RuntimeError
  /-- The text of the trace, if one is wanted and the error was raised. -/
  trace : Option String
  deriving Repr

namespace Report

/-- What the console writes: the message, the line's number and text as far as they are known, and
the trace behind a heading. -/
def text (report : Report) : String :=
  report.error.message ++ "\n" ++
    (match report.error.line? with
      | some line => "[line " ++ toString line ++ "]\n"
      | none => "") ++
    (match report.error.sourceLine? with
      | some line => "    " ++ line ++ "\n"
      | none => "") ++
    (match report.trace with
      | some frames => "\nPython traceback:\n" ++ frames
      | none => "")

end Report

/-- What is done with a report at the console. The error itself is recorded in any case, so the
reporter has no need to keep it. -/
structure Reporter where
  receive : Report → Console → Console

namespace Reporter

def console : Reporter where
  receive report desk := { errors := desk.errors ++ report.text, failed := true }

def recorder : Reporter where
  receive _ desk := desk

/-- The console after reports one after another. -/
def receiveAll (reporter : Reporter) (reports : List Report) (desk : Console) : Console :=
  reports.foldl (fun desk report => reporter.receive report desk) desk

theorem receiveAll_append (reporter : Reporter) (reports others : List Report) (desk : Console) :
    reporter.receiveAll (reports ++ others) desk =
      reporter.receiveAll others (reporter.receiveAll reports desk) :=
  List.foldl_append

theorem receiveAll_console (reports : List Report) (desk : Console) :
    console.receiveAll reports desk =
      { errors := desk.errors ++ String.join (reports.map Report.text)
        failed := desk.failed || !reports.isEmpty } := by
  induction reports generalizing desk with
  | nil => simp [receiveAll]
  | cons report rest ih =>
    have hcons : console.receiveAll (report :: rest) desk =
        console.receiveAll rest { errors := desk.errors ++ report.text, failed := true } := rfl
    rw [hcons, ih, List.map_cons, String.join_cons, ← String.append_assoc]
    simp

end Reporter

namespace Transcript

/-- The text of the output stream. -/
def output (t : Transcript) : String := String.join (t.printed.map (· ++ "\n"))

def print (t : Transcript) (line : String) : Transcript :=
  { t with printed := t.printed ++ [line] }

def note (t : Transcript) (entry : String) : Transcript :=
  { t with log := t.log ++ [entry] }

/-- Hands an error to the reporter. -/
def report (t : Transcript) (reporter : Reporter) (report : Report) : Transcript :=
  { t with
    toConsole := reporter.receive report t.toConsole
    reports := t.reports ++ [report.error] }

end Transcript

/-- The exit code of a program, by whether the console has seen an error. -/
def exitCode (failed : Bool) : Nat := if failed then 70 else 0

/-! ## Computations -/

abbrev Run := ExceptT Failure (StateM Transcript)

namespace Run

def ofExcept {α : Type} (x : Except Failure α) : Run α := ExceptT.mk (pure x)

def print (line : String) : Run Unit := modify (·.print line)

def note (entry : String) : Run Unit := modify (·.note entry)

def report (reporter : Reporter) (report : Report) : Run Unit := modify (·.report reporter report)

/-- The result and the transcript of a computation that starts with a transcript. -/
def start {α : Type} (x : Run α) (t : Transcript) : Except Failure α × Transcript := x.run.run t

/-- The result of a computation that starts with nothing written. -/
def result {α : Type} (x : Run α) : Except Failure α := (x.start {}).1

/-- The runtime error that a computation ends with, if it does; other failures pass. -/
def attempt (x : Run Unit) : Run (Option RuntimeError) := fun t =>
  match x.start t with
  | (.ok (), t) => (.ok none, t)
  | (.error (.runtime e), t) => (.ok (some e), t)
  | (.error failure, t) => (.error failure, t)

/-! ## Computations by their results -/

variable {α β : Type}

theorem ext {x y : Run α} (h : ∀ t, x.start t = y.start t) : x = y := funext h

@[simp] theorem start_pure (a : α) (t : Transcript) : (pure a : Run α).start t = (.ok a, t) := rfl

@[simp] theorem start_throw (f : Failure) (t : Transcript) :
    (throw f : Run α).start t = (.error f, t) := rfl

@[simp] theorem start_ofExcept (x : Except Failure α) (t : Transcript) :
    (ofExcept x).start t = (x, t) := rfl

theorem start_bind (x : Run α) (f : α → Run β) (t : Transcript) :
    (x >>= f).start t = match x.start t with
      | (.ok a, t) => (f a).start t
      | (.error failure, t) => (.error failure, t) := by
  change ExceptT.bindCont f (x t).1 (x t).2 = match x t with
    | (.ok a, t) => (f a).start t
    | (.error failure, t) => (.error failure, t)
  rcases x t with ⟨_ | _, _⟩ <;> rfl

theorem ofExcept_bind (x : Except Failure α) (f : α → Except Failure β) :
    ofExcept (x >>= f) = ofExcept x >>= fun a => ofExcept (f a) := by
  cases x <;> rfl

theorem ofExcept_map (f : α → β) (x : Except Failure α) :
    ofExcept (f <$> x) = ofExcept x >>= fun a => pure (f a) := by
  cases x <;> rfl

@[simp] theorem throw_bind (f : Failure) (g : α → Run β) :
    ((throw f : Run α) >>= g) = throw f := rfl

@[simp] theorem start_print (line : String) (t : Transcript) :
    (print line).start t = (.ok (), t.print line) := rfl

@[simp] theorem start_note (entry : String) (t : Transcript) :
    (note entry).start t = (.ok (), t.note entry) := rfl

@[simp] theorem start_report (reporter : Reporter) (r : Report) (t : Transcript) :
    (report reporter r).start t = (.ok (), t.report reporter r) := rfl

theorem start_attempt (x : Run Unit) (t : Transcript) :
    (attempt x).start t = match x.start t with
      | (.ok (), t) => (.ok none, t)
      | (.error (.runtime e), t) => (.ok (some e), t)
      | (.error failure, t) => (.error failure, t) := rfl

end Run

end TreeWalk
