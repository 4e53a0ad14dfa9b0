import TreeWalk.Blueprint
import TreeWalk.Proofs.Closure

/-!
# Programs of the six forms

With the initial registry an evaluation writes nothing, so a statement either fails or prints what
it has to print, and a program is described by its statements alone: it ends at the first one that
fails, with the lines of those before.

* `Run.Silent` : computations that only have a result; all evaluations are (`eval_initial`);
* `Object.outcome` : the result of an evaluation;
* `Object.failure?`, `Object.lines` : what becomes of a statement (`exec_initial`);
* `interpret_initial` : the whole of a program, with its summary, its lines, its log and its report.
-/

namespace TreeWalk

open Run

/-! ## Evaluation -/

namespace Run

/-- Writes nothing and depends on nothing written. -/
def Silent (α : Type) (x : Run α) : Prop := ∃ r, x = Run.ofExcept r

theorem silent_closed : Closed Silent where
  result a := ⟨.ok a, rfl⟩
  failure f := ⟨.error f, rfl⟩
  sequence {_ _ x f} hx hf := by
    obtain ⟨r, rfl⟩ := hx
    cases r with
    | ok a => exact hf a
    | error f => exact ⟨.error f, rfl⟩

end Run

theorem Registry.exprRule?_initial_ne_echo (label : String) :
    Registry.initial.exprRule? label ≠ some .echo := by
  change (Form.ofLabel? label).bind Form.exprRule? ≠ _
  cases Form.ofLabel? label with
  | none => simp
  | some form => cases form <;> simp [Form.exprRule?]

theorem eval_initial_silent (o : Object) : Silent Object (eval .initial o) :=
  eval_closed silent_closed (fun label h => absurd h (Registry.exprRule?_initial_ne_echo label)) o

/-- The result of evaluating an object of the six forms. -/
def Object.outcome (o : Object) : Except Failure Object := ((eval .initial o).start {}).1

theorem eval_initial (o : Object) : eval .initial o = Run.ofExcept o.outcome := by
  obtain ⟨r, hr⟩ := eval_initial_silent o
  rw [Object.outcome, hr, start_ofExcept]

theorem outcome_eq {e : Object} {r : Except Failure Object} (h : eval .initial e = Run.ofExcept r) :
    e.outcome = r := by
  rw [Object.outcome, h, start_ofExcept]

theorem outcome_literal (o : Object) (rest : List Object) :
    (Object.node .literal (o :: rest)).outcome = .ok o :=
  outcome_eq (eval_literal rfl o rest)

theorem outcome_grouping (inner : Object) (rest : List Object) :
    (Object.node .grouping (inner :: rest)).outcome = inner.outcome :=
  outcome_eq ((eval_grouping rfl inner rest).trans (eval_initial inner))

theorem outcome_unary (op operand : Object) (rest : List Object) :
    (Object.node .unary (op :: operand :: rest)).outcome =
      operand.outcome >>= fun v => Object.value <$> applyUnary op v := by
  apply outcome_eq
  rw [Object.node, eval_unary rfl, eval_initial]
  simp only [ofExcept_bind, ofExcept_map]

theorem outcome_binary (left op right : Object) :
    (Object.node .binary [left, op, right]).outcome =
      left.outcome >>= fun v => right.outcome >>= fun w => Object.value <$> applyBinary op v w := by
  apply outcome_eq
  rw [Object.node, eval_binary rfl, eval_initial, eval_initial]
  simp only [ofExcept_bind, ofExcept_map]

/-! ## Statements -/

namespace Object

/-- Why a statement fails, if it does: it is no statement, it has nothing to evaluate, or its
evaluation fails. -/
def failure? : Object → Option Failure
  | .tree (some label) children =>
    if label = Form.expression.label ∨ label = Form.print.label then
      match children with
      | [] => some .missingChild
      | e :: _ =>
        match e.outcome with
        | .ok _ => none
        | .error f => some f
    else some (.cannotExecute (.tree (some label) children))
  | s => some (.cannotExecute s)

def fails (s : Object) : Bool := s.failure?.isSome

/-- What a statement prints: the value of a printing one. -/
def lines : Object → List String
  | .tree (some label) (e :: _) =>
    if label = Form.print.label then
      match e.outcome with
      | .ok v => [v.printed]
      | .error _ => []
    else []
  | _ => []

theorem failure?_expression (e : Object) :
    e.expression.failure? = match e.outcome with
      | .ok _ => none
      | .error f => some f := by
  rw [expression, node, failure?, if_pos (.inl rfl)]

theorem failure?_print (e : Object) :
    e.print.failure? = match e.outcome with
      | .ok _ => none
      | .error f => some f := by
  rw [print, node, failure?, if_pos (.inr rfl)]

theorem lines_expression (e : Object) : e.expression.lines = [] := by
  rw [expression, node, lines, if_neg (by decide)]

theorem lines_print (e : Object) :
    e.print.lines = match e.outcome with
      | .ok v => [v.printed]
      | .error _ => [] := by
  rw [print, node, lines, if_pos rfl]

end Object

theorem Registry.stmtRule?_initial (label : String) :
    Registry.initial.stmtRule? label =
      if label = Form.print.label then some .print
      else if label = Form.expression.label then some .expression
      else none := by
  change (Form.ofLabel? label).bind Form.stmtRule? = _
  split
  · next h => rw [h, Form.ofLabel?_label]; rfl
  · next hp =>
    split
    · next h => rw [h, Form.ofLabel?_label]; rfl
    · next he =>
      cases hf : Form.ofLabel? label with
      | none => rfl
      | some form =>
        have hl := Form.label_of_ofLabel? hf
        cases form with
        | expression => exact absurd hl.symm he
        | print => exact absurd hl.symm hp
        | literal | grouping | unary | binary => rfl

variable {context : Context}

/-- The first child of a statement is what it evaluates. -/
theorem StmtRule.valueAt_clauses (hr : context.registry = .initial) (children : List Object) :
    valueAt (clauses context children) 0 =
      match children with
      | [] => throw .missingChild
      | e :: _ => Run.ofExcept e.outcome := by
  cases children with
  | nil => rfl
  | cons e rest =>
    rw [clauses, valueAt, childAt_of_some List.getElem?_cons_zero, pure_bind, hr, eval_initial]

/-- A statement fails and writes nothing, or it prints its lines. -/
theorem exec_initial (hr : context.registry = .initial) (s : Object) (t : Transcript) :
    (exec context s).start t =
      match s.failure? with
      | some f => (.error f, t)
      | none => (.ok (), { t with printed := t.printed ++ s.lines }) := by
  have htext : Form.expression.label ≠ Form.print.label := by decide
  cases s with
  | tree label children =>
    cases label with
    | none => rfl
    | some label =>
      rw [exec, hr, Registry.stmtRule?_initial]
      simp only [Object.failure?]
      by_cases hp : label = Form.print.label
      · subst hp
        simp only [if_pos, or_true, StmtRule.exec, start_bind, StmtRule.valueAt_clauses hr]
        cases children with
        | nil => rfl
        | cons e rest =>
          simp only [Object.lines, if_pos, start_ofExcept]
          cases e.outcome <;> rfl
      · by_cases he : label = Form.expression.label
        · subst he
          simp only [if_neg htext, if_pos, true_or, StmtRule.exec, start_bind,
            StmtRule.valueAt_clauses hr]
          cases children with
          | nil => rfl
          | cons e rest =>
            simp only [Object.lines, if_neg htext, start_ofExcept, List.append_nil]
            cases e.outcome <;> rfl
        · rw [if_neg hp, if_neg he, if_neg (not_or.2 ⟨he, hp⟩)]
          rfl
  | plain _ | value _ | operator _ | token _ => rfl

/-! ## Programs -/

/-- The transcript of a program that ends after `executed` statements, before the error is logged:
their lines, and an entry for each of them and for the next one, which fails. -/
def Transcript.afterStatements (t : Transcript) (statements : List Object) (executed : Nat) :
    Transcript :=
  { t with
    printed := t.printed ++ (statements.take executed).flatMap Object.lines
    log := t.log ++ (statements.take (executed + 1)).map fun s => statementEntry s.logName }

@[simp] theorem Transcript.afterStatements_nil (t : Transcript) (executed : Nat) :
    t.afterStatements [] executed = t := by
  simp [afterStatements]

theorem Transcript.afterStatements_cons_zero (t : Transcript) (s : Object) (rest : List Object) :
    t.afterStatements (s :: rest) 0 = t.note (statementEntry s.logName) := by
  simp [afterStatements, note]

theorem Transcript.afterStatements_cons_succ (t : Transcript) (s : Object) (rest : List Object)
    (executed : Nat) :
    t.afterStatements (s :: rest) (executed + 1) =
      { t.note (statementEntry s.logName) with printed := t.printed ++ s.lines }.afterStatements
        rest executed := by
  simp [afterStatements, note]

/-- A program ends at its first statement that fails, or behind the last one. -/
theorem runFrom_initial (hr : context.registry = .initial) (statements : List Object)
    (executed : Nat) (t : Transcript) :
    (Clause.runFrom context executed (clauses context statements)).start t =
      let count := statements.findIdx Object.fails
      let t := t.afterStatements statements count
      match statements[count]?.bind fun s => s.failure?.map fun f => (s, f) with
      | none => (.ok ⟨executed + statements.length, none⟩, t)
      | some (s, f) => stopAt context (executed + count) s t f := by
  induction statements generalizing executed t with
  | nil =>
    simp only [Transcript.afterStatements_nil]
    rfl
  | cons s rest ih =>
    simp only [start_runFrom, exec_initial hr]
    cases hf : s.failure? with
    | none =>
      have hs : s.fails = false := by rw [Object.fails, hf]; rfl
      have hlength : executed + (rest.length + 1) = executed + 1 + rest.length := by omega
      have hcount : executed + (rest.findIdx Object.fails + 1) =
          executed + 1 + rest.findIdx Object.fails := by omega
      simp only [List.findIdx_cons, hs, cond_false, Transcript.afterStatements_cons_succ,
        List.getElem?_cons_succ, List.length_cons, hlength, hcount]
      exact ih (executed + 1) _
    | some f =>
      have hs : s.fails = true := by rw [Object.fails, hf]; rfl
      simp only [List.findIdx_cons, hs, cond_true, Transcript.afterStatements_cons_zero,
        List.getElem?_cons_zero, Option.bind_some, hf, Option.map_some]
      rfl

theorem stopAt_printed (executed : Nat) (s : Object) (t : Transcript) (f : Failure) :
    (stopAt context executed s t f).2.printed = t.printed := by
  cases f <;> rfl

/-- What was logged when a program stops, before the error is: the program and its statements, the
one that fails included. -/
def entriesBefore (statements : List Object) (count : Nat) : List String :=
  programEntry statements.length ::
    (statements.take (count + 1)).map fun s => statementEntry s.logName

theorem log_afterStatements (t : Transcript) (statements : List Object) (count : Nat) :
    ((t.note (programEntry statements.length)).afterStatements statements count).log =
      t.log ++ entriesBefore statements count := by
  simp [Transcript.afterStatements, Transcript.note, entriesBefore]

/-- **A program of the six forms ends at its first statement that fails.** It prints the lines of
the statements before and nothing else. A runtime error of the failing statement is in the summary,
logged and reported once, with the program's source unless it has one of its own; any other failure
is that of the program and is neither logged nor reported. -/
theorem interpret_initial (source : Option String) (reporter : Reporter) (tracing : Bool)
    (wording : List Call → String) (statements : List Object) (t : Transcript) :
    let context : Context := { source, reporter, tracing, wording }
    let count := statements.findIdx Object.fails
    let before := (t.note (programEntry statements.length)).afterStatements statements count
    let run := (interpret context statements).start t
    let stop := statements[count]?.bind fun s => s.failure?.map fun f => (s, f)
    run.2.output =
        t.output ++ String.join (((statements.take count).flatMap Object.lines).map (· ++ "\n")) ∧
      (run = match stop with
        | none => (.ok ⟨statements.length, none⟩, before)
        | some (s, f) => stopAt context count s before f) ∧
      match stop with
      | some (s, .runtime e) =>
        let error : RuntimeError := ⟨e.token, e.message, e.source.or source⟩
        let trace := if tracing then some (wording (.program :: execTrace context s)) else none
        let entry := "runtime error in statement " ++ toString (count + 1) ++ " (" ++ s.logName ++
          "): " ++ error.text
        run.1 = .ok ⟨count, some error⟩ ∧ run.2.reports = t.reports ++ [error] ∧
          run.2.toConsole = reporter.receive ⟨error, trace⟩ t.toConsole ∧
          run.2.log = t.log ++ entriesBefore statements count ++ [entry]
      | stop =>
        run.1 = (match stop with
          | none => .ok ⟨statements.length, none⟩
          | some (_, f) => .error f) ∧
          run.2.reports = t.reports ∧ run.2.toConsole = t.toConsole ∧
          run.2.log = t.log ++ entriesBefore statements count := by
  intro context count before run stop
  have hrun : run = match stop with
      | none => (.ok ⟨statements.length, none⟩, before)
      | some (s, f) => stopAt context count s before f := by
    have h := @runFrom_initial context rfl statements 0 (t.note (programEntry statements.length))
    simp only [Nat.zero_add] at h
    exact (start_interpret context statements t).trans h
  have hlog : before.log = t.log ++ entriesBefore statements count := log_afterStatements ..
  refine ⟨?_, hrun, ?_⟩
  · have hprinted : run.2.printed = before.printed := by
      rw [hrun]
      cases stop with
      | none => rfl
      | some failing => exact stopAt_printed ..
    have hbefore : before.printed = t.printed ++ (statements.take count).flatMap Object.lines := rfl
    rw [Transcript.output, hprinted, hbefore, List.map_append, String.join_append]
    rfl
  · rw [hrun]
    cases stop with
    | none => exact ⟨rfl, rfl, rfl, hlog⟩
    | some failing =>
      obtain ⟨s, f⟩ := failing
      cases f with
      | runtime e => exact ⟨rfl, rfl, rfl, congrArg (· ++ _) hlog⟩
      | _ => exact ⟨rfl, rfl, rfl, hlog⟩

end TreeWalk
