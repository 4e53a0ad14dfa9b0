import TreeWalk.Proofs.Closure

/-!
# Programs one after another

Running two lists of statements as one program is running the first and, if it ends without an
error, the second on what the first has left. This holds in any registry, although statements may
run programs inside that report and log as well: a run never looks at the log, so it goes on in the
same way behind another one (`exec_after_log`).

* `Summary.after`, `endEntries` : a program with statements before it, as the summary counts them
  and as the log numbers them;
* `runFrom_append` : the loop over appended lists;
* `runFrom_offset` : the loop from any number of statements and behind any log;
* `interpret_append` : programs over appended lists, with all they show.
-/

namespace TreeWalk

open Run

/-- The summary of a program with `count` statements before it. -/
def Summary.after (count : Nat) (s : Summary) : Summary := { s with executed := count + s.executed }

theorem Summary.after_zero (s : Summary) : s.after 0 = s := by
  rw [after, Nat.zero_add]

theorem map_after_after (r : Except Failure Summary) (m n : Nat) :
    (r.map (Summary.after m)).map (Summary.after n) = r.map (Summary.after (n + m)) := by
  cases r with
  | error _ => rfl
  | ok s => simp only [Except.map, Summary.after, Nat.add_assoc]

theorem map_after_zero (r : Except Failure Summary) : r.map (Summary.after 0) = r := by
  cases r with
  | error _ => rfl
  | ok s => rw [Except.map, Summary.after_zero]

/-- The last entry of a program that ends with a runtime error, with `count` statements before the
program; the statements are given by their names. -/
def endEntries (count : Nat) (names : List String) : Except Failure Summary → List String
  | .ok ⟨executed, some e⟩ => [errorEntry (count + executed + 1) (names.getD executed "") e]
  | _ => []

theorem endEntries_cons (count : Nat) (name : String) (names : List String)
    (r : Except Failure Summary) :
    endEntries count (name :: names) (r.map (.after 1)) = endEntries (count + 1) names r := by
  match r with
  | .error _ => rfl
  | .ok ⟨_, none⟩ => rfl
  | .ok ⟨executed, some e⟩ =>
    have hnumber : count + (1 + executed) + 1 = count + 1 + executed + 1 := by omega
    simp only [Except.map, Summary.after, endEntries, hnumber]
    rw [Nat.add_comm 1 executed, List.getD_cons_succ]

/-! ## The loop -/

/-- The transcript with entries in front of its log. -/
def Transcript.behind (entries : List String) (t : Transcript) : Transcript :=
  { t with log := entries ++ t.log }

theorem behind_closed (context : Context) (entries : List String) :
    ClosedUnderEffects context (Commutes (Transcript.behind entries)) :=
  commutes_closedUnderEffects (fun _ _ => rfl)
    (fun t entry => by simp [Transcript.behind, Transcript.note]) fun _ _ => rfl

/-- What an execution does to the transcript is the same behind any log. -/
theorem exec_after_log (context : Context) (o : Object) (t : Transcript) :
    ∃ (r : Except Failure Unit) (t' : Transcript), ∀ entries : List String,
      (exec context o).start { t with log := entries } =
        (r, { t' with log := entries ++ t'.log }) := by
  let run := (exec context o).start { t with log := [] }
  refine ⟨run.1, run.2, fun entries => ?_⟩
  have h := exec_closed (behind_closed context entries) o { t with log := [] }
  rw [Transcript.behind, List.append_nil] at h
  exact h

theorem runFrom_append (context : Context) (xs ys : List Clause) (count : Nat) :
    Clause.runFrom context count (xs ++ ys) = do
      let s ← Clause.runFrom context count xs
      match s.error with
      | none => Clause.runFrom context s.executed ys
      | some _ => return s := by
  induction xs generalizing count with
  | nil => rfl
  | cons x xs ih =>
    simp only [List.cons_append, Clause.runFrom, bind_assoc]
    congr
    funext _
    congr
    funext error
    cases error with
    | none => exact ih (count + 1)
    | some e => simp only [bind_assoc, pure_bind]

theorem start_runFrom_append (context : Context) (xs ys : List Object) (count : Nat)
    (t : Transcript) :
    (Clause.runFrom context count (clauses context (xs ++ ys))).start t =
      match (Clause.runFrom context count (clauses context xs)).start t with
      | (.ok ⟨executed, none⟩, u) =>
        (Clause.runFrom context executed (clauses context ys)).start u
      | out => out := by
  rw [clauses_append, runFrom_append, start_bind]
  match (Clause.runFrom context count (clauses context xs)).start t with
  | (.ok ⟨_, none⟩, _) => rfl
  | (.ok ⟨_, some _⟩, _) => rfl
  | (.error _, _) => rfl

/-- The names by which the log knows statements. -/
def names (statements : List Object) : List String := statements.map Object.logName

/-- A program stops at a statement in the same way whatever came before. -/
theorem stopAt_offset (context : Context) (s : Object) (t : Transcript) (f : Failure) :
    ∃ (r : Except Failure Summary) (t' : Transcript), (∀ s, r = .ok s → s.error ≠ none) ∧
      ∀ (count : Nat) (others entries : List String),
        stopAt context count s { t with log := entries } f =
          (r.map (.after count),
            { t' with log := entries ++ endEntries count (s.logName :: others) r }) := by
  by_cases hf : ∃ e, f = .runtime e
  · obtain ⟨e, rfl⟩ := hf
    let e' := e.withSource context.source
    let report : Report := ⟨e', context.trace? (execTrace context s)⟩
    refine ⟨.ok ⟨0, some e'⟩, t.report context.reporter report, fun s hs => ?_, fun _ _ _ => rfl⟩
    cases hs
    simp
  · refine ⟨.error f, t, fun _ hs => (nomatch hs), fun count others entries => ?_⟩
    rw [stopAt_of_ne (not_exists.1 hf), endEntries, List.append_nil]
    · rfl
    · simp

/-- The loop over statements from any number on and behind any log: only the count in the summary,
the log in front, and the number in the last entry depend on where it starts. -/
theorem runFrom_offset (context : Context) (statements : List Object) (t : Transcript) :
    ∃ (r : Except Failure Summary) (t' : Transcript) (body : List String),
      (∀ s, r = .ok s → s.error = none → s.executed = statements.length) ∧
      ∀ (count : Nat) (entries : List String),
        (Clause.runFrom context count (clauses context statements)).start
            { t with log := entries } =
          (r.map (.after count),
            { t' with log := entries ++ body ++ endEntries count (names statements) r }) := by
  induction statements generalizing t with
  | nil =>
    refine ⟨.ok ⟨0, none⟩, t, [], fun s hs _ => ?_, fun count entries => ?_⟩
    · cases hs
      rfl
    · simp [clauses, Clause.runFrom, endEntries, Except.map, Summary.after]
  | cons s rest ih =>
    obtain ⟨re, te, heffect⟩ := exec_after_log context s t
    have hstep : ∀ entries : List String,
        (exec context s).start ({ t with log := entries }.note (statementEntry s.logName)) =
          (re, { te with log := entries ++ [statementEntry s.logName] ++ te.log }) := fun entries =>
      heffect _
    simp only [start_runFrom, hstep, names, List.map_cons]
    cases re with
    | ok _ =>
      obtain ⟨r, t', body, hlength, hrest⟩ := ih te
      refine ⟨r.map (.after 1), t', statementEntry s.logName :: te.log ++ body, ?_, ?_⟩
      · intro s hs he
        cases r with
        | error _ => cases hs
        | ok s' =>
          cases hs
          rw [List.length_cons, ← hlength s' rfl he, Nat.add_comm]
          rfl
      · intro count entries
        refine (hrest (count + 1) _).trans ?_
        rw [endEntries_cons, map_after_after]
        simp [names]
    | error f =>
      obtain ⟨r, t', hr, hstop⟩ := stopAt_offset context s te f
      refine ⟨r, t', statementEntry s.logName :: te.log, fun s hs he => absurd he (hr s hs), ?_⟩
      intro count entries
      refine (hstop count (names rest) _).trans ?_
      simp [names]

/-! ## Appended programs -/

theorem start_interpret_of_offset {context : Context} {statements : List Object}
    {t t' : Transcript} {r : Except Failure Summary} {body : List String}
    (h : ∀ (count : Nat) (entries : List String),
      (Clause.runFrom context count (clauses context statements)).start { t with log := entries } =
        (r.map (.after count),
          { t' with log := entries ++ body ++ endEntries count (names statements) r }))
    (entries : List String) :
    (interpret context statements).start { t with log := entries } =
      (r, { t' with
        log := entries ++ programEntry statements.length :: body ++
          endEntries 0 (names statements) r }) := by
  rw [start_interpret]
  refine (h 0 _).trans ?_
  rw [map_after_zero]
  simp

/-- **A program over appended lists is the first program and, if that ends without an error, then
the second.** Results, output, errors and reports are the same; the summary counts the statements
of the first program, and in the log only the header and the number in the last entry differ. -/
theorem interpret_append (context : Context) (xs ys : List Object) (t : Transcript) :
    let both := (interpret context (xs ++ ys)).start t
    let header := programEntry (xs.length + ys.length)
    match (interpret context xs).start t with
    | (r, u) => ∃ body : List String,
      u.log = t.log ++ programEntry xs.length :: body ++ endEntries 0 (names xs) r ∧
      match r with
      | .ok ⟨executed, none⟩ => executed = xs.length ∧
        match (interpret context ys).start u with
        | (r', u') => ∃ body' : List String,
          u'.log = u.log ++ programEntry ys.length :: body' ++ endEntries 0 (names ys) r' ∧
          both = (r'.map (.after xs.length), { u' with
            log := t.log ++ header :: body ++ body' ++ endEntries xs.length (names ys) r' })
      | r => both = (r, { u with
          log := t.log ++ header :: body ++ endEntries 0 (names xs) r }) := by
  intro both header
  obtain ⟨r, u, body, hlength, hxs⟩ := runFrom_offset context xs t
  have hfirst := start_interpret_of_offset hxs t.log
  have hboth :
      both = (Clause.runFrom context 0 (clauses context (xs ++ ys))).start (t.note header) := by
    simp only [both, header, start_interpret, List.length_append]
  have hrun := hxs 0 (t.log ++ [header])
  rw [map_after_zero] at hrun
  rw [start_runFrom_append, Transcript.note, hrun] at hboth
  rw [hfirst]
  refine ⟨body, rfl, ?_⟩
  match r with
  | .ok ⟨executed, some e⟩ => simpa using hboth
  | .error f => simpa using hboth
  | .ok ⟨executed, none⟩ =>
    obtain rfl : executed = xs.length := hlength _ rfl rfl
    obtain ⟨r', u', body', -, hys⟩ := runFrom_offset context ys u
    rw [start_interpret_of_offset hys]
    refine ⟨rfl, body', rfl, hboth.trans ((hys _ _).trans ?_)⟩
    simp [endEntries]

end TreeWalk
