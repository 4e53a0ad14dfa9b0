import TreeWalk.Proofs.Coherence

/-!
# Histories of sessions

What a session has done leaves little behind. A run never looks at what is written already, it only
adds to it; so it makes no difference to a step whether it starts with nothing written or goes on
where others have stopped, and of the steps before it only those count that configure the session:
registrations, in their order, and the last source and the last trace setting.

* `Transcript.append` : a transcript and what is added to it;
* `Run.Appends` : runs that have one result and add the same to any transcript; with the console as
  reporter all runs are such (`appends_closedUnderEffects`, `work_appends`);
* `Session.after` : the session that a history leads to; `Session.run_append`;
* `Session.configured` : the session as the history has configured it (`calm_after`);
* `Session.runOn` : the steps on one transcript that goes on from step to step (`runOn_eq`);
* `history_unseen` : what a step shows, whatever came before.
-/

namespace TreeWalk

open Run

/-! ## Transcripts that go on -/

namespace Transcript

/-- A transcript and what is added to it; an error that has been seen stays seen. -/
def append (t u : Transcript) : Transcript where
  errors := t.errors ++ u.errors
  failed := t.failed || u.failed
  printed := t.printed ++ u.printed
  log := t.log ++ u.log
  reports := t.reports ++ u.reports

instance : Append Transcript := ⟨append⟩

theorem append_eq (t u : Transcript) :
    t ++ u = ⟨⟨t.errors ++ u.errors, t.failed || u.failed⟩, t.printed ++ u.printed, t.log ++ u.log,
      t.reports ++ u.reports⟩ := rfl

theorem append_empty (t : Transcript) : t ++ ({} : Transcript) = t := by
  simp only [append_eq, String.append_empty, Bool.or_false, List.append_nil]

theorem append_assoc (t u v : Transcript) : t ++ u ++ v = t ++ (u ++ v) := by
  simp only [append_eq, String.append_assoc, Bool.or_assoc, List.append_assoc]

theorem print_eq (t : Transcript) (line : String) : t.print line = t ++ { printed := [line] } := by
  simp only [print, append_eq, String.append_empty, Bool.or_false, List.append_nil]

theorem note_eq (t : Transcript) (entry : String) : t.note entry = t ++ { log := [entry] } := by
  simp only [note, append_eq, String.append_empty, Bool.or_false, List.append_nil]

theorem report_console_eq (t : Transcript) (r : Report) :
    t.report .console r = t ++ { errors := r.text, failed := true, reports := [r.error] } := by
  simp only [report, Reporter.console, append_eq, Bool.or_true, List.append_nil]

end Transcript

namespace Run

/-- Has one result and adds the same to whatever was written before. -/
def Appends (α : Type) (x : Run α) : Prop :=
  ∃ (r : Except Failure α) (u : Transcript), ∀ t, x.start t = (r, t ++ u)

theorem appends_report (r : Report) : Appends Unit (Run.report .console r) :=
  ⟨.ok (), { errors := r.text, failed := true, reports := [r.error] }, fun t => by
    rw [start_report, t.report_console_eq]⟩

theorem appends_closedUnderEffects {context : Context} (h : context.reporter = .console) :
    ClosedUnderEffects context Appends where
  result a := ⟨.ok a, {}, fun t => by rw [start_pure, t.append_empty]⟩
  failure f := ⟨.error f, {}, fun t => by rw [start_throw, t.append_empty]⟩
  sequence {_ _ x f} hx hf := by
    obtain ⟨r, u, hx⟩ := hx
    cases r with
    | error failure => exact ⟨.error failure, u, fun t => by rw [start_bind, hx]⟩
    | ok a =>
      obtain ⟨s, v, hf⟩ := hf a
      refine ⟨s, u ++ v, fun t => ?_⟩
      rw [start_bind, hx]
      change (f a).start (t ++ u) = (s, t ++ (u ++ v))
      rw [hf, t.append_assoc]
  print line := ⟨.ok (), { printed := [line] }, fun t => by rw [start_print, t.print_eq]⟩
  note entry := ⟨.ok (), { log := [entry] }, fun t => by rw [start_note, t.note_eq]⟩
  report e calls := by
    rw [h]
    exact appends_report _
  attempt {x} hx := by
    obtain ⟨r, u, hx⟩ := hx
    match r with
    | .ok () => exact ⟨.ok none, u, fun t => by rw [start_attempt, hx]⟩
    | .error failure =>
      by_cases hf : ∃ e, failure = .runtime e
      · obtain ⟨e, rfl⟩ := hf
        exact ⟨.ok (some e), u, fun t => by rw [start_attempt, hx]⟩
      · exact ⟨.error failure, u, fun t => start_attempt_of_ne (not_exists.1 hf) (hx t)⟩

end Run

/-! ## Steps -/

/-- The entry of a step without the memory of errors seen before. -/
def Entry.shown (entry : Entry) : Entry :=
  { entry with transcript := { entry.transcript with failed := false } }

namespace Session

variable {s : Session}

/-- The session as if no error had been seen. -/
def calm (s : Session) : Session := { s with failed := false }

theorem work_calm (s : Session) (step : Step) : s.calm.work step = s.work step := by
  cases step <;> rfl

theorem calm_adjust (s : Session) (step : Step) :
    (s.calm.adjust step).calm = (s.adjust step).calm := by
  cases step <;> rfl

theorem work_adjust_calm (s : Session) (step : Step) :
    (s.calm.adjust step).work step = (s.adjust step).work step := by
  rw [← work_calm, calm_adjust, work_calm]

theorem reporter_adjust (s : Session) (step : Step) : (s.adjust step).reporter = s.reporter := by
  cases step <;> rfl

theorem work_appends (h : s.reporter = .console) (step : Step) : Appends Reply (s.work step) := by
  have hclosed : ClosedUnderEffects s.context Appends := appends_closedUnderEffects h
  have hresult : ∀ {α : Type} (x : Except Failure α), Appends α (Run.ofExcept x) := hclosed.ofExcept
  cases step with
  | interpret statements =>
    refine hclosed.sequence (hresult _) fun nodes => ?_
    exact hclosed.sequence (interpret_closed hclosed nodes) fun _ => hclosed.result _
  | evaluate expression =>
    refine hclosed.sequence (hresult _) fun node => ?_
    have heval : Appends Object (eval s.registry node) :=
      eval_closed hclosed.toClosed (fun _ _ => hclosed.print) node
    exact hclosed.sequence heval fun _ => hclosed.result _
  | execute statement =>
    refine hclosed.sequence (hresult _) fun node => ?_
    exact hclosed.sequence (exec_closed hclosed node) fun _ => hclosed.result _
  | render node =>
    refine hclosed.sequence (hresult _) fun node => ?_
    exact hclosed.sequence (hresult _) fun _ => hclosed.result _
  | inspect node => exact hclosed.sequence (hresult _) fun _ => hclosed.result _
  | report token message source =>
    refine hclosed.sequence (hresult _) fun token => ?_
    rw [h]
    exact hclosed.sequence (appends_report _) fun _ => hclosed.result _
  | reset | setSource | setTracing | addExpr | addStmt => exact hclosed.result _

/-- What a step does: it has one reply and adds the same to any transcript. -/
theorem perform_eq (h : s.reporter = .console) (step : Step) :
    ∃ (r : Except Failure Reply) (u : Transcript),
      (∀ t, ((s.adjust step).work step).start t = (r, t ++ u)) ∧
      s.perform step =
        (⟨r, { failed := (s.adjust step).failed } ++ u⟩,
          { s.adjust step with failed := (s.adjust step).failed || u.failed }) := by
  have hreporter : (s.adjust step).reporter = .console := (s.reporter_adjust step).trans h
  obtain ⟨r, u, hwork⟩ := work_appends hreporter step
  refine ⟨r, u, hwork, ?_⟩
  rw [perform, hwork]
  rfl

/-- Errors seen before change nothing of what a step shows. -/
theorem shown_perform_calm (h : s.reporter = .console) (step : Step) :
    (s.calm.perform step).1.shown = (s.perform step).1.shown := by
  obtain ⟨r, u, hwork, hperform⟩ := perform_eq h step
  obtain ⟨r', u', hwork', hperform'⟩ := perform_eq (s := s.calm) h step
  rw [work_adjust_calm] at hwork'
  have hsame : (r', ({} : Transcript) ++ u') = (r, {} ++ u) := (hwork' {}).symm.trans (hwork {})
  obtain ⟨hr, ht⟩ := Prod.ext_iff.1 hsame
  rw [hperform, hperform']
  simp only [Entry.shown, Entry.mk.injEq]
  refine ⟨hr, ?_⟩
  simp only [Transcript.append_eq, Transcript.mk.injEq, Console.mk.injEq] at ht ⊢
  exact ⟨⟨ht.1.1, trivial⟩, ht.2⟩

/-! ## Histories -/

/-- The session that a history leads to. -/
def after (s : Session) (history : List Step) : Session :=
  history.foldl (fun s step => (s.perform step).2) s

theorem after_cons (s : Session) (step : Step) (rest : List Step) :
    s.after (step :: rest) = (s.perform step).2.after rest := rfl

theorem run_cons (s : Session) (step : Step) (rest : List Step) :
    s.run (step :: rest) = (s.perform step).1 :: (s.perform step).2.run rest := rfl

theorem length_run (s : Session) (steps : List Step) : (s.run steps).length = steps.length := by
  induction steps generalizing s with
  | nil => rfl
  | cons step rest ih => rw [run_cons, List.length_cons, List.length_cons, ih]

theorem run_append (s : Session) (history later : List Step) :
    s.run (history ++ later) = s.run history ++ (s.after history).run later := by
  induction history generalizing s with
  | nil => rfl
  | cons step rest ih => rw [List.cons_append, run_cons, run_cons, ih, after_cons, List.cons_append]

/-- The entry of a step stands behind those of its history. -/
theorem getElem?_run (s : Session) (history : List Step) (step : Step) (later : List Step) :
    (s.run (history ++ step :: later))[history.length]? =
      some ((s.after history).perform step).1 := by
  rw [run_append, ← s.length_run history, List.getElem?_append_right (Nat.le_refl _),
    Nat.sub_self, run_cons, List.getElem?_cons_zero]

end Session

namespace Step

/-- The registration that a step makes. -/
def registration? : Step → Option Registration
  | .addExpr label rule => some (.expr label rule)
  | .addStmt label rule => some (.stmt label rule)
  | _ => none

/-- The source that a step sets. -/
def source? : Step → Option (Option String)
  | .setSource source => some source
  | _ => none

/-- The trace setting that a step sets. -/
def setting? : Step → Option (Option String)
  | .setTracing setting => some setting
  | _ => none

/-- Whether a step registers a rule or sets the source or the trace setting. -/
def configures : Step → Bool
  | .setSource _ | .setTracing _ | .addExpr _ _ | .addStmt _ _ => true
  | _ => false

theorem eq_none_of_not_configures {step : Step} (h : step.configures = false) :
    step.registration? = none ∧ step.source? = none ∧ step.setting? = none := by
  cases step with
  | setSource | setTracing | addExpr | addStmt => cases h
  | _ => exact ⟨rfl, rfl, rfl⟩

end Step

namespace Session

variable {s : Session}

/-- The session with the registrations of a history, its last source and its last trace setting. -/
def configured (s : Session) (history : List Step) : Session :=
  { s with
    registry := s.registry.registerAll (history.filterMap Step.registration?)
    source := (history.filterMap Step.source?).getLastD s.source
    traceSetting := (history.filterMap Step.setting?).getLastD s.traceSetting }

theorem calm_configured_cons (s : Session) (step : Step) (rest : List Step) :
    ((s.perform step).2.configured rest).calm = (s.configured (step :: rest)).calm := by
  cases step with
  | setSource | setTracing =>
    simp only [configured, calm, List.filterMap_cons, Step.source?, Step.setting?,
      Step.registration?, List.getLastD_cons]
    rfl
  | _ => rfl

theorem calm_after (s : Session) (history : List Step) :
    (s.after history).calm = (s.configured history).calm := by
  induction history generalizing s with
  | nil => rfl
  | cons step rest ih => rw [after_cons, ih, calm_configured_cons]

theorem reporter_after (s : Session) (history : List Step) :
    (s.after history).reporter = s.reporter := by
  have h : (s.after history).calm.reporter = (s.configured history).calm.reporter :=
    congrArg Session.reporter (s.calm_after history)
  exact h

theorem wording_after (s : Session) (history : List Step) :
    (s.after history).wording = s.wording := by
  have h : (s.after history).calm.wording = (s.configured history).calm.wording :=
    congrArg Session.wording (s.calm_after history)
  exact h

theorem configured_filter (s : Session) (history : List Step) :
    s.configured (history.filter Step.configures) = s.configured history := by
  have hfilter : ∀ {β : Type} (f : Step → Option β),
      (∀ step, step.configures = false → f step = none) →
      (history.filter Step.configures).filterMap f = history.filterMap f := by
    intro β f hf
    rw [List.filterMap_filter]
    refine List.filterMap_congr fun step _ => ?_
    cases hc : step.configures with
    | true => rw [if_pos rfl]
    | false => rw [hf step hc, ite_self]
  have hnone := fun step => @Step.eq_none_of_not_configures step
  rw [configured, hfilter Step.registration? fun step h => (hnone step h).1,
    hfilter Step.source? fun step h => (hnone step h).2.1,
    hfilter Step.setting? fun step h => (hnone step h).2.2, configured]

theorem shown_perform_after (h : s.reporter = .console) (history : List Step) (step : Step) :
    ((s.after history).perform step).1.shown = ((s.configured history).perform step).1.shown := by
  have hafter : (s.after history).reporter = .console := (s.reporter_after history).trans h
  have hconfigured : (s.configured history).reporter = .console := h
  rw [← shown_perform_calm hafter, calm_after, shown_perform_calm hconfigured]

/-! ## One transcript for all steps -/

/-- The steps on one transcript that goes on from step to step: their replies, and what is written
in the end. -/
def runOn (s : Session) (t : Transcript) : List Step → List (Except Failure Reply) × Transcript
  | [] => ([], { t with failed := s.failed })
  | step :: rest =>
    let s := s.adjust step
    let (reply, t) := (s.work step).start { t with failed := s.failed }
    let (replies, t) := runOn { s with failed := t.failed } t rest
    (reply :: replies, t)

/-- What is written by steps one after another. -/
def written (entries : List Entry) : Transcript :=
  entries.foldr (fun entry t => entry.transcript ++ t) {}

theorem runOn_eq (h : s.reporter = .console) (t : Transcript) (steps : List Step) :
    s.runOn t steps = ((s.run steps).map Entry.reply,
      { t ++ written (s.run steps) with failed := (s.after steps).failed }) := by
  induction steps generalizing s t with
  | nil =>
    have hnothing : t ++ written [] = t := t.append_empty
    rw [runOn, run, hnothing]
    rfl
  | cons step rest ih =>
    obtain ⟨r, u, hwork, hperform⟩ := perform_eq h step
    let s' := s.adjust step
    let next : Session := { s' with failed := s'.failed || u.failed }
    have hnext : next.reporter = .console := (s.reporter_adjust step).trans h
    have hon : s.runOn t (step :: rest) =
        (r :: (next.runOn ({ t with failed := s'.failed } ++ u) rest).1,
          (next.runOn ({ t with failed := s'.failed } ++ u) rest).2) := by
      rw [runOn, hwork]
      rfl
    rw [hon, ih hnext, run_cons, after_cons, hperform]
    refine Prod.ext rfl ?_
    simp only [written, List.foldr_cons, Transcript.append_eq, String.append_assoc,
      List.append_assoc, String.empty_append, List.nil_append, next, s']

end Session

/-! ## What a step shows -/

/-- **A step shows the same whatever came before, if the session is configured alike.** In each run
of a session the reply of a step and all that it writes, logs and reports are those of the session
that its history has configured, which has run nothing; so they are the same behind any other
history with the same configuring steps. Steps that go on writing where others have stopped reply
in the same way and add just what they show. -/
theorem history_unseen (registry : Registry) (source traceSetting : Option String)
    (wording : List Call → String) (failed : Bool) (history : List Step) (step : Step) :
    let start : Session := { registry, source, traceSetting, wording, failed }
    let shown (before later : List Step) :=
      (start.run (before ++ step :: later))[before.length]?.map Entry.shown
    (∀ later, shown history later =
      some ((start.configured history).perform step).1.shown) ∧
    (∀ other, other.filter Step.configures = history.filter Step.configures →
      ∀ later later', shown other later' = shown history later) ∧
    ∀ t steps, start.runOn t steps = ((start.run steps).map Entry.reply,
      { t ++ Session.written (start.run steps) with failed := (start.after steps).failed }) := by
  intro start shown
  have hconsole : start.reporter = .console := rfl
  have hshown : ∀ before later, shown before later =
      some ((start.configured before).perform step).1.shown := by
    intro before later
    simp only [shown, Session.getElem?_run, Option.map_some]
    rw [Session.shown_perform_after hconsole]
  refine ⟨hshown history, fun other hsame later later' => ?_, Session.runOn_eq hconsole⟩
  rw [hshown, hshown, ← start.configured_filter other, hsame, start.configured_filter]

/-- Behind a program that fails, an object that is refused and a report, a program fails as it does
behind the step alone that has set its source. -/
theorem history_unseen_failures :
    let minus := Object.token (.ofOperator .minus (some 2) 1 none)
    let failing := Blueprint.object (.node .unary [minus, .node .literal [.value .nil]])
    let step := Step.interpret [.expression failing]
    let history := [.interpret [.print failing], .evaluate (.object minus),
      .setSource (some "a\nb"), .report (.object minus) "c" none]
    let other := [.execute (.print failing), .setSource (some "a\nb"), .reset]
    let shown (before : List Step) :=
      (({} : Session).run (before ++ [step]))[before.length]?.map Entry.shown
    other.filter Step.configures = history.filter Step.configures ∧ shown other = shown history ∧
      (shown history).map Entry.reply =
        some (.ok (.summary ⟨0, some ⟨minus, "Operand must be a number.", some "a\nb"⟩⟩)) ∧
      (({} : Session).after history).failed = true ∧
      (({} : Session).after other).failed = false := by
  intro minus failing step history other shown
  have hsame : other.filter Step.configures = history.filter Step.configures := rfl
  obtain ⟨hshown, hbehind, -⟩ := history_unseen .initial none none functionNames false history step
  have hreply : (shown history).map Entry.reply =
      (some ((({} : Session).configured history).perform step).1.shown).map Entry.reply :=
    congrArg _ (hshown [])
  refine ⟨hsame, hbehind other hsame [] [], ?_, rfl, rfl⟩
  rw [hreply]
  rfl

end TreeWalk
