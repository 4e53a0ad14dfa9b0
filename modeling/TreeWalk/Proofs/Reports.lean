import TreeWalk.Proofs.Endings
import TreeWalk.Proofs.Histories
import TreeWalk.Proofs.Traces

/-!
# Reports in sessions

The console remembers that it has seen an error until it is reset. It has seen one if a step since
then has handed one over: a step that ran programs of which one ended with an error, on whatever
level, or a step that reported an error directly. All that is on the error stream are the texts of
these reports, and only those of programs may have traces.

* `Session.handed` : the reports that a step hands to the reporter; `mem_handed` : what they are;
* `perform_handed` : the reports of a step, its part of the error stream and what it leaves of the
  console's memory are those of these reports;
* `Session.Pending` : a report has been handed over since the last reset; `failed_after` by
  induction on the history;
* `Session.handedBy` : all reports of a history; `errors_written` : their texts make up the stream;
* `runProgram_initial` : the exit code of a program in which no program is run inside;
* `errors_accounted` : all of it, for every history.
-/

namespace TreeWalk

open Run

/-! ## What a step hands over -/

/-- What comes of an object that is built; nothing if it cannot be. -/
def ofBuilt {α β : Type} (built : Except Failure α) (f : α → List β) : List β :=
  match built with
  | .ok a => f a
  | .error _ => []

namespace Session

/-- The endings of the programs that a step runs. -/
def endings (s : Session) : Step → List Ending
  | .interpret statements => ofBuilt (Blueprint.buildAll statements) (programEndings s.context)
  | .execute statement => ofBuilt statement.build (TreeWalk.endings s.context)
  | _ => []

/-- The reports that a step hands to the reporter: those of the errors that have ended a program,
and one of an error that is reported directly, which was never raised. -/
def handed (s : Session) : Step → List Report
  | .report token message source =>
    ofBuilt token.build fun token => [⟨⟨token, message, source⟩, none⟩]
  | step => (s.endings step).filterMap Ending.report?

end Session

/-- To build hands over nothing, and what cannot be built runs no programs. -/
theorem accounts_of_built {α β : Type} {context : Context} (built : Except Failure α)
    {endings : α → List Ending} {f : α → Run β} (h : ∀ a, Accounts context (endings a) (f a)) :
    Accounts context (ofBuilt built endings) (Run.ofExcept built >>= f) := by
  cases built with
  | error failure => exact ((hands_ofExcept (.error failure)).bind_error f).accounts
  | ok a => exact ((hands_ofExcept (.ok a)).nothing_bind (h a)).accounts

theorem hands_report_of_built (context : Context) (built : Except Failure Object) (message : String)
    (source : Option String) :
    let x : Run Reply := do
      let token ← .ofExcept built
      Run.report context.reporter ⟨⟨token, message, source⟩, none⟩
      return .done
    Hands context x.result (ofBuilt built fun token => [⟨⟨token, message, source⟩, none⟩]) 0 x := by
  intro x
  cases built with
  | error failure =>
    have hwork : Hands context (.error failure) [] 0 x :=
      (hands_ofExcept (.error failure)).bind_error _
    exact hwork.of_result
  | ok token =>
    let r : Report := ⟨⟨token, message, source⟩, none⟩
    have hreport : Hands context (.ok Reply.done) [r] 0 (do
        Run.report context.reporter r
        return .done) :=
      (hands_report r).bind_nothing (hands_pure Reply.done)
    have hwork : Hands context (.ok Reply.done) [r] 0 x :=
      (hands_ofExcept (.ok token)).nothing_bind hreport
    exact hwork.of_result

namespace Session

variable {s : Session}

theorem handed_adjust (s : Session) (step : Step) :
    (s.adjust step).handed step = s.handed step := by
  cases step <;> rfl

theorem endings_adjust (s : Session) (step : Step) :
    (s.adjust step).endings step = s.endings step := by
  cases step <;> rfl

/-- The work of a step hands over just these reports. -/
theorem work_hands (s : Session) (step : Step) :
    Hands s.context (s.work step).result (s.handed step) (s.endings step).length (s.work step) := by
  -- all that a step does besides running programs and reporting is to print
  have hresult : ∀ {α : Type} (r : Except Failure α), OnlyPrints α (Run.ofExcept r) :=
    onlyPrints_closed.ofExcept
  cases step with
  | interpret statements =>
    have hprogram : ∀ nodes, Accounts s.context (programEndings s.context nodes)
        (do return Reply.summary (← interpret s.context nodes)) := fun nodes =>
      (interpret_accounts nodes).bind_onlyPrints fun _ => onlyPrints_closed.result _
    exact accounts_of_built (Blueprint.buildAll statements) hprogram
  | execute statement =>
    have hexec : ∀ node, Accounts s.context (TreeWalk.endings s.context node) (do
        exec s.context node
        return Reply.done) := fun node =>
      (exec_accounts node).bind_onlyPrints fun _ => onlyPrints_closed.result _
    exact accounts_of_built statement.build hexec
  | evaluate expression =>
    have hwork : OnlyPrints Reply (s.work (.evaluate expression)) := by
      refine onlyPrints_closed.sequence (hresult _) fun node => ?_
      exact onlyPrints_closed.sequence (eval_onlyPrints s.registry node) fun _ =>
        onlyPrints_closed.result _
    exact hwork.accounts
  | render node =>
    have hwork : OnlyPrints Reply (s.work (.render node)) := by
      refine onlyPrints_closed.sequence (hresult _) fun node => ?_
      exact onlyPrints_closed.sequence (hresult _) fun _ => onlyPrints_closed.result _
    exact hwork.accounts
  | inspect node =>
    have hwork : OnlyPrints Reply (s.work (.inspect node)) :=
      onlyPrints_closed.sequence (hresult _) fun node => onlyPrints_closed.result _
    exact hwork.accounts
  | report token message source =>
    exact hands_report_of_built s.context token.build message source
  | reset | setSource | setTracing | addExpr | addStmt => exact (hands_pure Reply.done)

/-- A step reports the errors that it hands over, writes the texts of the reports on the error
stream, logs each program that it runs, and has the console remember that there was an error. -/
theorem perform_handed (h : s.reporter = .console) (step : Step) :
    let entry := (s.perform step).1
    entry.reply = ((s.adjust step).work step).result ∧
      entry.transcript.reports = (s.handed step).map Report.error ∧
      entry.transcript.errors = String.join ((s.handed step).map Report.text) ∧
      entry.transcript.log.countP isProgramEntry = (s.endings step).length ∧
      (s.perform step).2.failed = ((s.adjust step).failed || !(s.handed step).isEmpty) := by
  intro entry
  have hreporter : (s.adjust step).reporter = .console := (s.reporter_adjust step).trans h
  obtain ⟨t, hstart, htally⟩ := work_hands (s.adjust step) step { failed := (s.adjust step).failed }
  rw [s.handed_adjust, s.endings_adjust] at htally
  have hconsole : t.toConsole = (s.adjust step).reporter.receiveAll (s.handed step)
      { failed := (s.adjust step).failed } :=
    congrArg Tally.console htally
  have hreports : t.reports = [] ++ (s.handed step).map Report.error :=
    congrArg Tally.reports htally
  have hprograms : t.log.countP isProgramEntry = 0 + (s.endings step).length :=
    congrArg Tally.programs htally
  rw [hreporter, Reporter.receiveAll_console] at hconsole
  have hperform : s.perform step =
      (⟨((s.adjust step).work step).result, t⟩, { s.adjust step with failed := t.failed }) := by
    rw [perform, hstart]
  have hentry : entry = ⟨((s.adjust step).work step).result, t⟩ := congrArg Prod.fst hperform
  rw [hentry, hperform]
  refine ⟨rfl, ?_, ?_, ?_, ?_⟩
  · rw [hreports, List.nil_append]
  · rw [hconsole, String.empty_append]
  · rw [hprograms, Nat.zero_add]
  · rw [hconsole]

theorem mem_endings {step : Step} {ending : Ending} (h : ending ∈ s.endings step) :
    ∃ statements, ending = programEnding s.context statements := by
  cases step with
  | interpret statements =>
    change ending ∈ ofBuilt (Blueprint.buildAll statements) _ at h
    cases hb : Blueprint.buildAll statements with
    | error f => rw [hb] at h; cases h
    | ok nodes => rw [hb] at h; exact mem_programEndings h
  | execute statement =>
    change ending ∈ ofBuilt statement.build _ at h
    cases hb : statement.build with
    | error f => rw [hb] at h; cases h
    | ok node => rw [hb] at h; exact TreeWalk.mem_endings h
  | _ => cases h

/-- A report is of an error that ended a program, with the calls that the error came through if
traces are wanted, or it was asked for and has no trace. -/
theorem mem_handed {step : Step} {r : Report} (h : r ∈ s.handed step) :
    (∃ token message source built, step = .report token message source ∧
      token.build = .ok built ∧ r = ⟨⟨built, message, source⟩, none⟩) ∨
    ∃ statements count statement raised,
      (interpret s.context statements).result = .ok ⟨count, some r.error⟩ ∧
      statements[count]? = some statement ∧
      (exec s.context statement).result = .error (.runtime raised) ∧
      r.error = raised.withSource s.source ∧
      ExecWay s.context statement raised (execTrace s.context statement) ∧
      r.trace = s.context.trace? (execTrace s.context statement) := by
  by_cases hstep : ∃ token message source, step = .report token message source
  · obtain ⟨token, message, source, rfl⟩ := hstep
    change r ∈ ofBuilt token.build _ at h
    cases hb : token.build with
    | error f => rw [hb] at h; cases h
    | ok built =>
      rw [hb] at h
      exact .inl ⟨token, message, source, built, rfl, hb, List.mem_singleton.1 h⟩
  · have hhanded : s.handed step = (s.endings step).filterMap Ending.report? := by
      cases step with
      | report token message source => exact absurd ⟨token, message, source, rfl⟩ hstep
      | _ => rfl
    rw [hhanded] at h
    obtain ⟨ending, hending, hreport⟩ := List.mem_filterMap.1 h
    obtain ⟨statements, rfl⟩ := mem_endings hending
    obtain ⟨e, he, rfl⟩ := Option.map_eq_some_iff.1 hreport
    obtain ⟨count, hresult⟩ := Ending.error?_eq_some_iff.1 he
    obtain ⟨statement, raised, hstatement, hraised, hsource, htrace⟩ := programEnding_error hresult
    rw [programEnding_result] at hresult
    exact .inr ⟨statements, count, statement, raised, hresult, hstatement, hraised, hsource,
      execTrace_way statement raised hraised, htrace⟩

/-! ## Histories -/

/-- A report has been handed to the reporter since the last reset. -/
def Pending (s : Session) (history : List Step) : Prop :=
  ∃ before step since, history = before ++ step :: since ∧ Step.reset ∉ since ∧
    (s.after before).handed step ≠ []

theorem pending_nil (s : Session) : ¬ s.Pending [] := by
  rintro ⟨before, step, since, hhistory, -⟩
  simp at hhistory

theorem pending_cons (s : Session) (step : Step) (rest : List Step) :
    s.Pending (step :: rest) ↔
      (s.handed step ≠ [] ∧ Step.reset ∉ rest) ∨ (s.perform step).2.Pending rest := by
  constructor
  · rintro ⟨before, other, since, hhistory, hreset, hne⟩
    cases before with
    | nil =>
      obtain ⟨rfl, rfl⟩ := List.cons.inj hhistory
      exact .inl ⟨hne, hreset⟩
    | cons first before =>
      obtain ⟨rfl, rfl⟩ := List.cons.inj hhistory
      exact .inr ⟨before, other, since, rfl, hreset, hne⟩
  · rintro (⟨hne, hreset⟩ | ⟨before, other, since, rfl, hreset, hne⟩)
    · exact ⟨[], step, rest, rfl, hreset, hne⟩
    · exact ⟨step :: before, other, since, rfl, hreset, hne⟩

/-- Only a reset makes the console forget. -/
theorem failed_adjust (s : Session) (step : Step) :
    (s.adjust step).failed = true ↔ s.failed = true ∧ Step.reset ≠ step := by
  cases step <;> simp [adjust]

theorem failed_perform (h : s.reporter = .console) (step : Step) :
    (s.perform step).2.failed = true ↔
      (s.failed = true ∧ Step.reset ≠ step) ∨ s.handed step ≠ [] := by
  obtain ⟨-, -, -, -, hfailed⟩ := perform_handed h step
  rw [hfailed, Bool.or_eq_true, failed_adjust, Bool.not_eq_true', List.isEmpty_eq_false_iff]

/-- The console remembers an error if it did at the start and was never reset, or if one is
pending. -/
theorem failed_after (h : s.reporter = .console) (history : List Step) :
    (s.after history).failed = true ↔
      (s.failed = true ∧ Step.reset ∉ history) ∨ s.Pending history := by
  induction history generalizing s with
  | nil =>
    have hnone := s.pending_nil
    simp only [after, List.foldl_nil, List.not_mem_nil, not_false_eq_true, and_true, hnone,
      or_false]
  | cons step rest ih =>
    have hnext : (s.perform step).2.reporter = .console := (s.reporter_after [step]).trans h
    rw [after_cons, ih hnext, failed_perform h, pending_cons, List.mem_cons, not_or]
    tauto

/-- All reports that the steps hand over. -/
def handedBy (s : Session) : List Step → List Report
  | [] => []
  | step :: rest => s.handed step ++ (s.perform step).2.handedBy rest

theorem errors_written (h : s.reporter = .console) (steps : List Step) :
    (written (s.run steps)).errors = String.join ((s.handedBy steps).map Report.text) := by
  induction steps generalizing s with
  | nil => rfl
  | cons step rest ih =>
    have hnext : (s.perform step).2.reporter = .console := (s.reporter_after [step]).trans h
    obtain ⟨-, -, herrors, -⟩ := perform_handed h step
    have hwritten : (written (s.run (step :: rest))).errors =
        (s.perform step).1.transcript.errors ++
          (written ((s.perform step).2.run rest)).errors := rfl
    rw [hwritten, herrors, ih hnext, handedBy, List.map_append, String.join_append]

end Session

/-! ## Programs on their own -/

theorem Run.result_ofExcept_bind {α β : Type} (built : Except Failure α) (f : α → Run β) :
    (Run.ofExcept built >>= f).result = built >>= fun a => (f a).result := by
  cases built <;> rfl

/-- Where no program is run inside, the exit code tells whether the program ended with an error. -/
theorem Session.runProgram_initial (source traceSetting : Option String)
    (statements : List Blueprint) :
    let s : Session := { source, traceSetting }
    (s.runProgram statements).1 = do
      let nodes ← Blueprint.buildAll statements
      let summary ← (interpret s.context nodes).result
      return exitCode summary.error.isSome := by
  intro s
  obtain ⟨hreply, -, -, -, hfailed⟩ := perform_handed (s := s) rfl (.interpret statements)
  have hcode : (s.runProgram statements).1 =
      (s.perform (.interpret statements)).1.reply.map fun _ =>
        exitCode (s.perform (.interpret statements)).2.failed := rfl
  have hwork : ((s.adjust (.interpret statements)).work (.interpret statements)).result =
      Blueprint.buildAll statements >>= fun nodes =>
        Reply.summary <$> (interpret s.context nodes).result := by
    show (Run.ofExcept _ >>= fun nodes => interpret s.context nodes >>= fun summary =>
      pure (Reply.summary summary)).result = _
    simp only [result_ofExcept_bind, result_bind_pure]
  rw [hcode, hreply, hfailed, hwork]
  have hhanded : s.handed (.interpret statements) =
      (ofBuilt (Blueprint.buildAll statements) (programEndings s.context)).filterMap
        Ending.report? := rfl
  have hcalm : (s.adjust (.interpret statements)).failed = false := rfl
  rw [hhanded, hcalm]
  cases Blueprint.buildAll statements with
  | error f => rfl
  | ok nodes =>
    have hending := @programEnding_result s.context nodes
    show ((Reply.summary <$> (interpret s.context nodes).result).map fun _ => exitCode
      (false || !((programEndings s.context nodes).filterMap Ending.report?).isEmpty)) =
        (interpret s.context nodes).result >>= fun summary => pure (exitCode summary.error.isSome)
    rw [programEndings_initial rfl, ← hending]
    rcases programEnding s.context nodes with ⟨_ | ⟨_, _ | _⟩, _⟩ <;> rfl

/-! ## All reports -/

/-- **The console's memory and the error stream are those of the reports handed over.** Behind every
history the memory of an error, and so the exit code, tells whether one is pending. Each step
reports and writes just what it hands over: for each error its message, its line and the text of the
line as far as they are known, and the trace behind a heading if traces are wanted and the error was
raised; the trace is of the calls that the error came through. A program on any level hands over the
reports of those inside and then its own, if it ended with an error; and where none is run inside,
the exit code tells of its own. -/
theorem errors_accounted (registry : Registry) (source traceSetting : Option String)
    (wording : List Call → String) (history : List Step) :
    let start : Session := { registry, source, traceSetting, wording }
    let s := start.after history
    let text (r : Report) : String :=
      r.error.message ++ "\n" ++
        (match r.error.line? with
          | some line => "[line " ++ toString line ++ "]\n"
          | none => "") ++
        (match r.error.sourceLine? with
          | some line => "    " ++ line ++ "\n"
          | none => "") ++
        (match r.trace with
          | some frames => "\nPython traceback:\n" ++ frames
          | none => "")
    (s.failed = true ↔ start.Pending history) ∧
    (exitCode s.failed = 70 ↔ start.Pending history) ∧
    (exitCode s.failed = 0 ↔ ¬ start.Pending history) ∧
    (start.runOn {} history).2.errors = String.join ((start.handedBy history).map text) ∧
    (∀ step, (s.perform step).1.transcript.reports = (s.handed step).map Report.error ∧
      (s.perform step).1.transcript.errors = String.join ((s.handed step).map text) ∧
      (s.perform step).1.transcript.log.countP isProgramEntry = (s.endings step).length ∧
      (s.perform step).2.failed = ((s.adjust step).failed || !(s.handed step).isEmpty)) ∧
    (∀ step, ∀ r ∈ s.handed step,
      (∃ token message source built, step = .report token message source ∧
        token.build = .ok built ∧ r = ⟨⟨built, message, source⟩, none⟩) ∨
      ∃ statements count statement raised,
        (interpret s.context statements).result = .ok ⟨count, some r.error⟩ ∧
        statements[count]? = some statement ∧
        (exec s.context statement).result = .error (.runtime raised) ∧
        r.error = raised.withSource s.source ∧
        ExecWay s.context statement raised (execTrace s.context statement) ∧
        r.trace = if Text.tracingWanted s.traceSetting
          then some (wording (.program :: execTrace s.context statement))
          else none) ∧
    (∀ (context : Context) (statements : List Object) (t : Transcript),
      let program := interpret context statements
      let own := programEnding context statements
      ∃ inside, programEndings context statements = inside ++ [own] ∧
        own.result = program.result ∧ (program.start t).1 = program.result ∧
        (program.start t).2.reports = t.reports ++ inside.filterMap Ending.error? ++
          own.error?.toList ∧
        (program.start t).2.toConsole = context.reporter.receiveAll
          (inside.filterMap Ending.report? ++ own.report?.toList) t.toConsole ∧
        (program.start t).2.log.countP isProgramEntry =
          t.log.countP isProgramEntry + inside.length + 1) ∧
    ∀ statements, (({ source, traceSetting } : Session).runProgram statements).1 = do
      let nodes ← Blueprint.buildAll statements
      let summary ← (interpret (Session.context { source, traceSetting }) nodes).result
      return exitCode summary.error.isSome := by
  intro start s text
  have hconsole : start.reporter = .console := rfl
  have hs : s.reporter = .console := (start.reporter_after history).trans hconsole
  have htext : Report.text = text := rfl
  have hfailed : s.failed = true ↔ start.Pending history := by
    have hafter := Session.failed_after hconsole history
    have hstart : start.failed = false := rfl
    simp only [hstart, Bool.false_eq_true, false_and, false_or] at hafter
    exact hafter
  refine ⟨hfailed, ?_, ?_, ?_, fun step => ?_, fun step r hr => ?_,
    fun context statements t => ?_, Session.runProgram_initial source traceSetting⟩
  · rw [← hfailed]
    cases s.failed <;> decide
  · rw [← hfailed]
    cases s.failed <;> decide
  · have herrors : (start.runOn {} history).2.errors =
        "" ++ (Session.written (start.run history)).errors := by
      rw [Session.runOn_eq hconsole]
      rfl
    rw [herrors, String.empty_append, Session.errors_written hconsole, htext]
  · have hstep := (Session.perform_handed hs step).2
    rw [htext] at hstep
    exact hstep
  · have hwording : s.wording = wording := start.wording_after history
    rcases Session.mem_handed hr with hdirect | hprogram
    · exact .inl hdirect
    · rw [← hwording]
      exact .inr hprogram
  · obtain ⟨t', hstart, hreports, hdesk, hprograms⟩ :=
      @start_interpret_reports context statements t
    refine ⟨_, rfl, programEnding_result statements, ?_, ?_, ?_, ?_⟩
    · rw [hstart]
    · rw [hstart, hreports, List.map_append, Ending.map_error_filterMap, Ending.map_error_toList,
        List.append_assoc]
    · rw [hstart, hdesk]
    · rw [hstart, hprograms]

/-- A program that ends well has the console remember the error of a program inside, whose report
ends with the calls from that program to the operator. -/
theorem errors_accounted_traced :
    let registry := Registry.initial.addStmt "nested" .nested
    let minus := Object.token (.ofOperator .minus (some 2) 1 none)
    let failing := Object.node .print [.node .unary [minus, .node .literal [.value .nil]]]
    let step := Step.interpret [.object (.tree (some "nested") [failing])]
    let start : Session := { registry, source := some "a\nb" }
    let s := start.after [.setTracing (some "on")]
    let trace := functionNames [.program, .statement .print 0, .raising .unary (some .minus)]
    (s.perform step).1.reply = .ok (.summary ⟨1, none⟩) ∧ (s.perform step).2.failed = true ∧
      (s.perform step).1.transcript.errors =
        "Operand must be a number.\n[line 2]\n    b\n\nPython traceback:\n" ++ trace := by
  intro registry minus failing step start s trace
  obtain ⟨-, -, -, -, hsteps, -⟩ :=
    errors_accounted registry (some "a\nb") none functionNames [.setTracing (some "on")]
  obtain ⟨-, herrors, -, hfailed⟩ := hsteps step
  refine ⟨rfl, hfailed.trans rfl, herrors.trans ?_⟩
  decide +kernel

/-- The heading of a trace is not the end of a report: the frames stand behind it. -/
theorem errors_followed_by_frames :
    let registry := Registry.initial.addStmt "nested" .nested
    let minus := Object.token (.ofOperator .minus (some 1) 1 none)
    let failing := Object.node .print [.node .unary [minus, .node .literal [.value .nil]]]
    let step := Step.interpret [.object (.tree (some "nested") [failing]), .object failing]
    let s : Session := { registry, traceSetting := some "1" }
    let untilHeading (r : Report) : String :=
      r.error.message ++ "\n" ++
        (match r.error.line? with
          | some line => "[line " ++ toString line ++ "]\n"
          | none => "") ++
        (match r.error.sourceLine? with
          | some line => "    " ++ line ++ "\n"
          | none => "") ++
        (if r.trace.isSome then "\nPython traceback:\n" else "")
    (s.perform step).1.transcript.errors ≠ String.join ((s.handed step).map untilHeading) := by
  decide +kernel

end TreeWalk
