import TreeWalk.Proofs.Exchange

/-!
# Endings of programs

A program may run other programs inside, and each of them has an ending of its own. An error gets to
the reporter when it is the ending of a program, once for each such program, and in no other way:
neither evaluations report anything nor statements, and no other failure is ever reported. The trace
of a report is that of the statement at which its program ended.

* `Ending` : how a program ended; `Ending.report?` is the report of the error that ended it;
* `Clause.ending` : the ending of clauses that are executed one after another;
* `Course` : a child with the endings of the programs that its execution runs;
* `endings`, `programEndings` : those of an object that is executed, and of a program with its own;
* `Tally` : what a reporter has seen, and the number of programs by the log;
* `Run.Hands`, `Run.Accounts` : runs that hand reports to the reporter, and those that hand over the
  reports of some endings;
* `exec_accounts`, `interpret_accounts` : executions and programs account for their endings;
  `start_interpret_reports` says it of the reports;
* `programEnding_error` : the statement behind the error of a program and its trace;
  `mem_endings` : all endings are those of programs;
* `endings_initial` : with the six forms alone no program is run inside.
-/

namespace TreeWalk

open Run

/-! ## Endings -/

/-- How a program ended: with a summary or with a failure that it does not report. -/
structure Ending where
  result : Except Failure Summary
  /-- The text of the trace that belongs to the program's error. -/
  trace : Option String

namespace Ending

/-- The error that ended the program. -/
def error? (ending : Ending) : Option RuntimeError :=
  match ending.result with
  | .ok summary => summary.error
  | .error _ => none

def report? (ending : Ending) : Option Report := ending.error?.map fun e => ⟨e, ending.trace⟩

theorem error?_eq_some_iff {ending : Ending} {e : RuntimeError} :
    ending.error? = some e ↔ ∃ count, ending.result = .ok ⟨count, some e⟩ := by
  obtain ⟨_ | ⟨count, error⟩, trace⟩ := ending
  · simp [error?]
  · simp [error?]

theorem map_error_report? (ending : Ending) : ending.report?.map Report.error = ending.error? := by
  rw [report?, Option.map_map]
  exact Option.map_id'

theorem map_error_toList (ending : Ending) :
    ending.report?.toList.map Report.error = ending.error?.toList := by
  rw [← map_error_report?]
  cases ending.report? <;> rfl

theorem map_error_filterMap (endings : List Ending) :
    (endings.filterMap report?).map Report.error = endings.filterMap error? := by
  simp only [List.map_filterMap, map_error_report?]

theorem filterMap_singleton (ending : Ending) :
    [ending].filterMap report? = ending.report?.toList := by
  rw [List.filterMap_cons]
  cases ending.report? <;> rfl

end Ending

/-- The ending of clauses that are executed one after another, `executed` of which came before. -/
def Clause.ending (context : Context) (executed : Nat) : List Clause → Ending
  | [] => ⟨.ok ⟨executed, none⟩, none⟩
  | clause :: rest =>
    match clause.effect.result with
    | .ok () => ending context (executed + 1) rest
    | .error (.runtime e) =>
      ⟨.ok ⟨executed, some (e.withSource context.source)⟩, context.trace? (clause.trace ())⟩
    | .error f => ⟨.error f, none⟩

namespace Clause

variable {context : Context} {executed : Nat} {clause : Clause} {rest : List Clause}

theorem ending_of_ok (h : clause.effect.result = .ok ()) :
    ending context executed (clause :: rest) = ending context (executed + 1) rest := by
  rw [ending, h]

theorem ending_of_runtime {e : RuntimeError} (h : clause.effect.result = .error (.runtime e)) :
    ending context executed (clause :: rest) =
      ⟨.ok ⟨executed, some (e.withSource context.source)⟩, context.trace? (clause.trace ())⟩ := by
  rw [ending, h]

theorem ending_of_ne {f : Failure} (hf : ∀ e, f ≠ .runtime e)
    (h : clause.effect.result = .error f) :
    ending context executed (clause :: rest) = ⟨.error f, none⟩ := by
  rw [ending, h]
  cases f with
  | runtime e => exact absurd rfl (hf e)
  | _ => rfl

/-- The error of clauses is that of the clause behind those that were executed, with its trace. -/
theorem ending_error {clauses : List Clause} {count : Nat} {e : RuntimeError}
    (h : (ending context executed clauses).result = .ok ⟨count, some e⟩) :
    ∃ index clause raised, count = executed + index ∧ clauses[index]? = some clause ∧
      clause.effect.result = .error (.runtime raised) ∧ e = raised.withSource context.source ∧
      (ending context executed clauses).trace = context.trace? (clause.trace ()) := by
  induction clauses generalizing executed with
  | nil => cases h
  | cons clause rest ih =>
    cases hr : clause.effect.result with
    | ok _ =>
      rw [ending_of_ok hr] at h ⊢
      obtain ⟨index, failing, raised, hcount, hindex, hrest⟩ := ih h
      exact ⟨index + 1, failing, raised, by omega, hindex, hrest⟩
    | error f =>
      by_cases hf : ∃ raised, f = .runtime raised
      · obtain ⟨raised, rfl⟩ := hf
        rw [ending_of_runtime hr] at h ⊢
        cases h
        exact ⟨0, clause, raised, rfl, rfl, hr, rfl, rfl⟩
      · rw [ending_of_ne (not_exists.1 hf) hr] at h
        cases h

end Clause

/-- A child with the endings of the programs that its execution runs. -/
structure Course extends Clause where
  endings : List Ending

namespace Course

/-- The endings in executions one after another, up to the first one that fails. -/
def inOrder : List Course → List Ending
  | [] => []
  | course :: rest =>
    match course.effect.result with
    | .ok () => course.endings ++ inOrder rest
    | .error _ => course.endings

/-- The endings of a program: those inside, and its own. -/
def ofProgram (context : Context) (courses : List Course) : List Ending :=
  inOrder courses ++ [Clause.ending context 0 (courses.map toClause)]

def endingsAt (courses : List Course) (index : Nat) : List Ending :=
  (courses[index]?.map endings).getD []

end Course

/-- The endings at the work of a rule. -/
def StmtRule.endings (context : Context) (children : List Course) : StmtRule → List Ending
  | .expression | .print => []
  | .twice => Course.inOrder (children.take 1 ++ children.take 1)
  | .block => Course.inOrder children
  | .conditional =>
    match (valueAt (children.map Course.toClause) 0).result with
    | .ok v => if v.truthy then Course.endingsAt children 1 else Course.endingsAt children 2
    | .error _ => []
  | .nested => Course.ofProgram context children

mutual

/-- The endings of the programs that the execution of an object runs, in their order. -/
def endings (context : Context) : Object → List Ending
  | .tree (some label) children =>
    match context.registry.stmtRule? label with
    | some rule => rule.endings context (courses context children)
    | none => []
  | _ => []

def courses (context : Context) : List Object → List Course
  | [] => []
  | child :: rest =>
    ⟨⟨⟨child, eval context.registry child⟩, exec context child,
      fun _ => evalTrace context.registry child, fun _ => execTrace context child⟩,
        endings context child⟩ :: courses context rest

end

/-- The ending of a program itself. -/
def programEnding (context : Context) (statements : List Object) : Ending :=
  Clause.ending context 0 (clauses context statements)

/-- The endings inside a program, and its own at the end. -/
def programEndings (context : Context) (statements : List Object) : List Ending :=
  Course.inOrder (courses context statements) ++ [programEnding context statements]

theorem courses_eq_map (context : Context) : ∀ children : List Object,
    courses context children = children.map fun child =>
      ⟨⟨⟨child, eval context.registry child⟩, exec context child,
        fun _ => evalTrace context.registry child, fun _ => execTrace context child⟩,
          endings context child⟩
  | [] => rfl
  | child :: rest => by rw [courses, courses_eq_map context rest, List.map_cons]

theorem map_toClause_courses (context : Context) (children : List Object) :
    (courses context children).map Course.toClause = clauses context children := by
  rw [courses_eq_map, clauses_eq_map, List.map_map]
  rfl

theorem ofProgram_courses (context : Context) (statements : List Object) :
    Course.ofProgram context (courses context statements) = programEndings context statements := by
  rw [Course.ofProgram, map_toClause_courses, programEndings, programEnding]

/-! ## Tallies -/

/-- Whether an entry of the log is that of a program that starts. -/
def isProgramEntry (entry : String) : Bool := "interpreting ".toList.isPrefixOf entry.toList

theorem isProgramEntry_programEntry (count : Nat) : isProgramEntry (programEntry count) = true := by
  unfold isProgramEntry programEntry
  rw [List.isPrefixOf_iff_prefix, String.toList_append, String.toList_append, List.append_assoc]
  exact List.prefix_append _ _

theorem isProgramEntry_statementEntry (name : String) :
    isProgramEntry (statementEntry name) = false := by
  unfold isProgramEntry statementEntry
  rw [String.toList_append]
  rfl

theorem isProgramEntry_errorEntry (number : Nat) (name : String) (e : RuntimeError) :
    isProgramEntry (errorEntry number name e) = false := by
  unfold isProgramEntry errorEntry
  simp only [String.toList_append, List.append_assoc]
  rfl

/-- What there is of reports, and the number of programs that have started. -/
structure Tally where
  console : Console
  reports : List RuntimeError
  programs : Nat

def Transcript.tally (t : Transcript) : Tally :=
  ⟨t.toConsole, t.reports, t.log.countP isProgramEntry⟩

/-- After more reports, which the reporter receives one by one, and more programs. -/
def Tally.add (context : Context) (tally : Tally) (handed : List Report) (programs : Nat) :
    Tally where
  console := context.reporter.receiveAll handed tally.console
  reports := tally.reports ++ handed.map Report.error
  programs := tally.programs + programs

theorem Tally.add_nothing (context : Context) (tally : Tally) : tally.add context [] 0 = tally := by
  rw [add, List.map_nil, List.append_nil, Nat.add_zero]
  rfl

theorem Tally.add_add (context : Context) (tally : Tally) (handed handed' : List Report)
    (programs programs' : Nat) :
    (tally.add context handed programs).add context handed' programs' =
      tally.add context (handed ++ handed') (programs + programs') := by
  simp only [add, Reporter.receiveAll_append, List.map_append, List.append_assoc, Nat.add_assoc]

theorem Transcript.tally_note (t : Transcript) (entry : String) :
    (t.note entry).tally =
      { t.tally with programs := t.tally.programs + if isProgramEntry entry then 1 else 0 } := by
  simp only [tally, note, List.countP_append, List.countP_singleton]

/-! ## Runs that hand over reports -/

namespace Run

variable {α β : Type} {context : Context} {handed handed' : List Report}
  {programs programs' : Nat}

/-- Ends with one result whatever was written before, hands reports to the reporter, and starts so
many programs. -/
def Hands (context : Context) (r : Except Failure α) (handed : List Report) (programs : Nat)
    (x : Run α) : Prop :=
  ∀ t, ∃ t', x.start t = (r, t') ∧ t'.tally = t.tally.add context handed programs

/-- Hands over the reports among some endings, which are those of the programs that it starts. -/
def Accounts (context : Context) (endings : List Ending) (x : Run α) : Prop :=
  Hands context x.result (endings.filterMap Ending.report?) endings.length x

theorem Hands.result_eq {r : Except Failure α} {x : Run α}
    (h : Hands context r handed programs x) : x.result = r := by
  obtain ⟨t, hstart, -⟩ := h {}
  rw [result, hstart]

theorem Hands.of_result {r : Except Failure α} {x : Run α}
    (h : Hands context r handed programs x) : Hands context x.result handed programs x := by
  rw [h.result_eq]
  exact h

theorem Hands.accounts {r : Except Failure α} {x : Run α} {endings : List Ending}
    (h : Hands context r (endings.filterMap Ending.report?) endings.length x) :
    Accounts context endings x := h.of_result

theorem Accounts.hands {x : Run α} {endings : List Ending} (h : Accounts context endings x)
    {r : Except Failure α} (hr : x.result = r) :
    Hands context r (endings.filterMap Ending.report?) endings.length x := by
  rw [← hr]
  exact h

theorem Hands.bind {x : Run α} {f : α → Run β} {a : α} {r : Except Failure β}
    (hx : Hands context (.ok a) handed programs x) (hf : Hands context r handed' programs' (f a)) :
    Hands context r (handed ++ handed') (programs + programs') (x >>= f) := by
  intro t
  obtain ⟨t', hstart, htally⟩ := hx t
  obtain ⟨t'', hstart', htally'⟩ := hf t'
  refine ⟨t'', ?_, ?_⟩
  · rw [start_bind, hstart]
    exact hstart'
  · rw [htally', htally, Tally.add_add]

theorem Hands.bind_nothing {x : Run α} {f : α → Run β} {a : α} {r : Except Failure β}
    (hx : Hands context (.ok a) handed programs x) (hf : Hands context r [] 0 (f a)) :
    Hands context r handed programs (x >>= f) := by
  have h := hx.bind hf
  rw [List.append_nil, Nat.add_zero] at h
  exact h

theorem Hands.nothing_bind {x : Run α} {f : α → Run β} {a : α} {r : Except Failure β}
    (hx : Hands context (.ok a) [] 0 x) (hf : Hands context r handed programs (f a)) :
    Hands context r handed programs (x >>= f) := by
  have h := hx.bind hf
  rw [List.nil_append, Nat.zero_add] at h
  exact h

theorem Hands.bind_error {x : Run α} {failure : Failure}
    (hx : Hands context (.error failure) handed programs x) (f : α → Run β) :
    Hands context (.error failure) handed programs (x >>= f) := by
  intro t
  obtain ⟨t', hstart, htally⟩ := hx t
  exact ⟨t', by rw [start_bind, hstart], htally⟩

theorem hands_ofExcept (r : Except Failure α) : Hands context r [] 0 (Run.ofExcept r) :=
  fun t => ⟨t, rfl, (Tally.add_nothing context t.tally).symm⟩

theorem hands_pure (a : α) : Hands context (.ok a) [] 0 (pure a : Run α) :=
  hands_ofExcept (.ok a)

theorem hands_throw (failure : Failure) :
    Hands context (.error failure) [] 0 (throw failure : Run α) :=
  hands_ofExcept (.error failure)

theorem hands_note (entry : String) :
    Hands context (.ok ()) [] (if isProgramEntry entry then 1 else 0) (Run.note entry) := by
  intro t
  refine ⟨t.note entry, rfl, ?_⟩
  rw [t.tally_note, Tally.add, List.map_nil, List.append_nil]
  rfl

theorem hands_note_program (count : Nat) :
    Hands context (.ok ()) [] 1 (Run.note (programEntry count)) := by
  have h : Hands context (.ok ()) [] _ (Run.note (programEntry count)) := hands_note _
  rw [isProgramEntry_programEntry] at h
  exact h

theorem hands_note_other {entry : String} (hentry : isProgramEntry entry = false) :
    Hands context (.ok ()) [] 0 (Run.note entry) := by
  have h : Hands context (.ok ()) [] _ (Run.note entry) := hands_note _
  rw [hentry] at h
  exact h

theorem hands_report (r : Report) :
    Hands context (.ok ()) [r] 0 (Run.report context.reporter r) :=
  fun t => ⟨t.report context.reporter r, rfl, rfl⟩

theorem Hands.attempt_ok {x : Run Unit} (hx : Hands context (.ok ()) handed programs x) :
    Hands context (.ok none) handed programs x.attempt := by
  intro t
  obtain ⟨t', hstart, htally⟩ := hx t
  exact ⟨t', by rw [start_attempt, hstart], htally⟩

theorem Hands.attempt_runtime {x : Run Unit} {e : RuntimeError}
    (hx : Hands context (.error (.runtime e)) handed programs x) :
    Hands context (.ok (some e)) handed programs x.attempt := by
  intro t
  obtain ⟨t', hstart, htally⟩ := hx t
  exact ⟨t', by rw [start_attempt, hstart], htally⟩

theorem Hands.attempt_of_ne {x : Run Unit} {failure : Failure} (hf : ∀ e, failure ≠ .runtime e)
    (hx : Hands context (.error failure) handed programs x) :
    Hands context (.error failure) handed programs x.attempt := by
  intro t
  obtain ⟨t', hstart, htally⟩ := hx t
  exact ⟨t', start_attempt_of_ne hf hstart, htally⟩

theorem onlyPrints_print (line : String) : OnlyPrints Unit (Run.print line) :=
  ⟨.ok (), [line], fun _ => rfl⟩

/-- What only prints hands over nothing. -/
theorem OnlyPrints.accounts {x : Run α} (h : OnlyPrints α x) : Accounts context [] x := by
  obtain ⟨r, lines, hx⟩ := h
  have hhands : Hands context r [] 0 x := by
    intro t
    refine ⟨_, hx t, ?_⟩
    rw [Tally.add_nothing]
    rfl
  exact hhands.accounts

/-- Goes on where the first run ends without a failure. -/
theorem Accounts.bind {x : Run α} {f : α → Run β} {first rest : List Ending}
    (hx : Accounts context first x) {a : α} (ha : x.result = .ok a)
    (hf : Accounts context rest (f a)) : Accounts context (first ++ rest) (x >>= f) := by
  apply Hands.accounts
  rw [List.filterMap_append, List.length_append]
  exact (hx.hands ha).bind hf

/-- Goes on from a run that prints at most. -/
theorem OnlyPrints.accounts_bind {x : Run α} {f : α → Run β} {endings : List Ending}
    (hx : OnlyPrints α x) {a : α} (ha : x.result = .ok a) (hf : Accounts context endings (f a)) :
    Accounts context endings (x >>= f) := by
  have h := hx.accounts.bind ha hf
  rw [List.nil_append] at h
  exact h

theorem Accounts.bind_error {x : Run α} {f : α → Run β} {endings : List Ending}
    (hx : Accounts context endings x) {failure : Failure} (hr : x.result = .error failure) :
    Accounts context endings (x >>= f) :=
  ((hx.hands hr).bind_error f).accounts

/-- What follows prints at most. -/
theorem Accounts.bind_onlyPrints {x : Run α} {f : α → Run β} {endings : List Ending}
    (hx : Accounts context endings x) (hf : ∀ a, OnlyPrints β (f a)) :
    Accounts context endings (x >>= f) := by
  cases hr : x.result with
  | error failure => exact hx.bind_error hr
  | ok a =>
    have h := hx.bind hr (hf a).accounts
    rw [List.append_nil] at h
    exact h

end Run

/-! ## Programs -/

/-- Its value only prints, and its execution accounts for the endings. -/
structure Course.Faithful (context : Context) (course : Course) : Prop where
  value : OnlyPrints Object course.value
  effect : Accounts context course.endings course.effect

namespace Course

variable {context : Context}

theorem inOrder_eq_nil {courses : List Course} (h : ∀ course ∈ courses, course.endings = []) :
    inOrder courses = [] := by
  induction courses with
  | nil => rfl
  | cons course rest ih =>
    have hcourse : course.endings = [] := h course (List.mem_cons_self ..)
    rw [inOrder, hcourse, ih fun other ho => h other (List.mem_cons_of_mem _ ho)]
    split <;> rfl

theorem inOrder_of_ok {course : Course} (h : course.effect.result = .ok ()) (rest : List Course) :
    inOrder (course :: rest) = course.endings ++ inOrder rest := by
  rw [inOrder, h]

theorem inOrder_of_error {course : Course} {failure : Failure}
    (h : course.effect.result = .error failure) (rest : List Course) :
    inOrder (course :: rest) = course.endings := by
  rw [inOrder, h]

/-- The loop hands over the reports inside and that of the error that it stops at. -/
theorem runFrom_hands {courses : List Course} (h : ∀ course ∈ courses, course.Faithful context)
    (executed : Nat) :
    Hands context (Clause.ending context executed (courses.map toClause)).result
      ((inOrder courses).filterMap Ending.report? ++
        (Clause.ending context executed (courses.map toClause)).report?.toList)
      (inOrder courses).length (Clause.runFrom context executed (courses.map toClause)) := by
  induction courses generalizing executed with
  | nil => exact hands_pure (Summary.mk executed none)
  | cons course rest ih =>
    obtain ⟨-, heffect⟩ := h course (List.mem_cons_self ..)
    have hnote : Hands context (.ok ()) [] 0 (Run.note (statementEntry course.name)) :=
      hands_note_other (isProgramEntry_statementEntry _)
    rw [List.map_cons, Clause.runFrom]
    cases hr : course.effect.result with
    | ok _ =>
      have hrest := ih (fun other ho => h other (List.mem_cons_of_mem _ ho)) (executed + 1)
      rw [Clause.ending_of_ok hr, inOrder_of_ok hr, List.filterMap_append, List.append_assoc,
        List.length_append]
      refine hnote.nothing_bind ((heffect.hands hr).attempt_ok.bind ?_)
      exact hrest
    | error f =>
      rw [inOrder_of_error hr]
      by_cases hf : ∃ e, f = .runtime e
      · obtain ⟨e, rfl⟩ := hf
        let r : Report := ⟨e.withSource context.source, context.trace? (course.trace ())⟩
        let summary : Summary := ⟨executed, some r.error⟩
        have hreport : Hands context (.ok summary) [r] 0 (do
            Run.report context.reporter r
            return summary) :=
          (hands_report r).bind_nothing (hands_pure summary)
        have hstop : Hands context (.ok summary) [r] 0 (do
            Run.note (errorEntry (executed + 1) course.name r.error)
            Run.report context.reporter r
            return summary) :=
          (hands_note_other (isProgramEntry_errorEntry _ _ _)).nothing_bind hreport
        rw [Clause.ending_of_runtime hr]
        show Hands context (.ok summary) (_ ++ [r]) (course.endings.length + 0) _
        refine hnote.nothing_bind ((heffect.hands hr).attempt_runtime.bind ?_)
        exact hstop
      · have hattempt := (heffect.hands hr).attempt_of_ne (not_exists.1 hf)
        have hnone : (Ending.mk (.error f) none).report?.toList = [] := rfl
        rw [Clause.ending_of_ne (not_exists.1 hf) hr, hnone, List.append_nil]
        exact hnote.nothing_bind (hattempt.bind_error _)

/-- A program hands over the reports of its endings. -/
theorem runAll_hands {courses : List Course} (h : ∀ course ∈ courses, course.Faithful context) :
    Hands context (Clause.ending context 0 (courses.map toClause)).result
      ((ofProgram context courses).filterMap Ending.report?) (ofProgram context courses).length
      (Clause.runAll context (courses.map toClause)) := by
  have hloop := runFrom_hands h 0
  have hall : Hands context _ _ _ (Clause.runAll context (courses.map toClause)) :=
    (hands_note_program _).bind hloop
  unfold ofProgram
  rw [List.filterMap_append, Ending.filterMap_singleton, List.length_append, List.length_singleton,
    Nat.add_comm]
  exact hall

theorem effects_accounts {courses : List Course} (h : ∀ course ∈ courses, course.Faithful context) :
    Accounts context (inOrder courses) (StmtRule.effects (courses.map toClause)) := by
  induction courses with
  | nil => exact (hands_pure ()).accounts
  | cons course rest ih =>
    obtain ⟨-, heffect⟩ := h course (List.mem_cons_self ..)
    rw [List.map_cons, StmtRule.effects]
    cases hr : course.effect.result with
    | ok _ =>
      rw [inOrder_of_ok hr]
      exact heffect.bind hr (ih fun other ho => h other (List.mem_cons_of_mem _ ho))
    | error f =>
      rw [inOrder_of_error hr]
      exact heffect.bind_error hr

theorem effectAt_accounts {courses : List Course} (h : ∀ course ∈ courses, course.Faithful context)
    (index : Nat) :
    Accounts context (endingsAt courses index)
      (StmtRule.effectAt (courses.map toClause) index) := by
  unfold endingsAt StmtRule.effectAt
  cases hc : courses[index]? with
  | none =>
    have hnone : (courses.map toClause)[index]? = none := by rw [List.getElem?_map, hc]; rfl
    rw [childAt_of_none hnone]
    exact (hands_throw _).accounts
  | some course =>
    have hsome : (courses.map toClause)[index]? = some course.toClause := by
      rw [List.getElem?_map, hc]; rfl
    rw [childAt_of_some hsome, pure_bind]
    exact (h course (List.mem_of_getElem? hc)).effect

end Course

/-! ## Executions -/

section Executions

variable {context : Context}

/-- Each rule runs the programs that its endings are about, and no others. -/
theorem StmtRule.exec_accounts {children : List Course}
    (h : ∀ course ∈ children, course.Faithful context) (rule : StmtRule) :
    Accounts context (rule.endings context children)
      (rule.exec context (children.map Course.toClause)) := by
  have hvalue : OnlyPrints Object (valueAt (children.map Course.toClause) 0) := by
    refine onlyPrints_closed.closedFor.withChild trivial (fun clause hc => ?_) 0
    obtain ⟨course, hcourse, rfl⟩ := List.mem_map.1 hc
    exact (h course hcourse).value
  cases rule with
  | expression =>
    exact (onlyPrints_closed.sequence hvalue fun _ => onlyPrints_closed.result _).accounts
  | print => exact (onlyPrints_closed.sequence hvalue fun v => onlyPrints_print v.printed).accounts
  | twice =>
    cases children with
    | nil => exact (hands_throw Failure.missingChild).accounts
    | cons child rest =>
      have htwice : StmtRule.twice.exec context ((child :: rest).map Course.toClause) =
          effects ([child, child].map Course.toClause) := by
        have hchild : effectAt ((child :: rest).map Course.toClause) 0 = child.effect := rfl
        rw [exec, hchild]
        simp only [effects, List.map_cons, List.map_nil, bind_pure_unit]
      rw [htwice]
      refine Course.effects_accounts fun course hc => ?_
      obtain rfl : course = child := by simpa using hc
      exact h course (List.mem_cons_self ..)
  | block => exact Course.effects_accounts h
  | conditional =>
    unfold endings exec
    cases hr : (valueAt (children.map Course.toClause) 0).result with
    | error f => exact hvalue.accounts.bind_error hr
    | ok v =>
      refine hvalue.accounts_bind hr ?_
      by_cases hv : v.truthy
      · simp only [if_pos hv]
        exact Course.effectAt_accounts h 1
      · simp only [if_neg hv]
        by_cases hlength : (children.map Course.toClause).length ≤ 2
        · have hnone : Course.endingsAt children 2 = [] := by
            rw [List.length_map] at hlength
            rw [Course.endingsAt, List.getElem?_eq_none hlength]
            rfl
          rw [if_pos hlength, hnone]
          exact (hands_pure ()).accounts
        · rw [if_neg hlength]
          exact Course.effectAt_accounts h 2
  | nested => exact (Course.runAll_hands h).accounts.bind_onlyPrints fun _ => onlyPrints_print _

mutual

/-- An execution hands over the reports of the programs that it runs. -/
theorem exec_accounts : ∀ o : Object, Accounts context (endings context o) (exec context o)
  | .tree (some label) children => by
    rw [exec, endings]
    cases hr : context.registry.stmtRule? label with
    | none => exact (hands_throw _).accounts
    | some rule =>
      have hrule := StmtRule.exec_accounts (courses_faithful children) rule
      rw [map_toClause_courses] at hrule
      exact hrule
  | .tree none _ | .plain _ | .value _ | .operator _ | .token _ => (hands_throw _).accounts

theorem courses_faithful :
    ∀ children : List Object, ∀ course ∈ courses context children, course.Faithful context
  | [], _, hc => absurd hc List.not_mem_nil
  | child :: rest, course, hc => by
    rw [courses] at hc
    rcases List.mem_cons.1 hc with rfl | hc
    · exact ⟨eval_onlyPrints context.registry child, exec_accounts child⟩
    · exact courses_faithful rest course hc

end

/-- A program ends as its statements make it end, and hands over the reports inside and its own. -/
theorem interpret_hands (statements : List Object) :
    Hands context (programEnding context statements).result
      ((programEndings context statements).filterMap Ending.report?)
      (programEndings context statements).length (interpret context statements) := by
  have hcourses : ∀ course ∈ courses context statements, course.Faithful context :=
    courses_faithful statements
  have h := Course.runAll_hands hcourses
  rw [ofProgram_courses, map_toClause_courses] at h
  exact h

theorem interpret_accounts (statements : List Object) :
    Accounts context (programEndings context statements) (interpret context statements) :=
  (interpret_hands statements).accounts

theorem programEnding_result (statements : List Object) :
    (programEnding context statements).result = (interpret context statements).result :=
  (interpret_hands statements).result_eq.symm

/-- The error of a program is that of the statement behind those that were executed, and so is the
trace. -/
theorem programEnding_error {statements : List Object} {count : Nat} {e : RuntimeError}
    (h : (programEnding context statements).result = .ok ⟨count, some e⟩) :
    ∃ statement raised, statements[count]? = some statement ∧
      (exec context statement).result = .error (.runtime raised) ∧
      e = raised.withSource context.source ∧
      (programEnding context statements).trace =
        context.trace? (execTrace context statement) := by
  obtain ⟨index, clause, raised, hcount, hindex, hraised, he, htrace⟩ := Clause.ending_error h
  obtain rfl : count = index := by omega
  rw [clauses_eq_map, List.getElem?_map, Option.map_eq_some_iff] at hindex
  obtain ⟨statement, hstatement, rfl⟩ := hindex
  exact ⟨statement, raised, hstatement, hraised, he, htrace⟩

/-- A program reports the errors of the programs inside and then its own. -/
theorem start_interpret_reports (statements : List Object) (t : Transcript) :
    let program := interpret context statements
    let inside := Course.inOrder (courses context statements)
    let handed := inside.filterMap Ending.report? ++
      (programEnding context statements).report?.toList
    ∃ t', program.start t = (program.result, t') ∧
      t'.reports = t.reports ++ handed.map Report.error ∧
      t'.toConsole = context.reporter.receiveAll handed t.toConsole ∧
      t'.log.countP isProgramEntry = t.log.countP isProgramEntry + inside.length + 1 := by
  intro program inside handed
  have haccounts : Accounts context (programEndings context statements) program :=
    interpret_accounts statements
  have hhanded : (programEndings context statements).filterMap Ending.report? = handed := by
    rw [programEndings, List.filterMap_append, Ending.filterMap_singleton]
  obtain ⟨t', hstart, htally⟩ := haccounts t
  rw [hhanded] at htally
  refine ⟨t', hstart, congrArg Tally.reports htally, congrArg Tally.console htally, ?_⟩
  have hprograms : t'.log.countP isProgramEntry =
      t.log.countP isProgramEntry + (programEndings context statements).length :=
    congrArg Tally.programs htally
  rw [hprograms, programEndings, List.length_append, List.length_singleton, Nat.add_assoc]

/-! ## All endings are endings of programs -/

theorem Course.exists_of_mem_inOrder {courses : List Course} {ending : Ending}
    (h : ending ∈ inOrder courses) : ∃ course ∈ courses, ending ∈ course.endings := by
  induction courses with
  | nil => cases h
  | cons course rest ih =>
    cases hr : course.effect.result with
    | ok _ =>
      rw [inOrder_of_ok hr] at h
      rcases List.mem_append.1 h with h | h
      · exact ⟨course, List.mem_cons_self .., h⟩
      · obtain ⟨other, ho, hother⟩ := ih h
        exact ⟨other, List.mem_cons_of_mem _ ho, hother⟩
    | error f =>
      rw [inOrder_of_error hr] at h
      exact ⟨course, List.mem_cons_self .., h⟩

theorem Course.exists_of_mem_endingsAt {courses : List Course} {index : Nat} {ending : Ending}
    (h : ending ∈ endingsAt courses index) : ∃ course ∈ courses, ending ∈ course.endings := by
  rw [endingsAt] at h
  cases hc : courses[index]? with
  | none => rw [hc] at h; cases h
  | some course => rw [hc] at h; exact ⟨course, List.mem_of_getElem? hc, h⟩

/-- The endings at the work of a rule are those of its children, unless it runs a program of them,
which has an ending of its own. -/
theorem StmtRule.mem_endings {children : List Course} {rule : StmtRule} {ending : Ending}
    (h : ending ∈ rule.endings context children) :
    (∃ course ∈ children, ending ∈ course.endings) ∨
      ending = Clause.ending context 0 (children.map Course.toClause) := by
  cases rule with
  | expression | print => cases h
  | twice =>
    obtain ⟨course, hc, hending⟩ := Course.exists_of_mem_inOrder h
    have hfirst : course ∈ children.take 1 := by simpa using hc
    exact .inl ⟨course, List.mem_of_mem_take hfirst, hending⟩
  | block => exact .inl (Course.exists_of_mem_inOrder h)
  | conditional =>
    have hconditional : endings context children .conditional =
        match (valueAt (children.map Course.toClause) 0).result with
        | .ok v => if v.truthy then Course.endingsAt children 1 else Course.endingsAt children 2
        | .error _ => [] := rfl
    rw [hconditional] at h
    cases hr : (valueAt (children.map Course.toClause) 0).result with
    | error f => rw [hr] at h; cases h
    | ok v =>
      simp only [hr] at h
      split at h <;> exact .inl (Course.exists_of_mem_endingsAt h)
  | nested =>
    rcases List.mem_append.1 h with h | h
    · exact .inl (Course.exists_of_mem_inOrder h)
    · exact .inr (List.mem_singleton.1 h)

mutual

theorem mem_endings : ∀ {o : Object} {ending : Ending}, ending ∈ endings context o →
    ∃ statements, ending = programEnding context statements
  | .tree (some label) children, ending, h => by
    rw [endings] at h
    cases hr : context.registry.stmtRule? label with
    | none => rw [hr] at h; cases h
    | some rule =>
      rw [hr] at h
      rcases StmtRule.mem_endings h with ⟨course, hc, hending⟩ | rfl
      · exact mem_courses hc hending
      · exact ⟨children, by rw [map_toClause_courses, programEnding]⟩
  | .tree none _, _, h | .plain _, _, h | .value _, _, h | .operator _, _, h | .token _, _, h => by
    cases h

theorem mem_courses : ∀ {children : List Object} {course : Course} {ending : Ending},
    course ∈ courses context children → ending ∈ course.endings →
      ∃ statements, ending = programEnding context statements
  | [], _, _, hc, _ => absurd hc List.not_mem_nil
  | child :: rest, course, ending, hc, h => by
    rw [courses] at hc
    rcases List.mem_cons.1 hc with rfl | hc
    · exact mem_endings h
    · exact mem_courses hc h

end

theorem mem_programEndings {statements : List Object} {ending : Ending}
    (h : ending ∈ programEndings context statements) :
    ∃ statements, ending = programEnding context statements := by
  rcases List.mem_append.1 h with h | h
  · obtain ⟨course, hc, hending⟩ := Course.exists_of_mem_inOrder h
    exact mem_courses hc hending
  · exact ⟨statements, List.mem_singleton.1 h⟩

/-! ## The six forms -/

/-- No statement of the six forms runs a program inside. -/
theorem endings_initial (h : context.registry = .initial) (o : Object) :
    endings context o = [] := by
  match o with
  | .tree (some label) children =>
    rw [endings, h, Registry.stmtRule?_initial]
    by_cases hprint : label = Form.print.label
    · rw [if_pos hprint]
      rfl
    · rw [if_neg hprint]
      by_cases hexpression : label = Form.expression.label
      · rw [if_pos hexpression]
        rfl
      · rw [if_neg hexpression]
  | .tree none _ | .plain _ | .value _ | .operator _ | .token _ => rfl

theorem programEndings_initial (h : context.registry = .initial) (statements : List Object) :
    programEndings context statements = [programEnding context statements] := by
  have hnothing : Course.inOrder (courses context statements) = [] := by
    refine Course.inOrder_eq_nil fun course hc => ?_
    rw [courses_eq_map] at hc
    obtain ⟨child, -, rfl⟩ := List.mem_map.1 hc
    exact endings_initial h child
  rw [programEndings, hnothing, List.nil_append]

end Executions

end TreeWalk
