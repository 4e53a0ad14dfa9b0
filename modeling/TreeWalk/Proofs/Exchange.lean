import Mathlib.Data.List.Forall2
import TreeWalk.Proofs.Origins

/-!
# Exchanging nodes

Operators and statements see the values of what they evaluate and nothing else of it. So a node at a
position that is evaluated may be exchanged for any other one with the same value or failure and the
same output: the program prints, logs and reports the same errors, and ends in the same way. Only
the trace of an error tells the nodes apart, for it goes through each of them.

* `Run.view` : what there is to see of a run besides traces; the output is one text, however it was
  printed, and a failure that is no runtime error has a category and a message;
* `Run.Similar` : runs that go on looking alike from transcripts that look alike
  (`Similar.bind`, `Similar.attempt`); each run of a program is similar to itself
  (`similar_closedUnderEffects`);
* `Indistinguishable` : nodes with evaluations that look alike; `similar_fill` : they stay so in
  any place;
* `Exchanged`, `ExchangedStatement` : nodes and statements after any number of exchanges;
* `Run.Reporting` : runs that do nothing to the console but report, each time with a trace if one is
  wanted; `Report.SameBesidesFrames` : reports that differ in the text of the trace at most;
* `exchange_unseen` : programs of exchanged statements look alike, and so do their reports up to the
  traces; groupings may be left out, and a literal stands for any node with its value that prints
  nothing.
-/

namespace TreeWalk

open Run

/-! ## What there is to see -/

def Failure.error? : Failure → Option RuntimeError
  | .runtime e => some e
  | _ => none

/-- What there is to see of a failure. The node of a defect shows in the message only. -/
structure FailureView where
  category : FailureCategory
  message : String
  error? : Option RuntimeError
  deriving Repr

def Failure.view (f : Failure) : FailureView := ⟨f.category, f.message, f.error?⟩

/-- What there is to see of a transcript besides the console. -/
structure TranscriptView where
  output : String
  log : List String
  reports : List RuntimeError
  deriving Repr

def Transcript.view (t : Transcript) : TranscriptView := ⟨t.output, t.log, t.reports⟩

/-- What there is to see of a result and a transcript. -/
def Run.view {α : Type} (out : Except Failure α × Transcript) :
    Except FailureView α × TranscriptView :=
  (out.1.mapError Failure.view, out.2.view)

theorem eq_runtime_of_view {f : Failure} {e : RuntimeError}
    (h : f.view = (Failure.runtime e).view) : f = .runtime e := by
  have herror : f.error? = some e := congrArg FailureView.error? h
  cases f with
  | runtime e' => rw [Failure.error?, Option.some_inj] at herror; rw [herror]
  | _ => cases herror

namespace Transcript

variable (t : Transcript)

theorem output_append (lines : List String) :
    { t with printed := t.printed ++ lines }.output =
      t.output ++ String.join (lines.map (· ++ "\n")) := by
  simp only [output, List.map_append, String.join_append]

theorem view_print (line : String) :
    (t.print line).view =
      { t.view with output := t.view.output ++ String.join ([line].map (· ++ "\n")) } := by
  rw [view, print, output_append]
  rfl

theorem view_note (entry : String) :
    (t.note entry).view = { t.view with log := t.view.log ++ [entry] } := rfl

theorem view_report (reporter : Reporter) (r : Report) :
    (t.report reporter r).view = { t.view with reports := t.view.reports ++ [r.error] } := rfl

end Transcript

namespace Run

variable {α β : Type}

/-- Two ends of runs that look alike are both results or both failures. -/
theorem view_eq {p q : Except Failure α × Transcript} (h : view p = view q) :
    p.2.view = q.2.view ∧
      ((∃ a, p.1 = .ok a ∧ q.1 = .ok a) ∨
        ∃ f g, p.1 = .error f ∧ q.1 = .error g ∧ f.view = g.view) := by
  obtain ⟨r, t⟩ := p
  obtain ⟨s, u⟩ := q
  obtain ⟨hresult, htranscript⟩ := Prod.ext_iff.1 h
  refine ⟨htranscript, ?_⟩
  cases r with
  | ok a =>
    cases s with
    | ok b => cases hresult; exact .inl ⟨a, rfl, rfl⟩
    | error g => cases hresult
  | error f =>
    cases s with
    | ok b => cases hresult
    | error g => exact .inr ⟨f, g, rfl, rfl, Except.error.inj hresult⟩

/-! ## Similar runs -/

/-- From transcripts that look alike the runs go to ends that look alike. -/
def Similar (x y : Run α) : Prop :=
  ∀ t u : Transcript, t.view = u.view → view (x.start t) = view (y.start u)

theorem Similar.trans {x y z : Run α} (hxy : Similar x y) (hyz : Similar y z) : Similar x z :=
  fun t u htu => (hxy t u htu).trans (hyz u u rfl)

theorem Similar.bind {x y : Run α} {f g : α → Run β} (hxy : Similar x y)
    (hfg : ∀ a, Similar (f a) (g a)) : Similar (x >>= f) (y >>= g) := by
  intro t u htu
  have h := hxy t u htu
  rw [start_bind, start_bind]
  rcases hx : x.start t with ⟨r, t'⟩
  rcases hy : y.start u with ⟨s, u'⟩
  rw [hx, hy] at h
  obtain ⟨hview, ⟨a, rfl, rfl⟩ | ⟨f, g, rfl, rfl, hf⟩⟩ := view_eq h
  · exact hfg a t' u' hview
  · exact Prod.ext (congrArg Except.error hf) hview

theorem Similar.attempt {x y : Run Unit} (hxy : Similar x y) : Similar x.attempt y.attempt := by
  intro t u htu
  have h := hxy t u htu
  rcases hx : x.start t with ⟨r, t'⟩
  rcases hy : y.start u with ⟨s, u'⟩
  rw [hx, hy] at h
  obtain ⟨hview, ⟨a, rfl, rfl⟩ | ⟨f, g, rfl, rfl, hf⟩⟩ := view_eq h
  · rw [start_attempt, start_attempt, hx, hy]
    exact Prod.ext rfl hview
  · by_cases hg : ∃ e, g = .runtime e
    · obtain ⟨e, rfl⟩ := hg
      obtain rfl := eq_runtime_of_view hf
      rw [start_attempt, start_attempt, hx, hy]
      exact Prod.ext rfl hview
    · have hf' : ∀ e, f ≠ .runtime e := by
        rintro e rfl
        exact hg ⟨e, eq_runtime_of_view hf.symm⟩
      rw [start_attempt_of_ne hf' hx, start_attempt_of_ne (not_exists.1 hg) hy]
      exact Prod.ext (congrArg Except.error hf) hview

/-- Reports look alike if they are of one error, with any traces. -/
theorem similar_report (reporter : Reporter) {r r' : Report} (h : r.error = r'.error) :
    Similar (report reporter r) (report reporter r') := by
  intro t u htu
  refine Prod.ext rfl ?_
  simp only [start_report, view, Transcript.view_report, htu, h]

/-- A run of a program does not tell apart transcripts that look alike. -/
theorem similar_closedUnderEffects (context : Context) :
    ClosedUnderEffects context fun _ x => Similar x x where
  result _ _ _ htu := Prod.ext rfl htu
  failure _ _ _ htu := Prod.ext rfl htu
  sequence hx hf := hx.bind hf
  print line t u htu := Prod.ext rfl (by simp only [start_print, view, Transcript.view_print, htu])
  note entry t u htu := Prod.ext rfl (by simp only [start_note, view, Transcript.view_note, htu])
  report _ _ := similar_report _ rfl
  attempt hx := hx.attempt

end Run

theorem similar_eval (registry : Registry) (o : Object) :
    Similar (eval registry o) (eval registry o) :=
  have hclosed := similar_closedUnderEffects { registry }
  eval_closed hclosed.toClosed (fun _ _ => hclosed.print) o

/-! ## Places -/

/-- Two nodes with evaluations that end alike, from any transcript. -/
def Indistinguishable (registry : Registry) (a b : Object) : Prop :=
  ∀ t, view ((eval registry a).start t) = view ((eval registry b).start t)

theorem Indistinguishable.similar {registry : Registry} {a b : Object}
    (h : Indistinguishable registry a b) : Similar (eval registry a) (eval registry b) :=
  fun t u htu => (h t).trans (similar_eval registry b t u htu)

section Places

variable {registry : Registry} (hkeeps : registry.KeepsExprForms) {a b : Object}

include hkeeps

/-- Around a place only the value in it counts, or its failure. -/
theorem similar_fill (hab : Similar (eval registry a) (eval registry b)) (place : Place) :
    Similar (eval registry (place.fill a)) (eval registry (place.fill b)) := by
  have hclosed := (similar_closedUnderEffects { registry }).toClosed
  have hgrouping := hkeeps .grouping .grouping rfl
  have hunary := hkeeps .unary .unary rfl
  have hbinary := hkeeps .binary .binary rfl
  -- the operator comes after the operands and prints nothing
  have hop : ∀ r : Except Failure Value,
      Similar (do return Object.value (← Run.ofExcept r)) (do return .value (← Run.ofExcept r)) :=
    fun r => hclosed.sequence (hclosed.ofExcept r) fun _ => hclosed.result _
  induction place with
  | here => exact hab
  | grouping inner rest ih =>
    simp only [Place.fill, Object.node, eval_grouping hgrouping]
    exact ih
  | unary op operand rest ih =>
    simp only [Place.fill, Object.node, eval_unary hunary]
    exact ih.bind fun v => hop _
  | left inner rest ih =>
    by_cases hrest : rest.length = 2
    · obtain ⟨op, right, rfl⟩ := List.length_eq_two.1 hrest
      simp only [Place.fill, Object.node, eval_binary hbinary]
      exact ih.bind fun v => (similar_eval registry right).bind fun w => hop _
    · have hcount : ∀ o : Object, (o :: rest).length ≠ 3 := by
        intro o
        rw [List.length_cons]
        omega
      simp only [Place.fill, Object.node]
      rw [eval_binary_count hbinary (hcount _), eval_binary_count hbinary (hcount _)]
      exact hclosed.failure _
  | right first op inner rest ih =>
    cases rest with
    | nil =>
      simp only [Place.fill, Object.node, eval_binary hbinary]
      exact (similar_eval registry first).bind fun v => ih.bind fun w => hop _
    | cons extra rest =>
      simp only [Place.fill, Object.node]
      rw [eval_binary_count hbinary (by simp), eval_binary_count hbinary (by simp)]
      exact hclosed.failure _

end Places

/-! ## Evaluations only print -/

namespace Run

/-- Has one result and prints the same lines, whatever was written before. -/
def OnlyPrints (α : Type) (x : Run α) : Prop :=
  ∃ (r : Except Failure α) (lines : List String), ∀ t,
    x.start t = (r, { t with printed := t.printed ++ lines })

theorem onlyPrints_closed : Closed OnlyPrints where
  result a := ⟨.ok a, [], fun t => by simp⟩
  failure f := ⟨.error f, [], fun t => by simp⟩
  sequence {_ _ x f} hx hf := by
    obtain ⟨r, lines, hx⟩ := hx
    cases r with
    | error failure => exact ⟨.error failure, lines, fun t => by rw [start_bind, hx]⟩
    | ok a =>
      obtain ⟨s, lines', hf⟩ := hf a
      refine ⟨s, lines ++ lines', fun t => ?_⟩
      rw [start_bind, hx]
      simp only [hf, List.append_assoc]

end Run

theorem eval_onlyPrints (registry : Registry) (o : Object) :
    OnlyPrints Object (eval registry o) :=
  eval_closed onlyPrints_closed (fun _ _ line => ⟨.ok (), [line], fun _ => rfl⟩) o

/-- A literal stands for a node that has its value and prints nothing. -/
theorem indistinguishable_literal {registry : Registry} (hkeeps : registry.KeepsExprForms)
    {e v : Object} {t : Transcript} (hvalue : ((eval registry e).start t).1 = .ok v)
    (hsilent : ((eval registry e).start t).2.output = t.output) (rest : List Object) :
    Indistinguishable registry e (.node .literal (v :: rest)) := by
  obtain ⟨r, lines, heval⟩ := eval_onlyPrints registry e
  rw [heval] at hvalue hsilent
  obtain rfl : r = .ok v := hvalue
  have hnothing : String.join (lines.map (· ++ "\n")) = "" := by
    rw [Transcript.output_append] at hsilent
    have hlist := congrArg String.toList hsilent
    rw [String.toList_append] at hlist
    exact String.toList_inj.1 (List.append_right_eq_self.1 hlist)
  intro u
  rw [heval, Object.node, eval_literal (hkeeps .literal .literal rfl), start_pure]
  refine Prod.ext rfl ?_
  simp only [view, Transcript.view, Transcript.output_append, hnothing, String.append_empty]

/-! ## Reports -/

/-- Of one error, and both with a trace or both without. -/
structure Report.SameBesidesFrames (r r' : Report) : Prop where
  error : r.error = r'.error
  traced : r.trace.isSome = r'.trace.isSome

theorem Report.SameBesidesFrames.eq {r r' : Report} (h : r.SameBesidesFrames r')
    (hoff : r.trace.isSome = false) : r = r' := by
  obtain ⟨e, trace⟩ := r
  obtain ⟨e', trace'⟩ := r'
  obtain ⟨rfl, htraced⟩ := h
  cases trace with
  | some _ => cases hoff
  | none =>
    cases trace' with
    | some _ => cases htraced
    | none => rfl

/-- Lists of reports of the same errors, of which either all have a trace or none has. -/
theorem sameBesidesFrames_of_errors {handed handed' : List Report}
    (herrors : handed.map Report.error = handed'.map Report.error)
    (htraced : ∀ r ∈ handed, ∀ r' ∈ handed', r.trace.isSome = r'.trace.isSome) :
    List.Forall₂ Report.SameBesidesFrames handed handed' := by
  induction handed generalizing handed' with
  | nil => rw [List.map_eq_nil_iff.1 herrors.symm]; exact .nil
  | cons r rest ih =>
    cases handed' with
    | nil => cases herrors
    | cons r' rest' =>
      obtain ⟨herror, hrest⟩ := List.cons.inj herrors
      refine .cons ⟨herror, htraced r (List.mem_cons_self ..) r' (List.mem_cons_self ..)⟩ ?_
      exact ih hrest fun q hq q' hq' =>
        htraced q (List.mem_cons_of_mem _ hq) q' (List.mem_cons_of_mem _ hq')

theorem eq_of_untraced {handed handed' : List Report}
    (h : List.Forall₂ Report.SameBesidesFrames handed handed')
    (hoff : ∀ r ∈ handed, r.trace.isSome = false) : handed = handed' := by
  induction h with
  | nil => rfl
  | cons hr _ ih =>
    rw [hr.eq (hoff _ (List.mem_cons_self ..)), ih fun q hq => hoff q (List.mem_cons_of_mem _ hq)]

theorem isEmpty_eq_of_sameBesidesFrames {handed handed' : List Report}
    (h : List.Forall₂ Report.SameBesidesFrames handed handed') :
    handed.isEmpty = handed'.isEmpty := by
  cases h <;> rfl

namespace Run

/-- Does nothing to the console but report, each time with a trace if one is wanted. -/
def Reporting (context : Context) (α : Type) (x : Run α) : Prop :=
  ∀ t, ∃ handed : List Report, (∀ r ∈ handed, r.trace.isSome = context.tracing) ∧
    (x.start t).2.reports = t.reports ++ handed.map Report.error ∧
    (x.start t).2.toConsole = context.reporter.receiveAll handed t.toConsole

theorem reporting_of_eq {context : Context} {α : Type} {x : Run α}
    (h : ∀ t, (x.start t).2.reports = t.reports ∧ (x.start t).2.toConsole = t.toConsole) :
    Reporting context α x := by
  intro t
  refine ⟨[], nofun, ?_, (h t).2⟩
  rw [(h t).1, List.map_nil, List.append_nil]

theorem reporting_closedUnderEffects (context : Context) :
    ClosedUnderEffects context (Reporting context) where
  result _ := reporting_of_eq fun _ => ⟨rfl, rfl⟩
  failure _ := reporting_of_eq fun _ => ⟨rfl, rfl⟩
  sequence {_ _ x f} hx hf t := by
    obtain ⟨handed, hpresent, hreports, hdesk⟩ := hx t
    rw [start_bind]
    rcases h : x.start t with ⟨failure | a, u⟩
    · rw [h] at hreports hdesk
      exact ⟨handed, hpresent, hreports, hdesk⟩
    · rw [h] at hreports hdesk
      obtain ⟨others, hpresent', hreports', hdesk'⟩ := hf a u
      refine ⟨handed ++ others, fun r hr => ?_, ?_, ?_⟩
      · exact (List.mem_append.1 hr).elim (hpresent r) (hpresent' r)
      · rw [hreports', hreports, List.append_assoc, List.map_append]
      · rw [hdesk', hdesk, Reporter.receiveAll_append]
  print _ := reporting_of_eq fun _ => ⟨rfl, rfl⟩
  note _ := reporting_of_eq fun _ => ⟨rfl, rfl⟩
  report e calls t := by
    refine ⟨[⟨e, context.trace? calls⟩], fun r hr => ?_, rfl, rfl⟩
    rw [List.mem_singleton.1 hr, Context.trace?]
    cases context.tracing <;> rfl
  attempt {x} hx t := by
    have h := hx t
    rw [start_attempt]
    rcases hx : x.start t with ⟨f | _, u⟩
    · rw [hx] at h
      cases f <;> exact h
    · rw [hx] at h
      exact h

end Run

theorem interpret_reporting (context : Context) (statements : List Object) :
    Reporting context Summary (interpret context statements) :=
  interpret_closed (reporting_closedUnderEffects context) statements

/-! ## Programs -/

/-- All six forms have their own rules. -/
structure Registry.KeepsForms (registry : Registry) : Prop where
  exprForms : registry.KeepsExprForms
  stmtForms : ∀ form rule, Form.stmtRule? form = some rule →
    registry.stmtRule? form.label = some rule

/-- One node after another has been exchanged, each in some place of the whole. -/
inductive Exchanged (registry : Registry) : Object → Object → Prop
  | exchange (place : Place) {a b : Object} (h : Indistinguishable registry a b) :
    Exchanged registry (place.fill a) (place.fill b)
  | trans {a b c : Object} (hab : Exchanged registry a b) (hbc : Exchanged registry b c) :
    Exchanged registry a c

/-- A statement is the same, or of one of the two forms with exchanges in what it evaluates. -/
inductive ExchangedStatement (registry : Registry) : Object → Object → Prop
  | same (s : Object) : ExchangedStatement registry s s
  | expression {a b : Object} (h : Exchanged registry a b) (rest : List Object) :
    ExchangedStatement registry (.node .expression (a :: rest)) (.node .expression (b :: rest))
  | print {a b : Object} (h : Exchanged registry a b) (rest : List Object) :
    ExchangedStatement registry (.node .print (a :: rest)) (.node .print (b :: rest))

theorem Exchanged.similar {registry : Registry} (hkeeps : registry.KeepsExprForms) {a b : Object}
    (h : Exchanged registry a b) : Similar (eval registry a) (eval registry b) := by
  induction h with
  | exchange place h => exact similar_fill hkeeps h.similar place
  | trans _ _ hab hbc => exact hab.trans hbc

theorem ExchangedStatement.logName {registry : Registry} {s s' : Object}
    (h : ExchangedStatement registry s s') : s.logName = s'.logName := by
  cases h <;> rfl

section Programs

variable {context : Context}

theorem exec_expression {label : String}
    (h : context.registry.stmtRule? label = some .expression) (e : Object) (rest : List Object) :
    exec context (.tree (some label) (e :: rest)) =
      eval context.registry e >>= fun _ => pure () := by
  rw [exec, h]
  rfl

theorem exec_print {label : String} (h : context.registry.stmtRule? label = some .print)
    (e : Object) (rest : List Object) :
    exec context (.tree (some label) (e :: rest)) =
      eval context.registry e >>= fun v => Run.print v.printed := by
  rw [exec, h]
  rfl

variable (hkeeps : context.registry.KeepsForms)

include hkeeps

theorem ExchangedStatement.similar {s s' : Object} (h : ExchangedStatement context.registry s s') :
    Similar (exec context s) (exec context s') := by
  have hclosed := similar_closedUnderEffects context
  cases h with
  | same => exact exec_closed hclosed s
  | expression h rest =>
    have hrule := hkeeps.stmtForms .expression .expression rfl
    simp only [Object.node, exec_expression hrule]
    exact (h.similar hkeeps.exprForms).bind fun _ => hclosed.result _
  | print h rest =>
    have hrule := hkeeps.stmtForms .print .print rfl
    simp only [Object.node, exec_print hrule]
    exact (h.similar hkeeps.exprForms).bind fun v => hclosed.print _

/-- The loop over exchanged statements. -/
theorem similar_runFrom {statements others : List Object}
    (h : List.Forall₂ (ExchangedStatement context.registry) statements others) (executed : Nat) :
    Similar (Clause.runFrom context executed (clauses context statements))
      (Clause.runFrom context executed (clauses context others)) := by
  have hclosed := similar_closedUnderEffects context
  induction h generalizing executed with
  | nil => exact hclosed.result _
  | @cons s s' rest rest' hs _ ih =>
    simp only [clauses, Clause.runFrom, Clause.name, hs.logName]
    refine Similar.bind (hclosed.note _) fun _ => ?_
    refine (hs.similar hkeeps).attempt.bind fun error => ?_
    cases error with
    | none => exact ih (executed + 1)
    | some e =>
      exact Similar.bind (hclosed.note _) fun _ =>
        Similar.bind (similar_report _ rfl) fun _ => hclosed.result _

/-- **Exchanges of indistinguishable nodes show in traces only.** In a registry that keeps the six
forms, programs look alike if their statements differ only in such exchanges, at any places that are
evaluated. Their reports are equal up to the frames of traces, and equal where no traces are wanted;
the console has received them and nothing else. Among the exchanges are those of a grouping for what
it encloses, and of a node that has a value and prints nothing for a literal of that value. -/
theorem exchange_unseen :
    (∀ statements others, List.Forall₂ (ExchangedStatement context.registry) statements others →
      ∀ t,
        let run := (interpret context statements).start t
        let other := (interpret context others).start t
        view run = view other ∧
        (context.tracing = false → run.2.toConsole = other.2.toConsole) ∧
        ∃ handed handed' : List Report, List.Forall₂ Report.SameBesidesFrames handed handed' ∧
          run.2.reports = t.reports ++ handed.map Report.error ∧
          run.2.toConsole = context.reporter.receiveAll handed t.toConsole ∧
          other.2.toConsole = context.reporter.receiveAll handed' t.toConsole ∧
          (context.reporter = .console → run.2.failed = other.2.failed ∧
            run.2.errors = t.errors ++ String.join (handed.map Report.text) ∧
            other.2.errors = t.errors ++ String.join (handed'.map Report.text))) ∧
    (∀ e rest, Indistinguishable context.registry (.node .grouping (e :: rest)) e) ∧
    (∀ e v t rest, ((eval context.registry e).start t).1 = .ok v →
      ((eval context.registry e).start t).2.output = t.output →
      Indistinguishable context.registry e (.node .literal (v :: rest))) ∧
    ∀ v : Value, (Blueprint.literal (.object (.value v))).build =
      .ok (.node .literal [.value v]) := by
  refine ⟨fun statements others h t => ?_, fun e rest t => ?_,
    fun e v t rest hvalue hsilent => indistinguishable_literal hkeeps.exprForms hvalue hsilent rest,
    fun _ => rfl⟩
  · intro run other
    have hview : view run = view other := by
      simp only [run, other, start_interpret, h.length_eq]
      exact similar_runFrom hkeeps h 0 _ _ rfl
    obtain ⟨handed, hpresent, hreports, hdesk⟩ := interpret_reporting context statements t
    obtain ⟨handed', hpresent', hreports', hdesk'⟩ := interpret_reporting context others t
    have herrors : handed.map Report.error = handed'.map Report.error := by
      have hsame : run.2.reports = other.2.reports :=
        congrArg (fun v : Except FailureView Summary × TranscriptView => v.2.reports) hview
      simpa only [run, other, hreports, hreports', List.append_cancel_left_eq] using hsame
    have hframes := sameBesidesFrames_of_errors herrors fun r hr r' hr' =>
      (hpresent r hr).trans (hpresent' r' hr').symm
    refine ⟨hview, fun hoff => ?_, handed, handed', hframes, hreports, hdesk, hdesk', fun hc => ?_⟩
    · rw [hdesk, hdesk', eq_of_untraced hframes fun r hr => (hpresent r hr).trans hoff]
    · rw [hdesk, hdesk', hc, Reporter.receiveAll_console, Reporter.receiveAll_console,
        isEmpty_eq_of_sameBesidesFrames hframes]
      exact ⟨rfl, rfl, rfl⟩
  · rw [Object.node, eval_grouping (hkeeps.exprForms .grouping .grouping rfl)]

end Programs

/-- Two lines may be printed by one node or by two. -/
theorem exchange_unseen_lines :
    let registry := (Registry.initial.addExpr "echo" .echo).addExpr "comma" .comma
    let text (s : String) := Object.node .literal [.value (.string s none)]
    let echo (s : String) := Object.tree (some "echo") [text s]
    let two := Object.tree (some "comma") [echo "a", echo "b"]
    let one := Object.tree (some "comma") [echo "a\nb", text "b"]
    let plus := Object.token (.ofOperator .plus none 1 none)
    let place := Place.left (.grouping .here []) [plus, text "c"]
    let run (e : Object) := (interpret { registry } [(place.fill e).print]).start {}
    registry.KeepsForms ∧ Indistinguishable registry two one ∧
      (run two).2.printed = ["a", "b", "bc"] ∧ (run one).2.printed = ["a\nb", "bc"] ∧
      view (run two) = view (run one) := by
  intro registry text echo two one plus place run
  have hkeeps : registry.KeepsForms := by
    refine ⟨fun form rule h => ?_, fun form rule h => ?_⟩ <;> cases form <;> exact h
  have hindistinguishable : Indistinguishable registry two one := by
    intro t
    have htwo : (eval registry two).start t =
        (.ok (.value (.string "b" none)), (t.print "a").print "b") := rfl
    have hone : (eval registry one).start t =
        (.ok (.value (.string "b" none)), t.print "a\nb") := rfl
    rw [htwo, hone]
    refine Prod.ext rfl ?_
    simp only [view, Transcript.view_print, String.append_assoc]
    rfl
  refine ⟨hkeeps, hindistinguishable, rfl, rfl, ?_⟩
  obtain ⟨hprograms, -⟩ := @exchange_unseen { registry } hkeeps
  obtain ⟨hview, -⟩ :=
    hprograms _ _ (.cons (.print (.exchange place hindistinguishable) []) .nil) {}
  exact hview

/-- A grouping puts frames into the trace, and a literal of data that is no value holds that data
itself: once it is made a value, it is another one. -/
theorem exchange_seen_in_traces :
    let prefixed (op : Operator) (e : Object) :=
      Object.node .unary [.token (.ofOperator op none 1 none), e]
    let failing := prefixed .minus (.node .literal [.value (.string "x" none)])
    let grouping := Object.node .grouping [failing]
    let run (e : Object) := (interpret { tracing := true } [e.print]).start {}
    let plain := Object.node .literal [.plain (.bool false)]
    Indistinguishable .initial grouping failing ∧
      (run grouping).2.errors ≠ (run failing).2.errors ∧
      ∃ literal, (Blueprint.literal (.object (.plain (.bool false)))).build = .ok literal ∧
        (eval .initial plain).start {} = (.ok (.plain (.bool false)), {}) ∧
        (run (prefixed .bang plain)).2.output ≠ (run (prefixed .bang literal)).2.output := by
  intro prefixed failing grouping run plain
  exact ⟨fun t => rfl, by decide +kernel, .node .literal [.value (.bool false)], rfl, rfl,
    by decide +kernel⟩

end TreeWalk
