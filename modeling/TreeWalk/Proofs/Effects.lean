import TreeWalk.Proofs.Exchange
import TreeWalk.Session

/-!
# Effects of evaluation

To evaluate an object is to print some lines, and to do nothing else: nothing is logged, nothing is
reported, and the session stays as it is. Where no label has a rule that prints, not even a line is
printed; then a statement of the two forms prints no more than the statement itself asks for.

* `ExprRule.Writes` : rules that print although their operands are silent; there is one
  (`writes_iff`);
* `Registry.Quiet` : registries without such rules; there evaluations are silent (`eval_silent`);
* `exec_expression_silent`, `start_exec_print` : statements of the two forms in such a registry;
* `Session.perform_evaluate` : a step that evaluates an object, from the object's evaluation;
* `evaluation_effects` : all that the evaluation of an object does.
-/

namespace TreeWalk

open Run

/-! ## Silence -/

namespace Run

variable {α : Type} {x : Run α}

/-- A run that prints a line is not silent. -/
theorem not_silent_of_print {t : Transcript} {line : String} (h : (x.start t).2 = t.print line) :
    ¬ Silent α x := by
  rintro ⟨r, rfl⟩
  have hprinted : t.printed = t.printed ++ [line] := congrArg Transcript.printed h
  have hlength := congrArg List.length hprinted
  rw [List.length_append, List.length_singleton] at hlength
  omega

/-- A silent run prints no lines. -/
theorem Silent.lines_eq_nil (h : Silent α x) {r : Except Failure α} {lines : List String}
    (hx : ∀ t, x.start t = (r, { t with printed := t.printed ++ lines })) : lines = [] := by
  obtain ⟨s, rfl⟩ := h
  have hend : ({} : Transcript) = { printed := [] ++ lines } := congrArg Prod.snd (hx {})
  exact (congrArg Transcript.printed hend).symm

end Run

/-! ## Rules that print -/

namespace ExprRule

/-- Prints something although no operand does. -/
def Writes (rule : ExprRule) : Prop :=
  ∃ children : List Operand, (∀ child ∈ children, Silent Object child.value) ∧
    ¬ Silent Object (rule.eval children)

theorem writes_echo : ExprRule.echo.Writes := by
  let child : Operand := ⟨.value .nil, pure (.value .nil)⟩
  have hchild : Silent Object child.value := silent_closed.result _
  refine ⟨[child], fun other ho => ?_, ?_⟩
  · rw [List.mem_singleton.1 ho]
    exact hchild
  · have hecho : ((ExprRule.echo.eval [child]).start {}).2 =
        ({} : Transcript).print Value.nil.printed := rfl
    exact not_silent_of_print hecho

/-- Of all rules only one prints by itself. -/
theorem writes_iff (rule : ExprRule) : rule.Writes ↔ rule = .echo := by
  constructor
  · rintro ⟨children, hchildren, hrule⟩
    by_contra hne
    apply hrule
    exact eval_closedFor silent_closed.closedFor admitsRules_all hchildren fun h => absurd h hne
  · rintro rfl
    exact writes_echo

end ExprRule

namespace Registry

/-- No label has a rule that prints. -/
def Quiet (registry : Registry) : Prop :=
  ∀ label rule, registry.exprRule? label = some rule → ¬ rule.Writes

theorem quiet_initial : Registry.initial.Quiet := by
  intro label rule h hwrites
  rw [rule.writes_iff] at hwrites
  exact exprRule?_initial_ne_echo label (hwrites ▸ h)

theorem Quiet.addExpr {registry : Registry} (h : registry.Quiet) {rule : ExprRule}
    (hrule : ¬ rule.Writes) (label : String) : (registry.addExpr label rule).Quiet := by
  intro other rule' hother
  rw [exprRule?_addExpr] at hother
  by_cases hlabel : other = label
  · rw [if_pos hlabel, Option.some_inj] at hother
    exact hother ▸ hrule
  · rw [if_neg hlabel] at hother
    exact h other rule' hother

end Registry

theorem eval_silent {registry : Registry} (h : registry.Quiet) (o : Object) :
    Silent Object (eval registry o) :=
  eval_closed silent_closed (fun label hecho => absurd ExprRule.writes_echo (h label _ hecho)) o

/-! ## Statements of the two forms -/

section Statements

variable {context : Context} (hquiet : context.registry.Quiet)

include hquiet

theorem valueAt_silent (children : List Object) (index : Nat) :
    Silent Object (StmtRule.valueAt (clauses context children) index) := by
  have hchildren : ∀ clause ∈ clauses context children, Silent Object clause.value := by
    intro clause hc
    rw [clauses_eq_map] at hc
    obtain ⟨child, -, rfl⟩ := List.mem_map.1 hc
    exact eval_silent hquiet child
  exact silent_closed.closedFor.withChild trivial hchildren index

theorem exec_expression_silent {label : String}
    (hrule : context.registry.stmtRule? label = some .expression) (children : List Object) :
    Silent Unit (exec context (.tree (some label) children)) := by
  have hvalue : Silent Object (StmtRule.valueAt (clauses context children) 0) :=
    valueAt_silent hquiet children 0
  rw [exec, hrule]
  exact silent_closed.sequence hvalue fun _ => silent_closed.result ()

theorem start_exec_print {label : String}
    (hrule : context.registry.stmtRule? label = some .print) (children : List Object) :
    ∃ r : Except Failure String, ∀ t,
      (exec context (.tree (some label) children)).start t = match r with
        | .ok line => (.ok (), t.print line)
        | .error f => (.error f, t) := by
  obtain ⟨r, hvalue⟩ := valueAt_silent hquiet children 0
  refine ⟨r.map Object.printed, fun t => ?_⟩
  simp only [exec, hrule, StmtRule.exec, hvalue, start_bind, start_ofExcept]
  cases r with
  | ok v => rfl
  | error f => rfl

end Statements

/-! ## Steps that evaluate -/

namespace Session

variable (s : Session)

theorem perform_of_work {e : Blueprint} {reply : Except Failure Reply} {t : Transcript}
    (h : (s.work (.evaluate e)).start { failed := s.failed } = (reply, t)) :
    s.perform (.evaluate e) = (⟨reply, t⟩, { s with failed := t.failed }) := by
  have hadjust : s.adjust (.evaluate e) = s := rfl
  rw [perform, hadjust, h]

theorem perform_evaluate {e : Blueprint} {o : Object} (he : e.build = .ok o)
    {r : Except Failure Object} {lines : List String}
    (heval : ∀ t, (eval s.registry o).start t = (r, { t with printed := t.printed ++ lines })) :
    s.perform (.evaluate e) =
      (⟨r.map .value, { failed := s.failed, printed := lines }⟩, s) := by
  apply s.perform_of_work
  simp only [work, start_bind, start_ofExcept, he, heval]
  cases r with
  | ok v => rfl
  | error f => rfl

/-- What cannot be built is not evaluated. -/
theorem perform_evaluate_error {e : Blueprint} {f : Failure} (he : e.build = .error f) :
    s.perform (.evaluate e) = (⟨.error f, { failed := s.failed }⟩, s) := by
  apply s.perform_of_work
  simp only [work, start_bind, start_ofExcept, he]

theorem after_evaluate (e : Blueprint) : (s.perform (.evaluate e)).2 = s := by
  cases he : e.build with
  | error f => rw [s.perform_evaluate_error he]
  | ok o =>
    obtain ⟨r, lines, heval⟩ := eval_onlyPrints s.registry o
    rw [s.perform_evaluate he heval]

end Session

/-! ## All effects -/

/-- **Evaluation only prints, and only by rules that print.** From every transcript it ends in the
same way and adds the same lines, in any session, which it leaves as it was. Where no label has a
rule that prints, it adds nothing; if the six forms have their own rules there, a statement that
evaluates prints nothing either, and one that prints fails in silence or prints one line. -/
theorem evaluation_effects (s : Session) (o : Object) :
    (∃ (r : Except Failure Object) (lines : List String),
      (∀ t, (eval s.registry o).start t = (r, { t with printed := t.printed ++ lines }) ∧
        ((eval s.registry o).start t).2.output =
          t.output ++ String.join (lines.map (· ++ "\n"))) ∧
      (∀ e, e.build = .ok o → s.perform (.evaluate e) =
        (⟨r.map .value, { failed := s.failed, printed := lines }⟩, s)) ∧
      (s.registry.Quiet → lines = [])) ∧
    (∀ e, (s.perform (.evaluate e)).2 = s) ∧
    (∀ rule : ExprRule, rule.Writes ↔ rule = .echo) ∧
    (s.registry.Quiet → s.registry.KeepsForms → ∀ children,
      (∃ r, ∀ t, (exec s.context (.node .expression children)).start t = (r, t)) ∧
      ∃ r : Except Failure String, ∀ t,
        match r with
        | .ok line => (exec s.context (.node .print children)).start t = (.ok (), t.print line) ∧
          (t.print line).output = t.output ++ line ++ "\n"
        | .error f => (exec s.context (.node .print children)).start t = (.error f, t)) := by
  refine ⟨?_, s.after_evaluate, ExprRule.writes_iff, fun hquiet hkeeps children => ⟨?_, ?_⟩⟩
  · obtain ⟨r, lines, heval⟩ := eval_onlyPrints s.registry o
    refine ⟨r, lines, fun t => ⟨heval t, ?_⟩, fun e he => s.perform_evaluate he heval, ?_⟩
    · rw [heval, t.output_append]
    · intro hquiet
      exact (eval_silent hquiet o).lines_eq_nil heval
  · have hrule : s.context.registry.stmtRule? Form.expression.label = some .expression :=
      hkeeps.stmtForms .expression .expression rfl
    obtain ⟨r, hexec⟩ := exec_expression_silent hquiet hrule children
    refine ⟨r, fun t => ?_⟩
    rw [Object.node, hexec, start_ofExcept]
  · have hrule : s.context.registry.stmtRule? Form.print.label = some .print :=
      hkeeps.stmtForms .print .print rfl
    obtain ⟨r, hexec⟩ := start_exec_print hquiet hrule children
    refine ⟨r, fun t => ?_⟩
    cases r with
    | ok line =>
      refine ⟨hexec t, ?_⟩
      rw [Transcript.print, t.output_append, String.append_assoc]
      simp
    | error f => exact hexec t

/-- With rules for sequences and failures added, which do not print, a sequence is evaluated in
silence; a statement prints the value of the sequence, and nothing where the value is missing. -/
theorem evaluation_effects_sequence :
    let registry := (Registry.initial.addExpr "comma" .comma).addExpr "fail" .failing
    let s : Session := { registry, source := some "a", failed := true }
    let value (v : Value) := Object.node .literal [.value v]
    let comma := Object.tree (some "comma") [value .nil, value (.bool true)]
    let failing := Object.tree (some "comma") [comma, .tree (some "fail") [value .nil]]
    registry.Quiet ∧ registry.KeepsForms ∧
      (∃ r, ∀ t, (eval registry failing).start t = (r, t)) ∧
      (∀ t, (exec s.context (.node .print [comma])).start t = (.ok (), t.print "true")) ∧
      ∃ f, ∀ t, (exec s.context (.node .print [failing])).start t = (.error f, t) := by
  intro registry s value comma failing
  have hquiet : registry.Quiet := by
    have hcomma : ¬ ExprRule.comma.Writes := by simp [ExprRule.writes_iff]
    have hfailing : ¬ ExprRule.failing.Writes := by simp [ExprRule.writes_iff]
    exact (Registry.quiet_initial.addExpr hcomma "comma").addExpr hfailing "fail"
  have hkeeps : registry.KeepsForms := by
    constructor <;> intro form rule h <;> cases form <;> cases h <;> rfl
  obtain ⟨⟨r, lines, heval, -, hlines⟩, -, -, hstatements⟩ := evaluation_effects s failing
  refine ⟨hquiet, hkeeps, ⟨r, fun t => ?_⟩, ?_, ?_⟩
  · obtain rfl := hlines hquiet
    have hstart := (heval t).1
    rw [List.append_nil] at hstart
    exact hstart
  · obtain ⟨-, r, hprint⟩ := hstatements hquiet hkeeps [comma]
    have hempty : (exec s.context (.node .print [comma])).start {} =
        (.ok (), { printed := ["true"] }) := rfl
    cases r with
    | error f => cases hempty.symm.trans (hprint {})
    | ok line =>
      have hsame := hempty.symm.trans (hprint {}).1
      obtain rfl : "true" = line := (List.cons.inj (congrArg (·.2.printed) hsame)).1
      exact fun t => (hprint t).1
  · obtain ⟨-, r, hprint⟩ := hstatements hquiet hkeeps [failing]
    cases r with
    | error f => exact ⟨f, hprint⟩
    | ok line => cases (hprint {}).1

end TreeWalk
