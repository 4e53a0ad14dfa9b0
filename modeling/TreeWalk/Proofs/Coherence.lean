import TreeWalk.Proofs.Extension
import TreeWalk.Proofs.Malformed
import TreeWalk.Proofs.Origins

/-!
# Registries after any registrations

A registry keeps its rules in two tables, and beside each table the labels that count as expressions
or statements. Whatever is registered, in whatever order, the labels that count are those of the
table beside them; so an object counts as an expression if and only if a rule is found for it, and
what is refused by an evaluation has no rule.

* `Registry.registerAll` : registrations one after another;
* `Registry.Coherent` : the labels that count are those with a rule; each registration keeps this
  (`Coherent.register`), and coherent registries with the same rules are one
  (`Coherent.eq_of_rules`);
* `lastExprRule?`, `lastStmtRule?` : the last rule for a label among registrations, which is the one
  that is found (`exprRule?_registerAll`, `stmtRule?_registerAll`);
* `Coherent.register_comm` : registrations for different labels or tables commute;
* `Failure.Justified` : a refusal names an object without a rule; all failures of evaluations and
  executions are justified (`eval_justified`, `exec_justified`);
* `registry_coherent` : all this for the registries that registrations lead to.
-/

namespace TreeWalk

open Run

/-! ## Label sets and tables -/

namespace Registry

/-- Makes registrations one after another. -/
def registerAll (registry : Registry) (registrations : List Registration) : Registry :=
  registrations.foldl register registry

theorem registerAll_cons (registry : Registry) (registration : Registration)
    (rest : List Registration) :
    registry.registerAll (registration :: rest) =
      (registry.register registration).registerAll rest := rfl

/-- The labels that count as expressions or statements are those that have a rule. -/
structure Coherent (registry : Registry) : Prop where
  expr : ∀ label, registry.isExprLabel label = (registry.exprRule? label).isSome
  stmt : ∀ label, registry.isStmtLabel label = (registry.stmtRule? label).isSome

theorem isStmtLabel_initial (label : String) :
    initial.isStmtLabel label = (initial.stmtRule? label).isSome := by
  have hlabels : initial.isStmtLabel label = stmtLabels.contains label := rfl
  rw [hlabels, stmtRule?_initial, stmtLabels]
  by_cases hp : label = Form.print.label
  · simp [hp]
  · by_cases he : label = Form.expression.label
    · subst he
      decide
    · simp [hp, he]

theorem coherent_initial : Coherent initial := ⟨isExprLabel_initial, isStmtLabel_initial⟩

theorem Coherent.addExpr {registry : Registry} (h : registry.Coherent) (label : String)
    (rule : ExprRule) : (registry.addExpr label rule).Coherent := by
  refine ⟨fun other => ?_, h.stmt⟩
  have hold := h.expr other
  rw [exprRule?_addExpr]
  by_cases hl : other = label
  · simp [Registry.addExpr, hl]
  · simp [Registry.addExpr, hl, hold]

theorem Coherent.addStmt {registry : Registry} (h : registry.Coherent) (label : String)
    (rule : StmtRule) : (registry.addStmt label rule).Coherent := by
  refine ⟨h.expr, fun other => ?_⟩
  have hold := h.stmt other
  rw [stmtRule?_addStmt]
  by_cases hl : other = label
  · simp [Registry.addStmt, hl]
  · simp [Registry.addStmt, hl, hold]

/-- The step of the invariant: a registration extends a table and its labels alike. -/
theorem Coherent.register {registry : Registry} (h : registry.Coherent)
    (registration : Registration) : (registry.register registration).Coherent := by
  cases registration with
  | expr label rule => exact h.addExpr label rule
  | stmt label rule => exact h.addStmt label rule

theorem Coherent.registerAll {registry : Registry} (h : registry.Coherent)
    (registrations : List Registration) : (registry.registerAll registrations).Coherent := by
  induction registrations generalizing registry with
  | nil => exact h
  | cons registration rest ih => exact ih (h.register registration)

/-- A coherent registry is given by its rules. -/
theorem Coherent.eq_of_rules {r s : Registry} (hr : r.Coherent) (hs : s.Coherent)
    (hexpr : ∀ label, r.exprRule? label = s.exprRule? label)
    (hstmt : ∀ label, r.stmtRule? label = s.stmtRule? label) : r = s := by
  have hexprLabels : r.isExprLabel = s.isExprLabel := by
    funext label
    rw [hr.expr, hs.expr, hexpr]
  have hstmtLabels : r.isStmtLabel = s.isStmtLabel := by
    funext label
    rw [hr.stmt, hs.stmt, hstmt]
  have hexprRules : r.exprRule? = s.exprRule? := funext hexpr
  have hstmtRules : r.stmtRule? = s.stmtRule? := funext hstmt
  cases r
  cases s
  simp_all only

theorem Coherent.isExpr {registry : Registry} (h : registry.Coherent) (o : Object) :
    registry.isExpr o = (registry.exprRuleOf? o).isSome := by
  rw [Registry.isExpr, exprRuleOf?]
  cases o.label? with
  | none => rfl
  | some label => exact h.expr label

theorem Coherent.isStmt {registry : Registry} (h : registry.Coherent) (o : Object) :
    registry.isStmt o = (registry.stmtRuleOf? o).isSome := by
  rw [Registry.isStmt, stmtRuleOf?]
  cases o.label? with
  | none => rfl
  | some label => exact h.stmt label

end Registry

/-! ## The rule that is found -/

namespace Registration

/-- The rule that a registration makes for a label of an expression. -/
def exprRule? (label : String) : Registration → Option ExprRule
  | .expr other rule => if label = other then some rule else none
  | .stmt _ _ => none

/-- The rule that a registration makes for a label of a statement. -/
def stmtRule? (label : String) : Registration → Option StmtRule
  | .expr _ _ => none
  | .stmt other rule => if label = other then some rule else none

/-- Whether the rule is one for expressions. -/
def isExpr : Registration → Bool
  | .expr _ _ => true
  | .stmt _ _ => false

/-- For different labels or in different tables. -/
def Apart (a b : Registration) : Prop := a.label ≠ b.label ∨ a.isExpr ≠ b.isExpr

end Registration

def lastExprRule? (registrations : List Registration) (label : String) : Option ExprRule :=
  (registrations.filterMap (Registration.exprRule? label)).getLast?

def lastStmtRule? (registrations : List Registration) (label : String) : Option StmtRule :=
  (registrations.filterMap (Registration.stmtRule? label)).getLast?

namespace Registry

theorem exprRule?_register (registry : Registry) (registration : Registration) (label : String) :
    (registry.register registration).exprRule? label =
      (registration.exprRule? label).or (registry.exprRule? label) := by
  cases registration with
  | stmt other rule => rfl
  | expr other rule =>
    rw [register, exprRule?_addExpr, Registration.exprRule?]
    by_cases hl : label = other
    · rw [if_pos hl, if_pos hl, Option.some_or]
    · rw [if_neg hl, if_neg hl, Option.none_or]

theorem stmtRule?_register (registry : Registry) (registration : Registration) (label : String) :
    (registry.register registration).stmtRule? label =
      (registration.stmtRule? label).or (registry.stmtRule? label) := by
  cases registration with
  | expr other rule => rfl
  | stmt other rule =>
    rw [register, stmtRule?_addStmt, Registration.stmtRule?]
    by_cases hl : label = other
    · rw [if_pos hl, if_pos hl, Option.some_or]
    · rw [if_neg hl, if_neg hl, Option.none_or]

/-- Where each registration gives what it has to give and else leaves what was there, the last one
counts. -/
theorem registerAll_last {β : Type} (found : Registry → Option β) (given : Registration → Option β)
    (h : ∀ registry registration,
      found (registry.register registration) = (given registration).or (found registry))
    (registry : Registry) (registrations : List Registration) :
    found (registry.registerAll registrations) =
      ((registrations.filterMap given).getLast?).or (found registry) := by
  induction registrations generalizing registry with
  | nil => rfl
  | cons registration rest ih =>
    rw [registerAll_cons, ih, h]
    cases hgiven : given registration with
    | none => rw [List.filterMap_cons_none hgiven, Option.none_or]
    | some rule =>
      rw [List.filterMap_cons_some hgiven, List.getLast?_cons]
      cases (rest.filterMap given).getLast? <;> rfl

theorem exprRule?_registerAll (registry : Registry) (registrations : List Registration)
    (label : String) :
    (registry.registerAll registrations).exprRule? label =
      (lastExprRule? registrations label).or (registry.exprRule? label) :=
  registerAll_last (fun r => r.exprRule? label) (Registration.exprRule? label)
    (fun r x => r.exprRule?_register x label) registry registrations

theorem stmtRule?_registerAll (registry : Registry) (registrations : List Registration)
    (label : String) :
    (registry.registerAll registrations).stmtRule? label =
      (lastStmtRule? registrations label).or (registry.stmtRule? label) :=
  registerAll_last (fun r => r.stmtRule? label) (Registration.stmtRule? label)
    (fun r x => r.stmtRule?_register x label) registry registrations

end Registry

/-! ## The order of registrations -/

theorem Registration.Apart.exprRule? {a b : Registration} (h : a.Apart b) (label : String) :
    a.exprRule? label = none ∨ b.exprRule? label = none := by
  cases a with
  | stmt other rule => exact .inl rfl
  | expr one rule =>
    cases b with
    | stmt other rule' => exact .inr rfl
    | expr other rule' =>
      have hne : one ≠ other := h.resolve_right fun htable => htable rfl
      by_cases hl : label = one
      · exact .inr (if_neg fun ho => hne (hl.symm.trans ho))
      · exact .inl (if_neg hl)

theorem Registration.Apart.stmtRule? {a b : Registration} (h : a.Apart b) (label : String) :
    a.stmtRule? label = none ∨ b.stmtRule? label = none := by
  cases a with
  | expr other rule => exact .inl rfl
  | stmt one rule =>
    cases b with
    | expr other rule' => exact .inr rfl
    | stmt other rule' =>
      have hne : one ≠ other := h.resolve_right fun htable => htable rfl
      by_cases hl : label = one
      · exact .inr (if_neg fun ho => hne (hl.symm.trans ho))
      · exact .inl (if_neg hl)

theorem or_left_comm_of_none {α : Type} {x y : Option α} (h : x = none ∨ y = none)
    (z : Option α) : y.or (x.or z) = x.or (y.or z) := by
  obtain rfl | rfl := h
  · rw [Option.none_or, Option.none_or]
  · rw [Option.none_or, Option.none_or]

/-- No label gets rules from both, so neither hides the other. -/
theorem Registry.Coherent.register_comm {registry : Registry} (h : registry.Coherent)
    {a b : Registration} (hab : a.Apart b) :
    (registry.register a).register b = (registry.register b).register a := by
  refine Coherent.eq_of_rules ((h.register a).register b) ((h.register b).register a)
    (fun label => ?_) fun label => ?_
  · simp only [exprRule?_register]
    exact or_left_comm_of_none (hab.exprRule? label) _
  · simp only [stmtRule?_register]
    exact or_left_comm_of_none (hab.stmtRule? label) _

/-! ## Refusals -/

/-- An object that is refused has no rule. -/
def Failure.Justified (registry : Registry) : Failure → Prop
  | .cannotEvaluate o => registry.exprRuleOf? o = none
  | .cannotExecute o => registry.stmtRuleOf? o = none
  | _ => True

theorem Failure.justified_childCount (registry : Registry) (expected found : Nat) :
    (childCount expected found).Justified registry := by
  unfold childCount
  split <;> trivial

theorem Object.Malformed.justified (registry : Registry) {o : Object} {f : Failure}
    (h : o.Malformed f) : f.Justified registry := by
  cases h <;> trivial

theorem Object.justified_render (registry : Registry) (o : Object) (f : Failure)
    (h : o.render = .error f) : f.Justified registry := by
  obtain ⟨node, -, hnode⟩ := List.exists_of_findSome?_eq_some (render_error_iff.1 h)
  exact (malformed_iff.2 hnode).justified registry

theorem justified_admitsRules (registry : Registry) : AdmitsRules (Failure.Justified registry) where
  runtime _ := trivial
  missing := trivial
  count := Failure.justified_childCount registry
  unary token v f h := by
    obtain ⟨-, rfl⟩ | ⟨t, -, -, -, rfl⟩ := applyUnary_error h <;> trivial
  binary token v w f h := by
    obtain ⟨-, rfl⟩ | ⟨t, known, -, -, -, -, rfl⟩ := applyBinary_error h <;> trivial
  rendering o f h := o.justified_render registry f h

theorem justified_admitsRefusals (registry : Registry) :
    AdmitsRefusals (Failure.Justified registry) registry := ⟨fun _ h => h, fun _ h => h⟩

/-- Refuses no object that has a rule. -/
def Run.FailsJustly (registry : Registry) (α : Type) (x : Run α) : Prop :=
  ∀ t f, (x.start t).1 = .error f → f.Justified registry

theorem failsJustly_closed (context : Context) :
    ClosedUnderEffectsFor (Failure.Justified context.registry) context
      (FailsJustly context.registry) where
  result _ _ _ h := nomatch h
  failure hf t f h := by
    cases h
    exact hf
  sequence {_ _ x g} hx hg t f h := by
    rw [start_bind] at h
    rcases hr : x.start t with ⟨f' | a, u⟩
    · rw [hr] at h
      have hf : f' = f := Except.error.inj h
      exact hx t f (by rw [hr, hf])
    · rw [hr] at h
      exact hg a u f h
  print _ _ _ h := nomatch h
  note _ _ _ h := nomatch h
  report _ _ _ _ h := nomatch h
  attempt {x} hx t f h := by
    rw [start_attempt] at h
    rcases hr : x.start t with ⟨f' | a, u⟩
    · rw [hr] at h
      have hf' : f'.Justified context.registry := hx t f' (by rw [hr])
      cases f' with
      | runtime e => cases h
      | _ => cases h; exact hf'
    · rw [hr] at h
      cases h

/-- An evaluation refuses no object that has a rule, be it the object itself or one in it. -/
theorem eval_justified (registry : Registry) (o : Object) :
    FailsJustly registry Object (eval registry o) :=
  have hclosed := failsJustly_closed { registry }
  eval_closedFor hclosed.toClosedFor (justified_admitsRules registry)
    (justified_admitsRefusals registry) (fun _ _ => hclosed.print) o

theorem exec_justified (context : Context) (o : Object) :
    FailsJustly context.registry Unit (exec context o) :=
  exec_closedFor (failsJustly_closed context) (justified_admitsRules context.registry)
    (justified_admitsRefusals context.registry) o

/-! ## Objects with and without a rule -/

section Objects

variable {registry : Registry} {context : Context}

theorem exprRuleOf?_eq_some_iff {o : Object} {rule : ExprRule} :
    registry.exprRuleOf? o = some rule ↔
      ∃ label children, o = .tree (some label) children ∧
        registry.exprRule? label = some rule := by
  constructor
  · intro h
    cases o with
    | tree label children =>
      cases label with
      | none => cases h
      | some label => exact ⟨label, children, rfl, h⟩
    | plain | value | operator | token => cases h
  · rintro ⟨label, children, rfl, h⟩
    exact h

theorem stmtRuleOf?_eq_some_iff {o : Object} {rule : StmtRule} :
    registry.stmtRuleOf? o = some rule ↔
      ∃ label children, o = .tree (some label) children ∧
        registry.stmtRule? label = some rule := by
  constructor
  · intro h
    cases o with
    | tree label children =>
      cases label with
      | none => cases h
      | some label => exact ⟨label, children, rfl, h⟩
    | plain | value | operator | token => cases h
  · rintro ⟨label, children, rfl, h⟩
    exact h

theorem eval_of_rule {label : String} {rule : ExprRule}
    (h : registry.exprRule? label = some rule) (children : List Object) :
    eval registry (.tree (some label) children) = rule.eval (operands registry children) := by
  rw [eval, h]

theorem exec_of_rule {label : String} {rule : StmtRule}
    (h : context.registry.stmtRule? label = some rule) (children : List Object) :
    exec context (.tree (some label) children) = rule.exec context (clauses context children) := by
  rw [exec, h]

theorem eval_of_none {o : Object} (h : registry.exprRuleOf? o = none) :
    eval registry o = throw (.cannotEvaluate o) := by
  cases o with
  | tree label children =>
    cases label with
    | none => rfl
    | some label =>
      have hr : registry.exprRule? label = none := h
      rw [eval, hr]
  | plain | value | operator | token => rfl

theorem exec_of_none {o : Object} (h : context.registry.stmtRuleOf? o = none) :
    exec context o = throw (.cannotExecute o) := by
  cases o with
  | tree label children =>
    cases label with
    | none => rfl
    | some label =>
      have hr : context.registry.stmtRule? label = none := h
      rw [exec, hr]
  | plain | value | operator | token => rfl

/-- An object counts as an expression if it is a tree for whose label there is a rule. Then its
evaluation is that rule at work and never refuses the object; otherwise it does. -/
theorem Registry.Coherent.eval_isExpr (h : registry.Coherent) (o : Object) :
    (registry.isExpr o = true ↔ ∃ label children rule, o = .tree (some label) children ∧
      registry.exprRule? label = some rule ∧
      eval registry o = rule.eval (operands registry children)) ∧
    if registry.isExpr o then ∀ t, ((eval registry o).start t).1 ≠ .error (.cannotEvaluate o)
    else eval registry o = throw (.cannotEvaluate o) := by
  rw [h.isExpr]
  cases hrule : registry.exprRuleOf? o with
  | none =>
    refine ⟨⟨nofun, ?_⟩, eval_of_none hrule⟩
    rintro ⟨label, children, rule, ho, hr, -⟩
    cases hrule.symm.trans (exprRuleOf?_eq_some_iff.2 ⟨label, children, ho, hr⟩)
  | some rule =>
    refine ⟨⟨fun _ => ?_, fun _ => rfl⟩, fun t hrefused => ?_⟩
    · obtain ⟨label, children, rfl, hr⟩ := exprRuleOf?_eq_some_iff.1 hrule
      exact ⟨label, children, rule, rfl, hr, eval_of_rule hr children⟩
    · have hnone : registry.exprRuleOf? o = none := eval_justified registry o t _ hrefused
      cases hrule.symm.trans hnone

theorem Registry.Coherent.exec_isStmt (h : context.registry.Coherent) (o : Object) :
    (context.registry.isStmt o = true ↔ ∃ label children rule, o = .tree (some label) children ∧
      context.registry.stmtRule? label = some rule ∧
      exec context o = rule.exec context (clauses context children)) ∧
    if context.registry.isStmt o then ∀ t, ((exec context o).start t).1 ≠ .error (.cannotExecute o)
    else exec context o = throw (.cannotExecute o) := by
  rw [h.isStmt]
  cases hrule : context.registry.stmtRuleOf? o with
  | none =>
    refine ⟨⟨nofun, ?_⟩, exec_of_none hrule⟩
    rintro ⟨label, children, rule, ho, hr, -⟩
    cases hrule.symm.trans (stmtRuleOf?_eq_some_iff.2 ⟨label, children, ho, hr⟩)
  | some rule =>
    refine ⟨⟨fun _ => ?_, fun _ => rfl⟩, fun t hrefused => ?_⟩
    · obtain ⟨label, children, rfl, hr⟩ := stmtRuleOf?_eq_some_iff.1 hrule
      exact ⟨label, children, rule, rfl, hr, exec_of_rule hr children⟩
    · have hnone : context.registry.stmtRuleOf? o = none := exec_justified context o t _ hrefused
      cases hrule.symm.trans hnone

end Objects

/-! ## Registries that registrations lead to -/

/-- **Labels and rules go together after any registrations.** An object counts as an expression if
and only if it is a tree for whose label a rule is found, and then its evaluation never refuses it;
statements likewise. The rule is the last one registered for the label in the table, or the one that
the label had from the start; registries with the same rules are the same, and registrations for
different labels or in different tables commute. -/
theorem registry_coherent (registrations : List Registration) :
    let registry := Registry.initial.registerAll registrations
    (∀ o : Object,
      (registry.isExpr o = true ↔ ∃ label children rule, o = .tree (some label) children ∧
        registry.exprRule? label = some rule ∧
        eval registry o = rule.eval (operands registry children)) ∧
      if registry.isExpr o then ∀ t, ((eval registry o).start t).1 ≠ .error (.cannotEvaluate o)
      else eval registry o = throw (.cannotEvaluate o)) ∧
    (∀ (source : Option String) (reporter : Reporter) (tracing : Bool)
      (wording : List Call → String) (o : Object),
      let context : Context := { registry, source, reporter, tracing, wording }
      (registry.isStmt o = true ↔ ∃ label children rule, o = .tree (some label) children ∧
        registry.stmtRule? label = some rule ∧
        exec context o = rule.exec context (clauses context children)) ∧
      if registry.isStmt o then ∀ t, ((exec context o).start t).1 ≠ .error (.cannotExecute o)
      else exec context o = throw (.cannotExecute o)) ∧
    (∀ label,
      registry.exprRule? label =
        (lastExprRule? registrations label).or (Registry.initial.exprRule? label) ∧
      registry.stmtRule? label =
        (lastStmtRule? registrations label).or (Registry.initial.stmtRule? label)) ∧
    (∀ others : List Registration,
      (∀ label,
        (lastExprRule? others label).or (Registry.initial.exprRule? label) =
          registry.exprRule? label ∧
        (lastStmtRule? others label).or (Registry.initial.stmtRule? label) =
          registry.stmtRule? label) →
      Registry.initial.registerAll others = registry) ∧
    ∀ a b : Registration, a.Apart b →
      (registry.register a).register b = (registry.register b).register a := by
  intro registry
  have hcoherent : registry.Coherent := Registry.coherent_initial.registerAll registrations
  refine ⟨hcoherent.eval_isExpr, fun source reporter tracing wording o => ?_, fun label => ?_,
    fun others hsame => ?_, fun a b hab => hcoherent.register_comm hab⟩
  · let context : Context := { registry, source, reporter, tracing, wording }
    exact @Registry.Coherent.exec_isStmt context hcoherent o
  · exact ⟨Registry.exprRule?_registerAll _ registrations label,
      Registry.stmtRule?_registerAll _ registrations label⟩
  · have hothers := Registry.coherent_initial.registerAll others
    refine hothers.eq_of_rules hcoherent (fun label => ?_) fun label => ?_
    · rw [Registry.exprRule?_registerAll]
      exact (hsame label).1
    · rw [Registry.stmtRule?_registerAll]
      exact (hsame label).2

/-- A label in both tables, one rule that replaces another, and the rule of a form put back. -/
theorem registry_coherent_replaced :
    let literal := Form.literal.label
    let registrations : List Registration :=
      [.expr "x" .or, .expr literal .failing, .stmt "x" .twice, .expr "x" .and,
        .expr literal .literal]
    let others : List Registration := [.stmt "x" .twice, .expr "x" .and]
    let registry := Registry.initial.registerAll registrations
    Registry.initial.registerAll others = registry ∧
      registry.isExpr (.tree (some "x") []) = true ∧
      registry.exprRule? "x" = some .and ∧ registry.exprRule? literal = some .literal ∧
      (Registration.expr "x" .or).Apart (.stmt "x" .block) ∧
      (registry.register (.expr "x" .or)).register (.stmt "x" .block) =
        (registry.register (.stmt "x" .block)).register (.expr "x" .or) := by
  intro literal registrations others registry
  obtain ⟨-, -, hfound, hsame, hcomm⟩ := registry_coherent registrations
  have hothers : ∀ label,
      (lastExprRule? others label).or (Registry.initial.exprRule? label) =
        registry.exprRule? label ∧
      (lastStmtRule? others label).or (Registry.initial.stmtRule? label) =
        registry.stmtRule? label := by
    intro label
    rw [(hfound label).1, (hfound label).2]
    have hstmt : lastStmtRule? others label = lastStmtRule? registrations label := rfl
    refine ⟨?_, by rw [hstmt]⟩
    by_cases hx : label = "x"
    · subst hx
      rfl
    · by_cases hl : label = literal
      · subst hl
        rfl
      · simp [lastExprRule?, registrations, others, Registration.exprRule?, hx, hl]
  have hapart : (Registration.expr "x" .or).Apart (.stmt "x" .block) := .inr (by decide)
  exact ⟨hsame others hothers, rfl, rfl, rfl, hapart, hcomm _ _ hapart⟩

end TreeWalk
