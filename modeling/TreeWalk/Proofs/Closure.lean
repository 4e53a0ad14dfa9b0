import TreeWalk.Eval.Statement

/-!
# What holds of every run

Rules only put the computations of children together, print, and run programs inside. So a property
of computations that is kept by these few steps holds of whatever is evaluated or executed, in any
registry; the induction over trees is made here, once for all such properties.

* `Run.Closed` : properties kept by results, failures and sequences;
* `Run.ClosedUnderEffects` : those that also hold of printing, logging and reporting, and are kept
  by `Run.attempt`;
* `eval_closed` : a closed property holds of every evaluation, if it holds of printing or if the
  registry has no rule that prints;
* `exec_closed`, `interpret_closed` : a property closed under effects holds of every execution and
  of every program;
* `Run.ClosedFor`, `eval_closedFor`, `exec_closedFor` : the same for properties that fail of some
  failures, if they hold of those that rules raise and of the refusals of unknown objects;
* `Run.Commutes` : a change of the transcript can as well be made after the run; this is closed
  under effects if the change commutes with each of them (`Run.commutes_closedUnderEffects`).
-/

namespace TreeWalk

namespace Registry

/-- The rule that an object is evaluated by. -/
def exprRuleOf? (registry : Registry) (o : Object) : Option ExprRule :=
  o.label?.bind registry.exprRule?

/-- The rule that an object is executed by. -/
def stmtRuleOf? (registry : Registry) (o : Object) : Option StmtRule :=
  o.label?.bind registry.stmtRule?

end Registry

namespace Run

/-- Kept by results, failures and sequences. -/
structure Closed (P : ∀ α : Type, Run α → Prop) : Prop where
  result : ∀ {α : Type} (a : α), P α (pure a)
  failure : ∀ {α : Type} (f : Failure), P α (throw f)
  sequence : ∀ {α β : Type} {x : Run α} {f : α → Run β}, P α x → (∀ a, P β (f a)) → P β (x >>= f)

/-- Kept by all that a program does. -/
structure ClosedUnderEffects (context : Context) (P : ∀ α : Type, Run α → Prop) : Prop
    extends Closed P where
  print : ∀ line, P Unit (Run.print line)
  note : ∀ entry, P Unit (Run.note entry)
  report : ∀ e calls, P Unit (Run.report context.reporter ⟨e, context.trace? calls⟩)
  attempt : ∀ {x : Run Unit}, P Unit x → P (Option RuntimeError) x.attempt

/-- Kept by results and sequences, and by the failures that are admitted. -/
structure ClosedFor (Admitted : Failure → Prop) (P : ∀ α : Type, Run α → Prop) : Prop where
  result : ∀ {α : Type} (a : α), P α (pure a)
  failure : ∀ {α : Type} {f : Failure}, Admitted f → P α (throw f)
  sequence : ∀ {α β : Type} {x : Run α} {f : α → Run β}, P α x → (∀ a, P β (f a)) → P β (x >>= f)

/-- Kept by all that a program does besides failing in ways that are not admitted. -/
structure ClosedUnderEffectsFor (Admitted : Failure → Prop) (context : Context)
    (P : ∀ α : Type, Run α → Prop) : Prop extends ClosedFor Admitted P where
  print : ∀ line, P Unit (Run.print line)
  note : ∀ entry, P Unit (Run.note entry)
  report : ∀ e calls, P Unit (Run.report context.reporter ⟨e, context.trace? calls⟩)
  attempt : ∀ {x : Run Unit}, P Unit x → P (Option RuntimeError) x.attempt

/-- Admits the failures that rules raise by themselves. -/
structure AdmitsRules (Admitted : Failure → Prop) : Prop where
  runtime : ∀ e, Admitted (.runtime e)
  missing : Admitted .missingChild
  count : ∀ expected found, Admitted (.childCount expected found)
  unary : ∀ token v f, applyUnary token v = .error f → Admitted f
  binary : ∀ token v w f, applyBinary token v w = .error f → Admitted f
  rendering : ∀ (o : Object) f, o.render = .error f → Admitted f

/-- Admits the refusal of every object that a registry has no rule for. -/
structure AdmitsRefusals (Admitted : Failure → Prop) (registry : Registry) : Prop where
  evaluate : ∀ o, registry.exprRuleOf? o = none → Admitted (.cannotEvaluate o)
  execute : ∀ o, registry.stmtRuleOf? o = none → Admitted (.cannotExecute o)

variable {P : ∀ α : Type, Run α → Prop} {Admitted : Failure → Prop}

theorem Closed.closedFor (hP : Closed P) : ClosedFor (fun _ => True) P :=
  ⟨hP.result, fun _ => hP.failure _, hP.sequence⟩

theorem ClosedUnderEffects.closedFor {context : Context} (hP : ClosedUnderEffects context P) :
    ClosedUnderEffectsFor (fun _ => True) context P :=
  ⟨hP.toClosed.closedFor, hP.print, hP.note, hP.report, hP.attempt⟩

theorem admitsRules_all : AdmitsRules fun _ => True :=
  ⟨fun _ => trivial, trivial, fun _ _ => trivial, fun _ _ _ _ => trivial, fun _ _ _ _ _ => trivial,
    fun _ _ _ => trivial⟩

theorem admitsRefusals_all (registry : Registry) : AdmitsRefusals (fun _ => True) registry :=
  ⟨fun _ _ => trivial, fun _ _ => trivial⟩

theorem ClosedFor.ofExcept (hP : ClosedFor Admitted P) {α : Type} {x : Except Failure α}
    (h : ∀ f, x = .error f → Admitted f) : P α (Run.ofExcept x) := by
  cases x with
  | ok a => exact hP.result a
  | error f => exact hP.failure (h f rfl)

theorem Closed.ofExcept (hP : Closed P) {α : Type} (x : Except Failure α) : P α (Run.ofExcept x) :=
  hP.closedFor.ofExcept fun _ _ => trivial

theorem ClosedFor.childAt (hP : ClosedFor Admitted P) (hmissing : Admitted .missingChild)
    {α : Type} (children : List α) (index : Nat) : P α (TreeWalk.childAt children index) := by
  cases hc : children[index]? with
  | none => rw [childAt_of_none hc]; exact hP.failure hmissing
  | some child => rw [childAt_of_some hc]; exact hP.result _

/-- What is done with one of the children has the property if it has it for each of them. -/
theorem ClosedFor.withChild (hP : ClosedFor Admitted P) (hmissing : Admitted .missingChild)
    {α β : Type} {children : List α} {f : α → Run β} (h : ∀ child ∈ children, P β (f child))
    (index : Nat) : P β (TreeWalk.childAt children index >>= f) := by
  cases hc : children[index]? with
  | none => rw [childAt_of_none hc, throw_bind]; exact hP.failure hmissing
  | some child =>
    rw [childAt_of_some hc, pure_bind]
    exact h child (List.mem_of_getElem? hc)

end Run

open Run

variable {P : ∀ α : Type, Run α → Prop} {Admitted : Failure → Prop}

/-! ## Evaluation -/

namespace ExprRule

variable {children : List Operand}

theorem lastValue_closedFor (hP : ClosedFor Admitted P) :
    ∀ {children : List Operand}, (∀ child ∈ children, P Object child.value) →
      P Object (lastValue children)
  | [], _ => hP.result _
  | [child], h => h child (List.mem_singleton_self _)
  | child :: next :: rest, h => by
    rw [lastValue]
    · exact hP.sequence (h child (List.mem_cons_self ..)) fun _ =>
        lastValue_closedFor hP fun other ho => h other (List.mem_cons_of_mem _ ho)
    · simp

/-- A rule keeps a property of its operands; printing is asked of it only if the rule prints. -/
theorem eval_closedFor (hP : ClosedFor Admitted P) (hrules : AdmitsRules Admitted)
    (h : ∀ child ∈ children, P Object child.value) {rule : ExprRule}
    (hprint : rule = .echo → ∀ line, P Unit (Run.print line)) : P Object (rule.eval children) := by
  have hchild : ∀ index, P Operand (childAt children index) := hP.childAt hrules.missing children
  have hv : ∀ index, P Object (valueAt children index) := hP.withChild hrules.missing h
  cases rule with
  | literal => exact hP.sequence (hchild 0) fun child => hP.result child.node
  | grouping => exact hv 0
  | unary =>
    refine hP.sequence (hchild 0) fun token => hP.withChild hrules.missing (fun operand ho => ?_) 1
    exact hP.sequence (h operand ho) fun v =>
      hP.sequence (hP.ofExcept (hrules.unary _ _)) fun _ => hP.result _
  | binary =>
    simp only [ExprRule.eval]
    split
    · rename_i left token right
      refine hP.sequence (h left (by simp)) fun v => hP.sequence (h right (by simp)) fun w => ?_
      exact hP.sequence (hP.ofExcept (hrules.binary _ _ _)) fun _ => hP.result _
    · exact hP.failure (hrules.count _ _)
  | or =>
    refine hP.sequence (hv 0) fun v => ?_
    split
    · exact hP.result v
    · exact hv 1
  | and =>
    refine hP.sequence (hv 0) fun v => ?_
    split
    · exact hv 1
    · exact hP.result v
  | comma => exact lastValue_closedFor hP h
  | echo => exact hP.sequence (hv 0) fun v => hP.sequence (hprint rfl _) fun _ => hP.result v
  | rendering =>
    exact hP.sequence (hchild 0) fun _ =>
      hP.sequence (hP.ofExcept (hrules.rendering _)) fun _ => hP.result _
  | failing => exact hP.sequence (hchild 0) fun _ => hP.failure (hrules.runtime _)

end ExprRule

section Evaluation

variable {registry : Registry}

mutual

theorem eval_closedFor (hP : ClosedFor Admitted P) (hrules : AdmitsRules Admitted)
    (hrefusals : AdmitsRefusals Admitted registry)
    (hprint : ∀ label, registry.exprRule? label = some .echo → ∀ line, P Unit (Run.print line)) :
    ∀ o : Object, P Object (eval registry o)
  | .tree (some label) children => by
    rw [eval]
    cases hr : registry.exprRule? label with
    | none => exact hP.failure (hrefusals.evaluate _ hr)
    | some rule =>
      have hoperands := operands_closedFor hP hrules hrefusals hprint children
      exact ExprRule.eval_closedFor hP hrules hoperands fun he => hprint label (he ▸ hr)
  | .tree none _ | .plain _ | .value _ | .operator _ | .token _ =>
    hP.failure (hrefusals.evaluate _ rfl)

theorem operands_closedFor (hP : ClosedFor Admitted P) (hrules : AdmitsRules Admitted)
    (hrefusals : AdmitsRefusals Admitted registry)
    (hprint : ∀ label, registry.exprRule? label = some .echo → ∀ line, P Unit (Run.print line)) :
    ∀ children : List Object, ∀ child ∈ operands registry children, P Object child.value
  | [], child, hc => absurd hc (List.not_mem_nil)
  | first :: rest, child, hc => by
    rw [operands] at hc
    rcases List.mem_cons.1 hc with rfl | hc
    · exact eval_closedFor hP hrules hrefusals hprint first
    · exact operands_closedFor hP hrules hrefusals hprint rest child hc

end

end Evaluation

/-- **A closed property holds of every evaluation**; it has to hold of printing only if some label
has a rule that prints. -/
theorem eval_closed {registry : Registry} (hP : Closed P)
    (hprint : ∀ label, registry.exprRule? label = some .echo → ∀ line, P Unit (Run.print line))
    (o : Object) : P Object (eval registry o) :=
  eval_closedFor hP.closedFor admitsRules_all (admitsRefusals_all registry) hprint o

/-! ## Execution -/

section Execution

variable {context : Context}

theorem Clause.runFrom_closedFor (hP : ClosedUnderEffectsFor Admitted context P) :
    ∀ {clauses : List Clause} (executed : Nat), (∀ clause ∈ clauses, P Unit clause.effect) →
      P Summary (runFrom context executed clauses)
  | [], _, _ => hP.result _
  | clause :: rest, executed, h => by
    rw [runFrom]
    refine hP.sequence (hP.note _) fun _ => ?_
    refine hP.sequence (hP.attempt (h clause (List.mem_cons_self ..))) fun error => ?_
    cases error with
    | none =>
      exact runFrom_closedFor hP (executed + 1) fun other ho => h other (List.mem_cons_of_mem _ ho)
    | some e =>
      exact hP.sequence (hP.note _) fun _ => hP.sequence (hP.report ..) fun _ => hP.result _

theorem Clause.runAll_closedFor (hP : ClosedUnderEffectsFor Admitted context P)
    {clauses : List Clause} (h : ∀ clause ∈ clauses, P Unit clause.effect) :
    P Summary (runAll context clauses) :=
  hP.sequence (hP.note _) fun _ => runFrom_closedFor hP 0 h

namespace StmtRule

variable {children : List Clause}

theorem effects_closedFor (hP : ClosedFor Admitted P) :
    ∀ {children : List Clause}, (∀ child ∈ children, P Unit child.effect) →
      P Unit (effects children)
  | [], _ => hP.result _
  | child :: _, h =>
    hP.sequence (h child (List.mem_cons_self ..)) fun _ =>
      effects_closedFor hP fun other ho => h other (List.mem_cons_of_mem _ ho)

theorem exec_closedFor (hP : ClosedUnderEffectsFor Admitted context P)
    (hrules : AdmitsRules Admitted) (hvalue : ∀ child ∈ children, P Object child.value)
    (heffect : ∀ child ∈ children, P Unit child.effect) (rule : StmtRule) :
    P Unit (rule.exec context children) := by
  have hv : ∀ index, P Object (valueAt children index) := hP.withChild hrules.missing hvalue
  have he : ∀ index, P Unit (effectAt children index) := hP.withChild hrules.missing heffect
  cases rule with
  | expression => exact hP.sequence (hv 0) fun _ => hP.result _
  | print => exact hP.sequence (hv 0) fun _ => hP.print _
  | twice => exact hP.sequence (he 0) fun _ => he 0
  | block => exact effects_closedFor hP.toClosedFor heffect
  | conditional =>
    refine hP.sequence (hv 0) fun v => ?_
    split
    · exact he 1
    · split
      · exact hP.result _
      · exact he 2
  | nested => exact hP.sequence (Clause.runAll_closedFor hP heffect) fun _ => hP.print _

end StmtRule

variable (hP : ClosedUnderEffectsFor Admitted context P) (hrules : AdmitsRules Admitted)
  (hrefusals : AdmitsRefusals Admitted context.registry)

include hP hrules hrefusals

mutual

theorem exec_closedFor : ∀ o : Object, P Unit (exec context o)
  | .tree (some label) children => by
    rw [exec]
    cases hr : context.registry.stmtRule? label with
    | none => exact hP.failure (hrefusals.execute _ hr)
    | some rule =>
      have hc := clauses_closedFor children
      exact StmtRule.exec_closedFor hP hrules (fun c h => (hc c h).1) (fun c h => (hc c h).2) rule
  | .tree none _ | .plain _ | .value _ | .operator _ | .token _ =>
    hP.failure (hrefusals.execute _ rfl)

theorem clauses_closedFor :
    ∀ children : List Object, ∀ child ∈ clauses context children,
      P Object child.value ∧ P Unit child.effect
  | [], child, hc => absurd hc (List.not_mem_nil)
  | first :: rest, child, hc => by
    rw [clauses] at hc
    rcases List.mem_cons.1 hc with rfl | hc
    · exact ⟨eval_closedFor hP.toClosedFor hrules hrefusals (fun _ _ => hP.print) first,
        exec_closedFor first⟩
    · exact clauses_closedFor rest child hc

end

end Execution

/-- **A property closed under effects holds of every execution.** -/
theorem exec_closed {context : Context} (hP : ClosedUnderEffects context P) (o : Object) :
    P Unit (exec context o) :=
  exec_closedFor hP.closedFor admitsRules_all (admitsRefusals_all context.registry) o

/-- It holds of every program as well. -/
theorem interpret_closed {context : Context} (hP : ClosedUnderEffects context P)
    (statements : List Object) : P Summary (interpret context statements) :=
  Clause.runAll_closedFor hP.closedFor fun clause hc =>
    (clauses_closedFor hP.closedFor admitsRules_all (admitsRefusals_all context.registry)
      statements clause hc).2

/-! ## Commuting with a change of the transcript -/

namespace Run

theorem start_attempt_of_ne {x : Run Unit} {t t' : Transcript} {f : Failure}
    (hf : ∀ e, f ≠ .runtime e) (h : x.start t = (.error f, t')) :
    x.attempt.start t = (.error f, t') := by
  rw [start_attempt, h]
  cases f with
  | runtime e => exact absurd rfl (hf e)
  | _ => rfl

/-- Changing the transcript before the run or after it is the same, and the result does not show
it. -/
def Commutes (change : Transcript → Transcript) (α : Type) (x : Run α) : Prop :=
  ∀ t, x.start (change t) = ((x.start t).1, change (x.start t).2)

variable {change : Transcript → Transcript}

theorem commutes_closed : Closed (Commutes change) where
  result _ _ := rfl
  failure _ _ := rfl
  sequence {_ _ x f} hx hf t := by
    rw [start_bind, start_bind, hx t]
    rcases x.start t with ⟨_ | a, t'⟩
    · rfl
    · exact hf a t'

theorem commutes_closedUnderEffects {context : Context}
    (hprint : ∀ t line, (change t).print line = change (t.print line))
    (hnote : ∀ t entry, (change t).note entry = change (t.note entry))
    (hreport : ∀ t r, (change t).report context.reporter r =
      change (t.report context.reporter r)) :
    ClosedUnderEffects context (Commutes change) where
  toClosed := commutes_closed
  print line t := by rw [start_print, start_print, hprint]
  note entry t := by rw [start_note, start_note, hnote]
  report e calls t := by rw [start_report, start_report, hreport]
  attempt {x} hx t := by
    rw [start_attempt, start_attempt, hx t]
    rcases x.start t with ⟨f | _, t'⟩
    · cases f <;> rfl
    · rfl

end Run

end TreeWalk
