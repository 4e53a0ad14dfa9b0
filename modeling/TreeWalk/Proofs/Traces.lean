import TreeWalk.Proofs.Malformed

/-!
# Traces follow errors

The calls of a trace are found beside the run, from which of the children of a node fail. They are
those that the error itself comes through: each call is that of a rule at work on a child that fails
with this very error, and the last one is that of a rule that raises it. No rule for statements
raises an error by itself, and a program that runs inside passes none on.

* `Run.Steady` : runs with a result that does not depend on what is written already;
  `Run.result_bind` : the result of a sequence is that of the results;
* `Arises` : an error comes from the first child that fails, or from none of them;
  `Arises.blame_eq` : then so do the calls;
* `ExprRule.Raises` : a rule raises an error itself;
* `ExprRule.eval_arises`, `StmtRule.exec_arises` : where the errors of rules arise;
* `EvalWay`, `ExecWay` : the ways on which errors come out of evaluations and executions;
* `evalTrace_way`, `execTrace_way` : traces are such ways.
-/

namespace TreeWalk

open Run

/-! ## Results that do not depend on transcripts -/

namespace Run

variable {α β : Type}

/-- The result does not depend on what is written already. -/
def Steady (α : Type) (x : Run α) : Prop := ∀ t, (x.start t).1 = x.result

theorem result_bind {x : Run α} {f : α → Run β} (hf : ∀ a, Steady β (f a)) :
    (x >>= f).result = x.result >>= fun a => (f a).result := by
  unfold result
  rw [start_bind]
  rcases x.start {} with ⟨_ | a, t⟩
  · rfl
  · exact hf a t

theorem result_bind_pure (x : Run α) (g : α → β) :
    (x >>= fun a => pure (g a)).result = g <$> x.result := by
  unfold result
  rw [start_bind]
  rcases x.start {} with ⟨_ | _, _⟩ <;> rfl

theorem steady_closedUnderEffects (context : Context) : ClosedUnderEffects context Steady where
  result _ _ := rfl
  failure _ _ := rfl
  sequence {_ _ x f} hx hf t := by
    rw [result_bind hf, start_bind, ← hx t]
    rcases x.start t with ⟨_ | a, t'⟩
    · rfl
    · exact hf a t'
  print _ _ := rfl
  note _ _ := rfl
  report _ _ _ := rfl
  attempt {x} hx t := by
    have h : (x.start t).1 = (x.start {}).1 := hx t
    unfold result
    rw [start_attempt, start_attempt]
    rcases ht : x.start t with ⟨r, t'⟩
    rcases hn : x.start {} with ⟨r', t''⟩
    rw [ht, hn] at h
    obtain rfl : r = r' := h
    cases r with
    | ok _ => rfl
    | error failure => cases failure <;> rfl

/-- A sequence fails in its first part, or in the second one. -/
theorem error_of_bind {x : Run α} {f : α → Run β} (hf : ∀ a, Steady β (f a)) {failure : Failure}
    (h : (x >>= f).result = .error failure) :
    x.result = .error failure ∨ ∃ a, x.result = .ok a ∧ (f a).result = .error failure := by
  rw [result_bind hf] at h
  exact bind_eq_error h

theorem error_of_bind_pure {x : Run α} {g : α → β} {failure : Failure}
    (h : (x >>= fun a => pure (g a)).result = .error failure) : x.result = .error failure := by
  rw [result_bind_pure] at h
  exact map_eq_error h

theorem error_of_childAt_bind {children : List α} {f : α → Run β} {index : Nat} {e : RuntimeError}
    (h : (childAt children index >>= f).result = .error (.runtime e)) :
    ∃ child, children[index]? = some child ∧ (f child).result = .error (.runtime e) := by
  cases hc : children[index]? with
  | none =>
    rw [childAt_of_none hc, throw_bind] at h
    cases h
  | some child =>
    rw [childAt_of_some hc, pure_bind] at h
    exact ⟨child, rfl, h⟩

theorem fails_of_ok {x : Run α} {a : α} (h : x.result = .ok a) : x.fails = false := by
  rw [fails, h]

theorem fails_of_error {x : Run α} {failure : Failure} (h : x.result = .error failure) :
    x.fails = true := by
  rw [fails, h]

end Run

theorem eval_steady (registry : Registry) (o : Object) : Steady Object (eval registry o) :=
  have hclosed := steady_closedUnderEffects { registry }
  eval_closed hclosed.toClosed (fun _ _ => hclosed.print) o

theorem exec_steady (context : Context) (o : Object) : Steady Unit (exec context o) :=
  exec_closed (steady_closedUnderEffects context) o

/-! ## The first child that fails -/

/-- The work on children, in an order, goes well up to one of them, where it ends with an error; or
it goes well on all of them, and the error has a reason of its own. -/
inductive Arises {α : Type} (work : Nat → Except Failure α) (own : Prop) (e : RuntimeError) :
    List Nat → Prop
  | own (h : own) : Arises work own e []
  | here {index : Nat} (h : work index = .error (.runtime e)) (rest : List Nat) :
    Arises work own e (index :: rest)
  | later {index : Nat} {a : α} (h : work index = .ok a) {rest : List Nat}
    (hrest : Arises work own e rest) : Arises work own e (index :: rest)

namespace Arises

variable {α : Type} {work : Nat → Except Failure α} {own : Prop} {e : RuntimeError}
  {order : List Nat}

theorem map {f : Nat → Nat} (h : Arises (fun index => work (f index)) own e order) :
    Arises work own e (order.map f) := by
  induction h with
  | own h => exact .own h
  | here h rest => exact .here h _
  | later h _ ih => exact .later h ih

theorem range_here (h : work 0 = .error (.runtime e)) (count : Nat) :
    Arises work own e (List.range (count + 1)) := by
  rw [List.range_succ_eq_map]
  exact .here h _

theorem range_later {count : Nat} {a : α} (h : work 0 = .ok a)
    (hrest : Arises (fun index => work (index + 1)) own e (List.range count)) :
    Arises work own e (List.range (count + 1)) := by
  rw [List.range_succ_eq_map]
  exact .later h hrest.map

/-- The calls behind the error are the rule's own, or they come from the child that fails first. -/
theorem blame_eq (h : Arises work own e order) (call : Nat → Call) (mine : List Call)
    {stages : List Stage}
    (hcalm : ∀ index a, work index = .ok a → ∀ stage, stages[index]? = some stage →
      stage.fails = false) :
    (own ∧ blame call mine stages order = mine) ∨
      ∃ before index after, order = before ++ index :: after ∧
        (∀ earlier ∈ before, ∃ a, work earlier = .ok a) ∧ work index = .error (.runtime e) ∧
        ∀ trace, stages[index]? = some ⟨true, trace⟩ →
          blame call mine stages order = call index :: trace := by
  induction h with
  | own h => exact .inl ⟨h, rfl⟩
  | @here index h rest =>
    refine .inr ⟨[], index, rest, rfl, nofun, h, fun trace htrace => ?_⟩
    rw [blame, htrace]
  | @later first a h rest _ ih =>
    have hskip : blame call mine stages (first :: rest) =
        blame call mine stages rest := by
      rw [blame]
      split
      · next trace hstage => cases hcalm first a h _ hstage
      · rfl
    rw [hskip]
    obtain hown | ⟨before, index, after, rfl, hbefore, hindex, htrace⟩ := ih
    · exact .inl hown
    · refine .inr ⟨first :: before, index, after, rfl, fun earlier he => ?_, hindex, htrace⟩
      rcases List.mem_cons.1 he with rfl | he
      · exact ⟨a, h⟩
      · exact hbefore earlier he

end Arises

/-! ## Rules for expressions -/

theorem Failure.childCount_ne_runtime (expected found : Nat) (e : RuntimeError) :
    childCount expected found ≠ .runtime e := by
  unfold childCount
  split
  · nofun
  · nofun

theorem Object.render_ne_runtime (o : Object) (e : RuntimeError) :
    o.render ≠ .error (.runtime e) := by
  intro h
  obtain ⟨node, -, hnode⟩ := List.exists_of_findSome?_eq_some (render_error_iff.1 h)
  exact nomatch malformed_iff.2 hnode

namespace ExprRule

/-- A rule raises an error itself: an operator does not take the values of the operands, or the rule
fails always. -/
inductive Raises (children : List Operand) (e : RuntimeError) : ExprRule → Prop
  | unary {token operand : Operand} {v : Object} (htoken : children[0]? = some token)
    (hoperand : children[1]? = some operand) (hv : operand.value.result = .ok v)
    (h : applyUnary token.node v = .error (.runtime e)) : Raises children e .unary
  | binary {left token right : Operand} {v w : Object} (hchildren : children = [left, token, right])
    (hv : left.value.result = .ok v) (hw : right.value.result = .ok w)
    (h : applyBinary token.node v w = .error (.runtime e)) : Raises children e .binary
  | failing {child : Operand} (hchild : children[0]? = some child)
    (h : e = ⟨child.node, "custom failure", sourceOf children⟩) : Raises children e .failing

variable {children : List Operand} {own : Prop} {e : RuntimeError}

theorem result_valueAt {index : Nat} {child : Operand} (h : children[index]? = some child) :
    (valueAt children index).result = child.value.result := by
  rw [valueAt, childAt_of_some h, pure_bind]

/-- What follows on the value of the first child is that value or the work on the second one. -/
theorem either_arises {next : Object → Run Object}
    (hnext : ∀ v, next v = pure v ∨ next v = valueAt children 1)
    (hsecond : Steady Object (valueAt children 1))
    (h : (valueAt children 0 >>= next).result = .error (.runtime e)) :
    Arises (fun index => (valueAt children index).result) own e [0, 1] := by
  have hsteady : ∀ v, Steady Object (next v) := by
    intro v
    rcases hnext v with hv | hv <;> rw [hv]
    · exact fun _ => rfl
    · exact hsecond
  obtain hfirst | ⟨v, hv, hlater⟩ := error_of_bind hsteady h
  · exact .here hfirst _
  · rcases hnext v with hpure | hvalue
    · rw [hpure] at hlater
      cases hlater
    · rw [hvalue] at hlater
      exact .later hv (.here hlater _)

theorem lastValue_arises :
    ∀ {children : List Operand}, (∀ child ∈ children, Steady Object child.value) →
      (lastValue children).result = .error (.runtime e) →
      Arises (fun index => (valueAt children index).result) own e (List.range children.length)
  | [], _, h => nomatch h
  | [child], _, h => .here h []
  | child :: next :: rest, hsteady, h => by
    have hrest : ∀ other ∈ next :: rest, Steady Object other.value :=
      fun other ho => hsteady other (List.mem_cons_of_mem _ ho)
    have hlast : Steady Object (lastValue (next :: rest)) :=
      lastValue_closedFor (steady_closedUnderEffects {}).closedFor.toClosedFor hrest
    obtain hfirst | ⟨v, hv, hlater⟩ := error_of_bind (fun _ => hlast) h
    · exact .range_here hfirst _
    · exact .range_later hv (lastValue_arises hrest hlater)

/-- The error of a rule is that of the first child that fails, in the rule's order, or the rule
raises it itself. -/
theorem eval_arises (hsteady : ∀ child ∈ children, Steady Object child.value) {rule : ExprRule}
    (h : (rule.eval children).result = .error (.runtime e)) :
    Arises (fun index => (valueAt children index).result) (rule.Raises children e) e
      (rule.order children.length) := by
  have hclosed := steady_closedUnderEffects {}
  have hvalue : ∀ index, Steady Object (valueAt children index) :=
    hclosed.closedFor.withChild trivial hsteady
  have happly : ∀ r : Except Failure Value, Steady Object (do return .value (← .ofExcept r)) :=
    fun r => hclosed.sequence (hclosed.ofExcept r) fun _ => hclosed.result _
  cases rule with
  | literal =>
    obtain ⟨child, -, h⟩ := error_of_childAt_bind h
    cases h
  | grouping => exact .here h []
  | unary =>
    obtain ⟨token, htoken, h⟩ := error_of_childAt_bind h
    obtain ⟨operand, hoperand, h⟩ := error_of_childAt_bind h
    obtain hfails | ⟨v, hv, h⟩ := error_of_bind (fun v => happly _) h
    · exact .here ((result_valueAt hoperand).trans hfails) []
    · refine .later ((result_valueAt hoperand).trans hv) (.own ?_)
      exact .unary htoken hoperand hv (error_of_bind_pure h)
  | binary =>
    simp only [eval] at h
    split at h
    · next left token right =>
      have hright : Steady Object right.value := hsteady right (by simp)
      have hrest : ∀ v : Object, Steady Object (do
          let w ← right.value
          return .value (← .ofExcept (applyBinary token.node v w))) := fun v =>
        hclosed.sequence hright fun w => happly _
      obtain hfails | ⟨v, hv, h⟩ := error_of_bind hrest h
      · exact .here hfails _
      · obtain hfails | ⟨w, hw, h⟩ := error_of_bind (fun w => happly _) h
        · exact .later hv (.here hfails _)
        · exact .later hv (.later hw (.own (.binary rfl hv hw (error_of_bind_pure h))))
    · exact absurd (Except.error.inj h) (Failure.childCount_ne_runtime _ _ e)
  | or =>
    refine either_arises (fun v => ?_) (hvalue 1) h
    split
    · exact .inl rfl
    · exact .inr rfl
  | and =>
    refine either_arises (fun v => ?_) (hvalue 1) h
    split
    · exact .inr rfl
    · exact .inl rfl
  | comma => exact lastValue_arises hsteady h
  | echo =>
    have hrest : ∀ v : Object, Steady Object (do
        Run.print v.printed
        return v) := fun v => hclosed.sequence (hclosed.print _) fun _ => hclosed.result v
    obtain hfails | ⟨v, -, h⟩ := error_of_bind hrest h
    · exact .here hfails _
    · cases h
  | rendering =>
    obtain ⟨child, -, h⟩ := error_of_childAt_bind h
    exact absurd (error_of_bind_pure h) (child.node.render_ne_runtime e)
  | failing =>
    obtain ⟨child, hchild, h⟩ := error_of_childAt_bind h
    cases h
    exact .own (.failing hchild rfl)

end ExprRule

/-! ## Rules for statements -/

/-- A program keeps the errors that end it. -/
theorem Clause.start_runFrom_ne_runtime (context : Context) (clauses : List Clause)
    (executed : Nat) (t : Transcript) (e : RuntimeError) :
    ((runFrom context executed clauses).start t).1 ≠ .error (.runtime e) := by
  induction clauses generalizing executed t with
  | nil =>
    intro h
    cases h
  | cons clause rest ih =>
    rw [runFrom, start_bind, start_note]
    simp only [start_bind, start_attempt]
    rcases clause.effect.start (t.note (statementEntry clause.name)) with ⟨f | _, u⟩
    · intro h
      cases f <;> cases h
    · exact ih (executed + 1) u

namespace StmtRule

/-- The work on a child, whatever its value. -/
def work (rule : StmtRule) (index : Nat) (child : Clause) : Run Unit :=
  if rule.evaluates index then do let _ ← child.value else child.effect

def workAt (children : List Clause) (rule : StmtRule) (index : Nat) : Run Unit := do
  let child ← childAt children index
  rule.work index child

variable {context : Context} {children : List Clause} {rule : StmtRule} {index : Nat}
  {e : RuntimeError}

theorem result_workAt_evaluates (h : rule.evaluates index = true) :
    (rule.workAt children index).result = (fun _ => ()) <$> (valueAt children index).result := by
  have hwork : rule.workAt children index = valueAt children index >>= fun _ => pure () := by
    simp only [workAt, work, h, valueAt, bind_assoc, if_true]
  rw [hwork, result_bind_pure]

theorem result_workAt_executes (h : rule.evaluates index = false) :
    (rule.workAt children index).result = (effectAt children index).result := by
  simp only [workAt, work, h, effectAt, Bool.false_eq_true, if_false]

theorem error_workAt_of_value (h : rule.evaluates index = true) {failure : Failure}
    (hv : (valueAt children index).result = .error failure) :
    (rule.workAt children index).result = .error failure := by
  rw [result_workAt_evaluates h, hv]
  rfl

theorem ok_workAt_of_value (h : rule.evaluates index = true) {v : Object}
    (hv : (valueAt children index).result = .ok v) :
    (rule.workAt children index).result = .ok () := by
  rw [result_workAt_evaluates h, hv]
  rfl

theorem effects_arises {own : Prop} :
    ∀ {children : List Clause}, (∀ child ∈ children, Steady Unit child.effect) →
      (effects children).result = .error (.runtime e) →
      Arises (fun index => (block.workAt children index).result) own e (List.range children.length)
  | [], _, h => nomatch h
  | child :: rest, hsteady, h => by
    have hrest : ∀ other ∈ rest, Steady Unit other.effect :=
      fun other ho => hsteady other (List.mem_cons_of_mem _ ho)
    have heffects : Steady Unit (effects rest) :=
      effects_closedFor (steady_closedUnderEffects {}).closedFor.toClosedFor hrest
    obtain hfirst | ⟨_, hok, hlater⟩ := error_of_bind (fun _ => heffects) h
    · exact .range_here hfirst _
    · exact .range_later hok (effects_arises hrest hlater)

/-- The error of a rule is that of the first child that fails, in the rule's order. -/
theorem exec_arises (heffect : ∀ child ∈ children, Steady Unit child.effect)
    (h : (rule.exec context children).result = .error (.runtime e)) :
    Arises (fun index => (rule.workAt children index).result) False e (rule.order children) := by
  have hclosed := steady_closedUnderEffects context
  have he : ∀ index, Steady Unit (effectAt children index) :=
    hclosed.closedFor.withChild trivial heffect
  cases rule with
  | expression => exact .here (error_workAt_of_value rfl (error_of_bind_pure h)) []
  | print =>
    obtain hfails | ⟨v, -, h⟩ := error_of_bind (fun v : Object => hclosed.print v.printed) h
    · exact .here (error_workAt_of_value rfl hfails) []
    · cases h
  | twice =>
    have hwork : (twice.workAt children 0).result = (effectAt children 0).result :=
      result_workAt_executes rfl
    -- the second execution ends as the first one did
    obtain hfails | ⟨_, -, hfails⟩ := error_of_bind (fun _ => he 0) h
    · exact .here (hwork.trans hfails) []
    · exact .here (hwork.trans hfails) []
  | block => exact effects_arises heffect h
  | conditional =>
    have hrest : ∀ v : Object, Steady Unit (if v.truthy then effectAt children 1
        else if children.length ≤ 2 then pure () else effectAt children 2) := by
      intro v
      split
      · exact he 1
      · split
        · exact hclosed.result _
        · exact he 2
    obtain hfails | ⟨v, hv, h⟩ := error_of_bind hrest h
    · have horder : order children .conditional = [0] := by rw [order, hfails]
      rw [horder]
      exact .here (error_workAt_of_value rfl hfails) []
    · have horder : order children .conditional = [0, if v.truthy then 1 else 2] := by
        rw [order, hv]
      rw [horder]
      refine .later (ok_workAt_of_value rfl hv) ?_
      split at h
      · next htrue =>
        rw [if_pos htrue]
        exact .here ((result_workAt_executes rfl).trans h) []
      · next hfalse =>
        rw [if_neg hfalse]
        split at h
        · cases h
        · exact .here ((result_workAt_executes rfl).trans h) []
  | nested =>
    obtain hfails | ⟨_, -, h⟩ := error_of_bind (fun _ => hclosed.print _) h
    · exact absurd hfails (Clause.start_runFrom_ne_runtime context children 0 _ e)
    · cases h

theorem fails_stage (child : Clause) :
    (rule.stage index child).fails = (rule.work index child).fails := by
  cases hrule : rule.evaluates index with
  | false => simp only [stage, work, hrule, Bool.false_eq_true, if_false]
  | true =>
    simp only [stage, work, hrule, if_true, Run.fails, result_bind_pure]
    cases child.value.result <;> rfl

/-- The calls behind an error of a rule are those of the child that fails first. -/
theorem trace_eq (heffect : ∀ child ∈ children, Steady Unit child.effect)
    (h : (rule.exec context children).result = .error (.runtime e)) :
    ∃ before index after child, rule.order children = before ++ index :: after ∧
      (∀ earlier ∈ before, (rule.workAt children earlier).result = .ok ()) ∧
      children[index]? = some child ∧ (rule.work index child).result = .error (.runtime e) ∧
      rule.trace children = .statement rule index :: (rule.stage index child).trace := by
  have hcalm : ∀ index a, (rule.workAt children index).result = .ok a →
      ∀ stage, (children.mapIdx rule.stage)[index]? = some stage → stage.fails = false := by
    intro index a hwork stage hstage
    rw [List.getElem?_mapIdx, Option.map_eq_some_iff] at hstage
    obtain ⟨child, hchild, rfl⟩ := hstage
    rw [workAt, childAt_of_some hchild, pure_bind] at hwork
    rw [fails_stage, fails_of_ok hwork]
  obtain ⟨hnever, -⟩ | ⟨before, index, after, horder, hbefore, hindex, htrace⟩ :=
    (exec_arises heffect h).blame_eq (.statement rule) [] hcalm
  · exact hnever.elim
  · obtain ⟨child, hchild, hwork⟩ := error_of_childAt_bind hindex
    have hstage : (children.mapIdx rule.stage)[index]? =
        some ⟨true, (rule.stage index child).trace⟩ := by
      rw [List.getElem?_mapIdx, hchild, ← fails_of_error hwork, ← fails_stage]
      rfl
    refine ⟨before, index, after, child, horder, fun earlier he => ?_, hchild, hwork,
      htrace _ hstage⟩
    obtain ⟨⟨⟩, hok⟩ := hbefore earlier he
    exact hok

end StmtRule

/-! ## Ways -/

/-- The way on which an error comes out of an evaluation. -/
inductive EvalWay (registry : Registry) : Object → RuntimeError → List Call → Prop
  /-- The rule raises the error itself. -/
  | raised {label : String} {children : List Object} {rule : ExprRule} {e : RuntimeError}
    (hrule : registry.exprRule? label = some rule)
    (h : rule.Raises (operands registry children) e) :
    EvalWay registry (.tree (some label) children) e [.raising rule (rule.operator? children)]
  /-- The error comes from a child; those that the rule works on before have values. -/
  | child {label : String} {children : List Object} {rule : ExprRule} {before after : List Nat}
    {index : Nat} {child : Object} {e : RuntimeError} {calls : List Call}
    (hrule : registry.exprRule? label = some rule)
    (horder : rule.order children.length = before ++ index :: after)
    (hbefore : ∀ earlier ∈ before, ∃ v,
      (ExprRule.valueAt (operands registry children) earlier).result = .ok v)
    (hchild : children[index]? = some child) (way : EvalWay registry child e calls) :
    EvalWay registry (.tree (some label) children) e (.expression rule index :: calls)

/-- The way on which an error comes out of an execution; on it the error was raised in an
evaluation. -/
inductive ExecWay (context : Context) : Object → RuntimeError → List Call → Prop
  /-- The error comes from a child that is evaluated. -/
  | value {label : String} {children : List Object} {rule : StmtRule} {before after : List Nat}
    {index : Nat} {child : Object} {e : RuntimeError} {calls : List Call}
    (hrule : context.registry.stmtRule? label = some rule)
    (horder : rule.order (clauses context children) = before ++ index :: after)
    (hbefore : ∀ earlier ∈ before,
      (rule.workAt (clauses context children) earlier).result = .ok ())
    (hchild : children[index]? = some child) (hevaluates : rule.evaluates index = true)
    (way : EvalWay context.registry child e calls) :
    ExecWay context (.tree (some label) children) e (.statement rule index :: calls)
  /-- It comes from a child that is executed. -/
  | effect {label : String} {children : List Object} {rule : StmtRule} {before after : List Nat}
    {index : Nat} {child : Object} {e : RuntimeError} {calls : List Call}
    (hrule : context.registry.stmtRule? label = some rule)
    (horder : rule.order (clauses context children) = before ++ index :: after)
    (hbefore : ∀ earlier ∈ before,
      (rule.workAt (clauses context children) earlier).result = .ok ())
    (hchild : children[index]? = some child) (hexecutes : rule.evaluates index = false)
    (way : ExecWay context child e calls) :
    ExecWay context (.tree (some label) children) e (.statement rule index :: calls)

section Ways

variable {registry : Registry} {context : Context} {label : String} {children : List Object}
  {e : RuntimeError}

theorem getElem?_operands (index : Nat) :
    (operands registry children)[index]? =
      children[index]?.map fun child => ⟨child, eval registry child⟩ := by
  rw [operands_eq_map, List.getElem?_map]

theorem getElem?_evalStages (index : Nat) :
    (evalStages registry children)[index]? = children[index]?.map fun child =>
      ⟨(eval registry child).fails, evalTrace registry child⟩ := by
  rw [evalStages_eq_map, List.getElem?_map]

theorem length_operands : (operands registry children).length = children.length := by
  rw [operands_eq_map, List.length_map]

theorem operands_steady :
    ∀ operand ∈ operands registry children, Steady Object operand.value := by
  rw [operands_eq_map]
  intro operand ho
  obtain ⟨child, -, rfl⟩ := List.mem_map.1 ho
  exact eval_steady registry child

/-- Where the error of an evaluation comes from, there the calls come from as well. -/
theorem evalTrace_cases
    (h : (eval registry (.tree (some label) children)).result = .error (.runtime e)) :
    ∃ rule, registry.exprRule? label = some rule ∧
      (rule.Raises (operands registry children) e ∧
          evalTrace registry (.tree (some label) children) =
            [.raising rule (rule.operator? children)] ∨
        ∃ before index after child, rule.order children.length = before ++ index :: after ∧
          (∀ earlier ∈ before, ∃ v,
            (ExprRule.valueAt (operands registry children) earlier).result = .ok v) ∧
          children[index]? = some child ∧ (eval registry child).result = .error (.runtime e) ∧
          evalTrace registry (.tree (some label) children) =
            .expression rule index :: evalTrace registry child) := by
  rw [eval] at h
  cases hr : registry.exprRule? label with
  | none => rw [hr] at h; cases h
  | some rule =>
    rw [hr] at h
    refine ⟨rule, rfl, ?_⟩
    have hcalm : ∀ index v,
        (ExprRule.valueAt (operands registry children) index).result = .ok v →
          ∀ stage, (evalStages registry children)[index]? = some stage → stage.fails = false := by
      intro index v hv stage hstage
      rw [getElem?_evalStages, Option.map_eq_some_iff] at hstage
      obtain ⟨child, hchild, rfl⟩ := hstage
      have hoperand : (operands registry children)[index]? = some ⟨child, eval registry child⟩ := by
        rw [getElem?_operands, hchild]
        rfl
      rw [ExprRule.result_valueAt hoperand] at hv
      exact fails_of_ok hv
    have htrace : evalTrace registry (.tree (some label) children) =
        blame (.expression rule) [.raising rule (rule.operator? children)]
          (evalStages registry children) (rule.order children.length) := by
      rw [evalTrace, hr]
    have harises := ExprRule.eval_arises operands_steady h
    rw [length_operands] at harises
    rw [htrace]
    obtain hown | ⟨before, index, after, horder, hbefore, hindex, hblame⟩ :=
      harises.blame_eq (.expression rule) [.raising rule (rule.operator? children)] hcalm
    · exact .inl hown
    · obtain ⟨operand, hoperand, hvalue⟩ := error_of_childAt_bind hindex
      rw [getElem?_operands, Option.map_eq_some_iff] at hoperand
      obtain ⟨child, hchild, rfl⟩ := hoperand
      have hstage : (evalStages registry children)[index]? =
          some ⟨true, evalTrace registry child⟩ := by
        rw [getElem?_evalStages, hchild, ← fails_of_error hvalue]
        rfl
      exact .inr ⟨before, index, after, child, horder, hbefore, hchild, hvalue, hblame _ hstage⟩

mutual

/-- **The trace of an evaluation is the way of its error.** -/
theorem evalTrace_way : ∀ (o : Object) (e : RuntimeError),
    (eval registry o).result = .error (.runtime e) → EvalWay registry o e (evalTrace registry o)
  | .tree (some label) children, e, h => by
    obtain ⟨rule, hrule, ⟨hraises, htrace⟩ |
      ⟨before, index, after, child, horder, hbefore, hchild, hvalue, htrace⟩⟩ := evalTrace_cases h
    · rw [htrace]
      exact .raised hrule hraises
    · rw [htrace]
      refine .child hrule horder hbefore hchild ?_
      exact evalTraces_way children child (List.mem_of_getElem? hchild) e hvalue
  | .tree none _, _, h | .plain _, _, h | .value _, _, h | .operator _, _, h | .token _, _, h => by
    cases h

theorem evalTraces_way : ∀ (children : List Object), ∀ child ∈ children, ∀ e : RuntimeError,
    (eval registry child).result = .error (.runtime e) →
      EvalWay registry child e (evalTrace registry child)
  | [], _, hc, _, _ => absurd hc List.not_mem_nil
  | first :: rest, child, hc, e, h => by
    rcases List.mem_cons.1 hc with hfirst | hc
    · rw [hfirst] at h ⊢
      exact evalTrace_way first e h
    · exact evalTraces_way rest child hc e h

end

theorem clauses_steady :
    ∀ clause ∈ clauses context children, Steady Unit clause.effect := by
  rw [clauses_eq_map]
  intro clause hc
  obtain ⟨child, -, rfl⟩ := List.mem_map.1 hc
  exact exec_steady context child

/-- An error of an execution comes from a child, and so do the calls. -/
theorem execTrace_cases
    (h : (exec context (.tree (some label) children)).result = .error (.runtime e)) :
    ∃ rule before index after child, context.registry.stmtRule? label = some rule ∧
      rule.order (clauses context children) = before ++ index :: after ∧
      (∀ earlier ∈ before, (rule.workAt (clauses context children) earlier).result = .ok ()) ∧
      children[index]? = some child ∧
      (rule.evaluates index = true ∧
          (eval context.registry child).result = .error (.runtime e) ∧
          execTrace context (.tree (some label) children) =
            .statement rule index :: evalTrace context.registry child ∨
        rule.evaluates index = false ∧ (exec context child).result = .error (.runtime e) ∧
          execTrace context (.tree (some label) children) =
            .statement rule index :: execTrace context child) := by
  rw [exec] at h
  cases hr : context.registry.stmtRule? label with
  | none => rw [hr] at h; cases h
  | some rule =>
    rw [hr] at h
    obtain ⟨before, index, after, clause, horder, hbefore, hclause, hwork, htrace⟩ :=
      StmtRule.trace_eq clauses_steady h
    rw [clauses_eq_map, List.getElem?_map, Option.map_eq_some_iff] at hclause
    obtain ⟨child, hchild, rfl⟩ := hclause
    refine ⟨rule, before, index, after, child, rfl, horder, hbefore, hchild, ?_⟩
    rw [execTrace, hr]
    cases hevaluates : rule.evaluates index with
    | true =>
      simp only [StmtRule.work, StmtRule.stage, hevaluates, if_true] at hwork htrace
      exact .inl ⟨rfl, error_of_bind_pure hwork, htrace⟩
    | false =>
      simp only [StmtRule.work, StmtRule.stage, hevaluates, Bool.false_eq_true, if_false]
        at hwork htrace
      exact .inr ⟨rfl, hwork, htrace⟩

mutual

/-- **The trace of an execution is the way of its error.** -/
theorem execTrace_way : ∀ (o : Object) (e : RuntimeError),
    (exec context o).result = .error (.runtime e) → ExecWay context o e (execTrace context o)
  | .tree (some label) children, e, h => by
    obtain ⟨rule, before, index, after, child, hrule, horder, hbefore, hchild,
      ⟨hevaluates, hvalue, htrace⟩ | ⟨hexecutes, heffect, htrace⟩⟩ := execTrace_cases h
    · rw [htrace]
      exact .value hrule horder hbefore hchild hevaluates (evalTrace_way child e hvalue)
    · rw [htrace]
      refine .effect hrule horder hbefore hchild hexecutes ?_
      exact execTraces_way children child (List.mem_of_getElem? hchild) e heffect
  | .tree none _, _, h | .plain _, _, h | .value _, _, h | .operator _, _, h | .token _, _, h => by
    cases h

theorem execTraces_way : ∀ (children : List Object), ∀ child ∈ children, ∀ e : RuntimeError,
    (exec context child).result = .error (.runtime e) →
      ExecWay context child e (execTrace context child)
  | [], _, hc, _, _ => absurd hc List.not_mem_nil
  | first :: rest, child, hc, e, h => by
    rcases List.mem_cons.1 hc with hfirst | hc
    · rw [hfirst] at h ⊢
      exact execTrace_way first e h
    · exact execTraces_way rest child hc e h

end

end Ways

end TreeWalk
