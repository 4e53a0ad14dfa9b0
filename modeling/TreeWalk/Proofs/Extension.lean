import TreeWalk.Session

/-!
# Registrations that go unseen

A run asks the registry for the labels of the nodes that it is given and for no others. So a new
rule changes nothing for objects without a node of its label, be the label new or one of the six
forms; and a rendering asks for no rule at all.

* `Registration`, `Registry.register` : a rule for a label, in one of the two tables;
* `Object.labels` : the labels of an object and of all objects in it;
* `Registry.AgreeOn` : registries that agree on labels; objects of these labels run alike
  (`eval_agreeOn`, `exec_agreeOn`, `interpret_agreeOn`);
* `registration_unseen` : a registration for a label that does not occur, in any registry.
-/

namespace TreeWalk

/-! ## Registrations -/

inductive Registration where
  | expr (label : String) (rule : ExprRule)
  | stmt (label : String) (rule : StmtRule)
  deriving DecidableEq, Repr

def Registration.label : Registration → String
  | .expr label _ => label
  | .stmt label _ => label

def Registry.register (registry : Registry) : Registration → Registry
  | .expr label rule => registry.addExpr label rule
  | .stmt label rule => registry.addStmt label rule

/-! ## Labels -/

namespace Object

mutual

/-- The labels of a tree and of all trees in it. -/
def labels : Object → List String
  | .tree label children => label.toList ++ labelsOfAll children
  | _ => []

def labelsOfAll : List Object → List String
  | [] => []
  | child :: rest => labels child ++ labelsOfAll rest

end

theorem labelsOfAll_eq_flatMap : ∀ children : List Object,
    labelsOfAll children = children.flatMap labels
  | [] => rfl
  | child :: rest => by rw [labelsOfAll, labelsOfAll_eq_flatMap rest, List.flatMap_cons]

end Object

namespace Registry

/-- Registries that have the same rules for labels, and count them alike. -/
structure AgreeOn (labels : List String) (r s : Registry) : Prop where
  exprRule? : ∀ label ∈ labels, r.exprRule? label = s.exprRule? label
  stmtRule? : ∀ label ∈ labels, r.stmtRule? label = s.stmtRule? label
  isExprLabel : ∀ label ∈ labels, r.isExprLabel label = s.isExprLabel label
  isStmtLabel : ∀ label ∈ labels, r.isStmtLabel label = s.isStmtLabel label

theorem AgreeOn.mono {labels others : List String} {r s : Registry} (h : AgreeOn labels r s)
    (hsub : ∀ label ∈ others, label ∈ labels) : AgreeOn others r s where
  exprRule? label hl := h.exprRule? label (hsub label hl)
  stmtRule? label hl := h.stmtRule? label (hsub label hl)
  isExprLabel label hl := h.isExprLabel label (hsub label hl)
  isStmtLabel label hl := h.isStmtLabel label (hsub label hl)

theorem addExpr_agreeOn (registry : Registry) {label : String} (rule : ExprRule)
    {labels : List String} (h : label ∉ labels) :
    AgreeOn labels (registry.addExpr label rule) registry := by
  have hne : ∀ other ∈ labels, other ≠ label := fun other ho heq => h (heq ▸ ho)
  refine ⟨fun other ho => ?_, fun _ _ => rfl, fun other ho => ?_, fun _ _ => rfl⟩
  · rw [exprRule?_addExpr, if_neg (hne other ho)]
  · simp [addExpr, hne other ho]

theorem addStmt_agreeOn (registry : Registry) {label : String} (rule : StmtRule)
    {labels : List String} (h : label ∉ labels) :
    AgreeOn labels (registry.addStmt label rule) registry := by
  have hne : ∀ other ∈ labels, other ≠ label := fun other ho heq => h (heq ▸ ho)
  refine ⟨fun _ _ => rfl, fun other ho => ?_, fun _ _ => rfl, fun other ho => ?_⟩
  · rw [stmtRule?_addStmt, if_neg (hne other ho)]
  · simp [addStmt, hne other ho]

theorem register_agreeOn (registry : Registry) {registration : Registration}
    {labels : List String} (h : registration.label ∉ labels) :
    AgreeOn labels (registry.register registration) registry := by
  cases registration with
  | expr label rule => exact addExpr_agreeOn registry rule h
  | stmt label rule => exact addStmt_agreeOn registry rule h

end Registry

/-! ## Runs -/

section Runs

variable {r s : Registry}

mutual

theorem eval_agreeOn : ∀ {o : Object}, Registry.AgreeOn o.labels r s → eval r o = eval s o
  | .tree (some label) children, h => by
    have hlabel : label ∈ (Object.tree (some label) children).labels := by simp [Object.labels]
    have hchildren : operands r children = operands s children :=
      operands_agreeOn (h.mono fun _ hl => List.mem_append_right _ hl)
    rw [eval, eval, h.exprRule? label hlabel, hchildren]
  | .tree none _, _ | .plain _, _ | .value _, _ | .operator _, _ | .token _, _ => rfl

theorem operands_agreeOn : ∀ {children : List Object},
    Registry.AgreeOn (Object.labelsOfAll children) r s →
      operands r children = operands s children
  | [], _ => rfl
  | child :: rest, h => by
    rw [operands, operands, eval_agreeOn (h.mono fun _ hl => List.mem_append_left _ hl),
      operands_agreeOn (h.mono fun _ hl => List.mem_append_right _ hl)]

end

mutual

theorem evalTrace_agreeOn : ∀ {o : Object}, Registry.AgreeOn o.labels r s →
    evalTrace r o = evalTrace s o
  | .tree (some label) children, h => by
    have hlabel : label ∈ (Object.tree (some label) children).labels := by simp [Object.labels]
    have hchildren : evalStages r children = evalStages s children :=
      evalStages_agreeOn (h.mono fun _ hl => List.mem_append_right _ hl)
    rw [evalTrace, evalTrace, h.exprRule? label hlabel, hchildren]
  | .tree none _, _ | .plain _, _ | .value _, _ | .operator _, _ | .token _, _ => rfl

theorem evalStages_agreeOn : ∀ {children : List Object},
    Registry.AgreeOn (Object.labelsOfAll children) r s →
      evalStages r children = evalStages s children
  | [], _ => rfl
  | child :: rest, h => by
    have hchild := h.mono fun _ hl => List.mem_append_left _ hl
    rw [evalStages, evalStages, eval_agreeOn hchild, evalTrace_agreeOn hchild,
      evalStages_agreeOn (h.mono fun _ hl => List.mem_append_right _ hl)]

end

/-- A program from clauses has no more to do with the registry. -/
theorem Clause.runFrom_registry (context : Context) (registry : Registry) (executed : Nat)
    (clauses : List Clause) :
    runFrom { context with registry } executed clauses = runFrom context executed clauses := by
  induction clauses generalizing executed with
  | nil => rfl
  | cons clause rest ih =>
    simp only [runFrom, ih]
    rfl

theorem StmtRule.exec_registry (context : Context) (registry : Registry) (children : List Clause)
    (rule : StmtRule) :
    rule.exec { context with registry } children = rule.exec context children := by
  cases rule with
  | nested => simp only [exec, Clause.runAll, Clause.runFrom_registry]
  | _ => rfl

mutual

theorem exec_agreeOn (context : Context) : ∀ {o : Object}, Registry.AgreeOn o.labels r s →
    exec { context with registry := r } o = exec { context with registry := s } o
  | .tree (some label) children, h => by
    have hlabel : label ∈ (Object.tree (some label) children).labels := by simp [Object.labels]
    have hchildren := clauses_agreeOn context (h.mono fun _ hl => List.mem_append_right _ hl)
    rw [exec, exec, h.stmtRule? label hlabel, hchildren]
    cases s.stmtRule? label with
    | none => rfl
    | some rule => simp only [StmtRule.exec_registry]
  | .tree none _, _ | .plain _, _ | .value _, _ | .operator _, _ | .token _, _ => rfl

theorem execTrace_agreeOn (context : Context) : ∀ {o : Object}, Registry.AgreeOn o.labels r s →
    execTrace { context with registry := r } o = execTrace { context with registry := s } o
  | .tree (some label) children, h => by
    have hlabel : label ∈ (Object.tree (some label) children).labels := by simp [Object.labels]
    have hchildren := clauses_agreeOn context (h.mono fun _ hl => List.mem_append_right _ hl)
    rw [execTrace, execTrace, h.stmtRule? label hlabel, hchildren]
  | .tree none _, _ | .plain _, _ | .value _, _ | .operator _, _ | .token _, _ => rfl

theorem clauses_agreeOn (context : Context) : ∀ {children : List Object},
    Registry.AgreeOn (Object.labelsOfAll children) r s →
      clauses { context with registry := r } children =
        clauses { context with registry := s } children
  | [], _ => rfl
  | child :: rest, h => by
    have hchild := h.mono fun _ hl => List.mem_append_left _ hl
    rw [clauses, clauses, exec_agreeOn context hchild,
      clauses_agreeOn context (h.mono fun _ hl => List.mem_append_right _ hl),
      execTrace_agreeOn context hchild, eval_agreeOn hchild, evalTrace_agreeOn hchild]

end

theorem interpret_agreeOn (context : Context) {statements : List Object}
    (h : Registry.AgreeOn (Object.labelsOfAll statements) r s) :
    interpret { context with registry := r } statements =
      interpret { context with registry := s } statements := by
  rw [interpret, interpret, clauses_agreeOn context h]
  simp only [Clause.runAll, Clause.runFrom_registry]

theorem isExpr_agreeOn {o : Object} (h : Registry.AgreeOn o.labels r s) :
    r.isExpr o = s.isExpr o := by
  cases o with
  | tree label children =>
    cases label with
    | none => rfl
    | some label => exact h.isExprLabel label (by simp [Object.labels])
  | plain | value | operator | token => rfl

theorem isStmt_agreeOn {o : Object} (h : Registry.AgreeOn o.labels r s) :
    r.isStmt o = s.isStmt o := by
  cases o with
  | tree label children =>
    cases label with
    | none => rfl
    | some label => exact h.isStmtLabel label (by simp [Object.labels])
  | plain | value | operator | token => rfl

end Runs

/-! ## Registrations go unseen -/

/-- **A rule for a label that does not occur changes nothing.** In any registry a further
registration, for any label, leaves evaluations, executions and programs of objects without that
label as they are, and such objects count as expressions and statements as before; the reply to a
request for a rendering and all that is shown with it are the same in all registries. -/
theorem registration_unseen (context : Context) (registration : Registration) :
    let extended := context.registry.register registration
    (∀ o : Object, registration.label ∉ o.labels →
      eval extended o = eval context.registry o ∧
      exec { context with registry := extended } o = exec context o ∧
      extended.isExpr o = context.registry.isExpr o ∧
      extended.isStmt o = context.registry.isStmt o) ∧
    (∀ statements : List Object, (∀ s ∈ statements, registration.label ∉ s.labels) →
      interpret { context with registry := extended } statements =
        interpret context statements) ∧
    ∀ (session : Session) (registry : Registry) (node : Blueprint),
      ({ session with registry }.perform (.render node)).1 =
        (session.perform (.render node)).1 := by
  intro extended
  refine ⟨fun o ho => ?_, fun statements hs => ?_, fun _ _ _ => rfl⟩
  · have hagree := context.registry.register_agreeOn ho
    exact ⟨eval_agreeOn hagree, exec_agreeOn context hagree, isExpr_agreeOn hagree,
      isStmt_agreeOn hagree⟩
  · have hnot : registration.label ∉ Object.labelsOfAll statements := by
      rw [Object.labelsOfAll_eq_flatMap]
      simpa using hs
    exact interpret_agreeOn context (context.registry.register_agreeOn hnot)

/-- A rule that makes groupings fail, unseen where the value of another kind of node is printed. -/
theorem registration_unseen_grouping :
    let registry := Registry.initial.addExpr "echo" .echo
    let context : Context := { registry }
    let registration := Registration.expr Form.grouping.label .failing
    let text := Object.node .literal [.value (.string "a" none)]
    let statement := (Object.tree "echo" [text]).print
    registration.label ∉ statement.labels ∧
      interpret { context with registry := registry.register registration } [statement] =
        interpret context [statement] ∧
      ((interpret context [statement]).start {}).2.printed = ["a", "a"] ∧
      ((eval registry text.grouping).start {}).1 = .ok (.value (.string "a" none)) ∧
      ((eval (registry.register registration) text.grouping).start {}).1 ≠
        .ok (.value (.string "a" none)) := by
  intro registry context registration text statement
  have hlabel : registration.label ∉ statement.labels := by decide
  exact ⟨hlabel, (registration_unseen context registration).2.1 [statement] (by simpa using hlabel),
    rfl, rfl, nofun⟩

end TreeWalk
