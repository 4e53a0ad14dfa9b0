import TreeWalk.Blueprint
import TreeWalk.Eval.Expression

/-!
# Evaluation on a flat machine

An expression is a list of instructions in postorder: a leaf pushes its value, an operator takes its
operands from the stack, and a grouping leaves no trace. Whatever is not a well-shaped node of the
three inner forms is a leaf and is evaluated as a whole, so nothing is assumed of trees.

* `Instruction`, `postorder` : the instructions of an expression; `leaves` : its leaves;
* `runCode` : the machine, which stops at the first failure and is stuck when the stack holds too
  little;
* `runCode_postorder` : the code of an expression pushes its value, on any stack and before any
  other code;
* `Visits` : a computation evaluates objects in their order, each once, until one fails
  (`visits_leaves`);
* `machine_eval` : evaluation is the machine, and it visits the leaves.
-/

namespace TreeWalk

open Run

/-! ## Instructions -/

inductive Instruction where
  /-- Evaluates a leaf and pushes its value. -/
  | push (leaf : Object)
  | unary (op : Object)
  | binary (op : Object)
  deriving Repr

/-- The instructions of an object: operands from left to right, then the operator. -/
def postorder : Object → List Instruction
  | .tree (some label) children =>
    match Form.ofLabel? label, children with
    | some .grouping, inner :: _ => postorder inner
    | some .unary, op :: operand :: _ => postorder operand ++ [.unary op]
    | some .binary, [left, op, right] => postorder left ++ postorder right ++ [.binary op]
    | _, _ => [.push (.tree (some label) children)]
  | o => [.push o]

/-- The leaves of an object from left to right. -/
def leaves : Object → List Object
  | .tree (some label) children =>
    match Form.ofLabel? label, children with
    | some .grouping, inner :: _ => leaves inner
    | some .unary, _ :: operand :: _ => leaves operand
    | some .binary, [left, _, right] => leaves left ++ leaves right
    | _, _ => [.tree (some label) children]
  | o => [o]

namespace Instruction

def leaf? : Instruction → Option Object
  | .push leaf => some leaf
  | .unary _ | .binary _ => none

/-- The stack after an instruction; nothing if the instruction finds too few operands on it. The
right operand is on top. -/
def step (registry : Registry) : Instruction → List Object → Option (Run (List Object))
  | .push leaf, stack => some do return (← eval registry leaf) :: stack
  | .unary op, v :: stack => some do return .value (← .ofExcept (applyUnary op v)) :: stack
  | .binary op, w :: v :: stack => some do
    return .value (← .ofExcept (applyBinary op v w)) :: stack
  | _, _ => none

end Instruction

/-- The code of an object pushes its leaves, each once and from left to right. -/
theorem filterMap_leaf?_postorder (e : Object) :
    (postorder e).filterMap Instruction.leaf? = leaves e := by
  fun_induction postorder e with
  | case1 label inner rest hf ih => simpa only [leaves, hf] using ih
  | case2 label op operand rest hf ih => simp [leaves, hf, ih, Instruction.leaf?]
  | case3 label left op right hf ihl ihr => simp [leaves, hf, ihl, ihr, Instruction.leaf?]
  | case4 label children hg hu hb =>
    rw [leaves]
    · rfl
    all_goals assumption
  | case5 o ho =>
    rw [leaves]
    · rfl
    · exact ho

/-! ## The machine -/

variable {registry : Registry}

/-- Runs code on a stack; nothing comes out if it gets stuck. -/
def runCode (registry : Registry) : List Instruction → List Object → Run (Option (List Object))
  | [], stack => return some stack
  | instruction :: code, stack =>
    match instruction.step registry stack with
    | some x => do runCode registry code (← x)
    | none => return none

@[simp] theorem runCode_nil (stack : List Object) :
    runCode registry [] stack = pure (some stack) := rfl

@[simp] theorem runCode_push (leaf : Object) (code : List Instruction) (stack : List Object) :
    runCode registry (.push leaf :: code) stack =
      eval registry leaf >>= fun v => runCode registry code (v :: stack) := by
  simp only [runCode, Instruction.step, bind_assoc, pure_bind]

@[simp] theorem runCode_unary (op v : Object) (code : List Instruction) (stack : List Object) :
    runCode registry (.unary op :: code) (v :: stack) =
      Run.ofExcept (applyUnary op v) >>= fun r => runCode registry code (.value r :: stack) := by
  simp only [runCode, Instruction.step, bind_assoc, pure_bind]

@[simp] theorem runCode_binary (op v w : Object) (code : List Instruction) (stack : List Object) :
    runCode registry (.binary op :: code) (w :: v :: stack) =
      Run.ofExcept (applyBinary op v w) >>= fun r => runCode registry code (.value r :: stack) := by
  simp only [runCode, Instruction.step, bind_assoc, pure_bind]

/-- The code of an object pushes its value, whatever is on the stack and whatever code follows. -/
theorem runCode_postorder (h : registry.KeepsExprForms) (e : Object) (code : List Instruction)
    (stack : List Object) :
    runCode registry (postorder e ++ code) stack =
      eval registry e >>= fun v => runCode registry code (v :: stack) := by
  fun_induction postorder e generalizing code stack with
  | case1 label inner rest hf ih => rw [ih, eval_grouping (h.exprRule? hf rfl)]
  | case2 label op operand rest hf ih =>
    rw [List.append_assoc, ih, eval_unary (h.exprRule? hf rfl)]
    simp only [List.singleton_append, runCode_unary, bind_assoc, pure_bind]
  | case3 label left op right hf ihl ihr =>
    rw [List.append_assoc, List.append_assoc, ihl, eval_binary (h.exprRule? hf rfl)]
    simp only [ihr, List.singleton_append, runCode_binary, bind_assoc, pure_bind]
  | case4 | case5 => rw [List.singleton_append, runCode_push]

/-! ## The order of evaluation -/

/-- Evaluates objects one after another for their effects. -/
def visit (registry : Registry) (objects : List Object) : Run Unit :=
  objects.forM fun o => do
    let _ ← eval registry o

theorem visit_append (objects others : List Object) :
    visit registry (objects ++ others) =
      visit registry objects >>= fun _ => visit registry others :=
  List.forM_append

/-- Evaluates the objects in their order, each of them once, until one of them fails or it fails by
itself; it does nothing else that could be seen. -/
def Visits (registry : Registry) (objects : List Object) {α : Type} (x : Run α) : Prop :=
  ∀ t, ∃ visited, visited <+: objects ∧
    ((visit registry visited).start t).2 = (x.start t).2 ∧
    (∀ f, ((visit registry visited).start t).1 = .error f → (x.start t).1 = .error f) ∧
    ∀ a, (x.start t).1 = .ok a → visited = objects

theorem Visits.ofExcept {α : Type} (r : Except Failure α) : Visits registry [] (Run.ofExcept r) :=
  fun _ => ⟨[], List.nil_prefix, rfl, fun _ h => (nomatch h), fun _ _ => rfl⟩

theorem Visits.bind {α β : Type} {objects others : List Object} {x : Run α} {f : α → Run β}
    (hx : Visits registry objects x) (hf : ∀ a, Visits registry others (f a)) :
    Visits registry (objects ++ others) (x >>= f) := by
  intro t
  obtain ⟨visited, hpre, hlast, hfail, hall⟩ := hx t
  rw [start_bind]
  rcases hr : x.start t with ⟨failure | a, t'⟩
  · rw [hr] at hlast hfail
    refine ⟨visited, hpre.trans (List.prefix_append ..), hlast, fun g hg => ?_,
      fun _ h => (nomatch h)⟩
    cases hfail g hg
    rfl
  · rw [hr] at hlast hfail hall
    obtain rfl := hall a rfl
    -- the first objects are behind: none of them has failed, as the computation went on
    have hv : (visit registry visited).start t = (.ok (), t') := by
      rcases hs : (visit registry visited).start t with ⟨failure | _, u⟩
      · rw [hs] at hfail
        exact absurd (hfail failure rfl) (by simp)
      · rw [hs] at hlast
        exact congrArg _ hlast
    obtain ⟨visited', hpre', hlast', hfail', hall'⟩ := hf a t'
    refine ⟨visited ++ visited', (List.prefix_append_right_inj _).2 hpre', ?_⟩
    rw [visit_append, start_bind, hv]
    exact ⟨hlast', hfail', fun b hb => by rw [hall' b hb]⟩

theorem Visits.eval (o : Object) : Visits registry [o] (eval registry o) := by
  intro t
  have hv : visit registry [o] = TreeWalk.eval registry o >>= fun _ => pure () := by
    simp [visit]
  refine ⟨[o], List.prefix_rfl, ?_⟩
  rw [hv, start_bind]
  rcases (TreeWalk.eval registry o).start t with ⟨failure | a, t'⟩
  · exact ⟨rfl, fun g hg => by cases hg; rfl, fun _ h => (nomatch h)⟩
  · exact ⟨rfl, fun _ h => (nomatch h), fun _ _ => rfl⟩

/-- An object is evaluated by evaluating its leaves from left to right; operators come after their
operands and evaluate nothing. -/
theorem visits_leaves (h : registry.KeepsExprForms) (e : Object) :
    Visits registry (leaves e) (eval registry e) := by
  have hop : ∀ r : Except Failure Value,
      Visits registry [] (Run.ofExcept r >>= fun v => pure (.value v) : Run Object) := fun r =>
    (Visits.ofExcept r).bind fun v => Visits.ofExcept (.ok (Object.value v))
  fun_induction leaves e with
  | case1 label inner rest hf ih => rwa [eval_grouping (h.exprRule? hf rfl)]
  | case2 label op operand rest hf ih =>
    rw [eval_unary (h.exprRule? hf rfl)]
    simpa using ih.bind fun v => hop (applyUnary op v)
  | case3 label left op right hf ihl ihr =>
    rw [eval_binary (h.exprRule? hf rfl)]
    simpa using ihl.bind fun v => ihr.bind fun w => hop (applyBinary op v w)
  | case4 | case5 => exact Visits.eval _

/-- **Recursive evaluation is the flat machine.** In a registry that keeps the four forms, the code
of any object leaves its value, or ends with its failure, and prints what its evaluation prints;
and the evaluation visits the leaves from left to right, each at most once. -/
theorem machine_eval (h : registry.KeepsExprForms) (e : Object) :
    runCode registry (postorder e) [] = (eval registry e >>= fun v => pure (some [v])) ∧
      (postorder e).filterMap Instruction.leaf? = leaves e ∧
      Visits registry (leaves e) (eval registry e) := by
  refine ⟨?_, filterMap_leaf?_postorder e, visits_leaves h e⟩
  have hrun := runCode_postorder h e [] []
  rw [List.append_nil] at hrun
  simpa only [runCode_nil] using hrun

/-- Both operands of a comparison are printed before it fails. -/
theorem machine_eval_echo :
    let registry := Registry.initial.addExpr "echo" .echo
    let echo (v : Value) := Object.tree (some "echo") [.node .literal [.value v]]
    let op := Object.token (.ofOperator .less none 1 none)
    let e := Object.node .binary [echo .nil, op, .node .grouping [echo (.bool true)]]
    registry.KeepsExprForms ∧
      postorder e = [.push (echo .nil), .push (echo (.bool true)), .binary op] ∧
      (runCode registry (postorder e) []).start {} =
        (.error (.runtime (.operandNotNumber op)), { printed := ["nil", "true"] }) ∧
      Visits registry [echo .nil, echo (.bool true)] (eval registry e) := by
  intro registry echo op e
  have hkeeps : registry.KeepsExprForms := by
    intro form rule hrule
    cases form <;> exact hrule
  obtain ⟨hrun, hleaves, hvisits⟩ := machine_eval hkeeps e
  refine ⟨hkeeps, ?_, ?_, ?_⟩
  · rfl
  · rw [hrun]
    rfl
  · exact hvisits

end TreeWalk
