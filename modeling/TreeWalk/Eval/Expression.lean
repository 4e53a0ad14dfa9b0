import TreeWalk.Call
import TreeWalk.Eval.Operation
import TreeWalk.Object.Render
import TreeWalk.Run

/-!
# Evaluation of expressions

The registry's rule for a tree's label says how the value of the tree comes from its children. A
rule sees each child with the computation of its value and runs those that it needs, in its own
order; so the recursion is over the tree alone, and no rule can evaluate anything but children.

* `Operand` : a child with the computation of its value;
* `ExprRule.eval` : a rule at work (one equation per rule);
* `eval` : the value of an object; an object without a rule is refused;
* `evalTrace` : the calls that an error comes through if the evaluation raises one.
-/

namespace TreeWalk

structure Operand where
  node : Object
  value : Run Object

/-- A child that has to be there. -/
def childAt {α : Type} (children : List α) (index : Nat) : Run α :=
  match children[index]? with
  | some child => pure child
  | none => throw .missingChild

theorem childAt_of_some {α : Type} {children : List α} {index : Nat} {child : α}
    (h : children[index]? = some child) : childAt children index = pure child := by
  rw [childAt, h]

theorem childAt_of_none {α : Type} {children : List α} {index : Nat}
    (h : children[index]? = none) : childAt children index = throw .missingChild := by
  rw [childAt, h]

/-- Whether a computation fails; what is written already has no say in that. -/
def Run.fails {α : Type} (x : Run α) : Bool :=
  match x.result with
  | .ok _ => false
  | .error _ => true

namespace ExprRule

def valueAt (children : List Operand) (index : Nat) : Run Object := do
  let child ← childAt children index
  child.value

/-- The last of the values, which is nil if there is none. -/
def lastValue : List Operand → Run Object
  | [] => pure (.value .nil)
  | [child] => child.value
  | child :: rest => do
    let _ ← child.value
    lastValue rest

/-- The source that a second child brings along, if it is a string. -/
def sourceOf (children : List Operand) : Option String :=
  children[1]?.bind fun child =>
    match child.node with
    | .value (.string text _) => some text
    | _ => none

def eval (children : List Operand) : ExprRule → Run Object
  | .literal => do
    let child ← childAt children 0
    return child.node
  | .grouping => valueAt children 0
  | .unary => do
    let token ← childAt children 0
    let operand ← childAt children 1
    let v ← operand.value
    return .value (← .ofExcept (applyUnary token.node v))
  | .binary =>
    match children with
    | [left, token, right] => do
      let v ← left.value
      let w ← right.value
      return .value (← .ofExcept (applyBinary token.node v w))
    | _ => throw (.childCount 3 children.length)
  | .or => do
    let v ← valueAt children 0
    if v.truthy then return v else valueAt children 1
  | .and => do
    let v ← valueAt children 0
    if v.truthy then valueAt children 1 else return v
  | .comma => lastValue children
  | .echo => do
    let v ← valueAt children 0
    Run.print v.printed
    return v
  | .rendering => do
    let child ← childAt children 0
    return .value (.string (← .ofExcept child.node.render) none)
  | .failing => do
    let child ← childAt children 0
    throw (.runtime ⟨child.node, "custom failure", sourceOf children⟩)

end ExprRule

/-! ## Trees -/

mutual

def eval (registry : Registry) : Object → Run Object
  | .tree (some label) children =>
    match registry.exprRule? label with
    | some rule => rule.eval (operands registry children)
    | none => throw (.cannotEvaluate (.tree (some label) children))
  | o => throw (.cannotEvaluate o)

def operands (registry : Registry) : List Object → List Operand
  | [] => []
  | child :: rest => ⟨child, eval registry child⟩ :: operands registry rest

end

theorem operands_eq_map (registry : Registry) : ∀ children : List Object,
    operands registry children = children.map fun child => ⟨child, eval registry child⟩
  | [] => rfl
  | child :: rest => by rw [operands, operands_eq_map registry rest, List.map_cons]

/-! ## Traces -/

mutual

/-- The calls that an error comes through, if the evaluation of an object raises one. -/
def evalTrace (registry : Registry) : Object → List Call
  | .tree (some label) children =>
    match registry.exprRule? label with
    | some rule =>
      blame (.expression rule) [.raising rule (rule.operator? children)]
        (evalStages registry children) (rule.order children.length)
    | none => []
  | _ => []

def evalStages (registry : Registry) : List Object → List Stage
  | [] => []
  | child :: rest =>
    ⟨(eval registry child).fails, evalTrace registry child⟩ :: evalStages registry rest

end

theorem evalStages_eq_map (registry : Registry) : ∀ children : List Object,
    evalStages registry children =
      children.map fun child => ⟨(eval registry child).fails, evalTrace registry child⟩
  | [] => rfl
  | child :: rest => by rw [evalStages, evalStages_eq_map registry rest, List.map_cons]

/-- The calls depend on the children only through their stages and the operator. -/
theorem evalTrace_congr {registry : Registry} {label : String} {rule : ExprRule}
    (hr : registry.exprRule? label = some rule) {xs ys : List Object}
    (hoperator : rule.operator? xs = rule.operator? ys)
    (hstages : evalStages registry xs = evalStages registry ys) :
    evalTrace registry (.tree (some label) xs) = evalTrace registry (.tree (some label) ys) := by
  have hlength : xs.length = ys.length := by
    simpa only [evalStages_eq_map, List.length_map] using congrArg List.length hstages
  simp only [evalTrace, hr, hstages, hoperator, hlength]

/-! ## Trees of the four forms of expressions -/

section Forms

variable {registry : Registry} {label : String}

theorem eval_literal (h : registry.exprRule? label = some .literal) (o : Object)
    (rest : List Object) : eval registry (.tree (some label) (o :: rest)) = pure o := by
  rw [eval, h]
  rfl

theorem eval_grouping (h : registry.exprRule? label = some .grouping) (inner : Object)
    (rest : List Object) :
    eval registry (.tree (some label) (inner :: rest)) = eval registry inner := by
  rw [eval, h]
  rfl

theorem eval_unary (h : registry.exprRule? label = some .unary) (op operand : Object)
    (rest : List Object) :
    eval registry (.tree (some label) (op :: operand :: rest)) = do
      let v ← eval registry operand
      return .value (← .ofExcept (applyUnary op v)) := by
  rw [eval, h]
  rfl

theorem eval_binary (h : registry.exprRule? label = some .binary) (left op right : Object) :
    eval registry (.tree (some label) [left, op, right]) = do
      let v ← eval registry left
      let w ← eval registry right
      return .value (← .ofExcept (applyBinary op v w)) := by
  rw [eval, h]
  rfl

end Forms

end TreeWalk
