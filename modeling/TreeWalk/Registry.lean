import TreeWalk.Form
import TreeWalk.Object.Basic

/-!
# Registries

A registry says by which rule the nodes of a label are evaluated or executed. Expressions and
statements have tables of their own; beside each table stands the set of labels that count as
expressions or statements, which grows with the table.

* `ExprRule`, `StmtRule` : the rules;
* `Registry.initial` : the six forms;
* `Registry.addExpr`, `Registry.addStmt` : the last rule for a label is the one that counts
  (`exprRule?_addExpr`, `stmtRule?_addStmt`);
* `Registry.isExpr`, `Registry.isStmt` : whether an object counts as one.
-/

namespace TreeWalk

/-- How the value of a node comes from its children. -/
inductive ExprRule where
  /-- The first child as it is. -/
  | literal
  /-- The value of the first child. -/
  | grouping
  /-- An operator and the value of its operand. -/
  | unary
  /-- The values of two operands around an operator. -/
  | binary
  /-- The first value if it is truthy, else that of the second child. -/
  | or
  /-- The first value if it is not truthy, else that of the second child. -/
  | and
  /-- The last of the values of all children. -/
  | comma
  /-- The value of the first child, which is printed, too. -/
  | echo
  /-- The rendering of the first child, which is not evaluated. -/
  | rendering
  /-- A runtime error that blames the first child; a string behind it is the error's source. -/
  | failing
  deriving DecidableEq, Repr

/-- What a node does with its children. -/
inductive StmtRule where
  /-- Evaluates the first child. -/
  | expression
  /-- Prints the value of the first child. -/
  | print
  /-- Executes the first child two times. -/
  | twice
  /-- Executes all children. -/
  | block
  /-- Executes the second child if the value of the first is truthy, else the third if there is
  one. -/
  | conditional
  /-- Runs the children as a program of their own and prints how many were executed. -/
  | nested
  deriving DecidableEq, Repr

structure Registry where
  exprRule? : String → Option ExprRule
  stmtRule? : String → Option StmtRule
  isExprLabel : String → Bool
  isStmtLabel : String → Bool

/-- The rule of a form that is an expression. -/
def Form.exprRule? : Form → Option ExprRule
  | .literal => some .literal
  | .grouping => some .grouping
  | .unary => some .unary
  | .binary => some .binary
  | .expression | .print => none

/-- The rule of a form that is a statement. -/
def Form.stmtRule? : Form → Option StmtRule
  | .expression => some .expression
  | .print => some .print
  | .literal | .grouping | .unary | .binary => none

namespace Registry

def exprLabels : List String :=
  [Form.literal.label, Form.grouping.label, Form.unary.label, Form.binary.label]

def stmtLabels : List String := [Form.expression.label, Form.print.label]

/-- The registry that knows the six forms. -/
def initial : Registry where
  exprRule? label := (Form.ofLabel? label).bind Form.exprRule?
  stmtRule? label := (Form.ofLabel? label).bind Form.stmtRule?
  isExprLabel := exprLabels.contains
  isStmtLabel := stmtLabels.contains

def addExpr (registry : Registry) (label : String) (rule : ExprRule) : Registry :=
  { registry with
    exprRule? := fun other => if other = label then some rule else registry.exprRule? other
    isExprLabel := fun other => other = label || registry.isExprLabel other }

def addStmt (registry : Registry) (label : String) (rule : StmtRule) : Registry :=
  { registry with
    stmtRule? := fun other => if other = label then some rule else registry.stmtRule? other
    isStmtLabel := fun other => other = label || registry.isStmtLabel other }

@[simp] theorem exprRule?_addExpr (registry : Registry) (label other : String) (rule : ExprRule) :
    (registry.addExpr label rule).exprRule? other =
      if other = label then some rule else registry.exprRule? other := rfl

@[simp] theorem stmtRule?_addStmt (registry : Registry) (label other : String) (rule : StmtRule) :
    (registry.addStmt label rule).stmtRule? other =
      if other = label then some rule else registry.stmtRule? other := rfl

@[simp] theorem stmtRule?_addExpr (registry : Registry) (label : String) (rule : ExprRule) :
    (registry.addExpr label rule).stmtRule? = registry.stmtRule? := rfl

@[simp] theorem exprRule?_addStmt (registry : Registry) (label : String) (rule : StmtRule) :
    (registry.addStmt label rule).exprRule? = registry.exprRule? := rfl

/-- The four forms of expressions have their own rules. -/
def KeepsExprForms (registry : Registry) : Prop :=
  ∀ form rule, Form.exprRule? form = some rule → registry.exprRule? form.label = some rule

theorem KeepsExprForms.exprRule? {registry : Registry} (h : registry.KeepsExprForms)
    {label : String} {form : Form} (hf : Form.ofLabel? label = some form) {rule : ExprRule}
    (hr : form.exprRule? = some rule) : registry.exprRule? label = some rule := by
  rw [← Form.label_of_ofLabel? hf]
  exact h form rule hr

/-- Whether an object is a tree whose label counts as an expression. -/
def isExpr (registry : Registry) (o : Object) : Bool := o.label?.any registry.isExprLabel

def isStmt (registry : Registry) (o : Object) : Bool := o.label?.any registry.isStmtLabel

end Registry

end TreeWalk
