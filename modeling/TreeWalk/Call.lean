import TreeWalk.Registry

/-!
# Calls on the way to an error

The trace of an error goes from the program that executes a statement down to the rule that has
raised the error, through every rule that was at work on one of its children. What it says of a call
(the files, the lines and their texts) is a matter of the installation and is left to whoever words
the trace; here are the calls and the names of the functions that they go through.

* `Call` : a call that an error comes through;
* `Call.functions` : the functions of a call, one for each frame;
* `Stage` : work on a child, and the calls behind its failure;
* `blame` : the calls behind a failure of a rule, from the first of its stages that fails.
-/

namespace TreeWalk

inductive Call where
  /-- A program executes a statement. -/
  | program
  /-- A rule for statements is at work on a child. -/
  | statement (rule : StmtRule) (child : Nat)
  /-- A rule for expressions is at work on a child. -/
  | expression (rule : ExprRule) (child : Nat)
  /-- A rule raises the error itself, for an operator if it applies one. -/
  | raising (rule : ExprRule) (operator : Option Operator)
  deriving DecidableEq, Repr

namespace Call

/-- The functions that a call goes through, the outermost first. Only the evaluator's own are
named, not those that registered rules consist of. -/
def functions : Call → List String
  | .program => ["_execute_one"]
  | .statement rule _ => "exec_node" :: ofStmtRule rule
  | .expression rule _ => "eval_node" :: ofExprRule rule
  | .raising rule operator => "eval_node" :: (ofExprRule rule ++ ofOperation rule operator)
where
  ofStmtRule : StmtRule → List String
    | .expression => ["<lambda>", "exec_expr_stmt"]
    | .print => ["<lambda>", "exec_print_stmt"]
    | .twice | .block | .conditional | .nested => []
  ofExprRule : ExprRule → List String
    | .literal => ["<lambda>", "eval_literal"]
    | .grouping => ["<lambda>", "eval_grouping"]
    | .unary => ["<lambda>", "eval_unary"]
    | .binary => ["<lambda>", "eval_binary"]
    | .or | .and | .comma | .echo | .rendering | .failing => []
  ofOperation : ExprRule → Option Operator → List String
    | .unary, _ => ["require_number"]
    | .binary, some .plus => ["apply_binary_operator", "_add"]
    | .binary, _ => ["apply_binary_operator", "require_numbers"]
    | _, _ => []

end Call

/-- A trace that names functions and nothing else. -/
def functionNames (calls : List Call) : String :=
  String.join ((calls.flatMap Call.functions).map fun name => "  in " ++ name ++ "\n")

/-! ## Where a rule fails -/

/-- The work on a child: whether it fails, and the calls behind that. -/
structure Stage where
  fails : Bool
  trace : List Call
  deriving DecidableEq, Repr

/-- The calls behind a failure of a rule that works on some of its children, one after another. If
none of them fails, it is the rule that does. -/
def blame (call : Nat → Call) (own : List Call) (stages : List Stage) : List Nat → List Call
  | [] => own
  | child :: rest =>
    match stages[child]? with
    | some ⟨true, trace⟩ => call child :: trace
    | _ => blame call own stages rest

/-- The children that a rule works on, in its order; it may stop before the last one. -/
def ExprRule.order (count : Nat) : ExprRule → List Nat
  | .literal | .rendering | .failing => []
  | .grouping | .echo => [0]
  | .unary => [1]
  | .binary => [0, 2]
  | .or | .and => [0, 1]
  | .comma => List.range count

/-- The operator that a rule applies. -/
def ExprRule.operator? (children : List Object) : ExprRule → Option Operator
  | .unary => children[0]?.bind Object.operator?
  | .binary => children[1]?.bind Object.operator?
  | _ => none

end TreeWalk
