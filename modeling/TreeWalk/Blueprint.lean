import TreeWalk.Conversion
import TreeWalk.Form

/-!
# Blueprints

A blueprint describes an object that has yet to be built: it holds ready-made objects, trees with
any label, and nodes of the six forms, whose builders convert what they are given and may refuse
it. The parts are built from left to right before the node that holds them.

* `Blueprint` : the descriptions;
* `Object.literal`, `Object.unary`, `Object.binary`, … : the builders;
* `Blueprint.build`, `Blueprint.buildAll` : the objects described.
-/

namespace TreeWalk

/-! ## Builders -/

namespace Object

/-- A node of one of the six forms. -/
def node (form : Form) (children : List Object) : Object := .tree form.label children

/-- A token as it is, or the token of an operator at the first line and column. -/
def asOperator : Object → Except Failure Object
  | .token t => .ok (.token t)
  | o => return .token (← Token.ofObject o (some 1) (some 1) none)

/-- A literal of the value made of an object. -/
def literal (o : Object) : Except Failure Object :=
  return node .literal [.value (← Value.ofObject o)]

def grouping (inner : Object) : Object := node .grouping [inner]

def unary (op operand : Object) : Except Failure Object :=
  return node .unary [← op.asOperator, operand]

def binary (left op right : Object) : Except Failure Object :=
  return node .binary [left, ← op.asOperator, right]

def expression (e : Object) : Object := node .expression [e]

def print (e : Object) : Object := node .print [e]

end Object

/-! ## Descriptions -/

inductive Blueprint where
  /-- A ready-made object. -/
  | object (o : Object)
  /-- The number made of an object. -/
  | number (of : Blueprint)
  /-- The token of the operator with a lexeme, at a place. -/
  | operator (lexeme : String) (line column : Option Int)
  | tree (label : Option String) (children : List Blueprint)
  | literal (of : Blueprint)
  | grouping (inner : Blueprint)
  | unary (op operand : Blueprint)
  | binary (left op right : Blueprint)
  | expression (e : Blueprint)
  | print (e : Blueprint)
  deriving Repr

instance : Inhabited Blueprint := ⟨.object default⟩

namespace Blueprint

mutual

def build : Blueprint → Except Failure Object
  | .object o => .ok o
  | .number of => do
    let o ← build of
    return .value (← Value.numberOf o)
  | .operator lexeme line column =>
    return .token (← Token.ofObject (.plain (.text lexeme)) line column none)
  | .tree label children => return .tree label (← buildAll children)
  | .literal of => do
    let o ← build of
    o.literal
  | .grouping inner => return (← build inner).grouping
  | .unary op operand => do
    let op ← build op
    let operand ← build operand
    Object.unary op operand
  | .binary left op right => do
    let left ← build left
    let op ← build op
    let right ← build right
    Object.binary left op right
  | .expression e => return (← build e).expression
  | .print e => return (← build e).print

def buildAll : List Blueprint → Except Failure (List Object)
  | [] => .ok []
  | part :: rest => do
    let o ← build part
    let os ← buildAll rest
    return o :: os

end

end Blueprint

end TreeWalk
