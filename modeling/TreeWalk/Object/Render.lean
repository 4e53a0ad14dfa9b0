import TreeWalk.Failure
import TreeWalk.Form

/-!
# Rendering of nodes

A node is rendered in parentheses with its operator, keyword or label in front. A literal is
rendered as what it holds, strings with their marks, and what is no tree with a label as its own
text. The parts of a node are rendered from left to right after its children are counted, so the
first malformed node on the way decides the failure.

* `Object.render` : the rendering of an object;
* `renderNode` : that of a labelled tree, from its children and their renderings.
-/

namespace TreeWalk

/-- The failure of a node that must have an exact number of children. -/
def Failure.childCount (expected found : Nat) : Failure :=
  if found < expected then .tooFewChildren expected found else .tooManyChildren expected

namespace Object

/-- A name and parts in parentheses; parts without any text leave no space behind. -/
def parenthesize (name : String) (parts : List (Except Failure String)) :
    Except Failure String := do
  let texts ← parts.mapM id
  let inside := " ".intercalate texts
  return if inside.isEmpty then "(" ++ name ++ ")" else "(" ++ name ++ " " ++ inside ++ ")"

/-- The rendering of the first child. -/
def firstPart : List (Except Failure String) → Except Failure String
  | [] => .error .missingChild
  | part :: _ => part

def renderNode (label : String) (children : List Object) (parts : List (Except Failure String)) :
    Except Failure String :=
  match Form.ofLabel? label with
  | some .literal => firstPart parts
  | some .grouping => enclosed "group"
  | some .expression => enclosed ";"
  | some .print => enclosed "print"
  | some .unary =>
    match children, parts with
    | [op, _], [_, operand] => parenthesize op.shown [operand]
    | _, _ => .error (.childCount 2 children.length)
  | some .binary =>
    match children, parts with
    | [_, op, _], [left, _, right] => parenthesize op.shown [left, right]
    | _, _ => .error (.childCount 3 children.length)
  | none => parenthesize label parts
where
  /-- A keyword and the first child, whatever else follows. -/
  enclosed (keyword : String) : Except Failure String :=
    match parts with
    | [] => .error .missingChild
    | part :: _ => parenthesize keyword [part]

mutual

def render : Object → Except Failure String
  | .value v => .ok v.written
  | .tree (some label) children => renderNode label children (renderEach children)
  | o => .ok o.shown

def renderEach : List Object → List (Except Failure String)
  | [] => []
  | child :: rest => render child :: renderEach rest

end

theorem renderEach_eq_map : ∀ children : List Object, renderEach children = children.map render
  | [] => rfl
  | child :: rest => by rw [renderEach, renderEach_eq_map rest, List.map_cons]

end Object

end TreeWalk
