/-!
# Forms

The six forms of nodes that a program has from the start, each with the label of its trees.

* `Form.label`, `Form.ofLabel?` : labels (`ofLabel?_label`, `label_of_ofLabel?`).
-/

namespace TreeWalk

inductive Form where
  | literal | grouping | unary | binary
  | expression | print
  deriving DecidableEq, Repr

namespace Form

def all : List Form := [.literal, .grouping, .unary, .binary, .expression, .print]

def label : Form → String
  | .literal => "literal"
  | .grouping => "grouping"
  | .unary => "unary"
  | .binary => "binary"
  | .expression => "exprstmt"
  | .print => "printstmt"

def ofLabel? (label : String) : Option Form := all.find? (·.label = label)

@[simp] theorem ofLabel?_label (form : Form) : ofLabel? form.label = some form := by
  cases form <;> decide

theorem label_of_ofLabel? {label : String} {form : Form} (h : ofLabel? label = some form) :
    form.label = label := by
  simpa using List.find?_some h

end Form

end TreeWalk
