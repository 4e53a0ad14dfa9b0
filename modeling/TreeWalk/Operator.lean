/-!
# Operators

The eleven operators: each has a name, which is the kind of its tokens, and a lexeme, which is
their text.

* `Operator.ofName?`, `Operator.ofLexeme?` : the operator of a name or lexeme
  (`ofName?_name`, `ofLexeme?_lexeme`; `name_of_ofName?`, `lexeme_of_ofLexeme?`).
-/

namespace TreeWalk

inductive Operator where
  | bang | minus
  | plus | slash | star
  | greater | greaterEqual | less | lessEqual
  | bangEqual | equalEqual
  deriving DecidableEq, Repr

namespace Operator

def all : List Operator :=
  [.bang, .minus, .plus, .slash, .star, .greater, .greaterEqual, .less, .lessEqual, .bangEqual,
    .equalEqual]

/-- The kind of the operator's tokens. -/
def name : Operator → String
  | .bang => "BANG"
  | .minus => "MINUS"
  | .plus => "PLUS"
  | .slash => "SLASH"
  | .star => "STAR"
  | .greater => "GREATER"
  | .greaterEqual => "GREATER_EQUAL"
  | .less => "LESS"
  | .lessEqual => "LESS_EQUAL"
  | .bangEqual => "BANG_EQUAL"
  | .equalEqual => "EQUAL_EQUAL"

/-- The text of the operator's tokens. -/
def lexeme : Operator → String
  | .bang => "!"
  | .minus => "-"
  | .plus => "+"
  | .slash => "/"
  | .star => "*"
  | .greater => ">"
  | .greaterEqual => ">="
  | .less => "<"
  | .lessEqual => "<="
  | .bangEqual => "!="
  | .equalEqual => "=="

/-- The place in the list of operators, from 1. -/
def number (op : Operator) : Nat := all.idxOf op + 1

def ofName? (name : String) : Option Operator := all.find? (·.name = name)

def ofLexeme? (lexeme : String) : Option Operator := all.find? (·.lexeme = lexeme)

@[simp] theorem mem_all (op : Operator) : op ∈ all := by cases op <;> decide

theorem name_of_ofName? {name : String} {op : Operator} (h : ofName? name = some op) :
    op.name = name := by
  simpa using List.find?_some h

theorem lexeme_of_ofLexeme? {lexeme : String} {op : Operator} (h : ofLexeme? lexeme = some op) :
    op.lexeme = lexeme := by
  simpa using List.find?_some h

@[simp] theorem ofName?_name (op : Operator) : ofName? op.name = some op := by
  cases op <;> decide

@[simp] theorem ofLexeme?_lexeme (op : Operator) : ofLexeme? op.lexeme = some op := by
  cases op <;> decide

theorem lexeme_inj {op op' : Operator} (h : op.lexeme = op'.lexeme) : op = op' := by
  have := ofLexeme?_lexeme op
  rw [h, ofLexeme?_lexeme] at this
  exact (Option.some.inj this).symm

theorem ofLexeme?_eq_some_iff {lexeme : String} {op : Operator} :
    ofLexeme? lexeme = some op ↔ op.lexeme = lexeme :=
  ⟨lexeme_of_ofLexeme?, fun h => h ▸ ofLexeme?_lexeme op⟩

end Operator

end TreeWalk
