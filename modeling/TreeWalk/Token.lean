import TreeWalk.Operator

/-!
# Tokens

A token has a kind and a text, and as much as is known of where it begins and ends.

* `Token.ofOperator` : the token of an operator that begins at a place.
-/

namespace TreeWalk

structure Token where
  kind : String
  text : String
  line : Option Int := none
  column : Option Int := none
  endLine : Option Int := none
  endColumn : Option Int := none
  startPos : Option Int := none
  endPos : Option Int := none
  deriving DecidableEq, Repr

/-- The token of an operator; it ends on its line, as far behind its start as its lexeme is
long. -/
def Token.ofOperator (op : Operator) (line : Option Int) (column : Int) (startPos : Option Int) :
    Token where
  kind := op.name
  text := op.lexeme
  line := line
  column := column
  endLine := line
  endColumn := some (column + op.lexeme.length)
  startPos := startPos
  endPos := startPos.map fun start => start + op.lexeme.length

end TreeWalk
