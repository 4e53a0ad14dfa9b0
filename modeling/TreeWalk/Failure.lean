import TreeWalk.Object.Text
import TreeWalk.Text.Lines

/-!
# Failures

* `RuntimeError` : what a running program does wrong, blamed on an object, most often the token of
  an operator; it may know the source it stems from;
* `RuntimeError.text`, `RuntimeError.sourceLine?` : the message with its place, and the line of
  the source at that place;
* `Failure` : a runtime error, or one of the ways in which what was handed in is malformed;
* `Failure.message` : the wording of each.
-/

namespace TreeWalk

/-! ## Runtime errors -/

structure RuntimeError where
  token : Object
  message : String
  source : Option String := none
  deriving Repr

namespace RuntimeError

def operandNotNumber (token : Object) : RuntimeError :=
  { token, message := "Operand must be a number." }

def operandsDiffer (token : Object) : RuntimeError :=
  { token, message := "Operands must be 2 numbers or 2 strings." }

/-- The line of the token, if there is a token and its line is known. -/
def line? (e : RuntimeError) : Option Int := e.token.token?.bind Token.line

def column? (e : RuntimeError) : Option Int := e.token.token?.bind Token.column

/-- The line of the source that the token stands on. -/
def sourceLine? (e : RuntimeError) : Option String :=
  match e.source, e.line? with
  | some source, some line => Text.lineAt? source line
  | _, _ => none

/-- The message with the place, as far as it is known; a column counts only within a line. -/
def text (e : RuntimeError) : String :=
  match e.line?, e.column? with
  | none, _ => e.message
  | some line, none => e.message ++ " (line " ++ toString line ++ ")"
  | some line, some column =>
    e.message ++ " (line " ++ toString line ++ ", col " ++ toString column ++ ")"

/-- The error with a source, unless it has one of its own. -/
def withSource (e : RuntimeError) (source : Option String) : RuntimeError :=
  { e with source := e.source.or source }

end RuntimeError

/-! ## All failures -/

inductive Failure where
  /-- The program failed. -/
  | runtime (error : RuntimeError)
  /-- No expression is known by the label of the object. -/
  | cannotEvaluate (node : Object)
  /-- No statement is known by the label of the object. -/
  | cannotExecute (node : Object)
  | unsupportedUnary (operator : Object)
  | unsupportedBinary (operator : Object)
  /-- A node has fewer children than are looked at. -/
  | missingChild
  /-- A node that must have an exact number of children has fewer. -/
  | tooFewChildren (expected found : Nat)
  | tooManyChildren (expected : Nat)
  /-- A text is no operator's lexeme. -/
  | unknownLexeme (text : Object)
  /-- An object that is no text is no operator either. -/
  | unknownOperator (object : Object)
  /-- An object of a type that cannot be looked up in a table. -/
  | notAKey (typeName : String)
  /-- A token was to end behind a column that is not known. -/
  | unknownColumn
  /-- An object that no value is made of. -/
  | notAValue (object : Object)
  /-- An object that no number is made of. -/
  | notANumber (object : Object)
  /-- A text that denotes no number. -/
  | notANumeral (text : Object)
  /-- An integer that rounds beyond the largest double. -/
  | tooLarge
  deriving Repr

namespace Failure

/-- How messages name a node. -/
def describe (node : Object) : String :=
  match node.label? with
  | some label => "node '" ++ label ++ "'"
  | none => node.typeName ++ " value"

def defect (what : String) : String := "internal error: " ++ what

def message : Failure → String
  | .runtime e => e.text
  | .cannotEvaluate node => defect ("cannot evaluate " ++ describe node)
  | .cannotExecute node => defect ("cannot execute " ++ describe node)
  | .unsupportedUnary operator => defect ("unsupported unary operator " ++ operator.written)
  | .unsupportedBinary operator => defect ("unsupported binary operator " ++ operator.written)
  | .missingChild => "list index out of range"
  | .tooFewChildren expected found =>
    "not enough values to unpack (expected " ++ toString expected ++ ", got " ++
      toString found ++ ")"
  | .tooManyChildren expected =>
    "too many values to unpack (expected " ++ toString expected ++ ")"
  | .unknownLexeme text => "Unknown operator lexeme " ++ text.written
  | .unknownOperator object => object.written
  | .notAKey typeName => "unhashable type: '" ++ typeName ++ "'"
  | .unknownColumn => "unsupported operand type(s) for +: 'NoneType' and 'int'"
  | .notAValue object => "Cannot convert " ++ object.typeName ++ " to a Lox value"
  | .notANumber object =>
    "float() argument must be a string or a real number, not '" ++ object.typeName ++ "'"
  | .notANumeral text => "could not convert string to float: " ++ text.written
  | .tooLarge => "int too large to convert to float"

end Failure

end TreeWalk
