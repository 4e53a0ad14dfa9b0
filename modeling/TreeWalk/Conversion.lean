import TreeWalk.Decimal.Numeral
import TreeWalk.Failure
import TreeWalk.Text.Blank

/-!
# Values and operators of objects

* `Value.ofInt` : integers enter the values as the nearest double, if there is one;
* `Value.ofObject` : values of plain data and tokens; a value is its own;
* `Value.numberOf` : numbers of plain numbers and of texts that denote one;
* `Token.ofObject` : the token of an operator, of its lexeme, or of a token's text.
-/

namespace TreeWalk

/-! ## Values -/

namespace Value

def ofInt (z : Int) : Except Failure Value :=
  match Double.ofInt? z with
  | some x => .ok (.number x)
  | none => .error .tooLarge

def ofObject : Object → Except Failure Value
  | .value v => .ok v
  | .plain .none => .ok .nil
  | .plain (.bool b) => .ok (.bool b)
  | .plain (.int z) => ofInt z
  | .plain (.float x) => .ok (.number x)
  | .plain (.text s) => .ok (.string s none)
  | .token t => .ok (.string t.text t.kind)
  | o => .error (.notAValue o)

/-- The number that a text denotes between spacing characters. -/
def ofNumeral (text : Object) (cs : List Char) : Except Failure Value :=
  match Double.read? (Text.trim Text.isSpacing cs) with
  | some x => .ok (.number x)
  | none => .error (.notANumeral text)

def numberOf (o : Object) : Except Failure Value :=
  match o with
  | .plain (.float x) => .ok (.number x)
  | .plain (.int z) => ofInt z
  | .plain (.bool b) => ofInt (if b then 1 else 0)
  | .plain (.text s) => ofNumeral o s.toList
  | .token t => ofNumeral o t.text.toList
  | .plain (.foreign .bytes) => .error (.notANumeral o)
  | o => .error (.notANumber o)

end Value

/-! ## Operators -/

namespace Object

mutual

/-- The type of the first part of an object, parents before children, that cannot be looked up in
a table. -/
def firstNoKey? : Object → Option String
  | .plain (.foreign f) => if f.isKey then none else some f.typeName
  | .tree _ children => firstNoKeyOf? children
  | _ => none

def firstNoKeyOf? : List Object → Option String
  | [] => none
  | child :: rest => (firstNoKey? child).or (firstNoKeyOf? rest)

end

/-- The operator that an object names: itself, or the one whose lexeme is its text. -/
def namedOperator (o : Object) : Except Failure Operator :=
  match o with
  | .operator op => .ok op
  | .plain (.text s) => ofText s
  | .token t => ofText t.text
  | o => .error (match o.firstNoKey? with
    | some typeName => .notAKey typeName
    | none => .unknownOperator o)
where
  ofText (s : String) : Except Failure Operator :=
    match Operator.ofLexeme? s with
    | some op => .ok op
    | none => .error (.unknownLexeme o)

end Object

/-- The token of the operator that an object names, beginning at a place. -/
def Token.ofObject (o : Object) (line column startPos : Option Int) : Except Failure Token := do
  let op ← o.namedOperator
  match column with
  | some column => .ok (.ofOperator op line column startPos)
  | none => .error .unknownColumn

end TreeWalk
