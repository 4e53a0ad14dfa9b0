import TreeWalk.Token
import TreeWalk.Value

/-!
# Objects

Whatever a program may hold: trees, tokens and values, the operators themselves, and plain data
that is no value yet or never will be. A tree has children and, usually, a label; nothing about it
is checked before it is used.

* `Plain`, `Object` : the data;
* `Object.label?`, `Object.children`, `Object.token?`, `Object.value?` : views of an object;
* `Object.operator?` : the operator that a token stands for by its kind;
* `Object.typeName` : the word for an object in messages.
-/

namespace TreeWalk

/-! ## Plain data -/

/-- Data of which no value is made: empty collections and the complex zero. -/
inductive Foreign where
  | list | dict | tuple | set | bytes | complex
  deriving DecidableEq, Repr

namespace Foreign

def typeName : Foreign → String
  | .list => "list"
  | .dict => "dict"
  | .tuple => "tuple"
  | .set => "set"
  | .bytes => "bytes"
  | .complex => "complex"

/-- Whether it can be looked up in a table. -/
def isKey : Foreign → Bool
  | .list | .dict | .set => false
  | .tuple | .bytes | .complex => true

end Foreign

inductive Plain where
  | none
  | bool (b : Bool)
  | int (z : Int)
  | float (x : Double)
  | text (s : String)
  | foreign (f : Foreign)
  deriving DecidableEq, Repr

def Plain.typeName : Plain → String
  | .none => "NoneType"
  | .bool _ => "bool"
  | .int _ => "int"
  | .float _ => "float"
  | .text _ => "str"
  | .foreign f => f.typeName

def Value.typeName : Value → String
  | .nil => "LoxNil"
  | .bool _ => "LoxBool"
  | .number _ => "LoxNumber"
  | .string _ _ => "LoxString"

/-! ## Objects -/

inductive Object where
  | plain (p : Plain)
  | value (v : Value)
  | operator (op : Operator)
  | token (t : Token)
  | tree (label : Option String) (children : List Object)
  deriving Repr

instance : Inhabited Object := ⟨.value .nil⟩

namespace Object

def isTree : Object → Bool
  | .tree _ _ => true
  | _ => false

/-- The label of a tree that has one. -/
def label? : Object → Option String
  | .tree label _ => label
  | _ => none

/-- The children of a tree; all else has none. -/
def children : Object → List Object
  | .tree _ children => children
  | _ => []

def token? : Object → Option Token
  | .token t => some t
  | _ => none

def value? : Object → Option Value
  | .value v => some v
  | _ => none

/-- The operator that a token stands for. -/
def operator? (o : Object) : Option Operator :=
  o.token?.bind fun t => Operator.ofName? t.kind

def typeName : Object → String
  | .plain p => p.typeName
  | .value v => v.typeName
  | .operator _ => "TT"
  | .token _ => "Token"
  | .tree _ _ => "Tree"

/-! ## Truth and equality -/

/-- Only a value can be false. -/
def truthy : Object → Bool
  | .value v => v.truthy
  | _ => true

/-- Only values can be equal. -/
def equals : Object → Object → Bool
  | .value v, .value w => v.equals w
  | _, _ => false

end Object

end TreeWalk
