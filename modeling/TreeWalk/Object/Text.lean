import TreeWalk.Object.Basic
import TreeWalk.Text.Quoted

/-!
# Texts of objects

An object has three texts: the `written` one names what it is and quotes the texts inside it, the
`shown` one is the same except that a text or token shows its bare text, and the `printed` one is
what a program prints, where values show themselves as the evaluated language has them.
-/

namespace TreeWalk

def Foreign.written : Foreign → String
  | .list => "[]"
  | .dict => "\x7b\x7d"
  | .tuple => "()"
  | .set => "set()"
  | .bytes => "b''"
  | .complex => "0j"

def Plain.written : Plain → String
  | .none => "None"
  | .bool b => if b then "True" else "False"
  | .int z => toString z
  | .float x => Layout.plain.double x
  | .text s => Text.quoted s
  | .foreign f => f.written

def Operator.shown (op : Operator) : String := "TT." ++ op.name

def Operator.written (op : Operator) : String :=
  "<" ++ op.shown ++ ": " ++ toString op.number ++ ">"

def Token.written (t : Token) : String :=
  "Token(" ++ Text.quoted t.kind ++ ", " ++ Text.quoted t.text ++ ")"

namespace Object

/-- The text of a tree's label. -/
def writtenLabel (label : Option String) : String :=
  (label.map Text.quoted).getD Plain.none.written

mutual

def written : Object → String
  | .plain p => p.written
  | .value v => v.written
  | .operator op => op.written
  | .token t => t.written
  | .tree label children =>
    "Tree(" ++ writtenLabel label ++ ", [" ++ ", ".intercalate (writtenAll children) ++ "])"

def writtenAll : List Object → List String
  | [] => []
  | child :: rest => written child :: writtenAll rest

end

theorem writtenAll_eq_map : ∀ children : List Object, writtenAll children = children.map written
  | [] => rfl
  | child :: rest => by rw [writtenAll, writtenAll_eq_map rest, List.map_cons]

def shown : Object → String
  | .plain (.text s) => s
  | .operator op => op.shown
  | .token t => t.text
  | o => o.written

def printed : Object → String
  | .value v => v.printed
  | .plain .none => Value.nil.printed
  | o => o.shown

end Object

end TreeWalk
