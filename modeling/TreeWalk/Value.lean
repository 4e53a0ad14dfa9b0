import TreeWalk.Decimal.Layout
import TreeWalk.Double.Arithmetic

/-!
# Values

The values of the evaluated language. A string that was taken from a token keeps the token's kind:
two strings that both come from tokens are equal only if their kinds are, too.

* `Value.truthy` : everything but nil and false;
* `Value.equals` : equality of the language; values of different variants are unequal
  (`variant_eq_of_equals`);
* `Value.printed` : the text that is printed;
* `Value.written` : the same, with marks around a string.
-/

namespace TreeWalk

inductive Value where
  | nil
  | bool (b : Bool)
  | number (x : Double)
  | string (text : String) (kind : Option String)
  deriving DecidableEq, Repr

/-- The four variants of values. -/
inductive Variant where
  | nil | bool | number | string
  deriving DecidableEq, Repr

namespace Value

def variant : Value → Variant
  | .nil => .nil
  | .bool _ => .bool
  | .number _ => .number
  | .string _ _ => .string

/-- Zero and the empty string are truthy. -/
def truthy : Value → Bool
  | .nil => false
  | .bool b => b
  | .number _ => true
  | .string _ _ => true

/-! ## Equality -/

/-- Kinds agree unless there are two different ones. -/
def kindsAgree : Option String → Option String → Bool
  | some k, some l => k == l
  | _, _ => true

def equals : Value → Value → Bool
  | .nil, .nil => true
  | .bool a, .bool b => a == b
  | .number x, .number y => x.eq y
  | .string a k, .string b l => a == b && kindsAgree k l
  | _, _ => false

theorem kindsAgree_comm (k l : Option String) : kindsAgree k l = kindsAgree l k := by
  cases k <;> cases l <;> simp [kindsAgree, Bool.beq_comm]

theorem equals_comm (v w : Value) : v.equals w = w.equals v := by
  cases v <;> cases w <;> simp [equals, Double.eq_comm, Bool.beq_comm, kindsAgree_comm]

theorem variant_eq_of_equals {v w : Value} (h : v.equals w = true) : v.variant = w.variant := by
  cases v <;> cases w <;> simp_all [equals, variant]

/-! ## Texts -/

def printed : Value → String
  | .nil => "nil"
  | .bool b => if b then "true" else "false"
  | .number x => Layout.value.double x
  | .string text _ => text

def written : Value → String
  | .string text _ => "\"" ++ text ++ "\""
  | v => v.printed

end Value

end TreeWalk
