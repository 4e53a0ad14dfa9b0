import TreeWalk.Decimal.Shortest
import TreeWalk.Text.Digits

/-!
# Reading a double

A numeral is digits with an optional point among them and an optional exponent; a sign may stand
in front, and `_` between two digits is ignored. The digits may be those of any script. The words
`inf`, `infinity` and `nan` are read in either case. The exact decimal is rounded to the nearest
double.

* `Decimal.read?` : a numeral without sign;
* `Double.read?` : a signed numeral or word.
-/

namespace TreeWalk

namespace Decimal

/-- One digit or more. -/
def readDigits? (cs : List Char) : Option Nat :=
  if cs ≠ [] ∧ cs.all Char.isDigit then some (Nat.ofDigitChars 10 cs 0) else none

/-- An exponent, which is 0 if there is none. -/
def readExponent? : List Char → Option Int
  | [] => some 0
  | mark :: rest =>
    if mark = 'e' ∨ mark = 'E' then
      match rest with
      | '-' :: digits => (readDigits? digits).map fun n => -(n : Int)
      | '+' :: digits => (readDigits? digits).map fun n => (n : Int)
      | digits => (readDigits? digits).map fun n => (n : Int)
    else none

/-- The digits behind a point, if one comes first, and what follows them. -/
def fractionOf : List Char → List Char × List Char
  | '.' :: rest => (rest.takeWhile Char.isDigit, rest.dropWhile Char.isDigit)
  | rest => ([], rest)

/-- A numeral: at least one digit before or behind the point. -/
def read? (cs : List Char) : Option Decimal :=
  let whole := cs.takeWhile Char.isDigit
  let (fraction, tail) := fractionOf (cs.dropWhile Char.isDigit)
  let digits := whole ++ fraction
  if digits.isEmpty then none
  else (readExponent? tail).map fun e => ⟨Nat.ofDigitChars 10 digits 0, e - fraction.length⟩

/-- The decimal with its exponent brought to where all magnitudes end: beyond `10 ^ 2000` every
positive decimal is infinite, and below `10 ^ -2000` over its length every one is zero. -/
def clamp (d : Decimal) (length : Nat) : Decimal :=
  ⟨d.coefficient, max (-2000 - length) (min 2000 d.exponent)⟩

end Decimal

namespace Double

/-- The text without the marks that stand between two digits; none if a mark stands elsewhere. -/
def joinDigits? : Bool → List Char → Option (List Char)
  | _, [] => some []
  | afterDigit, c :: rest =>
    if c = '_' then
      if afterDigit && rest.head?.any Char.isDigit then joinDigits? false rest else none
    else (joinDigits? c.isDigit rest).map (c :: ·)

/-- A numeral or a word, without sign. -/
def readUnsigned? (negative : Bool) (cs : List Char) : Option Double :=
  let word := String.ofList (cs.map Char.toLower)
  if word = "inf" ∨ word = "infinity" then some (infinity negative)
  else if word = "nan" then some .nan
  else (Decimal.read? cs).map fun d => .signed negative (d.clamp cs.length).magnitude

/-- The double nearest to the number that a text denotes. -/
def read? (cs : List Char) : Option Double :=
  (joinDigits? false (cs.map Text.commonDigit)).bind fun
    | '-' :: rest => readUnsigned? true rest
    | '+' :: rest => readUnsigned? false rest
    | rest => readUnsigned? false rest

end Double

end TreeWalk
