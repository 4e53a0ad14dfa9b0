import TreeWalk.Decimal.Shortest

/-!
# The text of a double

The digits of the shortest decimal, without zeros at the end, are laid out around the point: in
place while the leading digit stands between `10 ^ -4` and `10 ^ 15`, and else as one digit before
the point with an exponent, which has a sign and at least two digits.

* `Layout` : the decisions above, with the texts that differ between uses;
* `Layout.magnitude`, `Layout.double` : the texts;
* `Layout.value` : numbers of the evaluated language; `Layout.plain` : numbers outside it.
-/

namespace TreeWalk

/-- How a double is written. -/
structure Layout where
  /-- The text of what is not a number. -/
  nan : String
  /-- The text of infinity. -/
  infinity : String
  /-- What follows the digits of a whole number written in place. -/
  wholeSuffix : List Char
  /-- The least exponent of the leading digit that is written in place. -/
  leastInPlace : Int := -4
  /-- The least exponent above those written in place. -/
  boundInPlace : Int := 16
  /-- The least number of digits of an exponent. -/
  exponentWidth : Nat := 2

namespace Layout

/-- Numbers of the evaluated language: a whole number has no point. -/
def value : Layout where
  nan := "NaN"
  infinity := "Infinity"
  wholeSuffix := []

/-- Numbers outside the evaluated language: a whole number ends in `.0`. -/
def plain : Layout where
  nan := "nan"
  infinity := "inf"
  wholeSuffix := ['.', '0']

/-! ## Digits -/

/-- The digits without the zeros at their end. -/
def trimZeros (digits : List Char) : List Char :=
  (digits.reverse.dropWhile (· == '0')).reverse

/-- The digits of a number, padded in front with zeros. -/
def padded (width n : Nat) : List Char :=
  let digits := Nat.toDigits 10 n
  List.replicate (width - digits.length) '0' ++ digits

/-! ## Finite magnitudes -/

/-- Digits in place, with the point after `point` of them. -/
def inPlace (layout : Layout) (digits : List Char) (point : Int) : List Char :=
  if point ≤ 0 then '0' :: '.' :: (List.replicate (-point).toNat '0' ++ digits)
  else if point < digits.length then
    digits.take point.toNat ++ '.' :: digits.drop point.toNat
  else
    digits ++ List.replicate (point.toNat - digits.length) '0' ++ layout.wholeSuffix

/-- One digit before the point and the exponent of that digit. -/
def scientific (layout : Layout) (digits : List Char) (exponent : Int) : List Char :=
  let fraction := digits.drop 1
  digits.take 1 ++ (if fraction.isEmpty then [] else '.' :: fraction) ++
    'e' :: (if exponent < 0 then '-' else '+') :: padded layout.exponentWidth exponent.natAbs

/-- The text of a decimal; `point` digits stand before the point of its coefficient, as many more
or fewer as its exponent says. -/
def decimal (layout : Layout) (d : Decimal) : List Char :=
  if d.coefficient = 0 then layout.inPlace ['0'] 1
  else
    let all := Nat.toDigits 10 d.coefficient
    let point := all.length + d.exponent
    let digits := trimZeros all
    if layout.leastInPlace < point ∧ point ≤ layout.boundInPlace then layout.inPlace digits point
    else layout.scientific digits (point - 1)

/-! ## Doubles -/

def magnitude (layout : Layout) (m : Magnitude) : List Char :=
  if m.isInfinite then layout.infinity.toList else layout.decimal (Decimal.shortest m)

/-- The text of a double; negative zero keeps its sign. -/
def double (layout : Layout) : Double → String
  | .nan => layout.nan
  | .signed negative m =>
    String.ofList ((if negative then ['-'] else []) ++ layout.magnitude m)

end Layout

end TreeWalk
