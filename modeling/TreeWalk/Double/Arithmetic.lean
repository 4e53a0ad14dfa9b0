import TreeWalk.Double.Rounding

/-!
# Arithmetic and order of doubles

Each operation gives the double nearest to the exact result (`Magnitude.nearest`), and the cases
without a finite exact result are listed in front: an operand that is not a number, infinities of
opposite signs in a sum, zero times infinity, zero by zero and infinity by infinity. A division by
zero is no error: of anything else it is an infinity.

The evaluated language has a division of its own, which decides about zero divisors before it
divides.

Products and quotients take the exclusive or of the signs, whatever they round to. An exact zero
sum is negative only as the sum of two negative zeros.

* `neg`, `add`, `sub`, `mul`, `div`;
* `place` : the place of a double on the number line, its rank with a sign; both zeros are at 0;
* `lt`, `le`, `eq` : comparison by place; false as soon as one side is not a number;
* `divide` : the division of the evaluated language.
-/

namespace TreeWalk

/-- The magnitude in units with a sign. -/
def Magnitude.signedUnits (m : Magnitude) (negative : Bool) : Int :=
  if negative then -(m.units : Int) else m.units

/-- The magnitude of one. -/
def Magnitude.one : Magnitude := ⟨1023 * binade, by decide⟩

/-- A magnitude with the sign of a double. -/
def Magnitude.copySign (m : Magnitude) : Double → Double
  | .nan => .signed false m
  | .signed s _ => .signed s m

namespace Double

/-! ## Operations -/

def neg : Double → Double
  | .nan => .nan
  | .signed s x => .signed (!s) x

def add : Double → Double → Double
  | .nan, _ => .nan
  | _, .nan => .nan
  | .signed s x, .signed t y =>
    if x.isInfinite && y.isInfinite && s != t then .nan
    else if x.isInfinite then .signed s x
    else if y.isInfinite then .signed t y
    else ofUnits (s && t) (x.signedUnits s + y.signedUnits t)

def sub (x y : Double) : Double := x.add y.neg

def mul : Double → Double → Double
  | .nan, _ => .nan
  | _, .nan => .nan
  | .signed s x, .signed t y =>
    if x.isInfinite && y.isZero || x.isZero && y.isInfinite then .nan
    else if x.isInfinite || y.isInfinite then infinity (s ^^ t)
    else .signed (s ^^ t) (.nearest (x.units * y.units) unitsPerOne)

def div : Double → Double → Double
  | .nan, _ => .nan
  | _, .nan => .nan
  | .signed s x, .signed t y =>
    if x.isZero && y.isZero || x.isInfinite && y.isInfinite then .nan
    else if x.isInfinite || y.isZero then infinity (s ^^ t)
    else if y.isInfinite then .signed (s ^^ t) .zero
    else .signed (s ^^ t) (.nearest (x.units * unitsPerOne) y.units)

/-! ## Comparison -/

/-- The place on the number line; none for what is not a number. -/
def place : Double → Option Int
  | .nan => none
  | .signed s x => some (if s then -(x.rank : Int) else x.rank)

def lt (x y : Double) : Bool :=
  match x.place, y.place with
  | some i, some j => i < j
  | _, _ => false

def le (x y : Double) : Bool :=
  match x.place, y.place with
  | some i, some j => i ≤ j
  | _, _ => false

def eq (x y : Double) : Bool :=
  match x.place, y.place with
  | some i, some j => i == j
  | _, _ => false

theorem neg_neg (x : Double) : x.neg.neg = x := by
  cases x <;> simp [neg]

theorem eq_comm (x y : Double) : x.eq y = y.eq x := by
  simp only [eq]
  split <;> split <;> simp_all [Bool.beq_comm]

/-! ## Division with zero divisors -/

/-- The division of the evaluated language. What is divided by zero is an infinity with its sign,
which the sign of the zero may turn, unless it is zero itself or not a number. -/
def divide (x y : Double) : Double :=
  if !y.eq zero then x.div y
  else if x.eq zero || x.isNaN then nan
  else (Magnitude.infinity.copySign x).mul (Magnitude.one.copySign y)

end Double

end TreeWalk
