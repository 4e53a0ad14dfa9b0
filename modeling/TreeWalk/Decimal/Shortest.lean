import TreeWalk.Double.Rounding

/-!
# The shortest decimal that reads back

A decimal of fewest digits that rounds to a given magnitude, and of these the nearest to it, is on
the coarsest grid `10 ^ g` that has a point rounding to the magnitude, and is there one of the two
neighbours of the magnitude: rounding is monotone, so a point beyond a neighbour reads back only
if the neighbour does. The finest grid, `10 ^ -1074`, contains every magnitude.

* `Decimal` : a coefficient and a power of ten; `Decimal.magnitude` reads it;
* `neighbours` : the two grid points around a value, the nearer one first;
* `shortest` : the decimal described above; it reads back (`magnitude_shortest`).
-/

namespace TreeWalk

-- with or without an algebraic library in scope, powers of naturals are those of the core library
attribute [local instance (high)] instPowNat

/-- The number `coefficient * 10 ^ exponent`. -/
structure Decimal where
  coefficient : Nat
  exponent : Int
  deriving DecidableEq, Repr

namespace Decimal

/-- The magnitude nearest to a decimal, ties to even. -/
def magnitude (d : Decimal) : Magnitude :=
  .nearest (d.coefficient * unitsPerOne * 10 ^ d.exponent.toNat) (10 ^ (-d.exponent).toNat)

/-- The naturals around `num / den`, the nearer one first. -/
def neighbours (num den : Nat) : List Nat :=
  let low := num / den
  if roundHalfEven num den = low then [low, low + 1] else [low + 1, low]

/-- The point of the grid `10 ^ g` that reads back as the magnitude, the nearer one if both
neighbours do. -/
def onGrid? (m : Magnitude) (g : Int) : Option Decimal :=
  let around := neighbours (m.units * 10 ^ (-g).toNat) (unitsPerOne * 10 ^ g.toNat)
  (around.map fun c => ⟨c, g⟩).find? fun d => d.magnitude = m

/-- The exponent of the finest grid that is needed, of which every magnitude is a point. -/
def finest : Int := -1074

/-- The number of grids from the finest one up to `10 ^ 308`, above which no finite number is. -/
def gridCount : Nat := 1383

/-- The first hit on the grids `10 ^ (finest + k)`, `10 ^ (finest + k - 1)`, …, or the exact
decimal. -/
def search (m : Magnitude) : Nat → Decimal
  | 0 => ⟨m.units * 5 ^ (1074 : Nat), finest⟩
  | k + 1 => (onGrid? m (finest + k)).getD (search m k)

/-- The decimal of fewest digits that reads back as a finite magnitude. -/
def shortest (m : Magnitude) : Decimal :=
  search m gridCount

theorem magnitude_of_onGrid? {m : Magnitude} {g : Int} {d : Decimal}
    (h : onGrid? m g = some d) : d.magnitude = m := by
  have := List.find?_some h
  simpa using this

theorem exponent_of_onGrid? {m : Magnitude} {g : Int} {d : Decimal}
    (h : onGrid? m g = some d) : d.exponent = g := by
  have := List.mem_of_find?_eq_some h
  obtain ⟨c, -, rfl⟩ := List.mem_map.1 this
  rfl

/-- If the exact decimal reads back, so does the result of the search. -/
theorem search_magnitude {m : Magnitude} (h : (search m 0).magnitude = m) :
    ∀ k, (search m k).magnitude = m
  | 0 => h
  | k + 1 => by
    rw [search]
    cases hg : onGrid? m (finest + k) with
    | none => exact search_magnitude h k
    | some d => exact magnitude_of_onGrid? hg

theorem ten_pow_pos (k : Nat) : 0 < 10 ^ k := Nat.pow_pos (by decide)

theorem ten_pow (k : Nat) : 10 ^ k = 5 ^ k * 2 ^ k := Nat.mul_pow 5 2 k

/-- The shortest decimal reads back. -/
theorem magnitude_shortest (m : Magnitude) : (shortest m).magnitude = m := by
  refine search_magnitude ?_ gridCount
  have hp : (search m 0).exponent.toNat = 0 := rfl
  have hn : (-(search m 0).exponent).toNat = 1074 := rfl
  rw [magnitude, hp, hn, search, Nat.pow_zero, Nat.mul_one, Nat.mul_assoc, unitsPerOne,
    ← ten_pow 1074]
  exact m.nearest_units_mul (ten_pow_pos 1074)

end Decimal

end TreeWalk
