import TreeWalk.Double.Basic

/-!
# Rounding an exact value to a double

An exact magnitude is a quotient of naturals, in multiples of `2 ^ -1074`. In the binade of the
value the magnitudes are the multiples of one power of two, so rounding is a single division.

* `roundHalfEven` : the natural nearest to a quotient, ties to even (`twice_roundHalfEven_le`,
  `le_twice_roundHalfEven`);
* `Magnitude.nearest` : the magnitude nearest to a quotient, ties to the even rank, which is the
  even significand; from half-way between the largest finite number and `2 ^ 1024` it is infinity;
  a magnitude is the nearest one to its own value (`Magnitude.nearest_units_mul`);
* `Double.ofUnits` : the double nearest to a signed integer of units;
* `Double.ofInt?` : the double nearest to an integer, unless that is infinite.
-/

namespace TreeWalk

-- with or without an algebraic library in scope, powers of naturals are those of the core library
attribute [local instance (high)] instPowNat

/-! ## Naturals -/

/-- The natural nearest to `num / den`, the even one when two are equally near. -/
def roundHalfEven (num den : Nat) : Nat :=
  let low := num / den
  let twice := 2 * (num % den)
  if twice < den then low else if den < twice then low + 1 else low + low % 2

theorem roundHalfEven_eq_or (num den : Nat) :
    roundHalfEven num den = num / den ∨ roundHalfEven num den = num / den + 1 := by
  simp only [roundHalfEven]
  split
  · exact Or.inl rfl
  · split
    · exact Or.inr rfl
    · rcases Nat.mod_two_eq_zero_or_one (num / den) with h | h <;> simp [h]

/-- A multiple of the divisor is its own rounding. -/
theorem roundHalfEven_mul {den : Nat} (h : 0 < den) (n : Nat) :
    roundHalfEven (n * den) den = n := by
  simp [roundHalfEven, Nat.mul_div_cancel _ h, h]

theorem twice_roundHalfEven_le {den : Nat} (h : 0 < den) (num : Nat) :
    2 * (roundHalfEven num den * den) ≤ 2 * num + den := by
  have hd := Nat.div_add_mod num den
  have hm := Nat.mod_lt num h
  rw [Nat.mul_comm] at hd
  simp only [roundHalfEven]
  split
  · omega
  · split
    · rw [Nat.add_mul]; omega
    · rcases Nat.mod_two_eq_zero_or_one (num / den) with he | he <;>
        simp only [he, Nat.add_mul] <;> omega

theorem le_twice_roundHalfEven {den : Nat} (h : 0 < den) (num : Nat) :
    2 * num ≤ 2 * (roundHalfEven num den * den) + den := by
  have hd := Nat.div_add_mod num den
  have hm := Nat.mod_lt num h
  rw [Nat.mul_comm] at hd
  simp only [roundHalfEven]
  split
  · omega
  · split
    · rw [Nat.add_mul]; omega
    · rcases Nat.mod_two_eq_zero_or_one (num / den) with he | he <;>
        simp only [he, Nat.add_mul] <;> omega

/-! ## Magnitudes -/

namespace Magnitude

/-- The magnitude nearest to `num / den` units. With `2 ^ spacing` the distance of the magnitudes
around the value, the rounded significand counts ranks from the start of that binade. -/
def nearest (num den : Nat) : Magnitude :=
  let spacing := (num / den).log2 - 52
  ⟨min (spacing * binade + roundHalfEven num (den * 2 ^ spacing)) infinityRank,
    Nat.min_le_right _ _⟩

/-- The spacing of the magnitudes around a value is that of its binade. -/
theorem log2_unitsAt_sub (rank : Nat) : (unitsAt rank).log2 - 52 = rank / binade - 1 := by
  have hb : binade = 2 ^ (52 : Nat) := rfl
  have hf : rank % binade < 2 ^ (52 : Nat) := Nat.mod_lt _ (by decide)
  unfold unitsAt
  split
  · rename_i h
    by_cases h0 : rank % binade = 0
    · rw [h0, h]; decide
    · have := (Nat.log2_lt h0).2 hf
      omega
  · rename_i h
    have hne : (binade + rank % binade) * 2 ^ (rank / binade - 1) ≠ 0 :=
      Nat.mul_ne_zero (by omega) (Nat.pos_iff_ne_zero.1 (Nat.two_pow_pos _))
    have : ((binade + rank % binade) * 2 ^ (rank / binade - 1)).log2 =
        52 + (rank / binade - 1) := by
      rw [Nat.log2_eq_iff hne, Nat.pow_add, Nat.add_right_comm, Nat.pow_add]
      exact ⟨Nat.mul_le_mul_right _ (by omega),
        Nat.mul_lt_mul_of_pos_right (by omega) (Nat.two_pow_pos _)⟩
    omega

theorem unitsAt_add (rank : Nat) :
    unitsAt rank + (rank / binade - 1) * binade * 2 ^ (rank / binade - 1) =
      rank * 2 ^ (rank / binade - 1) := by
  have := Nat.div_add_mod rank binade
  unfold unitsAt
  split
  · rename_i h
    rw [h] at this ⊢
    simpa using this
  · rename_i h
    obtain ⟨q, hq⟩ := Nat.exists_eq_succ_of_ne_zero h
    rw [hq] at this ⊢
    rw [Nat.succ_sub_one, ← Nat.add_mul]
    rw [Nat.mul_succ, Nat.mul_comm] at this
    congr 1
    omega

/-- A magnitude is the nearest one to its own value. -/
theorem nearest_units_mul (m : Magnitude) {den : Nat} (h : 0 < den) :
    nearest (m.units * den) den = m := by
  have hm := m.rank_le
  apply ext
  simp only [nearest, units]
  rw [Nat.mul_div_cancel _ h, log2_unitsAt_sub]
  have hu := unitsAt_add m.rank
  have hp : 0 < den * 2 ^ (m.rank / binade - 1) := Nat.mul_pos h (Nat.two_pow_pos _)
  have hle : (m.rank / binade - 1) * binade ≤ m.rank := by
    have := Nat.div_mul_le_self m.rank binade
    have := Nat.mul_le_mul_right binade (Nat.sub_le (m.rank / binade) 1)
    omega
  have : unitsAt m.rank =
      (m.rank - (m.rank / binade - 1) * binade) * 2 ^ (m.rank / binade - 1) := by
    rw [Nat.sub_mul, ← hu]; omega
  rw [this, Nat.mul_assoc, Nat.mul_comm _ den, roundHalfEven_mul hp]
  omega
end Magnitude

/-! ## Doubles -/

namespace Double

/-- The double nearest to `z` units; an exact zero takes the sign given for it. -/
def ofUnits (zeroSign : Bool) (z : Int) : Double :=
  .signed (if z = 0 then zeroSign else z < 0) (.nearest z.natAbs 1)

/-- The double nearest to an integer; nothing if the integer rounds beyond the largest one. -/
def ofInt? (z : Int) : Option Double :=
  let m := Magnitude.nearest (z.natAbs * unitsPerOne) 1
  if m.isInfinite then none else some (.signed (z < 0) m)

end Double

end TreeWalk
