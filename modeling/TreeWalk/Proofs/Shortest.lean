import TreeWalk.Proofs.Decimals

/-!
# The shortest decimal has the fewest digits

Rounding is monotone, so the decimals that read back as a magnitude are all those between two
bounds. A grid that has one of them has one among the two neighbours of the magnitude, which is why
the search finds the coarsest grid with a hit; a decimal of fewer digits would leave a power of ten
between itself and the hit, on a coarser grid still.

* `Decimal.exists_neighbours` : the two points of a grid around a magnitude;
* `Decimal.exists_onGrid?` : if any point of a grid reads back, the search finds one that is as
  near;
* `Decimal.IsShortest` : no decimal that reads back has fewer digits, or is nearer on the same grid;
  so is the shortest decimal of a finite magnitude (`Decimal.isShortest_shortest`).
-/

namespace TreeWalk

attribute [local instance (high)] instPowNat
attribute [local irreducible] binade infinityRank unitsPerOne

namespace Decimal

open Magnitude

/-! ## Neighbours on a grid -/

/-- The points around a magnitude, the nearer one first. -/
theorem exists_neighbours (m : Magnitude) (g : Int) : ∃ low a b : Nat,
    value ⟨low, g⟩ ≤ m.value ∧ m.value < value ⟨low + 1, g⟩ ∧
      (a = low ∧ b = low + 1 ∨ a = low + 1 ∧ b = low) ∧
      |value ⟨a, g⟩ - m.value| ≤ |value ⟨b, g⟩ - m.value| ∧
      onGrid? m g = [⟨a, g⟩, ⟨b, g⟩].find? fun d : Decimal => d.magnitude = m := by
  have hden : 0 < unitsPerOne * 10 ^ g.toNat := Nat.mul_pos unitsPerOne_pos (ten_pow_pos _)
  have hscale : (0 : ℚ) < unitsPerOne * (10 ^ (-g).toNat : Nat) :=
    mul_pos cast_unitsPerOne_pos (Nat.cast_pos.2 (ten_pow_pos _))
  -- on the scale of the quotient that is rounded, both sides are naturals
  have hpoint (c : Nat) : value ⟨c, g⟩ * (unitsPerOne * (10 ^ (-g).toNat : Nat)) =
      (c * (unitsPerOne * 10 ^ g.toNat) : Nat) := by
    rw [value, Nat.cast_mul, Nat.cast_mul, ← zpow_mul_toNat g]
    ring
  have hm : m.value * (unitsPerOne * (10 ^ (-g).toNat : Nat)) =
      (m.units * 10 ^ (-g).toNat : Nat) := by
    rw [← mul_assoc, value_mul_unitsPerOne, Nat.cast_mul]
  unfold onGrid? neighbours
  generalize m.units * 10 ^ (-g).toNat = num at *
  generalize unitsPerOne * 10 ^ g.toNat = den at *
  generalize (unitsPerOne * (10 ^ (-g).toNat : Nat) : ℚ) = scale at *
  have hle : num / den * den ≤ num := Nat.div_mul_le_self num den
  have hlt : num < (num / den + 1) * den := (Nat.div_lt_iff_lt_mul hden).1 (Nat.lt_succ_self _)
  have hnext : (num / den + 1) * den = num / den * den + den := Nat.succ_mul _ _
  have hlow : value ⟨num / den, g⟩ ≤ m.value := by
    refine le_of_mul_le_mul_right ?_ hscale
    rw [hpoint, hm]
    exact Nat.cast_le.2 hle
  have hhigh : m.value < value ⟨num / den + 1, g⟩ := by
    refine lt_of_mul_lt_mul_right ?_ hscale.le
    rw [hpoint, hm]
    exact Nat.cast_lt.2 hlt
  have hstep := hlow.trans_lt hhigh
  have hmiddle : (value ⟨num / den, g⟩ + value ⟨num / den + 1, g⟩) / 2 * scale =
      (num / den * den + (num / den + 1) * den : Nat) / 2 := by
    rw [Nat.cast_add, ← hpoint, ← hpoint]
    ring
  by_cases hround : roundHalfEven num den = num / den
  · refine ⟨_, _, _, hlow, hhigh, .inl ⟨rfl, rfl⟩, ?_, ?_⟩
    · rw [abs_sub_le_iff_midpoint hstep]
      refine le_of_mul_le_mul_right ?_ hscale
      have hnear := le_twice_roundHalfEven hden num
      rw [hround] at hnear
      rw [hmiddle, hm, le_div_iff₀ zero_lt_two]
      exact_mod_cast by omega
    · simp only [hround, if_true, List.map_cons, List.map_nil]
  · have hup := (roundHalfEven_eq_or num den).resolve_left hround
    refine ⟨_, _, _, hlow, hhigh, .inr ⟨rfl, rfl⟩, ?_, ?_⟩
    · rw [abs_sub_le_iff_midpoint' hstep]
      refine le_of_mul_le_mul_right ?_ hscale
      have hnear := twice_roundHalfEven_le hden num
      rw [hup] at hnear
      rw [hmiddle, hm, div_le_iff₀ zero_lt_two]
      exact_mod_cast by omega
    · simp only [hround, if_false, List.map_cons, List.map_nil]

/-! ## Hits -/

theorem ofRat_eq_of_between {m : Magnitude} {p q r : ℚ} (hp : ofRat p = m) (hr : ofRat r = m)
    (hpq : p ≤ q) (hqr : q ≤ r) : ofRat q = m :=
  Magnitude.ext (Nat.le_antisymm (hr ▸ ofRat_mono hqr) (hp ▸ ofRat_mono hpq))

theorem value_le_value {c c' : Nat} (g : Int) (h : c ≤ c') : value ⟨c, g⟩ ≤ value ⟨c', g⟩ :=
  mul_le_mul_of_nonneg_right (Nat.cast_le.2 h) (by positivity)

theorem find?_pair {p : Decimal → Bool} {a b : Decimal} (ha : p a = false) (hb : p b = true) :
    [a, b].find? p = some b := by
  rw [List.find?_cons, ha]
  exact List.find?_cons_of_pos hb

/-- If any point of a grid reads back, the search finds one there that is as near. -/
theorem exists_onGrid? {m : Magnitude} {d : Decimal} (h : ofRat d.value = m) :
    ∃ found, onGrid? m d.exponent = some found ∧
      |found.value - m.value| ≤ |d.value - m.value| := by
  obtain ⟨low, a, b, hlow, hhigh, hab, hnear, hgrid⟩ := exists_neighbours m d.exponent
  -- the neighbour on the side of the decimal reads back
  obtain ⟨c, hc, hreads, hcd⟩ : ∃ c, (c = a ∨ c = b) ∧ ofRat (value ⟨c, d.exponent⟩) = m ∧
      |value ⟨c, d.exponent⟩ - m.value| ≤ |d.value - m.value| := by
    rcases Nat.lt_or_ge low d.coefficient with hgt | hle
    · have hge : value ⟨low + 1, d.exponent⟩ ≤ d.value := value_le_value d.exponent hgt
      refine ⟨low + 1, by omega, ofRat_eq_of_between (ofRat_value m) h hhigh.le hge, ?_⟩
      rw [abs_of_nonneg (by linarith), abs_of_nonneg (by linarith)]
      linarith
    · have hle : d.value ≤ value ⟨low, d.exponent⟩ := value_le_value d.exponent hle
      refine ⟨low, by omega, ofRat_eq_of_between h (ofRat_value m) hle hlow, ?_⟩
      rw [abs_of_nonpos (by linarith), abs_of_nonpos (by linarith)]
      linarith
  rw [← magnitude_eq_ofRat] at hreads
  by_cases ha : magnitude ⟨a, d.exponent⟩ = m
  · refine ⟨_, hgrid.trans (List.find?_cons_of_pos (decide_eq_true ha)), ?_⟩
    obtain rfl | rfl := hc
    · exact hcd
    · exact hnear.trans hcd
  · obtain rfl := hc.resolve_left fun hca => ha (hca ▸ hreads)
    exact ⟨_, hgrid.trans (find?_pair (decide_eq_false ha) (decide_eq_true hreads)), hcd⟩

/-! ## No fewer digits -/

theorem coefficient_ne_zero {m : Magnitude} (hzero : m ≠ .zero) {d : Decimal}
    (h : ofRat d.value = m) : d.coefficient ≠ 0 := by
  intro hc
  rw [value, hc, Nat.cast_zero, zero_mul, ← value_zero, ofRat_value] at h
  exact hzero h.symm

/-- No decimal on a coarser grid reads back. -/
theorem exponent_le_shortest {m : Magnitude} (hm : m.isInfinite = false) (hzero : m ≠ .zero)
    {d : Decimal} (h : ofRat d.value = m) : d.exponent ≤ (shortest m).exponent := by
  have hlow := finest_le_exponent_shortest m
  have hhigh := length_add_exponent_le (coefficient_ne_zero hzero h)
    (by rwa [magnitude_eq_ofRat, h])
  have hone := length_toDigits_pos d.coefficient
  obtain ⟨found, hfound, -⟩ := exists_onGrid? h
  rcases lt_or_ge d.exponent finest with hlt | hge
  · exact hlt.le.trans hlow
  · refine le_exponent_shortest (by rw [hfound]; rfl) hge ?_
    have : finest + gridCount = 309 := rfl
    omega

/-- Zero is found on the coarsest grid. -/
theorem coefficient_shortest_zero : (shortest .zero).coefficient = 0 := by
  have hvalue := onGrid?_shortest .zero
  have hgrid : onGrid? .zero (shortest .zero).exponent = some ⟨0, (shortest .zero).exponent⟩ := by
    apply onGrid?_of_value_eq
    rw [value_zero, value, Nat.cast_zero, zero_mul]
  exact congrArg coefficient (Option.some.inj (hvalue.symm.trans hgrid))

theorem value_one (g : Int) : value ⟨1, g⟩ = 10 ^ g := by
  rw [value, Nat.cast_one, one_mul]

/-- A decimal that reads back as a magnitude with the fewest digits, and is the nearest one that
does on its grid. -/
structure IsShortest (d : Decimal) (m : Magnitude) : Prop where
  reads : d.magnitude = m
  fewest : ∀ e : Decimal, e.magnitude = m →
    (Nat.toDigits 10 d.coefficient).length ≤ (Nat.toDigits 10 e.coefficient).length
  nearest : ∀ e : Decimal, e.magnitude = m → e.exponent = d.exponent →
    |d.value - m.value| ≤ |e.value - m.value|

/-- A decimal of fewer digits that reads back would leave a power of ten between itself and the
shortest one, and that is on a coarser grid. -/
theorem length_toDigits_shortest_le {m : Magnitude} (hm : m.isInfinite = false) {d : Decimal}
    (h : ofRat d.value = m) :
    (Nat.toDigits 10 (shortest m).coefficient).length ≤
      (Nat.toDigits 10 d.coefficient).length := by
  have hone := length_toDigits_pos d.coefficient
  by_cases hzero : m = .zero
  · rw [hzero, coefficient_shortest_zero]
    exact hone
  · by_contra hlt
    have hreads := ofRat_value_shortest m
    have hexponent := exponent_le_shortest hm hzero h
    have hlow : d.value ≤
        value ⟨1, (Nat.toDigits 10 d.coefficient).length + (shortest m).exponent⟩ := by
      rw [value_one]
      exact d.value_lt_ten_zpow.le.trans (zpow_le_zpow_right₀ (by norm_num) (by omega))
    have hhigh : value ⟨1, (Nat.toDigits 10 d.coefficient).length + (shortest m).exponent⟩ ≤
        (shortest m).value := by
      rw [value_one]
      exact (zpow_le_zpow_right₀ (by norm_num) (by omega)).trans
        (ten_zpow_le_value (coefficient_ne_zero hzero hreads))
    have := exponent_le_shortest hm hzero (ofRat_eq_of_between h hreads hlow hhigh)
    dsimp only at this
    omega

theorem isShortest_shortest {m : Magnitude} (hm : m.isInfinite = false) :
    (shortest m).IsShortest m := by
  refine ⟨magnitude_shortest m, fun d h => ?_, fun d h hgrid => ?_⟩
  · rw [magnitude_eq_ofRat] at h
    exact length_toDigits_shortest_le hm h
  · rw [magnitude_eq_ofRat] at h
    obtain ⟨found, hfound, hnear⟩ := exists_onGrid? h
    rw [hgrid, onGrid?_shortest] at hfound
    rwa [Option.some.inj hfound]

end Decimal

end TreeWalk
