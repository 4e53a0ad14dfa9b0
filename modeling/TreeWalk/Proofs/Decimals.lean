import Mathlib.Algebra.Order.Field.Power
import TreeWalk.Decimal.Shortest
import TreeWalk.Proofs.Nearest

/-!
# Decimals as exact values

Reading a decimal rounds its exact value, and the search for the shortest decimal goes from coarse
grids to fine ones, so it does not pass over a grid that has the magnitude itself among its points.

* `Decimal.value` : the exact value of a decimal; `Decimal.magnitude_eq_ofRat` : reading rounds it;
* `Decimal.onGrid?_of_value_eq` : the decimal of a magnitude that is a point of the grid;
* `Decimal.le_exponent_shortest` : the shortest decimal is on no finer grid than any hit.
-/

namespace TreeWalk

attribute [local instance (high)] instPowNat
attribute [local irreducible] binade infinityRank unitsPerOne

namespace Decimal

/-! ## Exact values -/

/-- The exact value of a decimal. -/
def value (d : Decimal) : ℚ := d.coefficient * 10 ^ d.exponent

theorem value_nonneg (d : Decimal) : 0 ≤ d.value := by
  unfold value
  positivity

/-- A power of ten with an exponent of either sign, as a quotient of naturals. -/
theorem zpow_mul_toNat (e : Int) :
    (10 : ℚ) ^ e * (10 ^ (-e).toNat : Nat) = (10 ^ e.toNat : Nat) := by
  have he : (e.toNat : Int) = e + (-e).toNat := by omega
  rw [Nat.cast_pow, Nat.cast_pow, Nat.cast_ofNat, ← zpow_natCast, ← zpow_natCast,
    ← zpow_add₀ (by norm_num), he]

/-- Reading a decimal rounds its exact value. -/
theorem magnitude_eq_ofRat (d : Decimal) : d.magnitude = .ofRat d.value := by
  apply Magnitude.nearest_eq_ofRat (ten_pow_pos _)
  rw [Nat.cast_mul, Nat.cast_mul, ← zpow_mul_toNat, value]
  ring

theorem ofRat_value_shortest (m : Magnitude) : .ofRat (shortest m).value = m :=
  (magnitude_eq_ofRat _).symm.trans (magnitude_shortest m)

theorem value_natCast (n : Nat) : value ⟨n, 0⟩ = n := by
  rw [value, zpow_zero, mul_one]

/-! ## Grids -/

/-- A magnitude that is a point of a grid is the first one tried there. -/
theorem onGrid?_of_value_eq {m : Magnitude} {c : Nat} {g : Int}
    (h : m.value = value ⟨c, g⟩) : onGrid? m g = some ⟨c, g⟩ := by
  have hden : 0 < unitsPerOne * 10 ^ g.toNat := Nat.mul_pos unitsPerOne_pos (ten_pow_pos _)
  have hnum : m.units * 10 ^ (-g).toNat = c * (unitsPerOne * 10 ^ g.toNat) := by
    have hcast : ((m.units * 10 ^ (-g).toNat : Nat) : ℚ) =
        (c * (unitsPerOne * 10 ^ g.toNat) : Nat) := by
      rw [Nat.cast_mul, ← m.value_mul_unitsPerOne, h, value, Nat.cast_mul, Nat.cast_mul,
        ← zpow_mul_toNat g]
      ring
    exact Nat.cast_injective hcast
  have hreads : magnitude ⟨c, g⟩ = m := by
    rw [magnitude_eq_ofRat, ← h, Magnitude.ofRat_value]
  rw [onGrid?, hnum, neighbours, Nat.mul_div_cancel _ hden, roundHalfEven_mul hden, if_pos rfl]
  exact List.find?_cons_of_pos (decide_eq_true hreads)

/-- The search does not stop at a finer grid than one with a hit. -/
theorem le_exponent_search {m : Magnitude} {j : Nat} (hit : (onGrid? m (finest + j)).isSome) :
    ∀ {k : Nat}, j < k → finest + j ≤ (search m k).exponent
  | k + 1, hj => by
    rw [search]
    rcases Nat.lt_succ_iff_lt_or_eq.1 hj with hlt | rfl
    · cases hg : onGrid? m (finest + k) with
      | none => exact le_exponent_search hit hlt
      | some d =>
        rw [Option.getD_some, exponent_of_onGrid? hg]
        omega
    · obtain ⟨d, hd⟩ := Option.isSome_iff_exists.1 hit
      rw [hd, Option.getD_some, exponent_of_onGrid? hd]

theorem le_exponent_shortest {m : Magnitude} {g : Int} (hit : (onGrid? m g).isSome)
    (hlow : finest ≤ g) (hhigh : g < finest + gridCount) : g ≤ (shortest m).exponent := by
  obtain ⟨j, rfl⟩ := Int.le.dest hlow
  exact le_exponent_search hit (by omega)

theorem search_succ (m : Magnitude) (k : Nat) :
    search m (k + 1) = (onGrid? m (finest + k)).getD (search m k) := rfl

theorem value_of_five_pow (m : Magnitude) {e : Nat} (h : (unitsPerOne : ℚ) = 2 ^ e) :
    value ⟨m.units * 5 ^ e, -e⟩ = m.value := by
  have hten : (10 : ℚ) ^ e = 5 ^ e * 2 ^ e := by
    rw [← mul_pow]
    norm_num
  rw [value, zpow_neg, zpow_natCast, hten, ← h, Nat.cast_mul, ← m.value_mul_unitsPerOne,
    Nat.cast_pow, Nat.cast_ofNat]
  have hone := Magnitude.cast_unitsPerOne_pos.ne'
  field_simp

theorem value_search_zero (m : Magnitude) : (search m 0).value = m.value := by
  obtain ⟨e, he⟩ : ∃ e, e = 1074 := ⟨_, rfl⟩
  have hfinest : finest = -(e : Int) := by
    rw [he]
    rfl
  rw [search, hfinest, ← he]
  exact value_of_five_pow m (by rw [he, Magnitude.cast_unitsPerOne])

/-- The search ends with a hit, on the finest grid with the exact decimal. -/
theorem onGrid?_search (m : Magnitude) (k : Nat) :
    onGrid? m (search m k).exponent = some (search m k) := by
  induction k with
  | zero =>
    exact onGrid?_of_value_eq (value_search_zero m).symm
  | succ k ih =>
    cases hg : onGrid? m (finest + k) with
    | none =>
      rw [search_succ, hg, Option.getD_none]
      exact ih
    | some d => rw [search_succ, hg, Option.getD_some, exponent_of_onGrid? hg, hg]

theorem onGrid?_shortest (m : Magnitude) :
    onGrid? m (shortest m).exponent = some (shortest m) :=
  onGrid?_search m gridCount

theorem finest_le_exponent_search (m : Magnitude) (k : Nat) : finest ≤ (search m k).exponent := by
  induction k with
  | zero => exact le_refl finest
  | succ k ih =>
    rw [search_succ]
    cases hg : onGrid? m (finest + k) with
    | none => exact ih
    | some d =>
      rw [Option.getD_some, exponent_of_onGrid? hg]
      omega

theorem finest_le_exponent_shortest (m : Magnitude) : -1074 ≤ (shortest m).exponent :=
  finest_le_exponent_search m gridCount

/-! ## Leading digits -/

theorem length_toDigits_pos (n : Nat) : 0 < (Nat.toDigits 10 n).length :=
  List.length_pos_iff.2 Nat.toDigits_ne_nil

theorem ten_pow_le_coefficient {c : Nat} (h : c ≠ 0) :
    10 ^ ((Nat.toDigits 10 c).length - 1) ≤ c := by
  rcases Nat.eq_zero_or_pos ((Nat.toDigits 10 c).length - 1) with hzero | hpos
  · rw [hzero]
    exact Nat.one_le_iff_ne_zero.2 h
  · by_contra hlt
    have := (Nat.length_toDigits_le_iff (by decide) hpos).2 (not_le.1 hlt)
    omega

/-- A decimal is at least the power of ten of its leading digit. -/
theorem ten_zpow_le_value {d : Decimal} (h : d.coefficient ≠ 0) :
    (10 : ℚ) ^ ((Nat.toDigits 10 d.coefficient).length + d.exponent - 1) ≤ d.value := by
  have hlength := length_toDigits_pos d.coefficient
  have hexponent : (Nat.toDigits 10 d.coefficient).length + d.exponent - 1 =
      ((Nat.toDigits 10 d.coefficient).length - 1 : Nat) + d.exponent := by omega
  have hle : ((10 ^ ((Nat.toDigits 10 d.coefficient).length - 1) : Nat) : ℚ) ≤ d.coefficient :=
    Nat.cast_le.2 (ten_pow_le_coefficient h)
  rw [hexponent, zpow_add₀ (by norm_num), zpow_natCast, value]
  rw [Nat.cast_pow, Nat.cast_ofNat] at hle
  exact mul_le_mul_of_nonneg_right hle (by positivity)

/-- A decimal is below the power of ten above its leading digit. -/
theorem value_lt_ten_zpow (d : Decimal) :
    d.value < (10 : ℚ) ^ ((Nat.toDigits 10 d.coefficient).length + d.exponent) := by
  have hlength := length_toDigits_pos d.coefficient
  have hlt : ((d.coefficient : Nat) : ℚ) <
      (10 ^ (Nat.toDigits 10 d.coefficient).length : Nat) :=
    Nat.cast_lt.2 ((Nat.length_toDigits_le_iff (by decide) hlength).1 (Nat.le_refl _))
  rw [zpow_add₀ (by norm_num), zpow_natCast, value]
  rw [Nat.cast_pow, Nat.cast_ofNat] at hlt
  exact mul_lt_mul_of_pos_right hlt (by positivity)

theorem limit_lt_ten_pow : Magnitude.limit < 10 ^ 309 := by
  have hbase : (2 : ℚ) ^ 93 ≤ 10 ^ 28 := by norm_num
  have hpow : ((2 : ℚ) ^ 93) ^ 11 ≤ (10 ^ 28) ^ 11 := pow_le_pow_left₀ (by positivity) hbase 11
  have htwo : (2 : ℚ) ^ 1024 = (2 ^ 93) ^ 11 * 2 := by rw [← pow_mul, ← pow_succ]
  have hten : (10 : ℚ) ^ 309 = (10 ^ 28) ^ 11 * 10 := by rw [← pow_mul, ← pow_succ]
  have hpos : (0 : ℚ) < (10 ^ 28) ^ 11 := by positivity
  have hstep : (0 : ℚ) < 2 ^ 970 := by positivity
  rw [Magnitude.limit, htwo, hten]
  generalize ((2 : ℚ) ^ 93) ^ 11 = two, ((10 : ℚ) ^ 28) ^ 11 = ten, (2 : ℚ) ^ 970 = step at *
  linarith only [hpow, hpos, hstep]

/-- The leading digit of a decimal that is rounded to a finite magnitude. -/
theorem length_add_exponent_le {d : Decimal} (h : d.coefficient ≠ 0)
    (hfinite : d.magnitude.isInfinite = false) :
    (Nat.toDigits 10 d.coefficient).length + d.exponent ≤ 309 := by
  rw [Magnitude.isInfinite_eq_false, magnitude_eq_ofRat, Magnitude.rank_ofRat_lt_iff] at hfinite
  have hlt : (10 : ℚ) ^ ((Nat.toDigits 10 d.coefficient).length + d.exponent - 1) <
      10 ^ (309 : Int) := by
    rw [zpow_ofNat]
    exact (ten_zpow_le_value h).trans_lt (hfinite.trans limit_lt_ten_pow)
  have := (zpow_lt_zpow_iff_right₀ (by norm_num)).1 hlt
  omega

end Decimal

end TreeWalk
