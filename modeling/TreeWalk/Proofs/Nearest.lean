import Mathlib.Algebra.Order.Field.Rat
import Mathlib.Algebra.Order.Ring.Abs
import Mathlib.Tactic.FieldSimp
import Mathlib.Tactic.Linarith
import Mathlib.Tactic.Positivity
import Mathlib.Tactic.Ring
import TreeWalk.Double.Arithmetic

/-!
# The double nearest to an exact value

The values of magnitudes are rationals that ascend with the rank. What decides where an exact value
is rounded to are the points half-way between two neighbours: it is rounded to a rank or below
exactly if it is below the half-way point above that rank, or at that point and the rank is even
(`rank_ofRat_le_iff`). Everything else about rounding follows from this one statement.

* `Magnitude.value`, `Double.value` : exact values, which ascend with the rank
  (`Magnitude.valueAt_strictMono`);
* `Magnitude.ofRat` : the magnitude that a rational is rounded to, which is monotone
  (`Magnitude.ofRat_mono`) and leaves the values of magnitudes alone (`Magnitude.ofRat_value`);
  these include all multiples of a power of two by at most `2 ^ 53` (`Magnitude.value_ofRat`) and
  so the naturals up to there (`Magnitude.value_ofRat_nat`);
* `Double.IsNearest` : a double is nearest to an exact value, with an even significand if it is not
  the only one; rounding gives the one such double with a given sign (`Double.isNearest_iff`).
-/

namespace TreeWalk

-- powers of naturals are those of the core library, as in the definitions
attribute [local instance (high)] instPowNat

/-! ## Constants -/

theorem binade_pos : 0 < binade := by decide

theorem two_mul_half_binade : 2 * 2 ^ (51 : Nat) = binade := by decide

theorem two_mul_binade : 2 * binade = 2 ^ (53 : Nat) := by decide

theorem unitsPerOne_pos : 0 < unitsPerOne := by
  unfold unitsPerOne
  positivity

theorem unitsPerOne_eq : ∃ e, unitsPerOne = 2 ^ e := by
  obtain ⟨e, he⟩ : ∃ e, e = 1074 := ⟨_, rfl⟩
  exact ⟨e, by rw [unitsPerOne, ← he]⟩

theorem infinityRank_eq : infinityRank = 2047 * binade := rfl

theorem Magnitude.unitsAt_zero : unitsAt 0 = 0 := rfl

-- no unification may count up to these
attribute [local irreducible] binade infinityRank unitsPerOne

/-! ## Rounding to a natural -/

/-- Rounding stays at or below a natural up to the point half-way to the next one; there the parity
decides. -/
theorem roundHalfEven_le_iff {den : Nat} (h : 0 < den) (num n : Nat) :
    roundHalfEven num den ≤ n ↔
      2 * num < (2 * n + 1) * den ∨ 2 * num = (2 * n + 1) * den ∧ n % 2 = 0 := by
  have hnum := Nat.div_add_mod num den
  have hrest := Nat.mod_lt num h
  have hor := roundHalfEven_eq_or num den
  rcases Nat.lt_trichotomy (num / den) n with hlt | heq | hgt
  · have hmul : den * (num / den + 1) ≤ den * n := Nat.mul_le_mul_left den hlt
    have hexpand : (2 * n + 1) * den = 2 * (den * n) + den := by ring
    have : den * (num / den + 1) = den * (num / den) + den := Nat.mul_succ _ _
    omega
  · have hexpand : (2 * n + 1) * den = 2 * (den * n) + den := by ring
    subst heq
    unfold roundHalfEven
    dsimp only
    split
    · omega
    · split <;> omega
  · have hmul : den * (n + 1) ≤ den * (num / den) := Nat.mul_le_mul_left den hgt
    have hexpand : (2 * n + 1) * den = 2 * (den * n) + den := by ring
    have : den * (n + 1) = den * n + den := Nat.mul_succ _ _
    omega

/-! ## Distances -/

section Distance

variable {a b q : ℚ}

theorem abs_sub_le_iff_midpoint (h : a < b) : |a - q| ≤ |b - q| ↔ q ≤ (a + b) / 2 := by
  have hpos : 0 < b - a := sub_pos.2 h
  have hfactor : (b - q) ^ 2 - (a - q) ^ 2 = (b - a) * (2 * ((a + b) / 2 - q)) := by ring
  rw [← sq_le_sq, ← sub_nonneg, hfactor, mul_nonneg_iff_of_pos_left hpos]
  constructor <;> intro <;> linarith

theorem abs_sub_le_iff_midpoint' (h : a < b) : |b - q| ≤ |a - q| ↔ (a + b) / 2 ≤ q := by
  have hpos : 0 < b - a := sub_pos.2 h
  have hfactor : (a - q) ^ 2 - (b - q) ^ 2 = (b - a) * (2 * (q - (a + b) / 2)) := by ring
  rw [← sq_le_sq, ← sub_nonneg, hfactor, mul_nonneg_iff_of_pos_left hpos]
  constructor <;> intro <;> linarith

theorem abs_sub_eq_iff_midpoint (h : a < b) : |a - q| = |b - q| ↔ q = (a + b) / 2 := by
  rw [le_antisymm_iff, abs_sub_le_iff_midpoint h, abs_sub_le_iff_midpoint' h, ← le_antisymm_iff]

end Distance

namespace Magnitude

/-! ## The chain of units -/

/-- Significand and spacing of a rank: the first binade has the spacing of the second. -/
theorem exists_significand (rank : Nat) :
    ∃ spacing significand, rank = spacing * binade + significand ∧
      (spacing = 0 ∨ binade ≤ significand) ∧ significand < 2 * binade := by
  refine ⟨rank / binade - 1, rank - (rank / binade - 1) * binade, ?_⟩
  have hdiv := Nat.div_add_mod rank binade
  have hmod : rank % binade < binade := Nat.mod_lt _ binade_pos
  rcases Nat.eq_zero_or_pos (rank / binade) with h | h
  · rw [h] at hdiv ⊢
    omega
  · obtain ⟨e, he⟩ := Nat.exists_eq_succ_of_ne_zero (Nat.pos_iff_ne_zero.1 h)
    rw [he, Nat.mul_succ, Nat.mul_comm] at hdiv
    rw [he, Nat.succ_sub_one]
    omega

theorem unitsAt_significand {spacing significand : Nat}
    (h : spacing = 0 ∨ binade ≤ significand) (hle : significand ≤ 2 * binade) :
    unitsAt (spacing * binade + significand) = significand * 2 ^ spacing := by
  have hpos := binade_pos
  rcases Nat.lt_or_ge significand binade with hsmall | hlarge
  · obtain rfl : spacing = 0 := by omega
    rw [Nat.zero_mul, Nat.zero_add, unitsAt, Nat.div_eq_of_lt hsmall, if_pos rfl,
      Nat.mod_eq_of_lt hsmall, Nat.pow_zero, Nat.mul_one]
  · obtain ⟨above, rfl⟩ := Nat.exists_eq_add_of_le hlarge
    have hrank : spacing * binade + (binade + above) = binade * (spacing + 1) + above := by ring
    rcases Nat.lt_or_ge above binade with hlt | hge
    · rw [hrank, unitsAt, Nat.mul_add_div hpos, Nat.mul_add_mod, Nat.div_eq_of_lt hlt,
        Nat.mod_eq_of_lt hlt, if_neg (by omega)]
      rfl
    · -- the first magnitude of the next binade, with half the significand
      obtain rfl : above = binade := by omega
      have hnext : binade * (spacing + 1) + binade = binade * (spacing + 2) := by ring
      rw [hrank, hnext, unitsAt, Nat.mul_div_cancel_left _ hpos, Nat.mul_mod_right,
        if_neg (by omega), Nat.add_zero]
      have : spacing + 2 - 1 = spacing + 1 := by omega
      rw [this, Nat.pow_succ]
      ring

/-- Two neighbours in units, twice the point half-way between them. -/
theorem unitsAt_add_succ {spacing significand : Nat} (h : spacing = 0 ∨ binade ≤ significand)
    (hlt : significand < 2 * binade) :
    unitsAt (spacing * binade + significand) + unitsAt (spacing * binade + significand + 1) =
      (2 * significand + 1) * 2 ^ spacing := by
  rw [Nat.add_assoc, unitsAt_significand h (Nat.le_of_lt hlt),
    unitsAt_significand (by omega) (by omega)]
  ring

theorem unitsAt_lt_succ (rank : Nat) : unitsAt rank < unitsAt (rank + 1) := by
  obtain ⟨spacing, significand, rfl, h, hlt⟩ := exists_significand rank
  rw [Nat.add_assoc, unitsAt_significand h (Nat.le_of_lt hlt),
    unitsAt_significand (by omega) (by omega), Nat.succ_mul]
  exact Nat.lt_add_of_pos_right (Nat.two_pow_pos spacing)

theorem unitsAt_strictMono : StrictMono unitsAt := strictMono_nat_of_lt_succ unitsAt_lt_succ

/-- The parity of a rank is that of its significand. -/
theorem rank_mod_two (spacing significand : Nat) :
    (spacing * binade + significand) % 2 = significand % 2 := by
  have : spacing * binade = 2 * (spacing * 2 ^ (51 : Nat)) := by
    rw [← two_mul_half_binade]
    ring
  omega

/-! ## Where rounding goes -/

/-- The significand that a quotient is divided by is taken from the quotient's own binade. -/
theorem spacing_bounds (num : Nat) {den : Nat} (h : 0 < den) :
    let spacing := (num / den).log2 - 52
    num < 2 * binade * (den * 2 ^ spacing) ∧
      (spacing = 0 ∨ binade * (den * 2 ^ spacing) ≤ num) := by
  intro spacing
  have hbinade : binade = 2 ^ (52 : Nat) := by rw [binade]
  have hupper : num / den < 2 * binade * 2 ^ spacing := by
    have hlog : (num / den).log2 < 53 + spacing := by omega
    have : 2 * binade * 2 ^ spacing = 2 ^ (53 + spacing) := by rw [hbinade]; ring
    rw [this]
    by_cases h0 : num / den = 0
    · rw [h0]
      exact Nat.two_pow_pos _
    · exact (Nat.log2_lt h0).1 hlog
  constructor
  · have := (Nat.div_lt_iff_lt_mul h).1 hupper
    calc num < 2 * binade * 2 ^ spacing * den := this
      _ = 2 * binade * (den * 2 ^ spacing) := by ring
  · by_cases hs : spacing = 0
    · exact .inl hs
    · right
      have h0 : num / den ≠ 0 := by
        intro h0
        simp [spacing, h0] at hs
      have hlog : (num / den).log2 = 52 + spacing := by omega
      have hpow : 2 ^ (52 + spacing) ≤ num / den := hlog ▸ Nat.log2_self_le h0
      have := (Nat.le_div_iff_mul_le h).1 hpow
      calc binade * (den * 2 ^ spacing) = 2 ^ (52 + spacing) * den := by rw [hbinade]; ring
        _ ≤ num := this

/-- A quotient is rounded to a rank or below exactly up to the point half-way to the next rank;
there the parity decides. -/
theorem rank_nearest_le_iff {num den rank : Nat} (h : 0 < den) (hrank : rank < infinityRank) :
    (nearest num den).rank ≤ rank ↔
      2 * num < (unitsAt rank + unitsAt (rank + 1)) * den ∨
        2 * num = (unitsAt rank + unitsAt (rank + 1)) * den ∧ rank % 2 = 0 := by
  obtain ⟨hupper, hlower⟩ := spacing_bounds num h
  simp only [nearest]
  generalize (num / den).log2 - 52 = s at hupper hlower
  have hscale : 0 < den * 2 ^ s := Nat.mul_pos h (Nat.two_pow_pos s)
  -- the rounded significand lies in the binade of the quotient, or begins the next one
  have hmost : roundHalfEven num (den * 2 ^ s) ≤ 2 * binade := by
    rw [roundHalfEven_le_iff hscale]
    left
    calc 2 * num < 2 * (2 * binade * (den * 2 ^ s)) := by omega
      _ ≤ (2 * (2 * binade) + 1) * (den * 2 ^ s) := by
        rw [Nat.add_mul, Nat.mul_assoc 2 (2 * binade)]
        exact Nat.le_add_right _ _
  have hleast : s = 0 ∨ binade ≤ roundHalfEven num (den * 2 ^ s) := by
    refine hlower.imp_right fun hlow => ?_
    by_contra hlt
    have hle : roundHalfEven num (den * 2 ^ s) ≤ binade - 1 := by omega
    rw [roundHalfEven_le_iff hscale] at hle
    have hb : 2 * (binade - 1) + 1 + 1 = 2 * binade := by have := binade_pos; omega
    have hexpand : (2 * (binade - 1) + 1 + 1) * (den * 2 ^ s) =
        (2 * (binade - 1) + 1) * (den * 2 ^ s) + den * 2 ^ s := Nat.succ_mul _ _
    rw [hb, Nat.mul_assoc] at hexpand
    omega
  obtain ⟨t, k, rfl, hk, hklt⟩ := exists_significand rank
  have hmin : min (s * binade + roundHalfEven num (den * 2 ^ s)) infinityRank ≤ t * binade + k ↔
      s * binade + roundHalfEven num (den * 2 ^ s) ≤ t * binade + k := by
    rw [min_le_iff]
    exact or_iff_left (not_le.2 hrank)
  have hsum : (2 * k + 1) * 2 ^ t * den = (2 * k + 1) * (den * 2 ^ t) := by ring
  rw [unitsAt_add_succ hk hklt, hsum, rank_mod_two, hmin]
  generalize binade = B at *
  rcases Nat.lt_trichotomy s t with hst | rfl | hst
  · -- the rank is in a higher binade than the quotient
    have hbinades : (s + 1) * B ≤ t * B := Nat.mul_le_mul_right _ hst
    have hspacings : 2 ^ (s + 1) ≤ 2 ^ t := Nat.pow_le_pow_right (by decide) hst
    refine iff_of_true (by rw [Nat.succ_mul] at hbinades; omega) (.inl ?_)
    calc 2 * num < 2 * (2 * B * (den * 2 ^ s)) := by omega
      _ = 2 * B * (den * 2 ^ (s + 1)) := by ring
      _ ≤ (2 * k + 1) * (den * 2 ^ t) :=
        Nat.mul_le_mul (by omega) (Nat.mul_le_mul_left den hspacings)
  · rw [Nat.add_le_add_iff_left]
    exact roundHalfEven_le_iff hscale num k
  · -- the rank is in a lower binade than the quotient
    have hbinades : (t + 1) * B ≤ s * B := Nat.mul_le_mul_right _ hst
    have hspacings : 2 ^ (t + 1) ≤ 2 ^ s := Nat.pow_le_pow_right (by decide) hst
    have hlow := hlower.resolve_left (by omega)
    have : (2 * k + 1) * (den * 2 ^ t) < 2 * num := by
      calc (2 * k + 1) * (den * 2 ^ t) < 2 * B * (den * 2 ^ (t + 1)) := by
            have : 2 * B * (den * 2 ^ (t + 1)) = 4 * B * (den * 2 ^ t) := by ring
            rw [this]
            exact Nat.mul_lt_mul_of_pos_right (by omega) (Nat.mul_pos h (Nat.two_pow_pos t))
        _ ≤ 2 * (B * (den * 2 ^ s)) := by
          rw [Nat.mul_assoc]
          exact Nat.mul_le_mul_left _ (Nat.mul_le_mul_left _ (Nat.mul_le_mul_left den hspacings))
        _ ≤ 2 * num := Nat.mul_le_mul_left 2 hlow
    refine iff_of_false (by rw [Nat.succ_mul] at hbinades; omega) (by omega)

/-! ## Exact values -/

/-- The value at a place of the chain. -/
def valueAt (rank : Nat) : ℚ := unitsAt rank / unitsPerOne

/-- The exact value of a magnitude; infinity has the one that would follow the largest number. -/
def value (m : Magnitude) : ℚ := valueAt m.rank

theorem cast_unitsPerOne : (unitsPerOne : ℚ) = 2 ^ 1074 := by
  simp only [unitsPerOne, Nat.cast_pow, Nat.cast_ofNat]

theorem cast_unitsPerOne_pos : (0 : ℚ) < unitsPerOne := Nat.cast_pos.2 unitsPerOne_pos

theorem valueAt_strictMono : StrictMono valueAt := by
  intro a b h
  exact div_lt_div_of_pos_right (Nat.cast_lt.2 (unitsAt_strictMono h)) cast_unitsPerOne_pos

theorem valueAt_zero : valueAt 0 = 0 := by
  rw [valueAt, unitsAt_zero, Nat.cast_zero, zero_div]

theorem value_zero : zero.value = 0 := valueAt_zero

theorem value_nonneg (m : Magnitude) : 0 ≤ m.value :=
  valueAt_zero ▸ valueAt_strictMono.monotone (Nat.zero_le m.rank)

theorem value_lt_iff {m n : Magnitude} : m.value < n.value ↔ m.rank < n.rank :=
  valueAt_strictMono.lt_iff_lt

theorem value_le_iff {m n : Magnitude} : m.value ≤ n.value ↔ m.rank ≤ n.rank :=
  valueAt_strictMono.le_iff_le

theorem value_inj {m n : Magnitude} : m.value = n.value ↔ m = n :=
  valueAt_strictMono.injective.eq_iff.trans ⟨ext, congrArg rank⟩

/-- The point half-way between two neighbours of the chain. -/
def midpoint (rank : Nat) : ℚ := (valueAt rank + valueAt (rank + 1)) / 2

/-! ## Rounding of rationals -/

/-- The magnitude that a rational is rounded to; zero if it is negative. -/
def ofRat (q : ℚ) : Magnitude := nearest (q.num.toNat * unitsPerOne) q.den

theorem rank_nearest_le_iff_midpoint {num den rank : Nat} {q : ℚ} (h : 0 < den)
    (hq : (num : ℚ) = q * unitsPerOne * den) (hrank : rank < infinityRank) :
    (nearest num den).rank ≤ rank ↔ q < midpoint rank ∨ q = midpoint rank ∧ rank % 2 = 0 := by
  have hden : (0 : ℚ) < den := Nat.cast_pos.2 h
  have hone := cast_unitsPerOne_pos
  have hmid : midpoint rank =
      (unitsAt rank + unitsAt (rank + 1) : Nat) * den / (2 * unitsPerOne * den) := by
    rw [midpoint, valueAt, valueAt]
    push_cast
    field_simp
  have hvalue : q = (2 * num : Nat) / (2 * unitsPerOne * den) := by
    push_cast
    rw [hq]
    field_simp
  rw [rank_nearest_le_iff h hrank, hmid, hvalue, div_lt_div_iff_of_pos_right (by positivity),
    div_left_inj' (by positivity)]
  norm_cast

theorem midpoint_pos (rank : Nat) : 0 < midpoint rank := by
  have hlow : 0 ≤ valueAt rank := valueAt_zero ▸ valueAt_strictMono.monotone (Nat.zero_le rank)
  have hstep := valueAt_strictMono (Nat.lt_succ_self rank)
  rw [midpoint]
  linarith

/-- A rational is rounded to a rank or below exactly up to the point half-way to the next rank;
there the parity decides. -/
theorem rank_ofRat_le_iff {q : ℚ} {rank : Nat} (hrank : rank < infinityRank) :
    (ofRat q).rank ≤ rank ↔ q < midpoint rank ∨ q = midpoint rank ∧ rank % 2 = 0 := by
  have hden : (0 : ℚ) < q.den := Nat.cast_pos.2 q.den_pos
  rcases le_or_gt 0 q with hq | hq
  · apply rank_nearest_le_iff_midpoint q.den_pos _ hrank
    have hnum : ((q.num.toNat : ℤ) : ℚ) = q.num := by
      rw [Int.toNat_of_nonneg (Rat.num_nonneg.2 hq)]
    rw [Int.cast_natCast] at hnum
    rw [Nat.cast_mul, hnum, mul_right_comm, Rat.mul_den_eq_num]
  · have hnum : q.num.toNat = 0 := Int.toNat_of_nonpos (Rat.num_nonpos.2 hq.le)
    have hmid := midpoint_pos rank
    rw [ofRat, hnum, Nat.zero_mul, rank_nearest_le_iff_midpoint q.den_pos (q := 0) (by simp) hrank]
    exact iff_of_true (.inl hmid) (.inl (hq.trans hmid))

theorem eq_of_rank_le_iff {m n : Magnitude}
    (h : ∀ rank < infinityRank, m.rank ≤ rank ↔ n.rank ≤ rank) : m = n := by
  apply ext
  have hm := m.rank_le
  have hn := n.rank_le
  apply Nat.le_antisymm
  · rcases hn.lt_or_eq with hlt | heq
    · exact (h _ hlt).2 le_rfl
    · exact heq ▸ hm
  · rcases hm.lt_or_eq with hlt | heq
    · exact (h _ hlt).1 le_rfl
    · exact heq ▸ hn

/-- A quotient of naturals is rounded as the rational that it stands for. -/
theorem nearest_eq_ofRat {num den : Nat} {q : ℚ} (h : 0 < den)
    (hq : (num : ℚ) = q * unitsPerOne * den) : nearest num den = ofRat q :=
  eq_of_rank_le_iff fun _ hrank =>
    (rank_nearest_le_iff_midpoint h hq hrank).trans (rank_ofRat_le_iff hrank).symm

theorem ofRat_mono {p q : ℚ} (h : p ≤ q) : (ofRat p).rank ≤ (ofRat q).rank := by
  rcases (ofRat q).rank_le.lt_or_eq with hlt | heq
  · rw [rank_ofRat_le_iff hlt]
    rcases (rank_ofRat_le_iff hlt).1 le_rfl with hq | ⟨hq, heven⟩
    · exact .inl (h.trans_lt hq)
    · exact (h.trans_eq hq).lt_or_eq.imp_right fun hp => ⟨hp, heven⟩
  · rw [heq]
    exact (ofRat p).rank_le

theorem value_mul_unitsPerOne (m : Magnitude) : m.value * unitsPerOne = m.units :=
  div_mul_cancel₀ _ cast_unitsPerOne_pos.ne'

/-- The value of a magnitude is rounded to itself. -/
theorem ofRat_value (m : Magnitude) : ofRat m.value = m := by
  have hunits : ((m.units * 1 : Nat) : ℚ) = m.value * unitsPerOne * (1 : Nat) := by
    rw [value_mul_unitsPerOne, Nat.mul_one, Nat.cast_one, mul_one]
  rw [← nearest_eq_ofRat Nat.one_pos hunits, m.nearest_units_mul Nat.one_pos]

/-- A rational is rounded to a magnitude exactly between the points half-way to its neighbours, and
at these points if the rank is even. -/
theorem ofRat_eq_iff {q : ℚ} {m : Magnitude} :
    ofRat q = m ↔
      (∀ below, below + 1 = m.rank →
        midpoint below < q ∨ q = midpoint below ∧ m.rank % 2 = 0) ∧
      (m.rank < infinityRank → q < midpoint m.rank ∨ q = midpoint m.rank ∧ m.rank % 2 = 0) := by
  have hbelow : ∀ below, below + 1 = m.rank → (¬ (ofRat q).rank ≤ below ↔
      midpoint below < q ∨ q = midpoint below ∧ m.rank % 2 = 0) := by
    intro below heq
    have hm := m.rank_le
    have hparity : ¬ below % 2 = 0 ↔ m.rank % 2 = 0 := by omega
    rw [rank_ofRat_le_iff (by omega), not_or, not_lt, not_and, hparity]
    constructor
    · rintro ⟨hle, heven⟩
      exact hle.lt_or_eq.imp_right fun h => ⟨h.symm, heven h.symm⟩
    · rintro (hlt | ⟨rfl, heven⟩)
      · exact ⟨hlt.le, fun h => absurd h hlt.ne'⟩
      · exact ⟨le_rfl, fun _ => heven⟩
  constructor
  · rintro rfl
    exact ⟨fun below heq => (hbelow below heq).1 (by omega),
      fun hlt => (rank_ofRat_le_iff hlt).1 le_rfl⟩
  · rintro ⟨hlow, hhigh⟩
    apply ext
    apply Nat.le_antisymm
    · rcases m.rank_le.lt_or_eq with hlt | heq
      · exact (rank_ofRat_le_iff hlt).2 (hhigh hlt)
      · rw [heq]
        exact (ofRat q).rank_le
    · cases hrank : m.rank with
      | zero => exact Nat.zero_le _
      | succ below =>
        have := (hbelow below hrank.symm).2 (hlow below hrank.symm)
        omega

/-! ## Significands -/

/-- The 53 bits of a normal magnitude, the first of which is not written, or the 52 bits of one
below the normal ones. -/
def significand (m : Magnitude) : Nat :=
  if m.rank / binade = 0 then m.rank % binade else binade + m.rank % binade

theorem significand_mod_two (m : Magnitude) : m.significand % 2 = m.rank % 2 := by
  have hdiv := Nat.div_add_mod m.rank binade
  have heven : ∀ n, binade * n % 2 = 0 := by
    intro n
    rw [← two_mul_half_binade, Nat.mul_assoc]
    exact Nat.mul_mod_right _ _
  have hrest := heven (m.rank / binade)
  have hone := heven 1
  unfold significand
  split <;> omega

/-! ## The limit of finite magnitudes -/

theorem two_pow_of_eq_add {a b c : Nat} (h : c = a + b) : (2 : ℚ) ^ c = 2 ^ a * 2 ^ b := by
  rw [h, pow_add]

/-- From here on, half-way between the largest finite number and `2 ^ 1024`, numbers are rounded to
infinity. -/
def limit : ℚ := 2 ^ 1024 - 2 ^ 970

theorem two_pow_lt_limit {e : Nat} (h : e < 1024) : (2 : ℚ) ^ e < limit := by
  have hle : (2 : ℚ) ^ e ≤ 2 ^ 1023 := pow_le_pow_right₀ one_le_two (Nat.le_of_lt_succ h)
  have hlt : (2 : ℚ) ^ 970 < 2 ^ 1023 := pow_lt_pow_right₀ one_lt_two (by decide)
  have hdouble : (2 : ℚ) ^ 1024 = 2 ^ 1023 * 2 ^ 1 := two_pow_of_eq_add rfl
  rw [limit, hdouble, pow_one]
  generalize (2 : ℚ) ^ 1023 = half, (2 : ℚ) ^ 970 = step at *
  linarith

theorem isInfinite_eq_false {m : Magnitude} : m.isInfinite = false ↔ m.rank < infinityRank := by
  rw [isInfinite, beq_eq_false_iff_ne]
  exact ⟨m.rank_le.lt_of_ne, ne_of_lt⟩

theorem midpoint_limit {rank : Nat} (h : rank + 1 = infinityRank) :
    midpoint rank = limit ∧ rank % 2 = 1 := by
  have hpos := binade_pos
  have htop := infinityRank_eq
  obtain ⟨spacing, hspacing⟩ : ∃ spacing, spacing = 2045 := ⟨_, rfl⟩
  obtain rfl : rank = spacing * binade + (2 * binade - 1) := by
    rw [hspacing]
    omega
  have hodd : (2 * binade - 1) % 2 = 1 := by omega
  refine ⟨?_, (rank_mod_two spacing _).trans hodd⟩
  have hsum : unitsAt (spacing * binade + (2 * binade - 1)) +
      unitsAt (spacing * binade + (2 * binade - 1) + 1) =
        (2 * (2 * binade - 1) + 1) * 2 ^ spacing :=
    unitsAt_add_succ (.inr (by omega)) (by omega)
  have hsignificand : 2 * (2 * binade - 1) + 1 = 2 ^ 54 - 1 := by
    rw [binade]
    norm_num
  have hpower : (2 : ℚ) ^ spacing = 2 ^ 971 * unitsPerOne := by
    rw [cast_unitsPerOne]
    exact two_pow_of_eq_add hspacing
  have hhalf : (2 : ℚ) ^ 971 = 2 ^ 1 * 2 ^ 970 := two_pow_of_eq_add rfl
  have hlimit : (2 : ℚ) ^ 1024 = 2 ^ 54 * 2 ^ 970 := two_pow_of_eq_add rfl
  have hone := cast_unitsPerOne_pos
  rw [midpoint, valueAt, valueAt, ← add_div, ← Nat.cast_add, hsum, hsignificand, Nat.cast_mul,
    Nat.cast_pow, Nat.cast_ofNat, hpower, hhalf, limit, hlimit]
  field_simp
  norm_num

/-! ## Nearest magnitudes -/

/-- No magnitude is nearer than the one that a rational is rounded to, and if one is as near, the
rank is even. -/
theorem closest_ofRat (q : ℚ) (n : Magnitude) :
    |(ofRat q).value - q| ≤ |n.value - q| ∧
      (n ≠ ofRat q → |n.value - q| = |(ofRat q).value - q| → (ofRat q).rank % 2 = 0) := by
  obtain ⟨hlow, hhigh⟩ := ofRat_eq_iff.1 (rfl : ofRat q = ofRat q)
  generalize ofRat q = m at *
  rcases Nat.lt_trichotomy n.rank m.rank with hlt | heq | hgt
  · obtain ⟨below, hbelow⟩ := Nat.exists_eq_succ_of_ne_zero (Nat.ne_zero_of_lt hlt)
    have hvalue : n.value < m.value := value_lt_iff.2 hlt
    have hnext : n.value ≤ valueAt below := valueAt_strictMono.monotone (by omega)
    have hmid : (n.value + m.value) / 2 ≤ midpoint below := by
      rw [midpoint, ← Nat.succ_eq_add_one, ← hbelow]
      change (n.value + m.value) / 2 ≤ (valueAt below + m.value) / 2
      linarith
    rw [abs_sub_le_iff_midpoint' hvalue, abs_sub_eq_iff_midpoint hvalue]
    rcases hlow below hbelow.symm with hlt | ⟨heq, heven⟩
    · exact ⟨hmid.trans hlt.le, fun _ heq => absurd (heq ▸ hmid) (not_le.2 hlt)⟩
    · exact ⟨heq ▸ hmid, fun _ _ => heven⟩
  · rw [ext heq]
    exact ⟨le_rfl, fun hne => absurd rfl hne⟩
  · have hvalue : m.value < n.value := value_lt_iff.2 hgt
    have hnext : valueAt (m.rank + 1) ≤ n.value := valueAt_strictMono.monotone hgt
    have hmid : midpoint m.rank ≤ (m.value + n.value) / 2 := by
      change (m.value + valueAt (m.rank + 1)) / 2 ≤ (m.value + n.value) / 2
      linarith
    rw [abs_sub_le_iff_midpoint hvalue, eq_comm (a := |n.value - q|),
      abs_sub_eq_iff_midpoint hvalue]
    rcases hhigh (hgt.trans_le n.rank_le) with hlt | ⟨heq, heven⟩
    · exact ⟨hlt.le.trans hmid, fun _ heq => absurd (heq ▸ hmid) (not_le.2 hlt)⟩
    · exact ⟨heq ▸ hmid, fun _ _ => heven⟩

/-- A rational below the limit is rounded to the finite magnitude that is nearest. -/
theorem ofRat_eq_of_closest {q : ℚ} {m : Magnitude} (hm : m.rank < infinityRank) (hq : q < limit)
    (hclosest : ∀ n : Magnitude, n.rank < infinityRank → |m.value - q| ≤ |n.value - q|)
    (heven : ∀ n : Magnitude, n.rank < infinityRank → n ≠ m →
      |n.value - q| = |m.value - q| → m.rank % 2 = 0) : ofRat q = m := by
  rw [ofRat_eq_iff]
  constructor
  · intro below hbelow
    have hlt : below < infinityRank := by omega
    let n : Magnitude := ⟨below, hlt.le⟩
    have hvalue : n.value < m.value := value_lt_iff.2 (hbelow ▸ Nat.lt_succ_self below)
    have hmid : (n.value + m.value) / 2 = midpoint below := by
      rw [midpoint, hbelow]
      rfl
    have hle := (abs_sub_le_iff_midpoint' hvalue).1 (hclosest n hlt)
    rw [hmid] at hle
    refine hle.lt_or_eq.imp_right fun heq => ⟨heq.symm, heven n hlt ?_ ?_⟩
    · intro h
      have : below = m.rank := congrArg rank h
      omega
    · rw [abs_sub_eq_iff_midpoint hvalue, hmid, heq]
  · intro _
    rcases Nat.lt_or_eq_of_le (Nat.succ_le_of_lt hm) with hlt | heq
    · let n : Magnitude := ⟨m.rank + 1, hlt.le⟩
      have hvalue : m.value < n.value := value_lt_iff.2 (Nat.lt_succ_self _)
      have hmid : (m.value + n.value) / 2 = midpoint m.rank := rfl
      have hle := (abs_sub_le_iff_midpoint hvalue).1 (hclosest n hlt)
      rw [hmid] at hle
      refine hle.lt_or_eq.imp_right fun heq => ⟨heq, heven n hlt ?_ ?_⟩
      · intro h
        exact absurd (congrArg rank h) (Nat.succ_ne_self _)
      · rw [eq_comm, abs_sub_eq_iff_midpoint hvalue, hmid, heq]
    · exact .inl (hq.trans_eq (midpoint_limit heq).1.symm)

/-- The rationals below the limit are those that are rounded to finite magnitudes. -/
theorem rank_ofRat_lt_iff {q : ℚ} : (ofRat q).rank < infinityRank ↔ q < limit := by
  have hpos := binade_pos
  have hrank := infinityRank_eq
  obtain ⟨top, htop⟩ : ∃ top, top + 1 = infinityRank := ⟨infinityRank - 1, by omega⟩
  obtain ⟨hmid, hodd⟩ := midpoint_limit htop
  have hlast : top < infinityRank := by omega
  rw [← htop, Nat.lt_succ_iff, rank_ofRat_le_iff hlast, hmid]
  exact or_iff_left fun h => absurd (h.2.symm.trans hodd) (by decide)

theorem valueAt_lt_limit_iff {rank : Nat} : valueAt rank < limit ↔ rank < infinityRank := by
  have hpos := binade_pos
  have hrank := infinityRank_eq
  obtain ⟨top, htop⟩ : ∃ top, top + 1 = infinityRank := ⟨infinityRank - 1, by omega⟩
  have hmid : (valueAt top + valueAt (top + 1)) / 2 = limit := (midpoint_limit htop).1
  have hstep := valueAt_strictMono (Nat.lt_succ_self top)
  rw [← htop]
  constructor
  · intro h
    by_contra hge
    have := valueAt_strictMono.monotone (not_lt.1 hge)
    linarith
  · intro h
    have := valueAt_strictMono.monotone (Nat.le_of_lt_succ h)
    linarith

theorem value_lt_limit_iff {m : Magnitude} : m.value < limit ↔ m.rank < infinityRank :=
  valueAt_lt_limit_iff

/-! ## Exact conversions -/

/-- Multiples of a power of two by at most `2 ^ 53` stand in the chain. -/
theorem exists_unitsAt_eq (spacing : Nat) {j : Nat} (hj : j ≤ 2 * binade) :
    ∃ rank, unitsAt rank = j * 2 ^ spacing := by
  induction spacing generalizing j with
  | zero => exact ⟨_, unitsAt_significand (.inl rfl) hj⟩
  | succ spacing ih =>
    rcases Nat.lt_or_ge j binade with hlt | hge
    · -- too small for this spacing, so the significand is doubled
      obtain ⟨rank, hrank⟩ := ih (j := 2 * j) (by omega)
      refine ⟨rank, hrank.trans ?_⟩
      rw [Nat.pow_succ]
      ring
    · exact ⟨_, unitsAt_significand (.inr hge) hj⟩

/-- Multiples of a power of two by at most `2 ^ 53` are rounded to themselves. -/
theorem value_ofRat {q : ℚ} {j e : Nat} (hj : j ≤ 2 * binade) (hq : q = j * 2 ^ e)
    (hlimit : q < limit) : (ofRat q).value = q := by
  obtain ⟨rank, hrank⟩ := exists_unitsAt_eq (e + 1074) hj
  have hvalue : valueAt rank = q := by
    have hone := cast_unitsPerOne_pos.ne'
    rw [valueAt, hrank, hq, Nat.cast_mul, Nat.cast_pow, Nat.cast_ofNat, pow_add,
      ← cast_unitsPerOne, ← mul_assoc, mul_div_cancel_right₀ _ hone]
  have hlt : rank < infinityRank := valueAt_lt_limit_iff.1 (hvalue ▸ hlimit)
  have : (⟨rank, hlt.le⟩ : Magnitude).value = q := hvalue
  rw [← this, ofRat_value]

theorem lt_limit_of_le {q : ℚ} (h : q ≤ 2 ^ 54) : q < limit :=
  h.trans_lt (two_pow_lt_limit (by decide))

/-- Naturals of at most 53 bits are magnitudes. -/
theorem value_ofRat_nat {n : Nat} (h : n ≤ 2 ^ 53) : (ofRat n).value = n := by
  apply value_ofRat (j := n) (e := 0) (two_mul_binade.symm ▸ h)
  · rw [pow_zero, mul_one]
  · exact lt_limit_of_le ((Nat.cast_le.2 h).trans (by norm_num))

end Magnitude

/-! ## Doubles -/

/-- A number with a sign. -/
def withSign (negative : Bool) (q : ℚ) : ℚ := if negative then -q else q

theorem withSign_inj {s : Bool} {p q : ℚ} : withSign s p = withSign s q ↔ p = q := by
  cases s <;> simp [withSign]

theorem abs_withSign (s : Bool) (q : ℚ) : |withSign s q| = |q| := by
  cases s
  · rfl
  · exact abs_neg q

theorem abs_withSign_sub (s : Bool) (p q : ℚ) : |withSign s p - withSign s q| = |p - q| := by
  cases s
  · rfl
  · simp only [withSign, if_true]
    rw [neg_sub_neg, abs_sub_comm]

theorem withSign_zero (s : Bool) : withSign s 0 = 0 := by
  cases s <;> simp [withSign]

section Signs

variable {p q : ℚ} (hp : 0 ≤ p) (hq : 0 ≤ q)

include hp hq

theorem abs_withSign_sub_of_ne {s t : Bool} (h : t ≠ s) :
    |withSign t p - withSign s q| = p + q := by
  have hsum : |p + q| = p + q := abs_of_nonneg (by linarith)
  cases s <;> cases t
  · exact absurd rfl h
  · simp only [withSign, if_true, Bool.false_eq_true, if_false]
    rw [← hsum, ← abs_neg]
    congr 1
    ring
  · simp only [withSign, if_true, Bool.false_eq_true, if_false]
    rw [← hsum, sub_neg_eq_add]
  · exact absurd rfl h

/-- A sign of its own takes a number further away. -/
theorem abs_sub_le_abs_withSign_sub (s t : Bool) : |p - q| ≤ |withSign t p - withSign s q| := by
  by_cases h : t = s
  · rw [h, abs_withSign_sub]
  · rw [abs_withSign_sub_of_ne hp hq h]
    exact abs_le.2 ⟨by linarith, by linarith⟩

/-- Two signs make no difference to the distance from zero only. -/
theorem withSign_eq_of_abs_sub_eq {s t : Bool} (h : |withSign t p - withSign s q| = |p - q|) :
    withSign t p = withSign s p ∨ q = 0 := by
  by_cases hst : t = s
  · exact .inl (hst ▸ rfl)
  · rw [abs_withSign_sub_of_ne hp hq hst] at h
    rcases abs_cases (p - q) with ⟨habs, -⟩ | ⟨habs, -⟩
    · exact .inr (by linarith)
    · left
      have hzero : p = 0 := by linarith
      rw [hzero, withSign_zero, withSign_zero]

end Signs

namespace Double

/-- The exact value of a finite double. -/
def value : Double → ℚ
  | .nan => 0
  | .signed negative m => withSign negative m.value

def significand : Double → Nat
  | .nan => 0
  | .signed _ m => m.significand

/-- A finite double that no finite double is nearer to `q` than, with an even significand if
another one is as near; `q` is not so large that it is rounded to an infinity. -/
structure IsNearest (x : Double) (q : ℚ) : Prop where
  isFinite : x.isFinite = true
  lt_limit : |q| < Magnitude.limit
  closest : ∀ y : Double, y.isFinite = true → |x.value - q| ≤ |y.value - q|
  even_of_tie : ∀ y : Double, y.isFinite = true → y.value ≠ x.value →
    |y.value - q| = |x.value - q| → x.significand % 2 = 0

theorem isFinite_signed {s : Bool} {m : Magnitude} :
    (signed s m).isFinite = true ↔ m.rank < infinityRank := by
  rw [isFinite, Bool.not_eq_true', Magnitude.isInfinite_eq_false]

/-- **Rounding gives the nearest double**: of those with the sign of the number it is the one that
is nearest. -/
theorem isNearest_iff {s : Bool} {m : Magnitude} {q : ℚ} (hq : 0 ≤ q) :
    (signed s m).IsNearest (withSign s q) ↔ m.rank < infinityRank ∧ Magnitude.ofRat q = m := by
  constructor
  · intro h
    have hm := isFinite_signed.1 h.isFinite
    have hdist (n : Magnitude) : |(signed s n).value - withSign s q| = |n.value - q| :=
      abs_withSign_sub s n.value q
    refine ⟨hm, Magnitude.ofRat_eq_of_closest hm ?_ (fun n hn => ?_) (fun n hn hne heq => ?_)⟩
    · have := h.lt_limit
      rwa [abs_withSign, abs_of_nonneg hq] at this
    · rw [← hdist, ← hdist]
      exact h.closest _ (isFinite_signed.2 hn)
    · rw [← hdist, ← hdist] at heq
      rw [← m.significand_mod_two]
      refine h.even_of_tie _ (isFinite_signed.2 hn) (fun hvalue => hne ?_) heq
      exact Magnitude.value_inj.1 (withSign_inj.1 hvalue)
  · rintro ⟨hm, rfl⟩
    have hdist : |(signed s (.ofRat q)).value - withSign s q| =
        |(Magnitude.ofRat q).value - q| := abs_withSign_sub s _ q
    constructor
    · exact isFinite_signed.2 hm
    · rw [abs_withSign, abs_of_nonneg hq]
      exact Magnitude.rank_ofRat_lt_iff.1 hm
    · intro y hy
      cases y with
      | nan => cases hy
      | signed t n =>
        rw [hdist]
        exact (Magnitude.closest_ofRat q n).1.trans
          (abs_sub_le_abs_withSign_sub n.value_nonneg hq s t)
    · intro y hy hne heq
      cases y with
      | nan => cases hy
      | signed t n =>
        rw [hdist] at heq
        have hle := (Magnitude.closest_ofRat q n).1
        have hge := abs_sub_le_abs_withSign_sub n.value_nonneg hq s t
        have htie : |n.value - q| = |(Magnitude.ofRat q).value - q| :=
          le_antisymm (hge.trans_eq heq) hle
        refine (Magnitude.significand_mod_two _).trans
          ((Magnitude.closest_ofRat q n).2 (fun hn => hne ?_) htie)
        subst hn
        rcases withSign_eq_of_abs_sub_eq (Magnitude.value_nonneg _) hq (heq.trans htie.symm) with
          hsame | rfl
        · exact hsame
        · have hzero := (Magnitude.closest_ofRat 0 .zero).1
          rw [Magnitude.value_zero, sub_self, abs_zero, sub_zero, abs_nonpos_iff] at hzero
          rw [value, value, hzero, withSign_zero, withSign_zero]

end Double

end TreeWalk
