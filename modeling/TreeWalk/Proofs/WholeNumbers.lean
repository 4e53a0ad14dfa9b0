import TreeWalk.Proofs.Integers
import TreeWalk.Proofs.Numerals

/-!
# Whole numbers are written as integers

A whole number below `10 ^ 16` is its own shortest decimal: up to `2 ^ 53` every integer is a
magnitude, and beyond that a decimal on a coarser grid is a multiple of ten, which is even and so a
magnitude, too. It is laid out in place, with neither a point nor an exponent, and nothing else is.

* `Magnitude.value_ofRat_even` : even integers that are magnitudes; `Magnitude.exists_nat_of_le` :
  magnitudes that are integers;
* `Decimal.shortest_of_value_eq` : the shortest decimal of a whole number;
* `Layout.decimal_of_value_eq` : its text; `Layout.whole_of_no_mark` : decimals with such a text;
* `whole_numbers_written_as_integers` : the texts of whole doubles, and of all others.
-/

namespace TreeWalk

attribute [local instance (high)] instPowNat
attribute [local irreducible] binade infinityRank unitsPerOne

namespace Magnitude

/-! ## Whole magnitudes -/

theorem value_ofRat_even {n : Nat} (h : 2 * n ≤ 2 ^ 54) :
    (ofRat (2 * n : Nat)).value = (2 * n : Nat) := by
  apply value_ofRat (j := n) (e := 1)
  · rw [two_mul_binade]
    omega
  · push_cast
    ring
  · exact lt_limit_of_le ((Nat.cast_le.2 h).trans (by norm_num))

/-- From `2 ^ 53` on all magnitudes are whole. -/
theorem exists_nat_of_le {m : Magnitude} (h : 2 ^ 53 ≤ m.value) : ∃ n : Nat, m.value = n := by
  obtain ⟨one, hone⟩ := unitsPerOne_eq
  obtain ⟨spacing, significand, hrank, hbounds, hlt⟩ := exists_significand m.rank
  have hunits : m.units = significand * 2 ^ spacing := by
    rw [units, hrank, unitsAt_significand hbounds hlt.le]
  have hle : 2 ^ 53 * 2 ^ one ≤ significand * 2 ^ spacing := by
    have hcast := mul_le_mul_of_nonneg_right h cast_unitsPerOne_pos.le
    rw [value_mul_unitsPerOne, hunits, hone] at hcast
    exact_mod_cast hcast
  rw [two_mul_binade] at hlt
  have hspacing : one < spacing := by
    by_contra hge
    have hpow : 2 ^ spacing ≤ 2 ^ one := Nat.pow_le_pow_right Nat.two_pos (not_lt.1 hge)
    have := Nat.mul_lt_mul_of_lt_of_le hlt hpow (Nat.two_pow_pos _)
    omega
  refine ⟨significand * 2 ^ (spacing - one), mul_right_cancel₀ cast_unitsPerOne_pos.ne' ?_⟩
  rw [value_mul_unitsPerOne, hunits, hone, ← Nat.cast_mul, Nat.mul_assoc, ← Nat.pow_add,
    Nat.sub_add_cancel hspacing.le]

/-- The first number that is not written in place is a magnitude, so rounding does not get past
it. -/
theorem value_ofRat_bound : (ofRat (10 ^ 16 : Nat)).value = (10 ^ 16 : Nat) := by
  have := value_ofRat_even (n := 5 * 10 ^ 15) (by norm_num)
  norm_num at this ⊢
  exact this

theorem le_value_of_le {q : ℚ} {n : Nat} (hn : (ofRat n).value = n) (h : (n : ℚ) ≤ q) :
    (n : ℚ) ≤ (ofRat q).value :=
  hn ▸ value_le_iff.2 (ofRat_mono h)

theorem value_le_of_le {q : ℚ} {n : Nat} (hn : (ofRat n).value = n) (h : q ≤ n) :
    (ofRat q).value ≤ n :=
  (value_le_iff.2 (ofRat_mono h)).trans_eq hn

end Magnitude

namespace Decimal

open Magnitude

/-! ## Shortest decimals of whole numbers -/

/-- A whole number below `10 ^ 16` is its own shortest decimal. -/
theorem shortest_of_value_eq {m : Magnitude} {n : Nat} (h : m.value = n) (hn : n < 10 ^ 16) :
    0 ≤ (shortest m).exponent ∧ (shortest m).value = n := by
  have hit : onGrid? m 0 = some ⟨n, 0⟩ := onGrid?_of_value_eq (h.trans (value_natCast n).symm)
  have hexponent : 0 ≤ (shortest m).exponent :=
    le_exponent_shortest (by rw [hit]; rfl) (by decide) (by decide)
  have hreads := ofRat_value_shortest m
  have hfound := onGrid?_shortest m
  generalize shortest m = d at *
  refine ⟨hexponent, ?_⟩
  rcases hexponent.eq_or_lt with hzero | hpos
  · rw [← hzero, hit] at hfound
    rw [← Option.some.inj hfound, value_natCast]
  · -- a multiple of ten below the bound, which is even
    obtain ⟨k, hk⟩ : ∃ k : Nat, d.exponent = k + 1 := ⟨d.exponent.toNat - 1, by omega⟩
    have hvalue : d.value = (2 * (5 * (d.coefficient * 10 ^ k)) : Nat) := by
      rw [value, hk, zpow_add_one₀ (by norm_num), zpow_natCast]
      push_cast
      ring
    have hbound : 2 * (5 * (d.coefficient * 10 ^ k)) < 10 ^ 16 := by
      by_contra hge
      have := le_value_of_le value_ofRat_bound (hvalue ▸ Nat.cast_le.2 (not_lt.1 hge))
      rw [hreads, h, Nat.cast_le] at this
      omega
    have heven := value_ofRat_even (n := 5 * (d.coefficient * 10 ^ k)) (by omega)
    rw [← hvalue, hreads, h] at heven
    exact heven.symm

end Decimal

namespace Layout

/-! ## Texts of whole numbers -/

theorem toDigits_mul_ten_pow {c : Nat} (h : c ≠ 0) (k : Nat) :
    Nat.toDigits 10 (c * 10 ^ k) = Nat.toDigits 10 c ++ List.replicate k '0' := by
  induction k with
  | zero => rw [Nat.pow_zero, Nat.mul_one, List.replicate_zero, List.append_nil]
  | succ k ih =>
    have hpos : 0 < c * 10 ^ k := Nat.mul_pos (Nat.pos_of_ne_zero h) (Decimal.ten_pow_pos k)
    have hstep : c * 10 ^ (k + 1) = 10 * (c * 10 ^ k) + 0 := by ring
    rw [hstep, ← Nat.toDigits_append_toDigits (by decide) hpos (by decide), ih,
      List.replicate_succ', List.append_assoc]
    rfl

/-- A whole decimal below `10 ^ 16` is written with its digits alone. -/
theorem decimal_of_value_eq {d : Decimal} {n : Nat} (hexponent : 0 ≤ d.exponent)
    (h : d.value = n) (hn : n < 10 ^ 16) : value.decimal d = Nat.toDigits 10 n := by
  obtain ⟨k, hk⟩ := Int.eq_ofNat_of_zero_le hexponent
  obtain rfl : n = d.coefficient * 10 ^ k := by
    rw [Decimal.value, hk, zpow_natCast] at h
    exact_mod_cast h.symm
  unfold decimal
  split
  · next hzero =>
    rw [hzero, Nat.zero_mul]
    rfl
  · next hpos =>
    obtain ⟨zeros, hsplit⟩ := trimZeros_append (Nat.toDigits 10 d.coefficient)
    have hdigits := toDigits_mul_ten_pow hpos k
    have hlength := (Nat.length_toDigits_le_iff (by decide) (by decide)).2 hn
    have hone := Decimal.length_toDigits_pos d.coefficient
    rw [hdigits] at hlength ⊢
    have hall := congrArg List.length hsplit
    simp only [List.length_append, List.length_replicate] at hlength hall
    dsimp only
    rw [if_pos (by simp only [value]; omega), inPlace, if_neg (by omega), if_neg (by omega)]
    conv_rhs => rw [hsplit]
    have hcount : ((Nat.toDigits 10 d.coefficient).length + d.exponent).toNat -
        (trimZeros (Nat.toDigits 10 d.coefficient)).length = zeros + k := by omega
    rw [hcount, ← List.replicate_append_replicate, ← List.append_assoc]
    exact List.append_nil _

/-! ## Texts with a point or an exponent -/

theorem mark_inPlace {digits : List Char} {point : Int} (h : point < digits.length) :
    '.' ∈ value.inPlace digits point := by
  unfold inPlace
  split <;> simp

theorem mark_scientific (digits : List Char) (exponent : Int) :
    'e' ∈ value.scientific digits exponent := by
  simp [scientific]

/-- A decimal without a point or an exponent in its text is whole and below `10 ^ 16`. -/
theorem whole_of_no_mark {d : Decimal} (hpoint : '.' ∉ value.decimal d)
    (hexponent : 'e' ∉ value.decimal d) : ∃ n : Nat, d.value = n ∧ n < 10 ^ 16 ∧
      (d.coefficient = 0 ∨ (Nat.toDigits 10 d.coefficient).length + d.exponent ≤ 16) := by
  unfold decimal at hpoint hexponent
  split at hpoint
  · next hzero =>
    refine ⟨0, ?_, by decide, .inl hzero⟩
    rw [Decimal.value, hzero, Nat.cast_zero, zero_mul]
  · next hpos =>
    rw [if_neg hpos] at hexponent
    dsimp only at hpoint hexponent
    split at hpoint
    · next hrange =>
      have hbound : (Nat.toDigits 10 d.coefficient).length + d.exponent ≤ 16 := hrange.2
      have hlength := not_lt.1 fun hlt => hpoint (mark_inPlace hlt)
      have hvalue := value_trimZeros d
      dsimp only at hvalue
      generalize trimZeros (Nat.toDigits 10 d.coefficient) = digits at *
      obtain ⟨zeros, hzeros⟩ := Int.eq_ofNat_of_zero_le (Int.sub_nonneg_of_le hlength)
      have hnat : d.value = (Nat.ofDigitChars 10 digits 0 * 10 ^ zeros : Nat) := by
        rw [← hvalue, hzeros, Decimal.value, zpow_natCast]
        push_cast
        rfl
      refine ⟨_, hnat, ?_, .inr hbound⟩
      have hlt : d.value < (10 : ℚ) ^ (16 : Int) :=
        d.value_lt_ten_zpow.trans_le (zpow_le_zpow_right₀ (by norm_num) hbound)
      rw [hnat, zpow_ofNat] at hlt
      exact_mod_cast hlt
    · next hrange =>
      rw [if_neg hrange] at hexponent
      exact absurd (mark_scientific _ _) hexponent

end Layout

/-! ## Whole doubles -/

theorem toString_int (z : Int) :
    toString z = (if z < 0 then "-" else "") ++ toString z.natAbs := by
  cases z with
  | ofNat n =>
    have hnonneg : ¬ Int.ofNat n < 0 := Int.not_lt.2 (Int.natCast_nonneg n)
    rw [if_neg hnonneg, String.empty_append]
    rfl
  | negSucc n =>
    rw [if_pos (Int.negSucc_lt_zero n)]
    rfl

namespace Double

theorem text_of_value_eq {s : Bool} {m : Magnitude} {z : Int} (h : (signed s m).value = z)
    (hz : |z| < 10 ^ 16) :
    Layout.value.double (signed s m) = (if s then "-" else "") ++ toString z.natAbs := by
  have hvalue : m.value = z.natAbs := by
    rw [Nat.cast_natAbs, Int.cast_abs, ← h, value, abs_withSign, abs_of_nonneg m.value_nonneg]
  have hbound : z.natAbs < 10 ^ 16 := by
    rw [← Int.natCast_natAbs] at hz
    exact_mod_cast hz
  have hm : m.isInfinite = false := by
    rw [Magnitude.isInfinite_eq_false, ← Magnitude.value_lt_limit_iff, hvalue]
    exact Magnitude.lt_limit_of_le ((Nat.cast_le.2 hbound.le).trans (by norm_num))
  obtain ⟨hexponent, hshortest⟩ := Decimal.shortest_of_value_eq hvalue hbound
  rw [Layout.double, Layout.magnitude_of_finite hm,
    Layout.decimal_of_value_eq hexponent hshortest hbound, Nat.toString_eq_ofList_toDigits,
    String.ofList_append]
  cases s <;> rfl

/-- A magnitude without a point or an exponent in its text is whole and below `10 ^ 16`. -/
theorem whole_of_no_mark {m : Magnitude} (hm : m.isInfinite = false)
    (hpoint : '.' ∉ Layout.value.magnitude m) (hexponent : 'e' ∉ Layout.value.magnitude m) :
    ∃ n : Nat, m.value = n ∧ n < 10 ^ 16 := by
  rw [Layout.magnitude_of_finite hm] at hpoint hexponent
  obtain ⟨n, hn, hbound, hleading⟩ := Layout.whole_of_no_mark hpoint hexponent
  have hreads := Decimal.ofRat_value_shortest m
  rw [hn] at hreads
  have hle : m.value ≤ (10 ^ 16 : Nat) := by
    rw [← hreads]
    exact Magnitude.value_le_of_le Magnitude.value_ofRat_bound (Nat.cast_le.2 hbound.le)
  obtain ⟨k, hk⟩ : ∃ k : Nat, m.value = k := by
    rcases Nat.le_total n (2 ^ 53) with hsmall | hlarge
    · exact ⟨n, hreads ▸ Magnitude.value_ofRat_nat hsmall⟩
    · have hleast := Magnitude.value_ofRat_nat (Nat.le_refl (2 ^ 53))
      have := Magnitude.le_value_of_le hleast (Nat.cast_le.2 hlarge)
      rw [hreads] at this
      exact Magnitude.exists_nat_of_le (by exact_mod_cast this)
  refine ⟨k, hk, Nat.lt_of_le_of_ne (Nat.cast_le.1 (hk ▸ hle)) fun hten => ?_⟩
  -- the bound itself is a point of the grid that it is the first point of
  have hit : Decimal.onGrid? m 16 = some ⟨1, 16⟩ := by
    apply Decimal.onGrid?_of_value_eq
    rw [hk, hten, Decimal.value, zpow_ofNat]
    norm_num
  have hexponent : 16 ≤ (Decimal.shortest m).exponent :=
    Decimal.le_exponent_shortest (by rw [hit]; rfl) (by decide) (by decide)
  have hone := Decimal.length_toDigits_pos (Decimal.shortest m).coefficient
  obtain hzero | hlength := hleading
  · rw [Decimal.value, hzero, Nat.cast_zero, zero_mul] at hn
    rw [← hn, ← Magnitude.value_zero, Magnitude.ofRat_value] at hreads
    rw [← hreads, hten, Magnitude.value_zero] at hk
    norm_num at hk
  · omega

end Double

/-- **Whole numbers are written as integers.** A whole double below `10 ^ 16` has the digits of its
integer as text, behind a minus if its sign bit is set; so integers of 53 bits are printed as they
are. The text of any other finite double has a point or an exponent. -/
theorem whole_numbers_written_as_integers :
    (∀ (s : Bool) (m : Magnitude) (z : Int), (Double.signed s m).value = z → |z| < 10 ^ 16 →
      Layout.value.double (.signed s m) = (if s then "-" else "") ++ toString z.natAbs) ∧
    (∀ n : Int, |n| ≤ 2 ^ 53 → ∃ v, Value.ofObject (.plain (.int n)) = .ok v ∧
      v.printed = toString n) ∧
    ∀ x : Double, x.isFinite = true → (∀ z : Int, x.value ≠ z) ∨ 10 ^ 16 ≤ |x.value| →
      '.' ∈ (Layout.value.double x).toList ∨ 'e' ∈ (Layout.value.double x).toList := by
  refine ⟨fun s m z => Double.text_of_value_eq, fun n hn => ?_, fun x hx hlarge => ?_⟩
  · have hlt : |(n : ℚ)| < Magnitude.limit := by
      rw [← Int.cast_abs]
      exact Magnitude.lt_limit_of_le ((Int.cast_le.2 hn).trans (by norm_num))
    refine ⟨_, (entersAs_ofInt hlt).value, ?_⟩
    have htext := Double.text_of_value_eq (Double.value_ofInt hn) (hn.trans_lt (by norm_num))
    rw [toString_int]
    simp only [decide_eq_true_eq] at htext
    exact htext
  · cases x with
    | nan => cases hx
    | signed s m =>
      by_contra hmark
      rw [not_or, Layout.double, String.toList_ofList, List.mem_append, List.mem_append, not_or,
        not_or] at hmark
      obtain ⟨⟨-, hpoint⟩, -, hexponent⟩ := hmark
      obtain ⟨n, hn, hbound⟩ := Double.whole_of_no_mark
        (Magnitude.isInfinite_eq_false.2 (Double.isFinite_signed.1 hx)) hpoint hexponent
      obtain hwhole | hlarge := hlarge
      · cases s
        · exact hwhole n (hn.trans (Int.cast_natCast n).symm)
        · apply hwhole (-n)
          rw [Int.cast_neg, Int.cast_natCast, ← hn]
          rfl
      · rw [Double.value, abs_withSign, abs_of_nonneg m.value_nonneg, hn] at hlarge
        have : 10 ^ 16 ≤ n := by exact_mod_cast hlarge
        omega

/-- The negative zero, the least integer of 53 bits and the first number with an exponent. -/
theorem whole_numbers_written_as_integers_at_bounds :
    Layout.value.double (.signed true .zero) = "-0" ∧
      (∃ v, Value.ofObject (.plain (.int (-2 ^ 53))) = .ok v ∧
        v.printed = "-9007199254740992") ∧
      ('.' ∈ (Layout.value.double (.signed false (.ofRat (10 ^ 16 : Nat)))).toList ∨
        'e' ∈ (Layout.value.double (.signed false (.ofRat (10 ^ 16 : Nat)))).toList) := by
  obtain ⟨hwhole, hint, hmark⟩ := whole_numbers_written_as_integers
  refine ⟨hwhole true .zero 0 ?_ (by norm_num), hint (-2 ^ 53) (by norm_num), ?_⟩
  · rw [Double.value, Magnitude.value_zero, withSign_zero, Int.cast_zero]
  · have hbound := Magnitude.value_ofRat_bound
    refine hmark _ (Double.isFinite_signed.2 ?_) (.inr ?_)
    · rw [← Magnitude.value_lt_limit_iff, hbound]
      exact Magnitude.lt_limit_of_le (by norm_num)
    · rw [Double.value, abs_withSign, hbound]
      norm_num

end TreeWalk
