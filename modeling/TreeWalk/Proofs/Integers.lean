import TreeWalk.Blueprint
import TreeWalk.Proofs.Nearest
import TreeWalk.Proofs.Origins

/-!
# Integers enter the values correctly rounded

An integer of any size becomes the double that is nearest to it, unless that would be infinite.

* `Double.ofInt?_of_lt`, `Double.ofInt?_of_le` : the double of an integer, by the limit from which
  on integers are rounded to infinity;
* `EntersAs` : what all three ways of making a number of an integer give;
* `integers_enter_rounded` : the integers that have a double, and that it is the nearest one.
-/

namespace TreeWalk

attribute [local instance (high)] instPowNat
attribute [local irreducible] binade infinityRank unitsPerOne

/-! ## Doubles of integers -/

theorem withSign_abs (z : Int) : withSign (decide (z < 0)) |(z : ℚ)| = z := by
  rcases lt_or_ge z 0 with hz | hz
  · rw [decide_eq_true hz, abs_of_neg (Int.cast_lt_zero.2 hz)]
    exact neg_neg _
  · rw [decide_eq_false (not_lt.2 hz), abs_of_nonneg (Int.cast_nonneg hz)]
    rfl

theorem Magnitude.nearest_natAbs (z : Int) :
    nearest (z.natAbs * unitsPerOne) 1 = ofRat |(z : ℚ)| := by
  apply nearest_eq_ofRat Nat.one_pos
  rw [Nat.cast_mul, Nat.cast_one, mul_one, Nat.cast_natAbs, Int.cast_abs]

namespace Double

/-- The double with the sign of an integer and the magnitude that it is rounded to. -/
def ofInt (z : Int) : Double := .signed (z < 0) (.ofRat |(z : ℚ)|)

theorem ofInt?_of_lt {z : Int} (h : |(z : ℚ)| < Magnitude.limit) : ofInt? z = some (ofInt z) := by
  have hm : (Magnitude.ofRat |(z : ℚ)|).isInfinite = false :=
    Magnitude.isInfinite_eq_false.2 (Magnitude.rank_ofRat_lt_iff.2 h)
  rw [ofInt?, Magnitude.nearest_natAbs, hm]
  rfl

theorem ofInt?_of_le {z : Int} (h : Magnitude.limit ≤ |(z : ℚ)|) : ofInt? z = none := by
  have hm : (Magnitude.ofRat |(z : ℚ)|).isInfinite = true := by
    rw [← Bool.not_eq_false, Magnitude.isInfinite_eq_false, Magnitude.rank_ofRat_lt_iff]
    exact not_lt.2 h
  rw [ofInt?, Magnitude.nearest_natAbs, hm]
  rfl

section OfInt

variable {z w : Int}

theorem isNearest_ofInt (h : |(z : ℚ)| < Magnitude.limit) : (ofInt z).IsNearest z := by
  have := (isNearest_iff (s := z < 0) (abs_nonneg (z : ℚ))).2
    ⟨Magnitude.rank_ofRat_lt_iff.2 h, rfl⟩
  rwa [withSign_abs] at this

theorem value_ofRat_abs (h : |z| ≤ 2 ^ 53) :
    (Magnitude.ofRat |(z : ℚ)|).value = |(z : ℚ)| := by
  rw [← Int.cast_abs, ← Nat.cast_natAbs]
  exact Magnitude.value_ofRat_nat (Int.ofNat_le.1 (by rwa [Int.natCast_natAbs]))

/-- Integers of at most 53 bits are doubles. -/
theorem value_ofInt (h : |z| ≤ 2 ^ 53) : (ofInt z).value = z := by
  rw [ofInt, value, value_ofRat_abs h, withSign_abs]

theorem ofInt_neg (h : z ≠ 0) : ofInt (-z) = (ofInt z).neg := by
  have hsign : decide (-z < 0) = !decide (z < 0) := by
    rw [← decide_not, decide_eq_decide]
    omega
  rw [ofInt, ofInt, neg, hsign, Int.cast_neg, abs_neg]

theorem ofInt_ne_negative_zero (z : Int) : ofInt z ≠ .signed true .zero := by
  intro h
  injection h with hsign hzero
  have hneg : z ≤ -1 := Int.le_sub_one_of_lt (of_decide_eq_true hsign)
  have habs : |((-1 : Int) : ℚ)| ≤ |(z : ℚ)| := by
    rw [← Int.cast_abs, ← Int.cast_abs, Int.cast_le]
    exact abs_le_abs_of_nonpos (by decide) hneg
  have hmono := Magnitude.value_le_iff.2 (Magnitude.ofRat_mono habs)
  rw [value_ofRat_abs (by norm_num), hzero, Magnitude.value_zero] at hmono
  norm_num at hmono

theorem ofInt_mono (h : w ≤ z) : (ofInt w).value ≤ (ofInt z).value := by
  have hmono {a b : Int} (hab : |a| ≤ |b|) :
      (Magnitude.ofRat |(a : ℚ)|).value ≤ (Magnitude.ofRat |(b : ℚ)|).value := by
    apply Magnitude.value_le_iff.2 (Magnitude.ofRat_mono _)
    rwa [← Int.cast_abs, ← Int.cast_abs, Int.cast_le]
  simp only [ofInt, value, withSign, decide_eq_true_eq]
  split <;> split
  · exact neg_le_neg (hmono (abs_le_abs_of_nonpos (by omega) h))
  · exact (neg_nonpos.2 (Magnitude.value_nonneg _)).trans (Magnitude.value_nonneg _)
  · omega
  · exact hmono (abs_le_abs_of_nonneg (by omega) h)

end OfInt

end Double

/-! ## Numbers of integers -/

section

attribute [local irreducible] Double.ofInt?

-- stated of the function, so that no conversion of an open integer is computed
theorem Value.ofInt_eq : Value.ofInt = fun z =>
    match Double.ofInt? z with
    | some x => .ok (.number x)
    | none => .error .tooLarge := rfl

end

/-- What an integer becomes as a value of its own, as the payload of a number and in a literal. -/
structure EntersAs (z : Int) (result : Except Failure Double) : Prop where
  value : Value.ofObject (.plain (.int z)) = result.map .number
  number : Value.numberOf (.plain (.int z)) = result.map .number
  literal : Object.literal (.plain (.int z)) =
    result.map fun x => .node .literal [.value (.number x)]

theorem entersAs_of_ofInt {z : Int} {result : Except Failure Double}
    (h : Value.ofInt z = result.map .number) : EntersAs z result := by
  constructor
  · rw [Value.ofObject, h]
  · rw [Value.numberOf, h]
  · rw [Object.literal, Value.ofObject, h]
    cases result <;> rfl

theorem entersAs_ofInt {z : Int} (h : |(z : ℚ)| < Magnitude.limit) :
    EntersAs z (.ok (.ofInt z)) := by
  apply entersAs_of_ofInt
  rw [Value.ofInt_eq]
  simp only [Double.ofInt?_of_lt h]
  rfl

theorem entersAs_tooLarge {z : Int} (h : Magnitude.limit ≤ |(z : ℚ)|) :
    EntersAs z (.error .tooLarge) := by
  apply entersAs_of_ofInt
  rw [Value.ofInt_eq]
  simp only [Double.ofInt?_of_le h]
  rfl

theorem EntersAs.unique {z : Int} {r s : Except Failure Double} (hr : EntersAs z r)
    (hs : EntersAs z s) : r = s := by
  have := hr.value.symm.trans hs.value
  cases r <;> cases s <;> simp_all [Except.map]

theorem cast_limit_le_iff (z : Int) :
    Magnitude.limit ≤ |(z : ℚ)| ↔ 2 ^ 1024 - 2 ^ 970 ≤ |z| := by
  rw [Magnitude.limit]
  norm_cast

/-- **Integers enter the values correctly rounded.** From half-way between the largest double and
`2 ^ 1024` on they are refused for their size, and below they become the nearest double with their
sign, an even significand deciding ties. So the conversion is exact for 53 bits, odd and monotone,
and what comes out of it is finite and no negative zero. -/
theorem integers_enter_rounded (z : Int) :
    (EntersAs z (.error .tooLarge) ↔ 2 ^ 1024 - 2 ^ 970 ≤ |z|) ∧
    Failure.tooLarge.category = .overflow ∧
    (|z| < 2 ^ 1024 - 2 ^ 970 → ∃ (x : Double) (m : Magnitude),
      EntersAs z (.ok x) ∧ x = .signed (z < 0) m ∧ x.IsNearest z ∧
      (|z| ≤ 2 ^ 53 → x.value = z) ∧
      (z ≠ 0 → EntersAs (-z) (.ok x.neg)) ∧
      (∀ w y, w ≤ z → EntersAs w (.ok y) → y.value ≤ x.value) ∧
      x.isFinite = true ∧ x ≠ .signed true .zero) := by
  have enters {w : Int} {y : Double} (h : EntersAs w (.ok y)) : y = .ofInt w := by
    rcases lt_or_ge |(w : ℚ)| Magnitude.limit with hlt | hge
    · exact Except.ok.inj (h.unique (entersAs_ofInt hlt))
    · cases h.unique (entersAs_tooLarge hge)
  refine ⟨?_, rfl, fun hz => ?_⟩
  · rw [← cast_limit_le_iff]
    refine ⟨fun h => ?_, entersAs_tooLarge⟩
    by_contra hlt
    cases h.unique (entersAs_ofInt (not_le.1 hlt))
  · have hlt : |(z : ℚ)| < Magnitude.limit := by
      rw [← not_le, cast_limit_le_iff, not_le]
      exact hz
    have hneg : |((-z : Int) : ℚ)| < Magnitude.limit := by rwa [Int.cast_neg, abs_neg]
    have hnearest := Double.isNearest_ofInt hlt
    refine ⟨.ofInt z, _, entersAs_ofInt hlt, rfl, hnearest, Double.value_ofInt, fun hzero => ?_,
      fun w y hw hy => ?_, hnearest.isFinite, Double.ofInt_ne_negative_zero z⟩
    · exact Double.ofInt_neg hzero ▸ entersAs_ofInt hneg
    · rw [enters hy]
      exact Double.ofInt_mono hw

/-- The first integer that is no double, a tie, and the first one that is refused. -/
theorem integers_enter_rounded_at_limits :
    (∃ x, EntersAs (2 ^ 53 + 1) (.ok x) ∧ x.IsNearest ((2 ^ 53 + 1 : Int) : ℚ) ∧
      EntersAs (-(2 ^ 53 + 1)) (.ok x.neg)) ∧
    EntersAs (2 ^ 1024 - 2 ^ 970) (.error .tooLarge) := by
  obtain ⟨-, -, hfinite⟩ := integers_enter_rounded (2 ^ 53 + 1)
  obtain ⟨x, m, hx, -, hnearest, -, hneg, -⟩ := hfinite (by decide +kernel)
  exact ⟨⟨x, hx, hnearest, hneg (by decide)⟩,
    (integers_enter_rounded (2 ^ 1024 - 2 ^ 970)).1.2 (le_abs_self _)⟩

end TreeWalk
