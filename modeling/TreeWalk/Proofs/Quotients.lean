import TreeWalk.Eval.Operation
import TreeWalk.Proofs.Nearest

/-!
# Quotients have the class and the sign of their operands

A division of doubles always gives a double. The quotient of two magnitudes is decided by their
class, zero, finite or infinite, before anything is rounded, and the sign is the exclusive or of the
signs, whatever the quotient rounds to. A zero divisor is no different: what is divided by it is
multiplied by an infinity with its sign.

* `signBit` : the top bit of a word, which is the sign of its double (`signBit_toBits`);
* `Magnitude.value_one` : the magnitude of one is one;
* `Magnitude.quotient?` : the quotient without signs, nothing for zero by zero and infinity by
  infinity; of finite magnitudes it is the rounded quotient of their values
  (`Magnitude.quotient?_finite`);
* `Double.div_signed` : a quotient by the one of its magnitudes, from which the rest follows;
* `Double.div_zero` : a division by zero as a product of a signed infinity and a signed one;
  `Double.divide_eq_div` : so the division of the evaluated language is the common one;
* `quotients_signed` : sign, class and value of every quotient.
-/

namespace TreeWalk

-- powers of naturals are those of the core library, as in the definitions
attribute [local instance (high)] instPowNat

/-! ## Sign bits -/

/-- Whether the sign bit of a word is set. -/
def signBit (word : UInt64) : Bool := 2 ^ (63 : Nat) ≤ word.toNat

namespace Double

theorem signBit_of_ofBits {word : UInt64} {s : Bool} {m : Magnitude}
    (h : ofBits word = .signed s m) : signBit word = s := by
  rw [signBit, Bool.eq_iff_iff, decide_eq_true_iff]
  exact (toNat_of_ofBits h).1.symm

theorem signBit_toBits (s : Bool) (m : Magnitude) : signBit (signed s m).toBits = s :=
  signBit_of_ofBits (ofBits_toBits _)

def isZero : Double → Bool
  | .nan => false
  | .signed _ m => m.isZero

def isInfinite : Double → Bool
  | .nan => false
  | .signed _ m => m.isInfinite

theorem eq_zero (x : Double) : x.eq zero = x.isZero := by
  cases x with
  | nan => rfl
  | signed s m =>
    cases s <;> simp [eq, place, zero, isZero, Magnitude.isZero, Bool.beq_eq_decide_eq]

end Double

namespace Magnitude

theorem one_ne_zero : one ≠ zero := by decide

theorem infinity_ne_zero : infinity ≠ zero := by decide

theorem isZero_of_ne {m : Magnitude} (h : m ≠ zero) : m.isZero = false :=
  eq_false_of_ne_true (mt isZero_iff.1 h)

theorem isInfinite_of_ne {m : Magnitude} (h : m ≠ infinity) : m.isInfinite = false :=
  eq_false_of_ne_true (mt isInfinite_iff.1 h)

attribute [local irreducible] binade infinityRank unitsPerOne

theorem value_one : one.value = 1 := by
  -- the exponent is kept under a name so that no power is computed
  obtain ⟨spacing, hspacing⟩ : ∃ spacing, spacing = 1022 := ⟨_, rfl⟩
  have hrank : one.rank = spacing * binade + binade := by
    change 1023 * binade = spacing * binade + binade
    rw [hspacing]
    omega
  have hone : unitsPerOne = binade * 2 ^ spacing := by
    have hexponent : 1074 = 52 + spacing := by rw [hspacing]
    rw [unitsPerOne, binade, ← Nat.pow_add, hexponent]
  have hunits : unitsAt one.rank = unitsPerOne := by
    rw [hrank, hone, unitsAt_significand (.inr (Nat.le_refl _)) (by omega)]
  rw [value, valueAt, hunits]
  exact div_self cast_unitsPerOne_pos.ne'

/-! ## Quotients of magnitudes -/

/-- The quotient of two magnitudes, if there is one. -/
def quotient? (m n : Magnitude) : Option Magnitude :=
  if m.isZero && n.isZero || m.isInfinite && n.isInfinite then none
  else if m.isInfinite || n.isZero then some .infinity
  else if n.isInfinite then some .zero
  else some (.nearest (m.units * unitsPerOne) n.units)

variable {m n k : Magnitude}

theorem units_pos (h : n ≠ zero) : 0 < n.units := by
  have : 0 < n.rank := Nat.pos_of_ne_zero fun hrank => h (ext hrank)
  exact Nat.zero_lt_of_lt (unitsAt_strictMono this)

theorem quotient?_eq_none :
    m.quotient? n = none ↔ m = zero ∧ n = zero ∨ m = infinity ∧ n = infinity := by
  rw [quotient?]
  split
  · next h => simpa [isZero_iff, isInfinite_iff] using h
  · next h =>
    refine iff_of_false ?_ (by simpa [isZero_iff, isInfinite_iff] using h)
    split
    · exact Option.some_ne_none _
    · split <;> exact Option.some_ne_none _

theorem quotient?_by_zero (hm : m ≠ zero) : m.quotient? zero = some infinity := by
  have hzero : zero.isZero = true := isZero_iff.2 rfl
  simp only [quotient?, hzero, isZero_of_ne hm, isInfinite_of_ne infinity_ne_zero.symm,
    Bool.and_false, Bool.false_and, Bool.or_false, Bool.or_true, Bool.false_eq_true, if_false,
    if_true]

theorem quotient?_infinite (h : m.quotient? n = some k) (hclass : m = infinity ∨ n = zero) :
    k = infinity := by
  have hclass : (m.isInfinite || n.isZero) = true := by
    simpa [isInfinite_iff, isZero_iff] using hclass
  rw [quotient?, if_pos hclass] at h
  split at h <;> cases h
  rfl

/-- Of finite magnitudes, the rounded quotient of their values. -/
theorem quotient?_finite (hm : m ≠ infinity) (hn : n ≠ infinity) (hzero : n ≠ zero) :
    m.quotient? n = some (ofRat (m.value / n.value)) := by
  have hvalue : n.value ≠ 0 := fun h => hzero (value_inj.1 (h.trans value_zero.symm))
  have hunits : ((m.units * unitsPerOne : Nat) : ℚ) =
      m.value / n.value * unitsPerOne * (n.units : Nat) := by
    rw [Nat.cast_mul, ← value_mul_unitsPerOne, ← value_mul_unitsPerOne]
    field_simp
  simp only [quotient?, isInfinite_of_ne hm, isInfinite_of_ne hn, isZero_of_ne hzero,
    Bool.and_false, Bool.or_false, Bool.false_eq_true, if_false]
  rw [nearest_eq_ofRat (units_pos hzero) hunits]

theorem quotient?_infinity (hm : m ≠ infinity) : m.quotient? infinity = some zero := by
  have hinfinite : infinity.isInfinite = true := isInfinite_iff.2 rfl
  simp only [quotient?, hinfinite, isInfinite_of_ne hm, isZero_of_ne infinity_ne_zero,
    Bool.and_false, Bool.false_and, Bool.or_false, Bool.false_eq_true, if_false, if_true]

theorem quotient?_zero (h : m.quotient? n = some k) (hclass : m = zero ∨ n = infinity) :
    k = zero := by
  have hsome : ¬ (m = zero ∧ n = zero ∨ m = infinity ∧ n = infinity) := by
    rw [← quotient?_eq_none, h]
    exact Option.some_ne_none k
  -- zero by a finite magnitude is not a case of its own, but rounds to zero
  by_cases hn : n = infinity
  · subst hn
    rw [quotient?_infinity fun hm => hsome (.inr ⟨hm, rfl⟩)] at h
    exact (Option.some.inj h).symm
  · obtain rfl := hclass.resolve_right hn
    rw [quotient?_finite infinity_ne_zero.symm hn fun hzero => hsome (.inl ⟨rfl, hzero⟩),
      value_zero, zero_div, ← value_zero, ofRat_value] at h
    exact (Option.some.inj h).symm

end Magnitude

/-! ## Quotients of doubles -/

theorem withSign_div (s t : Bool) (p q : ℚ) :
    withSign s p / withSign t q = withSign (s ^^ t) (p / q) := by
  cases s <;> cases t <;> simp [withSign, neg_div, div_neg]

namespace Double

/-- A quotient takes its class from the magnitudes and its sign from the signs. -/
theorem div_signed (s t : Bool) (m n : Magnitude) :
    (signed s m).div (signed t n) = ((m.quotient? n).map (signed (s ^^ t))).getD nan := by
  rw [div, Magnitude.quotient?]
  split
  · rfl
  · split
    · rfl
    · split <;> rfl

theorem div_isNaN_iff {x y : Double} :
    (x.div y).isNaN = true ↔ x.isNaN = true ∨ y.isNaN = true ∨
      x.isZero = true ∧ y.isZero = true ∨ x.isInfinite = true ∧ y.isInfinite = true := by
  cases x with
  | nan => exact iff_of_true rfl (.inl rfl)
  | signed s m =>
    cases y with
    | nan => exact iff_of_true rfl (.inr (.inl rfl))
    | signed t n =>
      have hnone : (((m.quotient? n).map (signed (s ^^ t))).getD nan).isNaN = true ↔
          m.quotient? n = none := by
        cases m.quotient? n <;> simp [isNaN]
      rw [div_signed, hnone, Magnitude.quotient?_eq_none]
      simp [isNaN, isZero, isInfinite, Magnitude.isZero_iff, Magnitude.isInfinite_iff]

theorem div_neg (x y : Double) : x.div y.neg = (x.div y).neg := by
  cases x with
  | nan => rfl
  | signed s m =>
    cases y with
    | nan => rfl
    | signed t n =>
      rw [neg, div_signed, div_signed, Bool.xor_not]
      cases m.quotient? n <;> rfl

theorem mul_infinity_one (s t : Bool) :
    (signed s .infinity).mul (signed t .one) = infinity (s ^^ t) := by
  have hinfinite : Magnitude.infinity.isInfinite = true := Magnitude.isInfinite_iff.2 rfl
  simp only [mul, hinfinite, Magnitude.isZero_of_ne Magnitude.one_ne_zero,
    Magnitude.isZero_of_ne Magnitude.infinity_ne_zero, Bool.and_false, Bool.false_and,
    Bool.or_false, Bool.true_or, Bool.false_eq_true, if_false, if_true]

/-- A division by zero, but for zero by zero, is a product of a signed infinity and a signed one. -/
theorem div_zero (x : Double) {y : Double} (hy : y.isZero = true) :
    x.div y = if x.eq zero || x.isNaN then nan
      else (Magnitude.infinity.copySign x).mul (Magnitude.one.copySign y) := by
  cases x with
  | nan => rfl
  | signed s m =>
    cases y with
    | nan => cases hy
    | signed t n =>
      obtain rfl := Magnitude.isZero_iff.1 hy
      rw [div_signed, eq_zero, isZero, isNaN, Bool.or_false]
      by_cases hm : m = .zero
      · rw [if_pos (Magnitude.isZero_iff.2 hm), Magnitude.quotient?_eq_none.2 (.inl ⟨hm, rfl⟩)]
        rfl
      · rw [if_neg (mt Magnitude.isZero_iff.1 hm), Magnitude.quotient?_by_zero hm]
        exact (mul_infinity_one s t).symm

/-- To decide about zero divisors first comes to the same. -/
theorem divide_eq_div (x y : Double) : x.divide y = x.div y := by
  rw [divide, eq_zero y]
  cases hy : y.isZero with
  | false => rfl
  | true => exact (div_zero x hy).symm

/-- A quotient of finite doubles is nearest to the exact one, unless that is too large. -/
theorem div_finite {x y : Double} (hx : x.isFinite = true) (hy : y.isFinite = true)
    (hzero : y.isZero = false) :
    if |x.value / y.value| < Magnitude.limit then (x.div y).IsNearest (x.value / y.value)
    else (x.div y).isInfinite = true := by
  cases x with
  | nan => cases hx
  | signed s m =>
    cases y with
    | nan => cases hy
    | signed t n =>
      have hm : m ≠ .infinity := fun h => (isFinite_signed.1 hx).ne (congrArg Magnitude.rank h)
      have hn : n ≠ .infinity := fun h => (isFinite_signed.1 hy).ne (congrArg Magnitude.rank h)
      have hpos : n ≠ .zero := fun h => by
        rw [h, isZero, Magnitude.isZero_iff.2 rfl] at hzero
        cases hzero
      have hquotient : (signed s m).div (signed t n) =
          signed (s ^^ t) (.ofRat (m.value / n.value)) := by
        rw [div_signed, Magnitude.quotient?_finite hm hn hpos]
        rfl
      have hnonneg : 0 ≤ m.value / n.value := div_nonneg m.value_nonneg n.value_nonneg
      rw [hquotient, value, value, withSign_div, abs_withSign, abs_of_nonneg hnonneg]
      split
      · next hlt =>
        exact (isNearest_iff hnonneg).2 ⟨Magnitude.rank_ofRat_lt_iff.2 hlt, rfl⟩
      · next hge =>
        rw [isInfinite, ← Bool.not_eq_false, Magnitude.isInfinite_eq_false,
          Magnitude.rank_ofRat_lt_iff]
        exact hge

/-- The sign of a quotient is the exclusive or of the signs; its class is that of the operands if
one of them is zero or infinite. -/
theorem div_class {x y : Double} (h : (x.div y).isNaN = false) :
    (x.isInfinite = true ∨ y.isZero = true → (x.div y).isInfinite = true) ∧
      (x.isZero = true ∨ y.isInfinite = true → (x.div y).isZero = true) := by
  cases x with
  | nan => cases h
  | signed s m =>
    cases y with
    | nan => cases h
    | signed t n =>
      rw [div_signed] at h ⊢
      cases hk : m.quotient? n with
      | none =>
        rw [hk] at h
        cases h
      | some k =>
        simp only [isZero, isInfinite, Magnitude.isZero_iff, Magnitude.isInfinite_iff,
          Option.map_some, Option.getD_some]
        exact ⟨Magnitude.quotient?_infinite hk, Magnitude.quotient?_zero hk⟩

theorem signBit_div {u v : UInt64} (h : ((ofBits u).div (ofBits v)).isNaN = false) :
    signBit ((ofBits u).div (ofBits v)).toBits = (signBit u ^^ signBit v) := by
  cases hu : ofBits u with
  | nan =>
    rw [hu] at h
    cases h
  | signed s m =>
    cases hv : ofBits v with
    | nan =>
      rw [hu, hv] at h
      cases h
    | signed t n =>
      rw [hu, hv, div_signed] at h
      rw [signBit_of_ofBits hu, signBit_of_ofBits hv, div_signed]
      cases hk : m.quotient? n with
      | none =>
        rw [hk] at h
        cases h
      | some k => exact signBit_toBits _ k

end Double

open Double

/-- **Every quotient has the class and the sign of its operands.** A division of two doubles gives
one, whether zero divisors are decided about first or not. It is not a number exactly if an operand
is not, both are zeros or both are infinities; otherwise its sign is the exclusive or of the signs,
also where it is rounded to zero or infinity, and it is infinite if the dividend is or the divisor
is zero, and zero the other way around. A division by zero is a product of a signed infinity and a
signed one, the opposite divisor gives the opposite quotient, and finite operands give the double
nearest to their quotient. -/
theorem quotients_signed (u v : UInt64) :
    (∀ token : Object, token.operator? = some .slash →
      applyBinary token (.value (.number (ofBits u))) (.value (.number (ofBits v))) =
        .ok (.number ((ofBits u).divide (ofBits v))) ∧
      applyBinary token (.value (.number (ofBits u))) (.value (.number (ofBits v))) =
        .ok (.number ((ofBits u).div (ofBits v)))) ∧
    (ofBits u).divide (ofBits v) = (ofBits u).div (ofBits v) ∧
    (((ofBits u).div (ofBits v)).isNaN = true ↔
      (ofBits u).isNaN = true ∨ (ofBits v).isNaN = true ∨
        (ofBits u).isZero = true ∧ (ofBits v).isZero = true ∨
        (ofBits u).isInfinite = true ∧ (ofBits v).isInfinite = true) ∧
    (((ofBits u).div (ofBits v)).isNaN = false →
      signBit ((ofBits u).div (ofBits v)).toBits = (signBit u ^^ signBit v) ∧
      ((ofBits u).isInfinite = true ∨ (ofBits v).isZero = true →
        ((ofBits u).div (ofBits v)).isInfinite = true) ∧
      ((ofBits u).isZero = true ∨ (ofBits v).isInfinite = true →
        ((ofBits u).div (ofBits v)).isZero = true)) ∧
    ((ofBits v).eq zero = true → (ofBits u).div (ofBits v) =
      if (ofBits u).eq zero || (ofBits u).isNaN then nan
      else (Magnitude.infinity.copySign (ofBits u)).mul (Magnitude.one.copySign (ofBits v))) ∧
    (ofBits u).div (ofBits v).neg = ((ofBits u).div (ofBits v)).neg ∧
    ((ofBits u).isFinite = true → (ofBits v).isFinite = true → (ofBits v).isZero = false →
      if |(ofBits u).value / (ofBits v).value| < Magnitude.limit
      then ((ofBits u).div (ofBits v)).IsNearest ((ofBits u).value / (ofBits v).value)
      else ((ofBits u).div (ofBits v)).isInfinite = true) := by
  refine ⟨fun token h => ?_, divide_eq_div _ _, div_isNaN_iff,
    fun h => ⟨signBit_div h, div_class h⟩, fun h => ?_, div_neg _ _, div_finite⟩
  · rw [← divide_eq_div, applyBinary, h]
    exact ⟨rfl, rfl⟩
  · exact div_zero _ (eq_zero (ofBits v) ▸ h)

/-- The least negative number by the largest one is a negative zero, and infinity by negative zero
is a negative infinity. -/
theorem quotients_signed_at_ends :
    signBit ((ofBits 0x8000000000000001).div (ofBits 0x7fefffffffffffff)).toBits = true ∧
      ((ofBits 0x7ff0000000000000).div (ofBits 0x8000000000000000)).isInfinite = true ∧
      signBit ((ofBits 0x7ff0000000000000).div (ofBits 0x8000000000000000)).toBits = true := by
  obtain ⟨-, -, -, hsmall, -⟩ := quotients_signed 0x8000000000000001 0x7fefffffffffffff
  obtain ⟨-, -, -, hlarge, -⟩ := quotients_signed 0x7ff0000000000000 0x8000000000000000
  obtain ⟨hsign, -⟩ := hsmall (by decide +kernel)
  obtain ⟨hsign', hinfinite, -⟩ := hlarge (by decide +kernel)
  refine ⟨hsign.trans (by decide +kernel), hinfinite (.inr (by decide +kernel)),
    hsign'.trans (by decide +kernel)⟩

end TreeWalk
