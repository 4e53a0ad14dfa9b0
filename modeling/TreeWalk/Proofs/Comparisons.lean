import Mathlib.Order.WithBot
import TreeWalk.Eval.Operation
import TreeWalk.Proofs.Nearest

/-!
# Comparisons follow the exact values

Doubles are compared by their places on the number line. The places are in the order of the exact
values, with an infinity at either end, so the six operators that compare answer as one linear
order does; what is not a number has no place in it and is unequal to everything.

* `Double.extended?` : the exact value among the rationals with two infinities;
* `Double.place_lt_iff`, `Double.extended_lt_iff` : places and extended values are in the order of
  `Double.value`;
* `Double.Related` : both are numbers, and their extended values are related, as `lt`, `le` and `eq`
  decide (`Double.relations_iff`);
* `Operator.Answers`, `Operator.Answered` : the truth values with which the operators answer two
  numbers (`Operator.answered`, `Operator.answers_trans`);
* `comparisons_exact` : the answers by exact values, and the order that they make up.
-/

namespace TreeWalk

theorem infinityRank_pos : 0 < infinityRank := by decide

attribute [local irreducible] binade infinityRank unitsPerOne

/-! ## One order -/

theorem Magnitude.value_pos_iff {m : Magnitude} : 0 < m.value ↔ 0 < m.rank := by
  rw [← Magnitude.value_zero, Magnitude.value_lt_iff]
  rfl

namespace Double

/-- Numbers with signs are in the order of their places. -/
theorem withSign_value_lt_iff (s t : Bool) (m n : Magnitude) :
    withSign s m.value < withSign t n.value ↔
      (if s then -(m.rank : Int) else m.rank) < if t then -(n.rank : Int) else n.rank := by
  have hm := m.value_nonneg
  have hn := n.value_nonneg
  cases s <;> cases t <;> simp only [withSign, if_true, Bool.false_eq_true, if_false]
  · rw [Magnitude.value_lt_iff, Int.ofNat_lt]
  · exact iff_of_false (by linarith) (by omega)
  · -- below each other, unless both are zero
    have hpos : -m.value < n.value ↔ 0 < m.value ∨ 0 < n.value := by
      constructor
      · intro h
        by_contra hne
        push Not at hne
        linarith
      · rintro (h | h) <;> linarith
    rw [hpos, Magnitude.value_pos_iff, Magnitude.value_pos_iff]
    omega
  · rw [neg_lt_neg_iff, neg_lt_neg_iff, Magnitude.value_lt_iff, Int.ofNat_lt]

theorem place_lt_iff {x y : Double} {i j : Int} (hx : x.place = some i) (hy : y.place = some j) :
    i < j ↔ x.value < y.value := by
  cases x with
  | nan => cases hx
  | signed s m =>
    cases y with
    | nan => cases hy
    | signed t n =>
      obtain rfl := Option.some.inj hx
      obtain rfl := Option.some.inj hy
      exact (withSign_value_lt_iff s t m n).symm

/-- The rationals with an infinity at either end. -/
abbrev Extended := WithBot (WithTop ℚ)

/-- The exact value among the rationals with two infinities; none for what is not a number. -/
def extended? : Double → Option Extended
  | .nan => none
  | .signed negative m =>
    if m.isInfinite then some (if negative then ⊥ else ((⊤ : WithTop ℚ) : Extended))
    else some ((withSign negative m.value : WithTop ℚ) : Extended)

theorem extended?_eq_none {x : Double} : x.extended? = none ↔ x.isNaN = true := by
  cases x with
  | nan => exact iff_of_true rfl rfl
  | signed s m =>
    refine iff_of_false ?_ (by simp [isNaN])
    rw [extended?]
    split <;> exact Option.some_ne_none _

theorem exists_place {x : Double} {p : Extended} (h : x.extended? = some p) :
    ∃ i, x.place = some i := by
  cases x with
  | nan => cases h
  | signed s m => exact ⟨_, rfl⟩

theorem value_lt_of_isFinite {m n : Magnitude} (hm : m.isInfinite = false)
    (hn : n.isInfinite = true) (s : Bool) : |withSign s m.value| < n.value := by
  rw [abs_withSign, abs_of_nonneg m.value_nonneg, Magnitude.value_lt_iff,
    Magnitude.isInfinite_iff.1 hn]
  exact Magnitude.isInfinite_eq_false.1 hm

theorem extended_lt_iff {x y : Double} {p q : Extended} (hx : x.extended? = some p)
    (hy : y.extended? = some q) : p < q ↔ x.value < y.value := by
  cases x with
  | nan => cases hx
  | signed s m =>
    cases y with
    | nan => cases hy
    | signed t n =>
      rw [extended?] at hx hy
      cases hm : m.isInfinite <;> cases hn : n.isInfinite <;>
        simp only [hm, hn, if_true, Bool.false_eq_true, if_false, Option.some.injEq] at hx hy <;>
        subst hx hy
      · rw [WithBot.coe_lt_coe, WithTop.coe_lt_coe]
        rfl
      · have := abs_lt.1 (value_lt_of_isFinite hm hn s)
        cases t
        · exact iff_of_true (WithBot.coe_lt_coe.2 (WithTop.coe_lt_top _)) this.2
        · exact iff_of_false not_lt_bot (not_lt.2 this.1.le)
      · have := abs_lt.1 (value_lt_of_isFinite hn hm t)
        cases s
        · exact iff_of_false (by simp) (not_lt.2 this.2.le)
        · exact iff_of_true (WithBot.bot_lt_coe _) this.1
      · -- of two infinities the negative one is below the positive one
        obtain rfl := Magnitude.isInfinite_iff.1 hm
        obtain rfl := Magnitude.isInfinite_iff.1 hn
        have hpos := Magnitude.value_pos_iff (m := .infinity) |>.2 infinityRank_pos
        have hneg : -Magnitude.infinity.value < Magnitude.infinity.value := neg_lt_self hpos
        cases s <;> cases t
        · exact iff_of_false (lt_irrefl _) (lt_irrefl _)
        · exact iff_of_false not_lt_bot hneg.not_gt
        · exact iff_of_true (WithBot.bot_lt_coe _) hneg
        · exact iff_of_false (lt_irrefl _) (lt_irrefl _)

/-- Doubles compare as their extended values. -/
theorem compare_extended {x y : Double} {p q : Extended} (hx : x.extended? = some p)
    (hy : y.extended? = some q) :
    x.lt y = decide (p < q) ∧ x.le y = decide (p ≤ q) ∧ x.eq y = decide (p = q) := by
  obtain ⟨i, hi⟩ := exists_place hx
  obtain ⟨j, hj⟩ := exists_place hy
  have hlt : i < j ↔ p < q := (place_lt_iff hi hj).trans (extended_lt_iff hx hy).symm
  have hgt : j < i ↔ q < p := (place_lt_iff hj hi).trans (extended_lt_iff hy hx).symm
  have hle : i ≤ j ↔ p ≤ q := by rw [← not_lt, hgt, not_lt]
  have hge : j ≤ i ↔ q ≤ p := by rw [← not_lt, hlt, not_lt]
  have heq : i = j ↔ p = q := by rw [le_antisymm_iff, hle, hge, ← le_antisymm_iff]
  simp only [lt, le, eq, hi, hj, Bool.beq_eq_decide_eq, decide_eq_decide]
  exact ⟨hlt, hle, heq⟩

/-- What is not a number is neither below nor equal to anything, nor is anything to it. -/
theorem compare_nan {x y : Double} (h : x.isNaN = true ∨ y.isNaN = true) :
    x.lt y = false ∧ x.le y = false ∧ x.eq y = false := by
  cases x with
  | nan => exact ⟨rfl, rfl, rfl⟩
  | signed s m =>
    cases y with
    | nan => exact ⟨rfl, rfl, rfl⟩
    | signed t n => simp [isNaN] at h

theorem exists_extended {x : Double} (h : x.isNaN = false) : ∃ p, x.extended? = some p := by
  rw [← Option.isSome_iff_exists, Option.isSome_iff_ne_none, Ne, extended?_eq_none, h]
  exact Bool.false_ne_true

section Relations

variable {x y z : Double}

/-- Both are numbers, and their extended values are related. -/
def Related (r : Extended → Extended → Prop) (x y : Double) : Prop :=
  ∃ p ∈ x.extended?, ∃ q ∈ y.extended?, r p q

theorem Related.trans {r : Extended → Extended → Prop} [IsTrans Extended r]
    (hxy : Related r x y) (hyz : Related r y z) : Related r x z := by
  obtain ⟨p, hp, q, hq, hpq⟩ := hxy
  obtain ⟨q', hq', s, hs, hqs⟩ := hyz
  obtain rfl := Option.mem_unique hq hq'
  exact ⟨p, hp, s, hs, trans_of r hpq hqs⟩

theorem Related.swap {r : Extended → Extended → Prop} (h : Related r x y) :
    Related (fun p q => r q p) y x := by
  obtain ⟨p, hp, q, hq, hpq⟩ := h
  exact ⟨q, hq, p, hp, hpq⟩

/-- The relations of doubles are those of their extended values. -/
theorem relations_iff (x y : Double) :
    (x.lt y = true ↔ Related (· < ·) x y) ∧ (x.le y = true ↔ Related (· ≤ ·) x y) ∧
      (x.eq y = true ↔ Related (· = ·) x y) := by
  cases hx : x.extended? with
  | none =>
    obtain ⟨hlt, hle, heq⟩ := compare_nan (y := y) (.inl (extended?_eq_none.1 hx))
    simp [hlt, hle, heq, Related, hx]
  | some p =>
    cases hy : y.extended? with
    | none =>
      obtain ⟨hlt, hle, heq⟩ := compare_nan (x := x) (.inr (extended?_eq_none.1 hy))
      simp [hlt, hle, heq, Related, hy]
    | some q =>
      obtain ⟨hlt, hle, heq⟩ := compare_extended hx hy
      simp [hlt, hle, heq, Related, hx, hy]

theorem le_eq_lt_or_eq (x y : Double) : x.le y = (x.lt y || x.eq y) := by
  obtain ⟨hlt, hle, heq⟩ := relations_iff x y
  rw [Bool.eq_iff_iff, Bool.or_eq_true, hlt, hle, heq]
  constructor
  · rintro ⟨p, hp, q, hq, hpq⟩
    exact hpq.lt_or_eq.imp (⟨p, hp, q, hq, ·⟩) (⟨p, hp, q, hq, ·⟩)
  · rintro (⟨p, hp, q, hq, hpq⟩ | ⟨p, hp, q, hq, hpq⟩)
    · exact ⟨p, hp, q, hq, hpq.le⟩
    · exact ⟨p, hp, q, hq, hpq.le⟩

theorem one_of_lt_eq_gt (x y : Double) :
    (x.lt y).toNat + (x.eq y).toNat + (y.lt x).toNat = if x.isNaN || y.isNaN then 0 else 1 := by
  by_cases hnan : x.isNaN = true ∨ y.isNaN = true
  · obtain ⟨hlt, -, heq⟩ := compare_nan hnan
    rw [hlt, heq, (compare_nan hnan.symm).1, Bool.or_eq_true_iff.2 hnan]
    rfl
  · obtain ⟨hx, hy⟩ := not_or.1 hnan
    rw [Bool.not_eq_true] at hx hy
    obtain ⟨p, hp⟩ := exists_extended hx
    obtain ⟨q, hq⟩ := exists_extended hy
    obtain ⟨hlt, -, heq⟩ := compare_extended hp hq
    rw [hlt, heq, (compare_extended hq hp).1, hx, hy]
    rcases lt_trichotomy p q with h | h | h
    · simp [h, h.ne, h.not_gt]
    · simp [h]
    · simp [h, h.ne', h.not_gt]

end Relations

end Double

/-! ## The operators -/

namespace Operator

/-- Whatever token stands for the operator, it answers two numbers with this truth value. -/
def Answers (op : Operator) (x y : Double) (answer : Bool) : Prop :=
  ∀ token : Object, token.operator? = some op →
    applyBinary token (.value (.number x)) (.value (.number y)) = .ok (.bool answer)

/-- An operator has no two answers. -/
theorem Answers.unique {op : Operator} {x y : Double} {a b : Bool} (ha : op.Answers x y a)
    (hb : op.Answers x y b) : a = b := by
  have htoken : (Object.token (.ofOperator op none 0 none)).operator? = some op := ofName?_name op
  have := (ha _ htoken).symm.trans (hb _ htoken)
  simpa using this

/-- The relation of doubles that an operator decides. -/
def relation? : Operator → Option (Double → Double → Bool)
  | .less => some Double.lt
  | .lessEqual => some Double.le
  | .greater => some fun x y => y.lt x
  | .greaterEqual => some fun x y => y.le x
  | .equalEqual => some Double.eq
  | .bangEqual => some fun x y => !x.eq y
  | _ => none

theorem answers_of_relation? (op : Operator) {r : Double → Double → Bool}
    (h : op.relation? = some r) (x y : Double) : op.Answers x y (r x y) := by
  intro token htoken
  cases op <;> cases h <;> rw [applyBinary, htoken] <;> rfl

theorem Answers.trans {op : Operator} {r : Double → Double → Bool} (h : op.relation? = some r)
    {related : Double.Extended → Double.Extended → Prop} [IsTrans Double.Extended related]
    (hr : ∀ x y, r x y = true ↔ Double.Related related x y) {x y z : Double}
    (hxy : op.Answers x y true) (hyz : op.Answers y z true) : op.Answers x z true := by
  have hanswers := op.answers_of_relation? h
  have hchain := ((hr x y).1 ((hanswers x y).unique hxy)).trans
    ((hr y z).1 ((hanswers y z).unique hyz))
  exact (hr x z).2 hchain ▸ hanswers x z

/-- The answers of the six operators that compare: to `<`, `<=`, `>`, `>=`, `==` and `!=`. -/
structure Answered (x y : Double) (lt le gt ge eq ne : Bool) : Prop where
  less : less.Answers x y lt
  lessEqual : lessEqual.Answers x y le
  greater : greater.Answers x y gt
  greaterEqual : greaterEqual.Answers x y ge
  equalEqual : equalEqual.Answers x y eq
  bangEqual : bangEqual.Answers x y ne

theorem answered (x y : Double) :
    Answered x y (x.lt y) (x.le y) (y.lt x) (y.le x) (x.eq y) (!x.eq y) where
  less := answers_of_relation? _ rfl x y
  lessEqual := answers_of_relation? _ rfl x y
  greater := answers_of_relation? .greater rfl x y
  greaterEqual := answers_of_relation? .greaterEqual rfl x y
  equalEqual := answers_of_relation? _ rfl x y
  bangEqual := answers_of_relation? .bangEqual rfl x y

/-- The operators that can hold along a chain of numbers. -/
theorem answers_trans {op : Operator}
    (h : op ∈ [less, lessEqual, greater, greaterEqual, equalEqual]) {x y z : Double}
    (hxy : op.Answers x y true) (hyz : op.Answers y z true) : op.Answers x z true := by
  have hgreater (x y : Double) : y.lt x = true ↔ Double.Related (· > ·) x y :=
    (Double.relations_iff y x).1.trans ⟨Double.Related.swap, Double.Related.swap⟩
  have hgreaterEqual (x y : Double) : y.le x = true ↔ Double.Related (· ≥ ·) x y :=
    (Double.relations_iff y x).2.1.trans ⟨Double.Related.swap, Double.Related.swap⟩
  simp only [List.mem_cons, List.not_mem_nil, or_false] at h
  obtain rfl | rfl | rfl | rfl | rfl := h
  · exact Answers.trans rfl (fun x y => (Double.relations_iff x y).1) hxy hyz
  · exact Answers.trans rfl (fun x y => (Double.relations_iff x y).2.1) hxy hyz
  · exact Answers.trans rfl hgreater hxy hyz
  · exact Answers.trans rfl hgreaterEqual hxy hyz
  · exact Answers.trans rfl (fun x y => (Double.relations_iff x y).2.2) hxy hyz

end Operator

open Operator Double

/-- **The six operators that compare follow one order.** Two numbers are compared by their exact
values, with an infinity below and one above all finite ones, and what is not a number is unequal to
everything and not comparable. So of two numbers one of `<`, `==` and `>` holds, of which the other
operators are made up, and along a chain of numbers each operator but `!=` is transitive. -/
theorem comparisons_exact (u v w : UInt64) :
    ((ofBits u).isNaN = false → (ofBits v).isNaN = false → ∃ p q,
      (ofBits u).extended? = some p ∧ (ofBits v).extended? = some q ∧
      Answered (ofBits u) (ofBits v) (p < q) (p ≤ q) (p > q) (p ≥ q) (p = q) (p ≠ q)) ∧
    ((ofBits u).isNaN = true ∨ (ofBits v).isNaN = true →
      Answered (ofBits u) (ofBits v) false false false false false true) ∧
    (∃ lt eq gt : Bool, Answered (ofBits u) (ofBits v) lt (lt || eq) gt (gt || eq) eq (!eq) ∧
      lt.toNat + eq.toNat + gt.toNat =
        if (ofBits u).isNaN || (ofBits v).isNaN then 0 else 1) ∧
    ∀ op ∈ [less, lessEqual, greater, greaterEqual, equalEqual],
      op.Answers (ofBits u) (ofBits v) true → op.Answers (ofBits v) (ofBits w) true →
        op.Answers (ofBits u) (ofBits w) true := by
  generalize ofBits u = x, ofBits v = y, ofBits w = z
  have hanswered := answered x y
  refine ⟨fun hx hy => ?_, fun hnan => ?_, ?_, fun op hop hxy hyz => answers_trans hop hxy hyz⟩
  · obtain ⟨p, hp⟩ := exists_extended hx
    obtain ⟨q, hq⟩ := exists_extended hy
    obtain ⟨hlt, hle, heq⟩ := compare_extended hp hq
    obtain ⟨hgt, hge, -⟩ := compare_extended hq hp
    rw [hlt, hle, hgt, hge, heq, ← decide_not] at hanswered
    exact ⟨p, q, hp, hq, hanswered⟩
  · obtain ⟨hlt, hle, heq⟩ := compare_nan hnan
    obtain ⟨hgt, hge, -⟩ := compare_nan hnan.symm
    rwa [hlt, hle, hgt, hge, heq] at hanswered
  · refine ⟨x.lt y, x.eq y, y.lt x, ?_, one_of_lt_eq_gt x y⟩
    rwa [le_eq_lt_or_eq x y, le_eq_lt_or_eq y x, Double.eq_comm y x] at hanswered

/-- The negative infinity is below zero by way of the greatest negative number, the two zeros
compare by one value, and what is not a number differs from itself. -/
theorem comparisons_exact_at_ends :
    less.Answers (ofBits 0xfff0000000000000) (ofBits 0) true ∧
      (∃ p q, (ofBits 0x8000000000000000).extended? = some p ∧ (ofBits 0).extended? = some q ∧
        equalEqual.Answers (ofBits 0x8000000000000000) (ofBits 0) (p = q)) ∧
      bangEqual.Answers (ofBits 0x7ff8000000000000) (ofBits 0x7ff8000000000000) true := by
  have hless (u v : UInt64) (h : (ofBits u).lt (ofBits v) = true) :
      less.Answers (ofBits u) (ofBits v) true := h ▸ (answered _ _).less
  obtain ⟨-, -, -, hchain⟩ := comparisons_exact 0xfff0000000000000 0x8000000000000001 0
  obtain ⟨hnumbers, -⟩ := comparisons_exact 0x8000000000000000 0 0
  obtain ⟨-, hnan, -⟩ := comparisons_exact 0x7ff8000000000000 0x7ff8000000000000 0
  obtain ⟨p, q, hp, hq, hanswered⟩ := hnumbers (by decide +kernel) (by decide +kernel)
  refine ⟨hchain less (by decide) (hless _ _ ?_) (hless _ _ ?_),
    ⟨p, q, hp, hq, hanswered.equalEqual⟩, (hnan (.inl (by decide +kernel))).bangEqual⟩
  · decide +kernel
  · decide +kernel

end TreeWalk
