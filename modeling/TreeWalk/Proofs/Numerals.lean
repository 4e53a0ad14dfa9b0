import Mathlib.Data.List.TakeWhile
import TreeWalk.Decimal.Layout
import TreeWalk.Object.Render
import TreeWalk.Proofs.Decimals
import TreeWalk.Proofs.Words

/-!
# The texts of decimals are numerals

A numeral is a sign, digits, perhaps digits behind a point, and perhaps an exponent. The text of a
decimal is one, with the value of the decimal: zeros at the end of the digits are dropped and the
point is moved instead.

* `Numeral` : a numeral in its parts, with its text and the decimal that it denotes;
* `Significant` : digits without zeros at their end, as they are laid out (`significant_trimZeros`);
* `Numeral.behindPoint`, `Numeral.aroundPoint`, `Numeral.beforePoint` : where the point may stand;
* `Layout.exists_numeral` : the text of a decimal is a numeral of the same value.
-/

namespace TreeWalk

attribute [local instance (high)] instPowNat
attribute [local irreducible] binade infinityRank unitsPerOne

/-! ## Numerals -/

/-- One digit or more. -/
structure IsDigits (cs : List Char) : Prop where
  ne_nil : cs ≠ []
  isDigit : ∀ c ∈ cs, c.isDigit = true

/-- A numeral: a sign, digits, digits behind a point and an exponent. There is no point without
digits behind it, and these do not end in a zero. -/
structure Numeral where
  negative : Bool
  whole : List Char
  fraction : List Char
  /-- Whether the exponent is negative, and its digits. -/
  exponent : Option (Bool × List Char)
  isDigits_whole : IsDigits whole
  isDigit_fraction : ∀ c ∈ fraction, c.isDigit = true
  getLast_fraction : fraction.getLast? ≠ some '0'
  isDigits_exponent : ∀ e ∈ exponent, IsDigits e.2

namespace Numeral

def signText (negative : Bool) : List Char := if negative then ['-'] else []

def fractionText (fraction : List Char) : List Char :=
  if fraction.isEmpty then [] else '.' :: fraction

def exponentText : Option (Bool × List Char) → List Char
  | none => []
  | some (negative, digits) => 'e' :: (if negative then '-' else '+') :: digits

/-- The text without the sign. -/
def body (n : Numeral) : List Char :=
  n.whole ++ (fractionText n.fraction ++ exponentText n.exponent)

def text (n : Numeral) : List Char := signText n.negative ++ n.body

/-- The characters of a numeral are digits and four marks. -/
theorem mem_text {n : Numeral} {c : Char} (h : c ∈ n.text) :
    c.isDigit = true ∨ c = '-' ∨ c = '+' ∨ c = '.' ∨ c = 'e' := by
  simp only [text, body, List.mem_append] at h
  obtain h | h | h | h := h
  · cases hneg : n.negative <;> simp_all [signText]
  · exact .inl (n.isDigits_whole.isDigit c h)
  · cases hfraction : n.fraction with
    | nil => simp [hfraction, fractionText] at h
    | cons d rest =>
      have hdigits := n.isDigit_fraction c
      rw [hfraction] at h hdigits
      obtain rfl | h := List.mem_cons.1 h
      · simp
      · exact .inl (hdigits h)
  · cases hexponent : n.exponent with
    | none => simp [hexponent, exponentText] at h
    | some e =>
      have hdigits := (n.isDigits_exponent e hexponent).isDigit c
      rw [hexponent] at h
      obtain rfl | h := List.mem_cons.1 h
      · simp
      · obtain rfl | h := List.mem_cons.1 h
        · split <;> simp
        · exact .inl (hdigits h)

/-- The power of ten that an exponent stands for. -/
def power : Option (Bool × List Char) → Int
  | none => 0
  | some (negative, digits) =>
    if negative then -(Nat.ofDigitChars 10 digits 0 : Int) else Nat.ofDigitChars 10 digits 0

/-- The decimal that a numeral denotes, without its sign. -/
def decimal (n : Numeral) : Decimal where
  coefficient := Nat.ofDigitChars 10 (n.whole ++ n.fraction) 0
  exponent := power n.exponent - n.fraction.length

/-- The exact number that a numeral denotes. -/
def value (n : Numeral) : ℚ := withSign n.negative n.decimal.value

end Numeral

/-! ## Digits -/

namespace Layout

theorem magnitude_of_finite {m : Magnitude} (hm : m.isInfinite = false) :
    value.magnitude m = value.decimal (Decimal.shortest m) := by
  rw [magnitude, hm, if_neg Bool.false_ne_true]

theorem trimZeros_append (digits : List Char) :
    ∃ zeros, digits = trimZeros digits ++ List.replicate zeros '0' := by
  have hzeros : (digits.reverse.takeWhile (· == '0')) =
      List.replicate (digits.reverse.takeWhile (· == '0')).length '0' := by
    rw [List.eq_replicate_iff]
    exact ⟨rfl, fun c hc => by simpa using List.mem_takeWhile_imp hc⟩
  refine ⟨(digits.reverse.takeWhile (· == '0')).length, ?_⟩
  have hsplit := congrArg List.reverse
    (List.takeWhile_append_dropWhile (p := (· == '0')) (l := digits.reverse))
  rw [List.reverse_reverse, List.reverse_append, hzeros, List.reverse_replicate] at hsplit
  exact hsplit.symm

theorem getLast_trimZeros (digits : List Char) : (trimZeros digits).getLast? ≠ some '0' := by
  have hhead := List.head?_dropWhile_not (· == '0') digits.reverse
  rw [trimZeros, List.getLast?_reverse]
  intro h
  rw [h] at hhead
  simp at hhead

theorem mem_of_mem_trimZeros {digits : List Char} {c : Char} (h : c ∈ trimZeros digits) :
    c ∈ digits := by
  rw [trimZeros, List.mem_reverse] at h
  exact List.mem_reverse.1 (List.dropWhile_subset _ h)

end Layout

/-- Significant digits: those of a positive number without the zeros at their end. -/
structure Significant (digits : List Char) : Prop extends IsDigits digits where
  getLast : digits.getLast? ≠ some '0'

theorem isDigits_toDigits (n : Nat) : IsDigits (Nat.toDigits 10 n) :=
  ⟨Nat.toDigits_ne_nil, fun _ => Nat.isDigit_of_mem_toDigits (by decide) (by decide)⟩

theorem isDigits_padded (width n : Nat) : IsDigits (Layout.padded width n) := by
  constructor
  · simp [Layout.padded]
  · intro c hc
    rw [Layout.padded, List.mem_append, List.mem_replicate] at hc
    obtain ⟨-, rfl⟩ | hc := hc
    · rfl
    · exact (isDigits_toDigits n).isDigit c hc

theorem ofDigitChars_append_replicate (digits : List Char) (zeros : Nat) :
    Nat.ofDigitChars 10 (digits ++ List.replicate zeros '0') 0 =
      Nat.ofDigitChars 10 digits 0 * 10 ^ zeros := by
  rw [Nat.ofDigitChars_append, Nat.ofDigitChars_replicate_zero, Nat.mul_comm]

theorem ofDigitChars_replicate_append (zeros : Nat) (digits : List Char) :
    Nat.ofDigitChars 10 (List.replicate zeros '0' ++ digits) 0 = Nat.ofDigitChars 10 digits 0 := by
  rw [Nat.ofDigitChars_append, Nat.ofDigitChars_replicate_zero, Nat.mul_zero]

theorem ofDigitChars_padded (width n : Nat) :
    Nat.ofDigitChars 10 (Layout.padded width n) 0 = n := by
  rw [Layout.padded, ofDigitChars_replicate_append, Nat.ofDigitChars_ten_toDigits]

theorem significant_trimZeros {n : Nat} (h : n ≠ 0) :
    Significant (Layout.trimZeros (Nat.toDigits 10 n)) := by
  obtain ⟨zeros, hsplit⟩ := Layout.trimZeros_append (Nat.toDigits 10 n)
  refine ⟨⟨fun hnil => h ?_, fun c hc => ?_⟩, Layout.getLast_trimZeros _⟩
  · have := congrArg (Nat.ofDigitChars 10 · 0) hsplit
    simp only [Nat.ofDigitChars_ten_toDigits, hnil, ofDigitChars_append_replicate] at this
    simpa using this
  · exact (isDigits_toDigits n).isDigit c (Layout.mem_of_mem_trimZeros hc)

theorem Numeral.power_padded (width : Nat) (e : Int) :
    power (some (decide (e < 0), Layout.padded width e.natAbs)) = e := by
  simp only [power, ofDigitChars_padded, decide_eq_true_eq]
  split <;> omega

/-- Zeros at the end of the coefficient move the point only. -/
theorem value_trimZeros (d : Decimal) :
    let all := Nat.toDigits 10 d.coefficient
    Decimal.value ⟨Nat.ofDigitChars 10 (Layout.trimZeros all) 0,
      all.length + d.exponent - (Layout.trimZeros all).length⟩ = d.value := by
  intro all
  obtain ⟨zeros, hsplit⟩ := Layout.trimZeros_append all
  have hlength : all.length = (Layout.trimZeros all).length + zeros := by
    rw [congrArg List.length hsplit, List.length_append, List.length_replicate]
  have hcoefficient :
      d.coefficient = Nat.ofDigitChars 10 (Layout.trimZeros all) 0 * 10 ^ zeros := by
    rw [← ofDigitChars_append_replicate, ← hsplit, Nat.ofDigitChars_ten_toDigits]
  have hexponent : (all.length : Int) + d.exponent - (Layout.trimZeros all).length =
      zeros + d.exponent := by omega
  rw [Decimal.value, Decimal.value, hexponent, hcoefficient, zpow_add₀ (by norm_num), Nat.cast_mul,
    Nat.cast_pow, Nat.cast_ofNat, zpow_natCast, mul_assoc]

/-! ## Three forms of numerals -/

namespace Numeral

variable (s : Bool) {digits : List Char} (h : Significant digits)

/-- The digits behind the point, with zeros in front of them. -/
def behindPoint (zeros : Nat) : Numeral where
  negative := s
  whole := ['0']
  fraction := List.replicate zeros '0' ++ digits
  exponent := none
  isDigits_whole := ⟨by simp, by simp⟩
  isDigit_fraction := by
    intro c hc
    rw [List.mem_append, List.mem_replicate] at hc
    obtain ⟨-, rfl⟩ | hc := hc
    · rfl
    · exact h.isDigit c hc
  getLast_fraction := by
    rw [List.getLast?_append_of_ne_nil _ h.ne_nil]
    exact h.getLast
  isDigits_exponent := by simp

/-- The point after the first digits, and perhaps an exponent. -/
def aroundPoint (point : Nat) (hpoint : 0 < point) (exponent : Option (Bool × List Char))
    (hexponent : ∀ e ∈ exponent, IsDigits e.2) : Numeral where
  negative := s
  whole := digits.take point
  fraction := digits.drop point
  exponent := exponent
  isDigits_whole := by
    refine ⟨fun hnil => ?_, fun c hc => h.isDigit c (List.mem_of_mem_take hc)⟩
    obtain hzero | hnil := List.take_eq_nil_iff.1 hnil
    · exact hpoint.ne' hzero
    · exact h.ne_nil hnil
  isDigit_fraction := fun c hc => h.isDigit c (List.mem_of_mem_drop hc)
  getLast_fraction := by
    rw [List.getLast?_drop]
    split
    · simp
    · exact h.getLast
  isDigits_exponent := hexponent

/-- The digits before the point, with zeros behind them. -/
def beforePoint (h : IsDigits digits) (zeros : Nat) : Numeral where
  negative := s
  whole := digits ++ List.replicate zeros '0'
  fraction := []
  exponent := none
  isDigits_whole := by
    refine ⟨by simp [h.ne_nil], fun c hc => ?_⟩
    rw [List.mem_append, List.mem_replicate] at hc
    obtain hc | ⟨-, rfl⟩ := hc
    · exact h.isDigit c hc
    · rfl
  isDigit_fraction := by simp
  getLast_fraction := by simp
  isDigits_exponent := by simp

/-- Zeros around digits move the point only. -/
theorem value_decimal (n : Numeral) (digits : List Char) (before behind : Nat)
    (h : n.whole ++ n.fraction =
      List.replicate before '0' ++ (digits ++ List.replicate behind '0')) :
    n.decimal.value = Decimal.value
      ⟨Nat.ofDigitChars 10 digits 0, power n.exponent - n.fraction.length + behind⟩ := by
  rw [decimal, h, ofDigitChars_replicate_append, ofDigitChars_append_replicate, Decimal.value,
    Decimal.value, Nat.cast_mul, Nat.cast_pow, Nat.cast_ofNat, ← zpow_natCast, mul_assoc,
    ← zpow_add₀ (by norm_num), Int.add_comm]

end Numeral

/-! ## Numerals of decimals -/

namespace Layout

open Numeral

variable (s : Bool) {digits : List Char} (h : Significant digits)

include h

theorem exists_numeral_inPlace (point : Int) : ∃ n : Numeral, n.negative = s ∧
    n.body = value.inPlace digits point ∧ n.exponent = none ∧
    n.decimal.value = Decimal.value ⟨Nat.ofDigitChars 10 digits 0, point - digits.length⟩ := by
  unfold inPlace
  split
  · next hpoint =>
    refine ⟨behindPoint s h (-point).toNat, rfl, ?_, rfl, ?_⟩
    · simp [behindPoint, body, fractionText, exponentText, h.ne_nil]
    · rw [value_decimal _ digits ((-point).toNat + 1) 0
        (by simp [behindPoint, List.replicate_succ])]
      congr 2
      simp only [behindPoint, power, List.length_append, List.length_replicate]
      omega
  · split
    · next hpoint hlength =>
      refine ⟨aroundPoint s h point.toNat (by omega) none (by simp), rfl, ?_, rfl, ?_⟩
      · have : ¬ digits.length ≤ point.toNat := by omega
        simp [aroundPoint, body, fractionText, exponentText, this]
      · rw [value_decimal _ digits 0 0 (by simp [aroundPoint])]
        congr 2
        simp only [aroundPoint, power, List.length_drop]
        omega
    · next hpoint hlength =>
      refine ⟨beforePoint s h.toIsDigits (point.toNat - digits.length), rfl, ?_, rfl, ?_⟩
      · simp [beforePoint, body, fractionText, exponentText, value]
      · rw [value_decimal _ digits 0 (point.toNat - digits.length) (by simp [beforePoint])]
        congr 2
        simp only [beforePoint, power, List.length_nil]
        omega

theorem exists_numeral_scientific (exponent : Int) : ∃ n : Numeral, n.negative = s ∧
    n.body = value.scientific digits exponent ∧ power n.exponent = exponent ∧
    n.decimal.value =
      Decimal.value ⟨Nat.ofDigitChars 10 digits 0, exponent + 1 - digits.length⟩ := by
  refine ⟨aroundPoint s h 1 Nat.one_pos (some (exponent < 0, padded 2 exponent.natAbs))
    (by simp [isDigits_padded]), rfl, ?_, power_padded 2 exponent, ?_⟩
  · simp [aroundPoint, body, fractionText, exponentText, scientific, value]
  · have hlength := List.length_pos_iff.2 h.ne_nil
    have hsplit := List.take_append_drop 1 digits
    rw [value_decimal _ digits 0 0 (by simpa [aroundPoint] using hsplit)]
    congr 2
    simp only [aroundPoint, power_padded, List.length_drop]
    omega

omit h in
/-- The text of a decimal is a numeral of the same value, whose exponent, if it has one, is that of
the leading digit. -/
theorem exists_numeral (d : Decimal) : ∃ n : Numeral, n.negative = s ∧
    n.body = value.decimal d ∧ n.decimal.value = d.value ∧
    (n.exponent = none ∨ d.coefficient ≠ 0 ∧
      power n.exponent = (Nat.toDigits 10 d.coefficient).length + d.exponent - 1) := by
  unfold decimal
  split
  · next hzero =>
    have hdigits : IsDigits ['0'] := ⟨by simp, by simp⟩
    refine ⟨beforePoint s hdigits 0, rfl, ?_, ?_, .inl rfl⟩
    · simp [beforePoint, body, fractionText, exponentText, inPlace, value]
    · have hcoefficient : (beforePoint s hdigits 0).decimal.coefficient = 0 := rfl
      rw [Decimal.value, Decimal.value, hzero, hcoefficient, Nat.cast_zero, zero_mul, zero_mul]
  · next hpos =>
    have hdigits := significant_trimZeros hpos
    have hvalue := value_trimZeros d
    dsimp only at hvalue ⊢
    split
    · obtain ⟨n, hsign, htext, hexponent, hn⟩ := exists_numeral_inPlace s hdigits
        ((Nat.toDigits 10 d.coefficient).length + d.exponent)
      exact ⟨n, hsign, htext, hn.trans hvalue, .inl hexponent⟩
    · obtain ⟨n, hsign, htext, hexponent, hn⟩ := exists_numeral_scientific s hdigits
        ((Nat.toDigits 10 d.coefficient).length + d.exponent - 1)
      rw [Int.sub_add_cancel] at hn
      exact ⟨n, hsign, htext, hn.trans hvalue, .inr ⟨hpos, hexponent⟩⟩

end Layout

end TreeWalk
