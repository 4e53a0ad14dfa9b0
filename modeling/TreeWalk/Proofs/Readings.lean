import TreeWalk.Blueprint
import TreeWalk.Proofs.Numerals
import TreeWalk.Proofs.Shortest

/-!
# The texts of numbers read back

A numeral is read as the decimal that it denotes, and the text of a number is a numeral that is
rounded to it. So the text is read as the number, and the number can be told from its text.

* `Decimal.read?_body`, `Double.read?_text` : numerals are read as what they denote;
* `Double.read?_double`, `Value.numberOf_double` : the text of a double is read as the double;
* `Layout.double_injective` : doubles with the same text are the same; `Double.ofBits_inj` : words
  of the same number are the same;
* `Layout.double_eq_trimWhole` : the text of a finite number from the plain one;
* `Numeral.StandsFor` : a numeral to which one double is nearest, that whose text it is
  (`Double.exists_standsFor`);
* `number_texts_round_trip` : what the text of a double is, and that it determines the double.
-/

namespace TreeWalk

attribute [local instance (high)] instPowNat
attribute [local irreducible] binade infinityRank unitsPerOne

theorem takeWhile_isDigit {digits rest : List Char} (h : ∀ c ∈ digits, c.isDigit = true)
    (hrest : ∀ c ∈ rest.head?, c.isDigit = false) :
    (digits ++ rest).takeWhile Char.isDigit = digits ∧
      (digits ++ rest).dropWhile Char.isDigit = rest := by
  rw [List.takeWhile_append_of_pos h, List.dropWhile_append_of_pos h]
  cases rest with
  | nil => simp
  | cons c rest =>
    have := hrest c rfl
    simp [this]

namespace Decimal

theorem readDigits?_eq {digits : List Char} (h : IsDigits digits) :
    readDigits? digits = some (Nat.ofDigitChars 10 digits 0) :=
  if_pos ⟨h.ne_nil, List.all_eq_true.2 h.isDigit⟩

theorem readExponent?_text {exponent : Option (Bool × List Char)}
    (h : ∀ e ∈ exponent, IsDigits e.2) :
    readExponent? (Numeral.exponentText exponent) = some (Numeral.power exponent) := by
  cases exponent with
  | none => rfl
  | some e =>
    obtain ⟨negative, digits⟩ := e
    have hread := readDigits?_eq (h _ rfl)
    cases negative <;> simp [Numeral.exponentText, readExponent?, Numeral.power, hread]

theorem fractionOf_text {fraction rest : List Char} (h : ∀ c ∈ fraction, c.isDigit = true)
    (hrest : ∀ c ∈ rest.head?, c.isDigit = false ∧ c ≠ '.') :
    fractionOf (Numeral.fractionText fraction ++ rest) = (fraction, rest) := by
  cases fraction with
  | nil =>
    cases rest with
    | nil => rfl
    | cons c rest =>
      change fractionOf (c :: rest) = ([], c :: rest)
      unfold fractionOf
      split
      · next heq => exact absurd (List.cons.inj heq).1 (hrest c rfl).2
      · rfl
  | cons c fraction =>
    obtain ⟨htake, hdrop⟩ := takeWhile_isDigit h fun c hc => (hrest c hc).1
    rw [Numeral.fractionText, if_neg (by simp), List.cons_append, fractionOf, htake, hdrop]

/-- A numeral is read as the decimal that it denotes. -/
theorem read?_body (n : Numeral) : read? n.body = some n.decimal := by
  have hexponent : ∀ c ∈ (Numeral.exponentText n.exponent).head?,
      c.isDigit = false ∧ c ≠ '.' := by
    cases n.exponent <;> simp [Numeral.exponentText]
  have hbehind : ∀ c ∈ (Numeral.fractionText n.fraction ++
      Numeral.exponentText n.exponent).head?, c.isDigit = false := by
    cases n.fraction with
    | nil => exact fun c hc => (hexponent c hc).1
    | cons c fraction => simp [Numeral.fractionText]
  obtain ⟨htake, hdrop⟩ := takeWhile_isDigit n.isDigits_whole.isDigit hbehind
  have hfraction := fractionOf_text n.isDigit_fraction hexponent
  have hdigits : (n.whole ++ n.fraction).isEmpty = false := by
    simp [n.isDigits_whole.ne_nil]
  rw [read?, Numeral.body, htake, hdrop, hfraction]
  simp only [hdigits, Bool.false_eq_true, if_false, readExponent?_text n.isDigits_exponent,
    Option.map_some, Numeral.decimal]

end Decimal

namespace Double

theorem joinDigits?_of_not_mem {cs : List Char} (h : '_' ∉ cs) (afterDigit : Bool) :
    joinDigits? afterDigit cs = some cs := by
  induction cs generalizing afterDigit with
  | nil => rfl
  | cons c cs ih =>
    rw [List.mem_cons, not_or] at h
    rw [joinDigits?, if_neg (Ne.symm h.1), ih h.2, Option.map_some]

theorem toLower_of_isDigit {c : Char} (h : c.isDigit = true) : c.toLower = c := by
  have hhigh : c.val ≤ 57 := UInt32.le_iff_toNat_le.2 (Char.isDigit_iff_toNat.1 h).2
  have hletter : ¬(65 ≤ c.val ∧ c.val ≤ 90) := fun ⟨hlow, _⟩ =>
    absurd (UInt32.le_trans hlow hhigh) (by decide)
  exact dif_neg hletter

/-- A text that begins with a digit is no word. -/
theorem ofList_toLower_ne {cs : List Char} {word : String}
    (hcs : ∃ c ∈ cs.head?, c.isDigit = true)
    (hword : ∀ c ∈ word.toList.head?, c.isDigit = false) :
    String.ofList (cs.map Char.toLower) ≠ word := by
  rintro rfl
  obtain ⟨c, hc, hdigit⟩ := hcs
  cases cs with
  | nil => cases hc
  | cons d rest =>
    obtain rfl := Option.some.inj hc
    rw [String.toList_ofList, List.map_cons, toLower_of_isDigit hdigit] at hword
    cases hdigit.symm.trans (hword d rfl)

theorem isDigit_head_body (n : Numeral) : ∃ c ∈ n.body.head?, c.isDigit = true := by
  obtain ⟨c, rest, hwhole⟩ := List.exists_cons_of_ne_nil n.isDigits_whole.ne_nil
  refine ⟨c, ?_, n.isDigits_whole.isDigit c (hwhole ▸ List.mem_cons_self ..)⟩
  rw [Numeral.body, hwhole]
  rfl

theorem readUnsigned?_body (s : Bool) (n : Numeral) :
    readUnsigned? s n.body = some (.signed s (n.decimal.clamp n.body.length).magnitude) := by
  have hword (word : String) (h : ∀ c ∈ word.toList.head?, c.isDigit = false) :=
    ofList_toLower_ne (isDigit_head_body n) h
  rw [readUnsigned?, if_neg, if_neg (hword "nan" (by simp)), Decimal.read?_body, Option.map_some]
  rintro (hinf | hinf)
  · exact hword "inf" (by simp) hinf
  · exact hword "infinity" (by simp) hinf

theorem read?_text (n : Numeral) :
    read? n.text = some (.signed n.negative (n.decimal.clamp n.body.length).magnitude) := by
  have hmark : '_' ∉ n.text := by
    intro h
    have := Numeral.mem_text h
    simp at this
  have hcommon : n.text.map Text.commonDigit = n.text := by
    refine Text.map_commonDigit fun c hc => ?_
    obtain hdigit | rfl | rfl | rfl | rfl := Numeral.mem_text hc
    · have hhigh : c.toNat ≤ 57 := (Char.isDigit_iff_toNat.1 hdigit).2
      omega
    all_goals decide
  obtain ⟨c, hc, hdigit⟩ := isDigit_head_body n
  rw [read?, hcommon, joinDigits?_of_not_mem hmark, Option.bind_some, ← readUnsigned?_body,
    Numeral.text]
  cases n.negative with
  | true => rfl
  | false =>
    cases hbody : n.body with
    | nil => rw [hbody] at hc; cases hc
    | cons d rest =>
      rw [hbody] at hc
      obtain rfl := Option.some.inj hc
      rw [Numeral.signText, if_neg Bool.false_ne_true, List.nil_append]
      split
      · next heq =>
        obtain ⟨rfl, -⟩ := List.cons.inj heq
        cases hdigit
      · next heq =>
        obtain ⟨rfl, -⟩ := List.cons.inj heq
        cases hdigit
      · rfl

end Double

/-! ## Numbers and their texts -/

theorem Numeral.length_fraction_le (n : Numeral) : n.fraction.length ≤ n.body.length := by
  rw [body, fractionText]
  split
  · next hempty =>
    rw [List.isEmpty_iff.1 hempty]
    exact Nat.zero_le _
  · simp only [List.length_append, List.length_cons]
    omega

/-- An exponent within the bounds is read as it stands. -/
theorem Decimal.clamp_eq_self {d : Decimal} {length : Nat} (hlow : -2000 - length ≤ d.exponent)
    (hhigh : d.exponent ≤ 2000) : d.clamp length = d := by
  rw [clamp, min_eq_right hhigh, max_eq_right hlow]

namespace Layout

/-- The text of a finite number is a numeral of its shortest decimal, with an exponent that is read
as it stands. -/
theorem exists_numeral_magnitude (s : Bool) {m : Magnitude} (hm : m.isInfinite = false) :
    ∃ n : Numeral, n.negative = s ∧ n.body = value.magnitude m ∧
      n.decimal.value = (Decimal.shortest m).value ∧
      n.decimal.clamp n.body.length = n.decimal := by
  obtain ⟨n, hsign, hbody, hvalue, hexponent⟩ := exists_numeral s (Decimal.shortest m)
  have hreads := Decimal.magnitude_shortest m
  have hlow := Decimal.finest_le_exponent_shortest m
  rw [← magnitude_of_finite hm] at hbody
  generalize Decimal.shortest m = d at *
  have hlength := n.length_fraction_le
  have hbounds : -1074 ≤ Numeral.power n.exponent ∧ Numeral.power n.exponent ≤ 308 := by
    obtain hnone | ⟨hpos, hpower⟩ := hexponent
    · rw [hnone]
      decide
    · have hhigh := Decimal.length_add_exponent_le hpos (hreads.symm ▸ hm)
      have hone := Decimal.length_toDigits_pos d.coefficient
      omega
  refine ⟨n, hsign, hbody, hvalue, Decimal.clamp_eq_self ?_ ?_⟩
  · change _ ≤ Numeral.power n.exponent - n.fraction.length
    omega
  · change Numeral.power n.exponent - n.fraction.length ≤ _
    omega

theorem double_signed {s : Bool} {m : Magnitude} {n : Numeral} (hsign : n.negative = s)
    (hbody : n.body = value.magnitude m) :
    value.double (.signed s m) = String.ofList n.text := by
  rw [double, Numeral.text, hbody, hsign]
  rfl

end Layout

/-- The text of a number is read as the number. -/
theorem Double.read?_double (x : Double) : read? (Layout.value.double x).toList = some x := by
  cases x with
  | nan => decide
  | signed s m =>
    cases hm : m.isInfinite with
    | true =>
      obtain rfl := Magnitude.isInfinite_iff.1 hm
      cases s <;> decide +kernel
    | false =>
      obtain ⟨n, hsign, hbody, hvalue, hclamp⟩ := Layout.exists_numeral_magnitude s hm
      rw [Layout.double_signed hsign hbody, String.toList_ofList, read?_text, hclamp,
        Decimal.magnitude_eq_ofRat, hvalue, Decimal.ofRat_value_shortest, hsign]

/-- Doubles with the same text are the same. -/
theorem Layout.double_injective : Function.Injective value.double := by
  intro x y h
  have hx := Double.read?_double x
  rw [h, Double.read?_double] at hx
  exact (Option.some.inj hx).symm

theorem Layout.double_infinity (s : Bool) :
    value.double (.infinity s) = if s then "-Infinity" else "Infinity" := by
  have hm : Magnitude.infinity.isInfinite = true := Magnitude.isInfinite_iff.2 rfl
  cases s <;> simp [double, Double.infinity, magnitude, hm, value]

/-! ## Texts as numbers -/

theorem Layout.isSpacing_of_isNumberChar {c : Char} (h : isNumberChar c = true) :
    Text.isSpacing c = false := by
  rw [isNumberChar, Bool.or_eq_true] at h
  have hblank : Text.isBlank c = false := by
    obtain hdigit | hmark := h
    · have hlow : 48 ≤ c.toNat := (Char.isDigit_iff_toNat.1 hdigit).1
      have hhigh : c.toNat ≤ 57 := (Char.isDigit_iff_toNat.1 hdigit).2
      simp only [Text.isBlank, Text.blankRanges, List.any_cons, List.any_nil]
      simp
      omega
    · have hmarks : ∀ c ∈ ".e+-NaInfity".toList, (!Text.isBlank c) = true :=
        List.all_eq_true.1 (by decide)
      simpa using hmarks c (List.contains_iff_mem.1 hmark)
  rw [Text.isSpacing, hblank, Bool.false_and]

theorem Value.numberOf_double (x : Double) :
    numberOf (.plain (.text (Layout.value.double x))) = .ok (.number x) := by
  have htrim : Text.trim Text.isSpacing (Layout.value.double x).toList =
      (Layout.value.double x).toList :=
    Text.trim_eq_self fun c hc =>
      Layout.isSpacing_of_isNumberChar (Layout.isNumberChar_double x c hc)
  rw [numberOf, ofNumeral, htrim, Double.read?_double]

/-! ## Words -/

namespace Double

theorem ofBits_inj {u v : UInt64} (h : ofBits u = ofBits v) (hu : (ofBits u).isNaN = false) :
    u = v := by
  cases hx : ofBits u with
  | nan => rw [hx] at hu; cases hu
  | signed s m =>
    obtain ⟨hsign, hrank⟩ := toNat_of_ofBits hx
    obtain ⟨hsign', hrank'⟩ := toNat_of_ofBits (h ▸ hx)
    have hu := u.toNat_lt
    have hv := v.toNat_lt
    have hsigns := hsign.symm.trans hsign'
    apply UInt64.toNat_inj.1
    omega

end Double

/-! ## The end of a numeral -/

namespace Numeral

theorem not_suffix_of_digits {digits rest : List Char} {mark : Char} (h : IsDigits digits)
    (hmark : mark ≠ '.') : ¬ ['.', '0'] <:+ rest ++ mark :: digits := by
  rintro ⟨front, heq⟩
  have hreverse := congrArg List.reverse heq
  simp only [List.reverse_append, List.reverse_cons, List.append_assoc, List.reverse_nil,
    List.nil_append, List.singleton_append] at hreverse
  have hdigits (c : Char) (hc : c ∈ digits.reverse) := h.isDigit c (List.mem_reverse.1 hc)
  match hlist : digits.reverse with
  | [] => exact h.ne_nil (List.reverse_eq_nil_iff.1 hlist)
  | [c] =>
    rw [hlist] at hreverse
    exact hmark (List.cons.inj (List.cons.inj hreverse).2).1.symm
  | c :: d :: _ =>
    have hpoint := hdigits d (by simp [hlist])
    rw [hlist] at hreverse
    obtain rfl := (List.cons.inj (List.cons.inj hreverse).2).1
    cases hpoint

/-- No numeral ends in a point and a zero. -/
theorem not_suffix_text (n : Numeral) : ¬ ['.', '0'] <:+ n.text := by
  intro hsuffix
  cases hexponent : n.exponent with
  | some e =>
    obtain ⟨negative, digits⟩ := e
    have htext : n.text = (signText n.negative ++ n.whole ++ fractionText n.fraction ++ ['e']) ++
        (if negative then '-' else '+') :: digits := by
      simp [text, body, hexponent, exponentText]
    rw [htext] at hsuffix
    exact not_suffix_of_digits (n.isDigits_exponent _ hexponent) (by split <;> decide) hsuffix
  | none =>
    cases hfraction : n.fraction with
    | nil =>
      have hpoint : '.' ∈ n.text := hsuffix.subset (by simp)
      simp only [text, body, hexponent, hfraction, fractionText, exponentText, List.isEmpty_nil,
        if_true, List.append_nil, List.mem_append] at hpoint
      obtain hsign | hwhole := hpoint
      · cases hneg : n.negative <;> simp [hneg, signText] at hsign
      · cases n.isDigits_whole.isDigit _ hwhole
    | cons c rest =>
      have htext : n.text = (signText n.negative ++ n.whole ++ ['.']) ++ n.fraction := by
        simp [text, body, hexponent, hfraction, fractionText, exponentText]
      obtain ⟨front, heq⟩ := hsuffix
      have hlast := congrArg List.getLast? (heq.trans htext)
      rw [List.getLast?_append_of_ne_nil _ (by simp),
        List.getLast?_append_of_ne_nil _ (by simp [hfraction])] at hlast
      exact n.getLast_fraction hlast.symm

end Numeral

/-! ## Whole numbers in the two layouts -/

/-- A text without a point and a zero at its end. -/
def trimWhole (cs : List Char) : List Char :=
  if ['.', '0'].isSuffixOf cs then cs.take (cs.length - 2) else cs

theorem trimWhole_append (cs : List Char) : trimWhole (cs ++ ['.', '0']) = cs := by
  rw [trimWhole, if_pos (List.isSuffixOf_iff_suffix.2 (List.suffix_append ..)), List.length_append]
  exact List.take_left

theorem trimWhole_eq_self {cs : List Char} (h : ¬ ['.', '0'] <:+ cs) : trimWhole cs = cs := by
  rw [trimWhole, if_neg (mt List.isSuffixOf_iff_suffix.1 h)]

namespace Layout

/-- Outside the evaluated language the text is the same or has a point and a zero behind it. -/
def Extends (text other : List Char) : Prop := text = other ∨ text = other ++ ['.', '0']

theorem Extends.append {text other : List Char} (h : Extends text other) (front : List Char) :
    Extends (front ++ text) (front ++ other) := by
  rcases h with rfl | rfl
  · exact .inl rfl
  · exact .inr (List.append_assoc ..).symm

theorem inPlace_plain (digits : List Char) (point : Int) :
    Extends (plain.inPlace digits point) (value.inPlace digits point) := by
  unfold inPlace
  split
  · exact .inl rfl
  · split
    · exact .inl rfl
    · exact .inr (by simp [plain, value])

theorem decimal_plain (d : Decimal) : Extends (plain.decimal d) (value.decimal d) := by
  have hleast : plain.leastInPlace = value.leastInPlace := rfl
  have hbound : plain.boundInPlace = value.boundInPlace := rfl
  unfold decimal
  rw [hleast, hbound]
  split
  · exact inPlace_plain _ _
  · dsimp only
    split
    · exact inPlace_plain _ _
    · exact .inl rfl

/-- The text of a finite number is the plain one without a point and a zero at its end. -/
theorem double_eq_trimWhole {x : Double} (h : x.isFinite = true) :
    (value.double x).toList = trimWhole (plain.double x).toList := by
  cases x with
  | nan => cases h
  | signed s m =>
    have hm : m.isInfinite = false := by
      rw [Double.isFinite, Bool.not_eq_true'] at h
      exact h
    obtain ⟨n, hsign, hbody, -⟩ := exists_numeral_magnitude s hm
    have hvalue : (value.double (.signed s m)).toList = n.text := by
      rw [double_signed hsign hbody, String.toList_ofList]
    have hmagnitude : Extends (plain.magnitude m) (value.magnitude m) := by
      rw [magnitude, magnitude, hm, if_neg Bool.false_ne_true, if_neg Bool.false_ne_true]
      exact decimal_plain _
    have hplain : Extends (plain.double (.signed s m)).toList n.text := by
      rw [double, String.toList_ofList, Numeral.text, hbody, hsign]
      exact hmagnitude.append _
    rw [hvalue]
    rcases hplain with heq | heq
    · rw [heq, trimWhole_eq_self n.not_suffix_text]
    · rw [heq, trimWhole_append]

end Layout

/-! ## The texts -/

/-- A numeral stands for a finite double, given by its word: it has the sign of the double and does
not end in a point and a zero, its decimal has the fewest digits of those that are rounded to the
double, and of all doubles with the sign of the numeral this is the one that is nearest. -/
structure Numeral.StandsFor (n : Numeral) (word : UInt64) : Prop where
  sign : n.negative = true ↔ 2 ^ 63 ≤ word.toNat
  not_suffix : ¬ ['.', '0'] <:+ n.text
  shortest : ∃ (m : Magnitude) (d : Decimal), Double.ofBits word = .signed n.negative m ∧
    d.IsShortest m ∧ n.decimal.value = d.value
  isNearest : (Double.ofBits word).IsNearest n.value
  unique : ∀ other : UInt64, (n.negative = true ↔ 2 ^ 63 ≤ other.toNat) →
    (Double.ofBits other).IsNearest n.value → other = word

/-- The text of a finite double is a numeral that stands for it. -/
theorem Double.exists_standsFor {u : UInt64} (h : (ofBits u).isFinite = true) :
    ∃ n : Numeral, Layout.value.double (ofBits u) = String.ofList n.text ∧ n.StandsFor u := by
  cases hu : ofBits u with
  | nan => rw [hu] at h; cases h
  | signed s m =>
    rw [hu, isFinite_signed] at h
    have hm := Magnitude.isInfinite_eq_false.2 h
    obtain ⟨n, rfl, hbody, hvalue, -⟩ := Layout.exists_numeral_magnitude s hm
    have hreads : Magnitude.ofRat n.decimal.value = m := by
      rw [hvalue, Decimal.ofRat_value_shortest]
    refine ⟨n, Layout.double_signed rfl hbody, (toNat_of_ofBits hu).1, n.not_suffix_text,
      ⟨m, _, hu, Decimal.isShortest_shortest hm, hvalue⟩, ?_, fun w hsign hw => ?_⟩
    · rw [hu]
      exact (isNearest_iff n.decimal.value_nonneg).2 ⟨h, hreads⟩
    · cases hw' : ofBits w with
      | nan => rw [hw'] at hw; cases hw.isFinite
      | signed t k =>
        obtain rfl : t = n.negative := by
          rw [Bool.eq_iff_iff, hsign, (toNat_of_ofBits hw').1]
        rw [hw', Numeral.value, isNearest_iff n.decimal.value_nonneg, hreads] at hw
        obtain ⟨-, rfl⟩ := hw
        exact ofBits_inj (hw'.trans hu.symm) (by rw [hw']; rfl)

open Layout

/-- **The text of a number determines it.** The text of a finite double is a numeral that stands for
it, the plain text without a point and a zero at its end, and the other texts are the names of what
is not a number and of the infinities. A number is printed, written and rendered as this text, and
it can be made of it; so no two doubles but those that are not numbers are printed, written or
rendered alike. -/
theorem number_texts_round_trip (u v : UInt64) :
    ((Double.ofBits u).isFinite = true →
      (∃ n : Numeral, value.double (.ofBits u) = String.ofList n.text ∧ n.StandsFor u) ∧
      (value.double (.ofBits u)).toList = trimWhole (plain.double (.ofBits u)).toList) ∧
    (value.double (.ofBits u) = "NaN" ↔ (Double.ofBits u).isNaN = true) ∧
    (value.double (.ofBits u) = "Infinity" ↔ Double.ofBits u = .infinity false) ∧
    (value.double (.ofBits u) = "-Infinity" ↔ Double.ofBits u = .infinity true) ∧
    (Value.number (.ofBits u)).printed = value.double (.ofBits u) ∧
    (Value.number (.ofBits u)).written = value.double (.ofBits u) ∧
    (Object.value (.number (.ofBits u))).render = .ok (value.double (.ofBits u)) ∧
    Value.numberOf (.plain (.text (value.double (.ofBits u)))) = .ok (.number (.ofBits u)) ∧
    ((Double.ofBits u).isNaN = false → (Double.ofBits v).isNaN = false →
      (value.double (.ofBits u) = value.double (.ofBits v) ↔ u = v) ∧
      ((Value.number (.ofBits u)).printed = (Value.number (.ofBits v)).printed ↔ u = v) ∧
      ((Value.number (.ofBits u)).written = (Value.number (.ofBits v)).written ↔ u = v) ∧
      ((Object.value (.number (.ofBits u))).render = (Object.value (.number (.ofBits v))).render ↔
        u = v)) := by
  refine ⟨fun h => ⟨Double.exists_standsFor h, double_eq_trimWhole h⟩, ?_, ?_, ?_, rfl, rfl, rfl,
    Value.numberOf_double _, fun hu _ => ?_⟩
  · rw [Double.isNaN_iff]
    exact double_injective.eq_iff' rfl
  · exact double_injective.eq_iff' (double_infinity false)
  · exact double_injective.eq_iff' (double_infinity true)
  · have hinjective : value.double (.ofBits u) = value.double (.ofBits v) ↔ u = v :=
      ⟨fun h => Double.ofBits_inj (double_injective h) hu, by rintro rfl; rfl⟩
    refine ⟨hinjective, hinjective, hinjective, ?_⟩
    rw [← hinjective]
    exact ⟨Except.ok.inj, congrArg Except.ok⟩

/-- The least positive double has a numeral, and the two zeros differ in their texts. -/
theorem number_texts_round_trip_at_zero :
    (∃ n : Numeral, Layout.value.double (.ofBits 1) = String.ofList n.text ∧ n.StandsFor 1) ∧
    Layout.value.double (.ofBits 0x8000000000000000) ≠ Layout.value.double (.ofBits 0) := by
  obtain ⟨hfinite, -⟩ := number_texts_round_trip 1 0
  obtain ⟨-, -, -, -, -, -, -, -, hzeros⟩ := number_texts_round_trip 0x8000000000000000 0
  refine ⟨(hfinite (by decide +kernel)).1, fun h => ?_⟩
  exact absurd ((hzeros (by decide +kernel) (by decide +kernel)).1.1 h) (by decide)

end TreeWalk
