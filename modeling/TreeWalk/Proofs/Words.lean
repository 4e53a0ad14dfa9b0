import TreeWalk.Value
import Mathlib.Data.List.Basic

/-!
# Where the texts of values end

A value that is no string is written as a word: its text is not empty and holds no blank, no
parenthesis and no quotation mark. A string is written between quotation marks. So the end of a
value can be seen from its text, as long as there are no such marks within strings.

* `Layout.isNumberChar` : the characters of the texts of numbers (`Layout.isNumberChar_double`);
* `append_inj_of_break`, `append_inj_of_mark` : words before a break; `Ends` : what may stand behind
  a value;
* `Value.SameText`, `Value.SameNumberText` : what the texts of values leave open, for strings with
  and without a token behind them;
* `Value.Readable` : values that are the same when texts begin with both of them
  (`Value.readable_quoteFree`, `Value.readable_plain`).
-/

namespace TreeWalk

/-! ## Texts of numbers -/

namespace Layout

/-- The characters of the texts of numbers. -/
def isNumberChar (c : Char) : Bool := c.isDigit || ".e+-NaInfity".toList.contains c

theorem isNumberChar_of_mem_toDigits {c : Char} {n : Nat} (h : c ∈ Nat.toDigits 10 n) :
    isNumberChar c = true := by
  rw [isNumberChar, Nat.isDigit_of_mem_toDigits (by decide) (by decide) h, Bool.true_or]

theorem isNumberChar_of_mem_trimZeros {digits : List Char}
    (h : ∀ c ∈ digits, isNumberChar c = true) :
    ∀ c ∈ trimZeros digits, isNumberChar c = true := by
  intro c hc
  rw [trimZeros, List.mem_reverse] at hc
  exact h c (List.mem_reverse.1 (List.dropWhile_subset _ hc))

theorem isNumberChar_inPlace {digits : List Char} (h : ∀ c ∈ digits, isNumberChar c = true)
    (point : Int) : ∀ c ∈ value.inPlace digits point, isNumberChar c = true := by
  have hpoint : isNumberChar '.' = true := by decide
  have hzero : isNumberChar '0' = true := by decide
  intro c hc
  unfold inPlace at hc
  split at hc
  · simp only [List.mem_cons, List.mem_append, List.mem_replicate] at hc
    obtain rfl | rfl | ⟨-, rfl⟩ | hc := hc
    · exact hzero
    · exact hpoint
    · exact hzero
    · exact h c hc
  · split at hc
    · simp only [List.mem_cons, List.mem_append] at hc
      obtain hc | rfl | hc := hc
      · exact h c (List.mem_of_mem_take hc)
      · exact hpoint
      · exact h c (List.mem_of_mem_drop hc)
    · simp only [value, List.append_nil, List.mem_append, List.mem_replicate] at hc
      obtain hc | ⟨-, rfl⟩ := hc
      · exact h c hc
      · exact hzero

theorem isNumberChar_scientific {digits : List Char} (h : ∀ c ∈ digits, isNumberChar c = true)
    (exponent : Int) : ∀ c ∈ value.scientific digits exponent, isNumberChar c = true := by
  intro c hc
  simp only [scientific, padded, List.mem_append, List.mem_cons, List.mem_replicate] at hc
  obtain (hc | hc) | rfl | rfl | ⟨-, rfl⟩ | hc := hc
  · exact h c (List.mem_of_mem_take hc)
  · split at hc
    · cases hc
    · obtain rfl | hc := List.mem_cons.1 hc
      · decide
      · exact h c (List.mem_of_mem_drop hc)
  · decide
  · split <;> decide
  · decide
  · exact isNumberChar_of_mem_toDigits hc

theorem isNumberChar_magnitude (m : Magnitude) :
    ∀ c ∈ value.magnitude m, isNumberChar c = true := by
  unfold magnitude
  split
  · exact List.all_eq_true.1 (by decide)
  · unfold decimal
    split
    · exact isNumberChar_inPlace (List.all_eq_true.1 (by decide)) 1
    · have hdigits := isNumberChar_of_mem_trimZeros fun c =>
        isNumberChar_of_mem_toDigits (c := c) (n := (Decimal.shortest m).coefficient)
      simp only
      split
      · exact isNumberChar_inPlace hdigits _
      · exact isNumberChar_scientific hdigits _

theorem isNumberChar_double (x : Double) :
    ∀ c ∈ (value.double x).toList, isNumberChar c = true := by
  cases x with
  | nan => exact List.all_eq_true.1 (by decide)
  | signed negative m =>
    rw [double, String.toList_ofList]
    intro c hc
    obtain hc | hc := List.mem_append.1 hc
    · split at hc
      · rw [List.mem_singleton.1 hc]
        decide
      · cases hc
    · exact isNumberChar_magnitude m c hc

theorem inPlace_ne_nil (digits : List Char) (point : Int) : value.inPlace digits point ≠ [] := by
  unfold inPlace
  split
  · exact List.cons_ne_nil _ _
  · split
    · simp
    · next hpoint hlength =>
      have : 0 < digits.length + (point.toNat - digits.length) := by omega
      intro h
      have := congrArg List.length h
      simp only [List.length_append, List.length_replicate, List.length_nil] at this
      omega

theorem magnitude_ne_nil (m : Magnitude) : value.magnitude m ≠ [] := by
  unfold magnitude
  split
  · decide
  · unfold decimal
    split
    · exact inPlace_ne_nil _ _
    · simp only
      split
      · exact inPlace_ne_nil _ _
      · simp [scientific]

theorem double_ne_empty (x : Double) : value.double x ≠ "" := by
  cases x with
  | nan => decide
  | signed negative m =>
    intro h
    have := congrArg String.toList h
    rw [double, String.toList_ofList] at this
    exact magnitude_ne_nil m (List.append_eq_nil_iff.1 this).2

end Layout

/-! ## Words -/

/-- Two words before a break, which no word holds, are the same, and so is what follows. -/
theorem append_inj_of_break {isBreak : Char → Bool} : ∀ {w w' r s : List Char},
    (∀ c ∈ w, isBreak c = false) → (∀ c ∈ w', isBreak c = false) →
    (∀ c ∈ r.head?, isBreak c = true) → (∀ c ∈ s.head?, isBreak c = true) →
    w ++ r = w' ++ s → w = w' ∧ r = s
  | [], [], _, _, _, _, _, _, h => ⟨rfl, h⟩
  | [], c :: w', r, s, _, hw', hr, _, h => by
    have hc : c ∈ r.head? := by
      rw [List.nil_append] at h
      rw [h]
      rfl
    cases (hw' c (List.mem_cons_self ..)).symm.trans (hr c hc)
  | c :: w, [], r, s, hw, _, _, hs, h => by
    have hc : c ∈ s.head? := by
      rw [List.nil_append] at h
      rw [← h]
      rfl
    cases (hw c (List.mem_cons_self ..)).symm.trans (hs c hc)
  | c :: w, c' :: w', r, s, hw, hw', hr, hs, h => by
    obtain ⟨rfl, htail⟩ := List.cons.inj h
    obtain ⟨rfl, rfl⟩ := append_inj_of_break (fun c hc => hw c (List.mem_cons_of_mem _ hc))
      (fun c hc => hw' c (List.mem_cons_of_mem _ hc)) hr hs htail
    exact ⟨rfl, rfl⟩

theorem append_inj_of_mark {mark : Char} {w w' r s : List Char} (hw : mark ∉ w) (hw' : mark ∉ w')
    (h : w ++ mark :: r = w' ++ mark :: s) : w = w' ∧ r = s := by
  have hfree : ∀ {cs : List Char}, mark ∉ cs → ∀ c ∈ cs, (c == mark) = false :=
    fun hcs c hc => beq_false_of_ne fun heq => hcs (heq ▸ hc)
  have hmark : ∀ (cs : List Char), ∀ c ∈ (mark :: cs).head?, (c == mark) = true := by
    intro cs c hc
    obtain rfl := Option.some.inj hc
    exact beq_self_eq_true mark
  obtain ⟨hword, hrest⟩ := append_inj_of_break (hfree hw) (hfree hw') (hmark r) (hmark s) h
  exact ⟨hword, (List.cons.inj hrest).2⟩

/-- What follows a part of a rendering. -/
def Ends (r : List Char) : Prop := ∀ c ∈ r.head?, (c == ' ' || c == ')') = true

theorem ends_nil : Ends [] := fun _ h => (nomatch h)

theorem ends_blank (r : List Char) : Ends (' ' :: r) := by
  intro c hc
  obtain rfl := Option.some.inj hc
  rfl

theorem ends_paren (r : List Char) : Ends (')' :: r) := by
  intro c hc
  obtain rfl := Option.some.inj hc
  rfl

/-! ## Values -/

namespace Value

/-- Equal, or numbers with the same text. -/
def SameNumberText : Value → Value → Prop
  | .number x, .number y => Layout.value.double x = Layout.value.double y
  | v, w => v = w

/-- Equal, or numbers or strings with the same text; the kind of the token that a string was taken
from does not show. -/
def SameText : Value → Value → Prop
  | .number x, .number y => Layout.value.double x = Layout.value.double y
  | .string a _, .string b _ => a = b
  | v, w => v = w

/-- A string without a quotation mark, or no string. -/
def QuoteFree : Value → Prop
  | .string text _ => '"' ∉ text.toList
  | _ => True

instance : DecidablePred QuoteFree
  | .string text _ => inferInstanceAs (Decidable ('"' ∉ text.toList))
  | .nil | .bool _ | .number _ => .isTrue trivial

/-- A string that was not taken from a token, or no string. -/
def Plain : Value → Prop
  | .string _ kind => kind = none
  | _ => True

/-- A text that begins with two allowed values, each before a break, begins with the same one
twice. -/
def Readable (allowed : Value → Prop) (same : Value → Value → Prop) : Prop :=
  ∀ v w : Value, allowed v → allowed w → ∀ r s : List Char, Ends r → Ends s →
    v.written.toList ++ r = w.written.toList ++ s → same v w ∧ r = s

theorem SameText.written {v w : Value} (h : v.SameText w) : v.written = w.written := by
  cases v with
  | number x =>
    cases w with
    | number y => exact h
    | _ => cases h
  | string a k =>
    cases w with
    | string b l =>
      obtain rfl : a = b := h
      rfl
    | _ => cases h
  | nil | bool =>
    cases h
    rfl

/-- All characters but those that stand around words or begin something else. -/
def isWordChar (c : Char) : Bool := !" ()\"".toList.contains c

theorem isWordChar_of_isNumberChar {c : Char} (h : Layout.isNumberChar c = true) :
    isWordChar c = true := by
  have hnone : ∀ c ∈ " ()\"".toList, (!Layout.isNumberChar c) = true :=
    List.all_eq_true.1 (by decide)
  by_contra hmark
  have hmem : c ∈ " ()\"".toList := by
    rw [isWordChar, Bool.not_eq_true', Bool.not_eq_false, List.contains_iff_mem] at hmark
    exact hmark
  have := hnone c hmem
  rw [h] at this
  cases this

theorem isWordChar_written {v : Value} (h : v.variant ≠ .string) :
    ∀ c ∈ v.written.toList, isWordChar c = true := by
  cases v with
  | nil => exact List.all_eq_true.1 (by decide)
  | bool b => cases b <;> exact List.all_eq_true.1 (by decide)
  | number x => exact fun c hc => isWordChar_of_isNumberChar (Layout.isNumberChar_double x c hc)
  | string => exact absurd rfl h

theorem written_ne_empty (v : Value) : v.written ≠ "" := by
  cases v with
  | nil => decide
  | bool b => cases b <;> decide
  | number x => exact Layout.double_ne_empty x
  | string text kind =>
    intro h
    have := congrArg String.length h
    simp [written] at this

/-- The names of nil and of the truth values have letters that no number has. -/
theorem double_ne_name {x : Double} {name : String}
    (h : name.toList.all Layout.isNumberChar = false) : Layout.value.double x ≠ name := by
  rintro rfl
  cases h.symm.trans (List.all_eq_true.2 (Layout.isNumberChar_double x))

theorem sameText_of_written {v w : Value} (hv : v.variant ≠ .string) (hw : w.variant ≠ .string)
    (h : v.written = w.written) : v.SameText w := by
  cases v with
  | string => exact absurd rfl hv
  | nil =>
    cases w with
    | nil => rfl
    | bool b => cases b <;> exact absurd h (by decide)
    | number y => exact absurd h.symm (double_ne_name (by decide))
    | string => exact absurd rfl hw
  | bool b =>
    cases w with
    | nil => cases b <;> exact absurd h (by decide)
    | bool b' => cases b <;> cases b' <;> first | rfl | exact absurd h (by decide)
    | number y => cases b <;> exact absurd h.symm (double_ne_name (by decide))
    | string => exact absurd rfl hw
  | number x =>
    cases w with
    | nil => exact absurd h (double_ne_name (by decide))
    | bool b => cases b <;> exact absurd h (double_ne_name (by decide))
    | number y => exact h
    | string => exact absurd rfl hw

theorem string_or_word (v : Value) :
    (∃ text kind, v = .string text kind) ∨ v.variant ≠ .string := by
  cases v with
  | string text kind => exact .inl ⟨text, kind, rfl⟩
  | nil | bool | number => exact .inr nofun

theorem written_eq_cons {v : Value} (h : v.variant ≠ .string) :
    ∃ c cs, v.written.toList = c :: cs ∧ isWordChar c = true := by
  obtain ⟨c, cs, hcs⟩ := List.exists_cons_of_ne_nil
    fun hempty => v.written_ne_empty (String.toList_inj.1 hempty)
  exact ⟨c, cs, hcs, isWordChar_written h c (hcs ▸ List.mem_cons_self ..)⟩

theorem written_string (text : String) (kind : Option String) (r : List Char) :
    (string text kind).written.toList ++ r = '"' :: (text.toList ++ '"' :: r) := by
  simp [written]

theorem written_ne_string {v : Value} (h : v.variant ≠ .string) (text : String)
    (kind : Option String) (r s : List Char) :
    v.written.toList ++ r ≠ (string text kind).written.toList ++ s := by
  obtain ⟨c, cs, hcs, hword⟩ := written_eq_cons h
  rw [written_string, hcs, List.cons_append]
  intro heq
  rw [(List.cons.inj heq).1] at hword
  cases hword

theorem written_no_break {v : Value} (h : v.variant ≠ .string) :
    ∀ c ∈ v.written.toList, (c == ' ' || c == ')') = false := by
  intro c hc
  have hword := isWordChar_written h c hc
  by_contra hbreak
  simp only [Bool.not_eq_false, Bool.or_eq_true, beq_iff_eq] at hbreak
  obtain rfl | rfl := hbreak <;> cases hword

/-- A string ends at its second mark, and any other value where a word does. -/
theorem readable_quoteFree : Readable QuoteFree SameText := by
  intro v w hv hw r s hr hs h
  obtain ⟨a, k, rfl⟩ | hvs := v.string_or_word <;> obtain ⟨b, l, rfl⟩ | hws := w.string_or_word
  · rw [written_string, written_string] at h
    obtain ⟨htext, hrest⟩ := append_inj_of_mark hv hw (List.cons.inj h).2
    exact ⟨String.toList_inj.1 htext, hrest⟩
  · exact absurd h.symm (written_ne_string hws a k s r)
  · exact absurd h (written_ne_string hvs b l r s)
  · obtain ⟨htext, hrest⟩ :=
      append_inj_of_break (written_no_break hvs) (written_no_break hws) hr hs h
    exact ⟨sameText_of_written hvs hws (String.toList_inj.1 htext), hrest⟩

theorem SameText.sameNumberText {v w : Value} (h : v.SameText w) (hv : v.Plain) (hw : w.Plain) :
    v.SameNumberText w := by
  cases v with
  | number x =>
    cases w with
    | number y => exact h
    | _ => cases h
  | string a k =>
    cases w with
    | string b l =>
      obtain rfl : a = b := h
      obtain rfl : k = none := hv
      obtain rfl : l = none := hw
      rfl
    | _ => cases h
  | nil | bool => exact h

theorem readable_plain : Readable (fun v => v.QuoteFree ∧ v.Plain) SameNumberText := by
  intro v w hv hw r s hr hs h
  obtain ⟨hsame, hrest⟩ := readable_quoteFree v w hv.1 hw.1 r s hr hs h
  exact ⟨hsame.sameNumberText hv.2 hw.2, hrest⟩

end Value

end TreeWalk
