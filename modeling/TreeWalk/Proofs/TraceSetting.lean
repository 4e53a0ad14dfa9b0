import TreeWalk.Tracing

/-!
# The settings that ask for traces

A setting asks for traces by one of four words, in letters of either case and with blanks on either
side. Nothing else does: blanks are trimmed exactly, and no other characters have the letters of the
words for their lower case.

* `Text.AllBlank`, `Text.SameLetters` : what may stand around a word, and how it may be spelled;
* `Text.AsksForTraces` : the words in all their spellings;
* `Text.tracingWanted_iff` : what is asked is what is left of a setting without its blanks;
* `tracing_wanted_by_words` : the settings that ask for traces, and what does not matter to them.
-/

namespace TreeWalk

namespace Text

/-- There are only blanks in a text. -/
def AllBlank (cs : List Char) : Prop := ∀ c ∈ cs, isBlank c = true

/-- Texts that are the same but for the case of ASCII letters. -/
def SameLetters (cs ds : List Char) : Prop := cs.map Char.toLower = ds.map Char.toLower

/-- A word that asks for traces, in letters of either case. -/
def AsksForTraces (cs : List Char) : Prop :=
  ∃ word ∈ ["1", "true", "yes", "on"], SameLetters cs word.toList

/-! ## The case of letters -/

theorem toLower_of_not_ascii {c : Char} (hc : 128 ≤ c.toNat) : c.toLower = c := by
  have hletter : ¬(65 ≤ c.val ∧ c.val ≤ 90) := by
    rintro ⟨-, hle⟩
    have : c.toNat ≤ 90 := UInt32.le_iff_toNat_le.1 hle
    omega
  exact dif_neg hletter

theorem isBlank_toLower (c : Char) : isBlank c.toLower = isBlank c := by
  rcases Nat.lt_or_ge c.toNat 128 with hc | hc
  · refine forall_ascii ?_ c hc
    decide +kernel
  · rw [toLower_of_not_ascii hc]

theorem SameLetters.trim {cs ds : List Char} (h : SameLetters cs ds) :
    SameLetters (trim isBlank cs) (trim isBlank ds) := by
  unfold SameLetters
  rw [map_trim isBlank_toLower, map_trim isBlank_toLower, h]

theorem SameLetters.asks_iff {cs ds : List Char} (h : SameLetters cs ds) :
    AsksForTraces cs ↔ AsksForTraces ds := by
  unfold AsksForTraces SameLetters
  rw [h]

/-- A text has a word of plain small letters for its lower case only if it is spelled in ASCII. -/
theorem flatMap_lowerCase_eq_iff {word : List Char}
    (hword : ∀ d ∈ word, d.toNat < 128 ∧ d ≠ 'i' ∧ d ≠ 'k') {cs : List Char} :
    cs.flatMap lowerCase = word ↔ cs.map Char.toLower = word := by
  induction cs generalizing word with
  | nil => rfl
  | cons c cs ih =>
    rw [List.flatMap_cons, List.map_cons]
    rcases Nat.lt_or_ge c.toNat 128 with hc | hc
    · rw [lowerCase_of_ascii hc, List.singleton_append]
      cases word with
      | nil => exact iff_of_false (List.cons_ne_nil _ _) (List.cons_ne_nil _ _)
      | cons d word =>
        rw [List.cons.injEq, List.cons.injEq, ih fun d hd => hword d (List.mem_cons_of_mem _ hd)]
    · -- a character that is none of ASCII puts something into the lower case that no word has
      apply iff_of_false
      · rintro rfl
        obtain ⟨d, rest, hlower⟩ := List.exists_cons_of_ne_nil (lowerCase_ne_nil c)
        have hd : d ∈ lowerCase c := hlower ▸ List.mem_cons_self ..
        obtain ⟨hascii, hi, hk⟩ := hword d (List.mem_append_left _ hd)
        exact (eq_or_eq_of_mem_lowerCase hc hd hascii).elim hi hk
      · rintro rfl
        have := (hword c.toLower (List.mem_cons_self ..)).1
        rw [toLower_of_not_ascii hc] at this
        omega

/-! ## Words -/

section Words

variable {cs : List Char}

theorem toList_tracingWords : tracingWords.map String.toList =
    [['1'], ['t', 'r', 'u', 'e'], ['y', 'e', 's'], ['o', 'n']] := rfl

theorem plain_tracingWords : ∀ word ∈ tracingWords,
    (∀ d ∈ word.toList, d.toNat < 128 ∧ d ≠ 'i' ∧ d ≠ 'k' ∧ isBlank d = false) ∧
      word.toList.map Char.toLower = word.toList := by
  simp [tracingWords, isBlank, blankRanges]

/-- A setting is asked for what it is without the blanks at its ends. -/
theorem tracingWanted_iff {setting : String} :
    tracingWanted (some setting) = true ↔ AsksForTraces (trim isBlank setting.toList) := by
  have hiff : ∀ word ∈ tracingWords,
      String.ofList ((trim isBlank setting.toList).flatMap lowerCase) = word ↔
        SameLetters (trim isBlank setting.toList) word.toList := by
    intro word hword
    obtain ⟨hplain, hlower⟩ := plain_tracingWords word hword
    have heq (cs : List Char) : cs.flatMap lowerCase = word.toList ↔
        cs.map Char.toLower = word.toList :=
      flatMap_lowerCase_eq_iff fun d hd =>
        ⟨(hplain d hd).1, (hplain d hd).2.1, (hplain d hd).2.2.1⟩
    rw [SameLetters, hlower, ← heq, ← String.ofList_inj, String.ofList_toList]
  rw [tracingWanted, List.contains_iff_mem]
  constructor
  · intro h
    exact ⟨_, h, (hiff _ h).1 rfl⟩
  · rintro ⟨word, hword, h⟩
    rwa [(hiff word hword).2 h]

theorem AsksForTraces.not_blank (h : AsksForTraces cs) : ∀ c ∈ cs, isBlank c = false := by
  obtain ⟨word, hword, hsame⟩ := h
  obtain ⟨hplain, hlower⟩ := plain_tracingWords word hword
  intro c hc
  have hmem : c.toLower ∈ cs.map Char.toLower := List.mem_map_of_mem hc
  rw [hsame, hlower] at hmem
  rw [← isBlank_toLower]
  exact (hplain _ hmem).2.2.2

theorem AsksForTraces.trim_eq (h : AsksForTraces cs) : trim isBlank cs = cs :=
  trim_eq_self h.not_blank

/-- No word has all the letters of another one. -/
theorem AsksForTraces.length_eq {ds : List Char} (hc : AsksForTraces cs) (hd : AsksForTraces ds)
    (h : cs.Sublist ds) : cs.length = ds.length := by
  have hwords : ∀ v ∈ tracingWords.map String.toList, ∀ w ∈ tracingWords.map String.toList,
      v.Sublist w → v.length = w.length := by
    rw [toList_tracingWords]
    decide
  obtain ⟨v, hv, hsame⟩ := hc
  obtain ⟨w, hw, hsame'⟩ := hd
  have hletters := h.map Char.toLower
  rw [hsame, hsame', (plain_tracingWords v hv).2, (plain_tracingWords w hw).2] at hletters
  have := hwords _ (List.mem_map_of_mem hv) _ (List.mem_map_of_mem hw) hletters
  have hcs := congrArg List.length hsame
  have hds := congrArg List.length hsame'
  simp only [List.length_map] at hcs hds
  omega

theorem filter_eq_self_of_not_blank (h : ∀ c ∈ cs, isBlank c = false) :
    cs.filter (fun c => !isBlank c) = cs :=
  List.filter_eq_self.2 fun c hc => by simp [h c hc]

theorem filter_eq_nil_iff_allBlank : cs.filter (fun c => !isBlank c) = [] ↔ AllBlank cs := by
  simp [AllBlank, List.filter_eq_nil_iff]

theorem AsksForTraces.filter_eq_trim (h : AsksForTraces (trim isBlank cs)) :
    cs.filter (fun c => !isBlank c) = trim isBlank cs := by
  obtain ⟨before, after, hsplit, hbefore, hafter⟩ := exists_trim isBlank cs
  refine (congrArg (List.filter fun c => !isBlank c) hsplit).trans ?_
  rw [List.filter_append, List.filter_append, filter_eq_nil_iff_allBlank.2 hbefore,
    filter_eq_nil_iff_allBlank.2 hafter, filter_eq_self_of_not_blank h.not_blank, List.nil_append,
    List.append_nil]

/-- What may be put into a word are blanks in front of it or behind it. -/
theorem asks_trim_insert_iff {front extra back : List Char} (h : AsksForTraces (front ++ back)) :
    AsksForTraces (trim isBlank (front ++ (extra ++ back))) ↔
      extra = [] ∨ (front = [] ∨ back = []) ∧ AllBlank extra := by
  have hfront : ∀ c ∈ front, isBlank c = false :=
    fun c hc => h.not_blank c (List.mem_append_left _ hc)
  have hback : ∀ c ∈ back, isBlank c = false :=
    fun c hc => h.not_blank c (List.mem_append_right _ hc)
  have hnone {between : List Char} (hword : AsksForTraces (front ++ (between ++ back))) :
      between = [] := by
    have hsub : (front ++ back).Sublist (front ++ (between ++ back)) :=
      (List.Sublist.refl front).append (List.sublist_append_right between back)
    have := h.length_eq hword hsub
    simp only [List.length_append] at this
    exact List.length_eq_zero_iff.1 (by omega)
  constructor
  · intro hasks
    by_cases hends : front = [] ∨ back = []
    · rw [← hasks.filter_eq_trim, List.filter_append, List.filter_append,
        filter_eq_self_of_not_blank hfront, filter_eq_self_of_not_blank hback] at hasks
      exact .inr ⟨hends, filter_eq_nil_iff_allBlank.1 (hnone hasks)⟩
    · -- the word is at both ends, so nothing is trimmed off
      obtain ⟨hfirst, hlast⟩ := not_or.1 hends
      rw [trim_eq_self_of_ends] at hasks
      · exact .inl (hnone hasks)
      · obtain ⟨first, rest, rfl⟩ := List.exists_cons_of_ne_nil hfirst
        intro c hc
        obtain rfl := Option.some.inj hc
        exact hfront first (List.mem_cons_self ..)
      · intro c hc
        rw [← List.append_assoc, List.getLast?_append, List.getLast?_eq_some_getLast hlast] at hc
        obtain rfl := Option.some.inj hc
        exact hback _ (List.getLast_mem hlast)
  · rintro (rfl | ⟨rfl | rfl, hextra⟩)
    · rwa [List.nil_append, h.trim_eq]
    · have htrim : trim isBlank (extra ++ (back ++ [])) = trim isBlank back :=
        trim_append hextra (List.forall_mem_nil _)
      rw [List.append_nil] at htrim
      rw [List.nil_append] at h ⊢
      rwa [htrim, h.trim_eq]
    · have htrim : trim isBlank ([] ++ (front ++ extra)) = trim isBlank front :=
        trim_append (List.forall_mem_nil _) hextra
      rw [List.append_nil] at h
      rwa [List.append_nil, ← List.nil_append (front ++ extra), htrim, h.trim_eq]

end Words

end Text

open Text

/-- **Traces are asked for by a word between blanks.** A setting asks for them if and only if it is
one of four words, in letters of either case, with nothing but blanks on both sides; a missing
setting does not. So blanks on either side and the case of letters do not matter, and whatever is
put into a word makes the setting say no, unless it is blank and stands at an end of the word.
Separators of records are blanks, zero-width characters are not. -/
theorem tracing_wanted_by_words :
    tracingWanted none = false ∧
    (∀ setting : String, tracingWanted (some setting) = true ↔
      ∃ before core after, setting.toList = before ++ (core ++ after) ∧
        AllBlank before ∧ AllBlank after ∧ AsksForTraces core) ∧
    (∀ before setting after : String, AllBlank before.toList → AllBlank after.toList →
      tracingWanted (some (before ++ setting ++ after)) = tracingWanted (some setting)) ∧
    (∀ setting setting' : String, SameLetters setting.toList setting'.toList →
      tracingWanted (some setting) = tracingWanted (some setting')) ∧
    (∀ before front extra back after : String, AllBlank before.toList → AllBlank after.toList →
      AsksForTraces (front ++ back).toList →
      (tracingWanted (some (before ++ (front ++ extra ++ back) ++ after)) = true ↔
        extra = "" ∨ (front = "" ∨ back = "") ∧ AllBlank extra.toList)) ∧
    (∀ c ∈ ['\x1c', '\x1d', '\x1e', '\x1f', '\u0085', '\u00a0'], isBlank c = true) ∧
    ∀ c ∈ ['\u200b', '\ufeff', '\u180e'], isBlank c = false := by
  have hpad (before setting after : String) (hbefore : AllBlank before.toList)
      (hafter : AllBlank after.toList) :
      tracingWanted (some (before ++ setting ++ after)) = tracingWanted (some setting) := by
    rw [Bool.eq_iff_iff, tracingWanted_iff, tracingWanted_iff, String.toList_append,
      String.toList_append, List.append_assoc, trim_append hbefore hafter]
  refine ⟨rfl, fun setting => ?_, hpad, fun setting setting' h => ?_,
    fun before front extra back after hbefore hafter h => ?_, by simp [isBlank, blankRanges],
    by simp [isBlank, blankRanges]⟩
  · rw [tracingWanted_iff]
    constructor
    · intro h
      obtain ⟨before, after, hsplit, hbefore, hafter⟩ := exists_trim isBlank setting.toList
      exact ⟨before, _, after, hsplit, hbefore, hafter, h⟩
    · rintro ⟨before, core, after, hsplit, hbefore, hafter, h⟩
      rwa [hsplit, trim_append hbefore hafter, h.trim_eq]
  · rw [Bool.eq_iff_iff, tracingWanted_iff, tracingWanted_iff, h.trim.asks_iff]
  · rw [String.toList_append] at h
    rw [hpad _ _ _ hbefore hafter, tracingWanted_iff, String.toList_append, String.toList_append,
      List.append_assoc, asks_trim_insert_iff h]
    simp only [String.toList_eq_nil_iff]

/-- A word of two letters between blanks, in other letters, and with a blank inside it. -/
theorem tracing_wanted_by_words_padded :
    tracingWanted (some "\x1foN\u0085") = true ∧
    tracingWanted (some ("\x1f" ++ "oN" ++ "\u0085")) = tracingWanted (some "oN") ∧
    tracingWanted (some "oN") = tracingWanted (some "On") ∧
    tracingWanted (some ("\x1f" ++ ("o" ++ " " ++ "N") ++ "\u0085")) = false := by
  obtain ⟨-, hiff, hpad, hcase, hinsert, -⟩ := tracing_wanted_by_words
  have hfront : AllBlank "\x1f".toList := List.all_eq_true.1 (by decide)
  have hback : AllBlank "\u0085".toList := List.all_eq_true.1 (by decide)
  have hletters : SameLetters "oN".toList "On".toList := by simp [SameLetters]
  have hword : AsksForTraces "oN".toList := ⟨"on", by simp, by simp [SameLetters]⟩
  refine ⟨(hiff _).2 ⟨"\x1f".toList, "oN".toList, "\u0085".toList, by simp, hfront, hback, hword⟩,
    hpad _ _ _ hfront hback, hcase _ _ hletters, Bool.eq_false_iff.2 fun hwanted => ?_⟩
  have hasks : AsksForTraces ("o" ++ "N").toList := by simpa using hword
  obtain h | ⟨h | h, -⟩ := (hinsert _ "o" " " "N" _ hfront hback hasks).1 hwanted
  · exact absurd h (by simp)
  · exact absurd h (by simp)
  · exact absurd h (by simp)

end TreeWalk
