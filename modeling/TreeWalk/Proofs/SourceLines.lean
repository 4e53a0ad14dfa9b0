import TreeWalk.Eval.Statement

/-!
# The lines of errors

A text is a sequence of lines that each end in a boundary, and perhaps a last one that does not. So
the line of a number is what stands between the boundary before it and the one behind it, where the
boundaries in front are counted, and the line that an error shows is that of its token in its own
source or else in that of the program.

* `Text.boundaryCount`, `Text.IsBreak` : boundaries; a carriage return and a line feed are one;
* `Text.IsLine` : a line of a text, by what stands before and behind it;
* `Text.Lined` : texts line by line, which are all texts (`Text.lined`);
* `Text.lines_append` : the lines of a text are those up to a boundary and those behind it, from
  which `Text.lineAt?_eq_some_iff` follows; `Text.exists_full_lines` puts the text together again;
* `Raises` : a list of statements of which one raises an error after the ones before it succeed;
* `source_lines_exact` : the line of every error, and what a program reports.
-/

namespace TreeWalk

namespace Text

/-! ## Boundaries -/

/-- The number of boundaries in a text; a carriage return and a line feed are one. -/
def boundaryCount : List Char → Nat
  | [] => 0
  | '\r' :: '\n' :: rest => boundaryCount rest + 1
  | c :: rest => boundaryCount rest + (isBoundary c).toNat

/-- The text of one boundary. -/
inductive IsBreak : List Char → Prop
  | one {c : Char} (h : isBoundary c = true) : IsBreak [c]
  | pair : IsBreak ['\r', '\n']

theorem IsBreak.isBoundary {brk : List Char} (h : IsBreak brk) {c : Char} (hc : c ∈ brk) :
    isBoundary c = true := by
  cases h with
  | one h =>
    rw [List.mem_singleton.1 hc]
    exact h
  | pair => exact List.all_eq_true.1 (by decide : ['\r', '\n'].all Text.isBoundary = true) c hc

theorem IsBreak.ne_nil {brk : List Char} (h : IsBreak brk) : brk ≠ [] := by
  cases h <;> exact List.cons_ne_nil _ _

/-- There is no boundary in a text. -/
def IsFree (cs : List Char) : Prop := ∀ c ∈ cs, isBoundary c = false

/-- A cut that goes through a carriage return and a line feed. -/
def SplitsPair (front back : List Char) : Prop :=
  front.getLast? = some '\r' ∧ back.head? = some '\n'

section SplitsPair

variable {a b c : List Char}

theorem SplitsPair.append_front (h : SplitsPair b c) : SplitsPair (a ++ b) c :=
  ⟨by rw [List.getLast?_append, h.1]; rfl, h.2⟩

theorem SplitsPair.append_back (h : SplitsPair a b) : SplitsPair a (b ++ c) :=
  ⟨h.1, by rw [List.head?_append, h.2]; rfl⟩

theorem SplitsPair.of_append_front (h : SplitsPair (a ++ b) c) :
    SplitsPair b c ∨ b = [] ∧ SplitsPair a c := by
  rcases b.eq_nil_or_concat with rfl | ⟨init, last, rfl⟩
  · rw [List.append_nil] at h
    exact .inr ⟨rfl, h⟩
  · refine .inl ⟨?_, h.2⟩
    have := h.1
    rw [List.getLast?_append] at this
    simpa using this

theorem SplitsPair.of_append_back (h : SplitsPair a (b ++ c)) :
    SplitsPair a b ∨ b = [] ∧ SplitsPair a c := by
  cases b with
  | nil => exact .inr ⟨rfl, h⟩
  | cons d rest => exact .inl h

theorem not_splitsPair_of_isFree (h : IsFree a) : ¬ SplitsPair a b := by
  intro hsplit
  have := h _ (List.mem_of_getLast? hsplit.1)
  exact absurd this (by decide)

end SplitsPair

/-! ## Lines and their boundaries -/

section Lines

variable {line brk rest : List Char} {c : Char}

theorem lines_cons (h : ¬ SplitsPair [c] rest) :
    lines (c :: rest) =
      if isBoundary c then [] :: lines rest else prependToFirst c (lines rest) := by
  rw [lines]
  rintro _ rfl rfl
  exact h ⟨rfl, rfl⟩

theorem boundaryCount_cons (h : ¬ SplitsPair [c] rest) :
    boundaryCount (c :: rest) = boundaryCount rest + (isBoundary c).toNat := by
  rw [boundaryCount]
  rintro _ rfl rfl
  exact h ⟨rfl, rfl⟩

theorem lines_break_append (hb : IsBreak brk) (h : ¬ SplitsPair brk rest) :
    lines (brk ++ rest) = [] :: lines rest := by
  cases hb with
  | one hc => exact (lines_cons h).trans (if_pos hc)
  | pair => rfl

theorem boundaryCount_break_append (hb : IsBreak brk) (h : ¬ SplitsPair brk rest) :
    boundaryCount (brk ++ rest) = boundaryCount rest + 1 := by
  cases hb with
  | one hc =>
    refine (boundaryCount_cons h).trans ?_
    rw [hc]
    rfl
  | pair => rfl

theorem isFree_nil : IsFree [] := List.forall_mem_nil _

theorem isFree_cons : IsFree (c :: line) ↔ isBoundary c = false ∧ IsFree line :=
  List.forall_mem_cons

theorem lines_free_cons (hc : isBoundary c = false) :
    lines (c :: rest) = prependToFirst c (lines rest) := by
  rw [lines_cons (not_splitsPair_of_isFree (isFree_cons.2 ⟨hc, isFree_nil⟩)), hc]
  rfl

theorem lines_free_append {others : List (List Char)} (hfree : IsFree line)
    (h : lines rest = [] :: others) : lines (line ++ rest) = line :: others := by
  induction line with
  | nil => exact h
  | cons c line ih =>
    obtain ⟨hc, hline⟩ := isFree_cons.1 hfree
    rw [List.cons_append, lines_free_cons hc, ih hline]
    rfl

theorem boundaryCount_free_append (hfree : IsFree line) :
    boundaryCount (line ++ rest) = boundaryCount rest := by
  induction line with
  | nil => rfl
  | cons c line ih =>
    obtain ⟨hc, hline⟩ := isFree_cons.1 hfree
    rw [List.cons_append, boundaryCount_cons, ih hline, hc]
    · rfl
    · exact not_splitsPair_of_isFree (isFree_cons.2 ⟨hc, isFree_nil⟩)

theorem lines_free (hfree : IsFree line) (hne : line ≠ []) : lines line = [line] := by
  induction line with
  | nil => exact absurd rfl hne
  | cons c line ih =>
    obtain ⟨hc, hline⟩ := isFree_cons.1 hfree
    rw [lines_free_cons hc]
    cases line with
    | nil => rfl
    | cons d line => rw [ih hline (List.cons_ne_nil _ _)]; rfl

theorem lines_line_append (hfree : IsFree line) (hb : IsBreak brk) (h : ¬ SplitsPair brk rest) :
    lines (line ++ (brk ++ rest)) = line :: lines rest :=
  lines_free_append hfree (lines_break_append hb h)

theorem boundaryCount_line_append (hfree : IsFree line) (hb : IsBreak brk)
    (h : ¬ SplitsPair brk rest) :
    boundaryCount (line ++ (brk ++ rest)) = boundaryCount rest + 1 :=
  (boundaryCount_free_append hfree).trans (boundaryCount_break_append hb h)

end Lines

/-! ## Texts line by line -/

/-- A text is empty, a last line without a boundary, or a line with its boundary before a text. -/
inductive Lined : List Char → Prop
  | nil : Lined []
  | last {line : List Char} (hne : line ≠ []) (hfree : IsFree line) : Lined line
  | line {line brk rest : List Char} (hfree : IsFree line) (hb : IsBreak brk)
    (hwhole : ¬ SplitsPair brk rest) (h : Lined rest) : Lined (line ++ (brk ++ rest))

theorem Lined.cons {c : Char} {cs : List Char} (hc : isBoundary c = false) (h : Lined cs) :
    Lined (c :: cs) := by
  cases h with
  | nil => exact .last (List.cons_ne_nil _ _) (isFree_cons.2 ⟨hc, isFree_nil⟩)
  | last hne hfree => exact .last (List.cons_ne_nil _ _) (isFree_cons.2 ⟨hc, hfree⟩)
  | line hfree hb hwhole h => exact .line (isFree_cons.2 ⟨hc, hfree⟩) hb hwhole h

theorem lined (cs : List Char) : Lined cs := by
  fun_induction lines cs with
  | case1 => exact .nil
  | case2 rest ih => exact @Lined.line [] _ _ isFree_nil .pair (fun h => absurd h.1 (by decide)) ih
  | case3 c rest hpair hc ih =>
    refine @Lined.line [] _ _ isFree_nil (.one hc) (fun h => ?_) ih
    obtain ⟨tail, htail⟩ := List.head?_eq_some_iff.1 h.2
    exact hpair tail (Option.some.inj h.1) htail
  | case4 c rest _ hc ih => exact ih.cons (eq_false_of_ne_true hc)

/-- A text that ends in a boundary has as many lines as boundaries, and what follows it has its own
lines. -/
theorem lines_append {front back : List Char}
    (hends : ∀ c ∈ front.getLast?, isBoundary c = true) (hwhole : ¬ SplitsPair front back) :
    lines (front ++ back) = lines front ++ lines back ∧
      (lines front).length = boundaryCount front := by
  induction lined front with
  | nil => exact ⟨rfl, rfl⟩
  | @last line hne hfree =>
    obtain ⟨c, hc⟩ := List.getLast?_isSome.2 hne |> Option.isSome_iff_exists.1
    have := hfree c (List.mem_of_getLast? hc)
    rw [hends c hc] at this
    cases this
  | @line line brk rest hfree hb hbrk _ ih =>
    obtain ⟨hlines, hcount⟩ := ih
      (fun c hc => hends c (by rw [List.getLast?_append, List.getLast?_append, hc]; rfl))
      (fun h => hwhole h.append_front.append_front)
    -- if nothing is between the boundary and the cut, the cut is right behind it
    have hbrk' : ¬ SplitsPair brk (rest ++ back) := by
      intro h
      obtain h | ⟨rfl, h⟩ := h.of_append_back
      · exact hbrk h
      · rw [List.append_nil] at hwhole
        exact hwhole h.append_front
    rw [List.append_assoc, List.append_assoc, lines_line_append hfree hb hbrk',
      lines_line_append hfree hb hbrk, boundaryCount_line_append hfree hb hbrk, hlines,
      List.length_cons, hcount]
    exact ⟨rfl, rfl⟩

/-! ## The line of a number -/

/-- A line of a text: before it the text is at its beginning or behind a boundary, as many as its
number tells, and behind it at its end or before a boundary. At the end of the text there is no
empty line. -/
structure IsLine (text : List Char) (number : Int) (before line after : List Char) : Prop where
  text_eq : text = before ++ (line ++ after)
  before_ends : ∀ c ∈ before.getLast?, isBoundary c = true
  number_eq : (boundaryCount before : Int) = number - 1
  isFree : IsFree line
  after_starts : ∀ c ∈ after.head?, isBoundary c = true
  ne_nil : line ≠ [] ∨ after ≠ []
  whole_before : ¬ SplitsPair before (line ++ after)
  whole_after : ¬ SplitsPair (before ++ line) after

/-- No pair is split behind a line if none is before it. -/
theorem not_splitsPair_after {before line after : List Char} (hfree : IsFree line)
    (h : ¬ SplitsPair before (line ++ after)) : ¬ SplitsPair (before ++ line) after := by
  intro hsplit
  obtain hsplit | ⟨rfl, hsplit⟩ := hsplit.of_append_front
  · exact not_splitsPair_of_isFree hfree hsplit
  · rw [List.append_nil] at hsplit
    exact h hsplit

theorem lines_boundary_cons {c : Char} (hc : isBoundary c = true) (rest : List Char) :
    ∃ others, lines (c :: rest) = [] :: others := by
  by_cases h : SplitsPair [c] rest
  · obtain ⟨tail, rfl⟩ := List.head?_eq_some_iff.1 h.2
    obtain rfl : c = '\r' := Option.some.inj h.1
    exact ⟨_, rfl⟩
  · exact ⟨_, (lines_cons h).trans (if_pos hc)⟩

/-- The first line of a text ends before its first boundary. -/
theorem lines_of_starts {line after : List Char} (hfree : IsFree line)
    (hstarts : ∀ c ∈ after.head?, isBoundary c = true) (hne : line ≠ [] ∨ after ≠ []) :
    ∃ others, lines (line ++ after) = line :: others := by
  cases after with
  | nil =>
    rw [List.append_nil]
    exact ⟨[], lines_free hfree (hne.resolve_right (not_not_intro rfl))⟩
  | cons c rest =>
    obtain ⟨others, hothers⟩ := lines_boundary_cons (hstarts c rfl) rest
    exact ⟨others, lines_free_append hfree hothers⟩

/-- A line behind another one, which comes to the front of what is before it. -/
theorem IsLine.behind {text before line after line' brk : List Char} {number : Int}
    (h : IsLine text number before line after) (hfree : IsFree line') (hb : IsBreak brk)
    (hbrk : ¬ SplitsPair brk text) :
    IsLine (line' ++ (brk ++ text)) (number + 1) (line' ++ (brk ++ before)) line after := by
  rw [h.text_eq] at hbrk
  have hwhole : ¬ SplitsPair (line' ++ (brk ++ before)) (line ++ after) := by
    intro hsplit
    rw [← List.append_assoc] at hsplit
    obtain hbefore | ⟨rfl, hfront⟩ := hsplit.of_append_front
    · exact h.whole_before hbefore
    · obtain hback | ⟨hnil, -⟩ := hfront.of_append_front
      · exact hbrk hback
      · exact hb.ne_nil hnil
  refine ⟨?_, fun c hc => ?_, ?_, h.isFree, h.after_starts, h.ne_nil, hwhole,
    not_splitsPair_after h.isFree hwhole⟩
  · rw [h.text_eq]
    simp only [List.append_assoc]
  · rcases before.eq_nil_or_concat with rfl | ⟨init, last, rfl⟩
    · obtain ⟨init, last, rfl⟩ := (brk.eq_nil_or_concat).resolve_left hb.ne_nil
      obtain rfl : last = c := by simpa using hc
      exact hb.isBoundary (by simp)
    · exact h.before_ends c (by simpa using hc)
  · have hnumber := h.number_eq
    rw [boundaryCount_line_append hfree hb fun hsplit => hbrk hsplit.append_back]
    omega

theorem exists_isLine_of_getElem? {text line : List Char} {index : Nat}
    (h : (lines text)[index]? = some line) :
    ∃ before after, IsLine text (index + 1) before line after := by
  induction lined text generalizing index with
  | nil => cases h
  | @last line' hne hfree =>
    rw [lines_free hfree hne] at h
    cases index with
    | zero =>
      obtain rfl := Option.some.inj h
      exact ⟨[], [], (List.append_nil _).symm, nofun, rfl, hfree, nofun, .inl hne, nofun, nofun⟩
    | succ index => cases h
  | @line line' brk rest hfree hb hbrk _ ih =>
    rw [lines_line_append hfree hb hbrk] at h
    cases index with
    | zero =>
      -- the first line, which ends at its own boundary
      obtain rfl := Option.some.inj h
      refine ⟨[], brk ++ rest, rfl, nofun, rfl, hfree, fun c hc => ?_, .inr ?_, nofun, ?_⟩
      · obtain ⟨d, tail, rfl⟩ := List.exists_cons_of_ne_nil hb.ne_nil
        obtain rfl : d = c := Option.some.inj hc
        exact hb.isBoundary (List.mem_cons_self ..)
      · exact List.append_ne_nil_of_left_ne_nil hb.ne_nil rest
      · exact not_splitsPair_of_isFree hfree
    | succ index =>
      obtain ⟨before, after, hline⟩ := ih h
      exact ⟨_, after, hline.behind hfree hb hbrk⟩

theorem getElem?_of_isLine {text before line after : List Char} {number : Int}
    (h : IsLine text number before line after) :
    1 ≤ number ∧ (lines text)[number.toNat - 1]? = some line := by
  obtain ⟨hlines, hlength⟩ := lines_append h.before_ends h.whole_before
  obtain ⟨others, hothers⟩ := lines_of_starts h.isFree h.after_starts h.ne_nil
  have hnumber := h.number_eq
  refine ⟨by omega, ?_⟩
  have hindex : number.toNat - 1 = (lines before).length := by omega
  rw [h.text_eq, hlines, hothers, hindex, List.getElem?_append_right (Nat.le_refl _), Nat.sub_self]
  rfl

theorem lineAt?_eq_some_iff {text line : String} {number : Int} :
    lineAt? text number = some line ↔
      1 ≤ number ∧ ∃ before after, IsLine text.toList number before line.toList after := by
  unfold lineAt?
  split
  · next hlt => exact iff_of_false nofun fun h => absurd h.1 (by omega)
  · next hge =>
    rw [Option.map_eq_some_iff]
    constructor
    · rintro ⟨cs, hcs, rfl⟩
      have hnumber : ((number.toNat - 1 : Nat) : Int) + 1 = number := by omega
      obtain ⟨before, after, h⟩ := exists_isLine_of_getElem? hcs
      rw [hnumber] at h
      rw [String.toList_ofList]
      exact ⟨by omega, before, after, h⟩
    · rintro ⟨-, before, after, h⟩
      exact ⟨line.toList, (getElem?_of_isLine h).2, String.ofList_toList⟩

/-- A text is made up of its lines and their boundaries; the last line may be without one, but then
it is not empty. -/
theorem exists_full_lines (text : List Char) :
    ∃ (full : List (List Char × List Char)) (last : List Char),
      full.flatMap (fun line => line.1 ++ line.2) ++ last = text ∧
      lines text = full.map Prod.fst ++ (if last = [] then [] else [last]) ∧
      (∀ line ∈ full, IsFree line.1 ∧ IsBreak line.2) ∧ IsFree last := by
  induction lined text with
  | nil => exact ⟨[], [], rfl, rfl, nofun, isFree_nil⟩
  | @last line hne hfree =>
    refine ⟨[], line, rfl, ?_, nofun, hfree⟩
    rw [lines_free hfree hne, if_neg hne]
    rfl
  | @line line brk rest hfree hb hbrk _ ih =>
    obtain ⟨full, last, hrest, hlines, hfull, hlast⟩ := ih
    refine ⟨(line, brk) :: full, last, ?_, ?_,
      List.forall_mem_cons.2 ⟨⟨hfree, hb⟩, hfull⟩, hlast⟩
    · rw [← hrest]
      simp only [List.flatMap_cons, List.append_assoc]
    · rw [lines_line_append hfree hb hbrk, hlines]
      rfl

end Text

/-! ## Errors and their sources -/

namespace RuntimeError

theorem sourceLine?_eq_some_iff {e : RuntimeError} {line : String} :
    e.sourceLine? = some line ↔
      ∃ source n, e.source = some source ∧ e.line? = some n ∧ 1 ≤ n ∧
        ∃ before after, Text.IsLine source.toList n before line.toList after := by
  unfold sourceLine?
  split
  · next source n hsource hn =>
    rw [Text.lineAt?_eq_some_iff]
    constructor
    · intro h
      exact ⟨source, n, hsource, hn, h⟩
    · rintro ⟨source', n', hsource', hn', h⟩
      cases hsource.symm.trans hsource'
      cases hn.symm.trans hn'
      exact h
  · next hnone =>
    refine iff_of_false nofun ?_
    rintro ⟨source, n, hsource, hn, -⟩
    exact hnone source n hsource hn

end RuntimeError

/-! ## What a program reports -/

/-- Of the statements that are executed on a transcript the one at an index raises an error, and
those before it succeed; so much is written by then. -/
inductive Raises (context : Context) :
    List Object → Transcript → Nat → Object → RuntimeError → Transcript → Prop
  | here {s : Object} {rest : List Object} {t u : Transcript} {e : RuntimeError}
    (h : (exec context s).start (t.note (statementEntry s.logName)) = (.error (.runtime e), u)) :
    Raises context (s :: rest) t 0 s e u
  | later {s raising : Object} {rest : List Object} {t u v : Transcript} {index : Nat}
    {e : RuntimeError}
    (h : (exec context s).start (t.note (statementEntry s.logName)) = (.ok (), u))
    (hrest : Raises context rest u index raising e v) :
    Raises context (s :: rest) t (index + 1) raising e v

section Reports

variable {context : Context}

/-- A program in which a statement raises an error stops at that statement. -/
theorem Raises.stops {statements : List Object} {t u : Transcript} {index : Nat}
    {s : Object} {e : RuntimeError} (h : Raises context statements t index s e u)
    (executed : Nat) :
    (Clause.runFrom context executed (clauses context statements)).start t =
      stopAt context (executed + index) s u (.runtime e) := by
  induction h generalizing executed with
  | here h =>
    rw [start_runFrom, h]
    rfl
  | @later _ _ _ _ _ _ index _ h _ ih =>
    have hcount : executed + (index + 1) = executed + 1 + index := by omega
    rw [start_runFrom, h, hcount]
    exact ih (executed + 1)

/-- A program that ends with an error has a statement that raises one. -/
theorem exists_raises {statements : List Object} {executed : Nat} {summary : Summary}
    {t t' : Transcript} {e' : RuntimeError}
    (h : (Clause.runFrom context executed (clauses context statements)).start t =
      (.ok summary, t')) (he : summary.error = some e') :
    ∃ index s e u, Raises context statements t index s e u := by
  induction statements generalizing executed t with
  | nil =>
    cases h
    cases he
  | cons s rest ih =>
    rw [start_runFrom] at h
    rcases hs : (exec context s).start (t.note (statementEntry s.logName)) with ⟨f | _, u⟩
    · rw [hs] at h
      cases f with
      | runtime e => exact ⟨0, s, e, u, .here hs⟩
      | _ => cases h
    · rw [hs] at h
      obtain ⟨index, raising, e, v, hraises⟩ := ih h
      exact ⟨index + 1, raising, e, v, .later hs hraises⟩

theorem start_interpret_raises_iff {statements : List Object} {t t' : Transcript} {k : Nat}
    {e' : RuntimeError} :
    (interpret context statements).start t = (.ok ⟨k, some e'⟩, t') ↔
      ∃ s e u, Raises context statements (t.note (programEntry statements.length)) k s e u ∧
        e' = e.withSource context.source ∧
        t' = (u.note (errorEntry (k + 1) s.logName e')).report context.reporter
          ⟨e', context.trace? (execTrace context s)⟩ := by
  rw [start_interpret]
  constructor
  · intro h
    obtain ⟨index, s, e, u, hraises⟩ := exists_raises h rfl
    rw [hraises.stops, Nat.zero_add] at h
    cases h
    exact ⟨s, e, u, hraises, rfl, rfl⟩
  · rintro ⟨s, e, u, hraises, rfl, rfl⟩
    rw [hraises.stops, Nat.zero_add]
    rfl

end Reports

/-- **An error shows the line that its number counts to.** The line stands in the error's source
behind as many boundaries as its number tells and holds none itself, and together with their
boundaries the lines make up the source. The error that ends a program is the one that a statement
has raised after those before it succeeded; it is logged and reported, and nothing else is written
then. It is reported with its own source if it has one, even an empty one, and with that of the
program otherwise, and shows a line of that. -/
theorem source_lines_exact :
    (∀ (e : RuntimeError) (line : String), e.sourceLine? = some line ↔
      ∃ source n, e.source = some source ∧ e.line? = some n ∧ 1 ≤ n ∧
        ∃ before after, Text.IsLine source.toList n before line.toList after) ∧
    (∀ source : String, ∃ (full : List (List Char × List Char)) (last : List Char),
      full.flatMap (fun line => line.1 ++ line.2) ++ last = source.toList ∧
      Text.lines source.toList = full.map Prod.fst ++ (if last = [] then [] else [last]) ∧
      (∀ line ∈ full, Text.IsFree line.1 ∧ Text.IsBreak line.2) ∧ Text.IsFree last) ∧
    (∀ (context : Context) (statements : List Object) (t t' : Transcript) (k : Nat)
      (e' : RuntimeError),
      (interpret context statements).start t = (.ok ⟨k, some e'⟩, t') ↔
        ∃ s e u, Raises context statements (t.note (programEntry statements.length)) k s e u ∧
          e' = e.withSource context.source ∧
          t' = {
            printed := u.printed
            log := u.log ++ ["runtime error in statement " ++ toString (k + 1) ++
              " (" ++ s.logName ++ "): " ++ e'.text]
            reports := u.reports ++ [e']
            toConsole := context.reporter.receive
              ⟨e', context.trace? (execTrace context s)⟩ u.toConsole }) ∧
    ∀ (e : RuntimeError) (source : Option String),
      (e.withSource source).source = (match e.source with
        | some own => some own
        | none => source) ∧
      ∀ line, (e.withSource source).sourceLine? = some line →
        ∃ text n, e.source.or source = some text ∧ e.line? = some n ∧
          Text.lineAt? text n = some line ∧ Text.IsFree line.toList := by
  refine ⟨fun _ _ => RuntimeError.sourceLine?_eq_some_iff,
    fun source => Text.exists_full_lines source.toList,
    fun _ _ _ _ _ _ => start_interpret_raises_iff, fun e source => ⟨?_, fun line h => ?_⟩⟩
  · rw [RuntimeError.withSource]
    cases e.source <;> rfl
  · obtain ⟨text, n, htext, hn, hpos, before, after, hline⟩ :=
      RuntimeError.sourceLine?_eq_some_iff.1 h
    exact ⟨text, n, htext, hn, Text.lineAt?_eq_some_iff.2 ⟨hpos, before, after, hline⟩,
      hline.isFree⟩

/-- The third line is behind a pair and a separator, which are two boundaries. -/
theorem source_lines_exact_third :
    (RuntimeError.mk (.token { kind := "PLUS", text := "+", line := some 3 }) "failed"
      (some "a\r\n\u2028b")).sourceLine? = some "b" := by
  refine (source_lines_exact.1 _ _).2 ⟨_, 3, rfl, rfl, by decide, "a\r\n\u2028".toList, [], ?_⟩
  refine ⟨rfl, fun c hc => ?_, rfl, fun c hc => ?_, nofun, .inl (by decide), ?_, ?_⟩
  · obtain rfl := Option.some.inj hc
    decide
  · rw [List.mem_singleton.1 hc]
    decide
  · exact fun h => absurd h.1 (by decide)
  · exact fun h => absurd h.2 nofun

end TreeWalk
