import TreeWalk.Proofs.Equality
import TreeWalk.Proofs.Origins

/-!
# Lexemes and the messages about other texts

An operator's token is made of its lexeme, and of no other text. The message about any other text
quotes it, and what is quoted can be read back: a backslash never stands for itself alone, and the
letter behind it tells how many digits there are. So the text is known from the message, for any set
of printable characters.

* `Text.codeOf` : the number that hexadecimal digits denote (`Text.codeOf_hexadecimal`);
* `Text.readChar?`, `Text.readQuoted?` : readers of what `Text.escape` and `Text.quote` write, with
  anything behind it (`Text.readChar?_escape`, `Text.readQuoted?_quote`);
* `Text.named`, `Text.lexemeComplaint` : how a text is named in messages, and the message that it is
  no lexeme, with its reader;
* `Token.Marks` : the token of an operator's lexeme at a place;
* `lexemes_known_from_complaints` : which texts are lexemes, and what is said about all others.
-/

namespace TreeWalk

namespace Text

/-! ## Hexadecimal digits -/

/-- The number that hexadecimal digits denote, the highest first. -/
def codeOf (digits : List Char) : Nat :=
  digits.foldl (fun n d => 16 * n + "0123456789abcdef".toList.idxOf d) 0

theorem codeOf_append_singleton (digits : List Char) (d : Char) :
    codeOf (digits ++ [d]) = 16 * codeOf digits + "0123456789abcdef".toList.idxOf d := by
  rw [codeOf, List.foldl_append]
  rfl

theorem idxOf_digitChar {n : Nat} (h : n < 16) :
    "0123456789abcdef".toList.idxOf (Nat.digitChar n) = n := by
  have hall : ∀ n < 16, "0123456789abcdef".toList.idxOf (Nat.digitChar n) = n := by decide
  exact hall n h

theorem codeOf_toDigits (n : Nat) : codeOf (Nat.toDigits 16 n) = n := by
  induction n using Nat.strongRecOn with
  | ind n ih =>
    rcases Nat.lt_or_ge n 16 with hn | hn
    · rw [Nat.toDigits_of_lt_base hn, ← List.nil_append [_], codeOf_append_singleton,
        idxOf_digitChar hn]
      exact Nat.zero_add n
    · rw [Nat.toDigits_of_base_le (by decide) hn, codeOf_append_singleton, ih (n / 16) (by omega),
        idxOf_digitChar (Nat.mod_lt n (by decide))]
      omega

theorem codeOf_hexadecimal (width n : Nat) : codeOf (hexadecimal width n) = n := by
  have hzeros : ∀ (zeros : Nat) (digits : List Char),
      codeOf (List.replicate zeros '0' ++ digits) = codeOf digits := by
    intro zeros digits
    induction zeros with
    | zero => rfl
    | succ zeros ih => exact ih
  rw [hexadecimal, hzeros, codeOf_toDigits]

theorem length_hexadecimal {width n : Nat} (hwidth : 0 < width) (h : n < 16 ^ width) :
    (hexadecimal width n).length = width := by
  have := (Nat.length_toDigits_le_iff (b := 16) (by decide) hwidth).2 h
  simp only [hexadecimal, List.length_append, List.length_replicate]
  omega

/-! ## Quoted characters -/

/-- The character of a code in a number of digits, and what is behind them. -/
def readCode? (width : Nat) (cs : List Char) : Option (Char × List Char) :=
  if cs.length < width then none else some (Char.ofNat (codeOf (cs.take width)), cs.drop width)

/-- The number of digits that a letter behind a backslash announces. -/
def escapeWidth? : Char → Option Nat
  | 'x' => some 2
  | 'u' => some 4
  | 'U' => some 8
  | _ => none

/-- The character that any other letter stands for behind a backslash. -/
def escapedBy : Char → Char
  | 'n' => '\n'
  | 'r' => '\r'
  | 't' => '\t'
  | c => c

/-- The character that is written behind a backslash. -/
def readEscape? : List Char → Option (Char × List Char)
  | [] => none
  | letter :: rest =>
    match escapeWidth? letter with
    | some width => readCode? width rest
    | none => some (escapedBy letter, rest)

/-- The first character of what is quoted, and what is behind it. -/
def readChar? : List Char → Option (Char × List Char)
  | [] => none
  | c :: rest => if c = '\\' then readEscape? rest else some (c, rest)

/-- The marks that texts are quoted by. -/
def IsMark (mark : Char) : Prop := mark = apostrophe ∨ mark = quotationMark

instance (mark : Char) : Decidable (IsMark mark) := inferInstanceAs (Decidable (_ ∨ _))

section Characters

variable {printable : Char → Bool} {mark c : Char} {rest : List Char}

theorem readCode?_hexadecimal {width : Nat} (hwidth : 0 < width) (h : c.toNat < 16 ^ width) :
    readCode? width (hexadecimal width c.toNat ++ rest) = some (c, rest) := by
  have hlength := length_hexadecimal hwidth h
  have hlong : ¬(hexadecimal width c.toNat ++ rest).length < width := by
    rw [List.length_append, hlength]
    omega
  rw [readCode?, if_neg hlong, List.take_left' hlength, List.drop_left' hlength,
    codeOf_hexadecimal, Char.ofNat_toNat]

theorem exists_escapeCode (c : Char) : ∃ text, escapeCode c = '\\' :: text ∧
    ∀ rest, readEscape? (text ++ rest) = some (c, rest) := by
  unfold escapeCode
  split_ifs with htwo hfour
  · exact ⟨_, rfl, fun _ => readCode?_hexadecimal (by decide) htwo⟩
  · exact ⟨_, rfl, fun _ => readCode?_hexadecimal (by decide) hfour⟩
  · have height : c.toNat < 16 ^ 8 := c.val.toNat_lt
    exact ⟨_, rfl, fun _ => readCode?_hexadecimal (by decide) height⟩

/-- A character stands for itself or is written behind a backslash, from where it can be read. -/
theorem escape_cases (hmark : IsMark mark) :
    (c ≠ mark ∧ c ≠ '\\' ∧ escape printable mark c = [c]) ∨
      ∃ text, escape printable mark c = '\\' :: text ∧
        ∀ rest, readEscape? (text ++ rest) = some (c, rest) := by
  unfold escape
  split_ifs with hself hline hreturn htab hprintable
  · refine .inr ⟨[c], rfl, fun rest => ?_⟩
    have hc : IsMark c ∨ c = '\\' := hself.imp_left fun h : c = mark => h ▸ hmark
    obtain (rfl | rfl) | rfl := hc <;> rfl
  · exact .inr ⟨_, rfl, fun rest => by rw [hline]; rfl⟩
  · exact .inr ⟨_, rfl, fun rest => by rw [hreturn]; rfl⟩
  · exact .inr ⟨_, rfl, fun rest => by rw [htab]; rfl⟩
  · obtain ⟨hne, hslash⟩ := not_or.1 hself
    exact .inl ⟨hne, hslash, rfl⟩
  · exact .inr (exists_escapeCode c)

theorem readChar?_escape (hmark : IsMark mark) :
    readChar? (escape printable mark c ++ rest) = some (c, rest) := by
  obtain ⟨-, hslash, htext⟩ | ⟨text, htext, hread⟩ := escape_cases (c := c) hmark
  · rw [htext]
    exact if_neg hslash
  · rw [htext]
    exact hread rest

theorem head_escape_ne (hmark : IsMark mark) :
    (escape printable mark c ++ rest).head? ≠ some mark := by
  obtain ⟨hne, -, htext⟩ | ⟨text, htext, -⟩ := escape_cases (c := c) hmark
  · rw [htext]
    exact fun h => hne (Option.some.inj h)
  · rw [htext]
    intro h
    obtain rfl := Option.some.inj h
    exact absurd hmark (by decide)

end Characters

/-! ## Quoted texts -/

section Lengths

variable {c : Char} {cs rest : List Char}

theorem length_le_of_readCode? {width : Nat} (h : readCode? width cs = some (c, rest)) :
    rest.length ≤ cs.length := by
  unfold readCode? at h
  split at h
  · cases h
  · cases h
    rw [List.length_drop]
    exact Nat.sub_le _ _

theorem length_le_of_readEscape? (h : readEscape? cs = some (c, rest)) :
    rest.length ≤ cs.length := by
  cases cs with
  | nil => cases h
  | cons letter behind =>
    rw [readEscape?] at h
    refine Nat.le_succ_of_le ?_
    split at h
    · exact length_le_of_readCode? h
    · cases h
      exact Nat.le_refl _

theorem length_lt_of_readChar? (h : readChar? cs = some (c, rest)) : rest.length < cs.length := by
  cases cs with
  | nil => cases h
  | cons d behind =>
    rw [readChar?] at h
    refine Nat.lt_succ_of_le ?_
    split at h
    · exact length_le_of_readEscape? h
    · cases h
      exact Nat.le_refl _

end Lengths

/-- The text up to a mark that is not escaped, and what is behind the mark. -/
def readUpTo? (mark : Char) (cs : List Char) : Option (List Char × List Char) :=
  if cs.head? = some mark then some ([], cs.tail)
  else
    match _h : readChar? cs with
    | none => none
    | some (c, rest) => (readUpTo? mark rest).map fun (text, behind) => (c :: text, behind)
termination_by cs.length
decreasing_by exact length_lt_of_readChar? ‹_›

/-- The text that is quoted at the front, and what is behind it. -/
def readQuoted? : List Char → Option (List Char × List Char)
  | [] => none
  | mark :: rest => if IsMark mark then readUpTo? mark rest else none

section Texts

variable (printable : Char → Bool)

theorem readUpTo?_escape {mark : Char} (hmark : IsMark mark) (cs rest : List Char) :
    readUpTo? mark (cs.flatMap (escape printable mark) ++ mark :: rest) = some (cs, rest) := by
  induction cs with
  | nil =>
    rw [readUpTo?]
    exact if_pos rfl
  | cons c cs ih =>
    rw [List.flatMap_cons, List.append_assoc, readUpTo?, if_neg (head_escape_ne hmark)]
    split
    · next h =>
      rw [readChar?_escape hmark] at h
      cases h
    · next h =>
      rw [readChar?_escape hmark] at h
      cases h
      rw [ih]
      rfl

theorem isMark_markFor (cs : List Char) : IsMark (markFor cs) := by
  unfold markFor
  split
  · exact .inr rfl
  · exact .inl rfl

/-- A quoted text is read back, whatever is behind it. -/
theorem readQuoted?_quote (cs rest : List Char) :
    readQuoted? (quote printable cs ++ rest) = some (cs, rest) := by
  have hmark := isMark_markFor cs
  have hread := readUpTo?_escape printable hmark cs rest
  rw [quote, List.cons_append, List.append_assoc, List.singleton_append, readQuoted?,
    if_pos hmark, hread]

end Texts

/-! ## Names of texts in messages -/

/-- How a text is named: between marks, and together with its kind if it is a token's. -/
def named (printable : Char → Bool) (text : String) : Option String → List Char
  | none => quote printable text.toList
  | some kind =>
    "Token(".toList ++ (quote printable kind.toList ++
      (", ".toList ++ (quote printable text.toList ++ [')'])))

/-- The text that is named, with the kind of a token. -/
def readNamed? (cs : List Char) : Option (String × Option String) :=
  if "Token(".toList.isPrefixOf cs then do
    let (kind, rest) ← readQuoted? (cs.drop "Token(".length)
    let (text, _) ← readQuoted? (rest.drop ", ".length)
    some (String.ofList text, some (String.ofList kind))
  else
    (readQuoted? cs).map fun (text, _) => (String.ofList text, none)

/-- The message about a text that is no lexeme. -/
def lexemeComplaint (printable : Char → Bool) (text : String) (kind : Option String) : String :=
  "Unknown operator lexeme " ++ String.ofList (named printable text kind)

/-- The text that a message is about. -/
def readComplaint? (message : String) : Option (String × Option String) :=
  readNamed? (message.toList.drop "Unknown operator lexeme ".length)

section Names

variable {printable : Char → Bool} {text : String} {kind : Option String}

theorem readNamed?_named : readNamed? (named printable text kind) = some (text, kind) := by
  cases kind with
  | none =>
    have hquote := readQuoted?_quote printable text.toList []
    have hprefix : "Token(".toList.isPrefixOf (quote printable text.toList) = false := by
      have htoken : "Token(".toList = 'T' :: "oken(".toList := by decide
      have hmark : ('T' == markFor text.toList) = false := by
        obtain h | h := isMark_markFor text.toList <;> rw [h] <;> decide
      rw [htoken, quote, List.isPrefixOf_cons_cons, hmark, Bool.false_and]
    rw [List.append_nil] at hquote
    change readNamed? (quote printable text.toList) = some (text, none)
    rw [readNamed?, hprefix, if_neg Bool.false_ne_true, hquote]
    simp only [Option.map_some, String.ofList_toList]
  | some kind =>
    have hprefix : "Token(".toList.isPrefixOf (named printable text (some kind)) = true :=
      List.isPrefixOf_iff_prefix.2 (List.prefix_append _ _)
    rw [readNamed?, if_pos hprefix]
    unfold named
    simp only [Option.bind_eq_bind, Option.bind_some, List.drop_left' String.length_toList,
      readQuoted?_quote, String.ofList_toList]

theorem drop_toList_append (front : String) (cs : List Char) :
    (front ++ String.ofList cs).toList.drop front.length = cs := by
  rw [String.toList_append, String.toList_ofList, List.drop_left' String.length_toList]

theorem readComplaint?_lexemeComplaint :
    readComplaint? (lexemeComplaint printable text kind) = some (text, kind) := by
  unfold lexemeComplaint
  rw [readComplaint?, drop_toList_append, readNamed?_named]

end Names

end Text

/-! ## Lexemes -/

theorem Operator.exists_lexeme_iff {text : String} : (∃ op : Operator, op.lexeme = text) ↔
    text ∈ ["!", "-", "+", "/", "*", ">", ">=", "<", "<=", "!=", "=="] := by
  have hall : Operator.all.map lexeme =
      ["!", "-", "+", "/", "*", ">", ">=", "<", "<=", "!=", "=="] := rfl
  rw [← hall, List.mem_map]
  exact ⟨fun ⟨op, h⟩ => ⟨op, mem_all op, h⟩, fun ⟨op, _, h⟩ => ⟨op, h⟩⟩

/-- The token of a lexeme that begins at a place. It stands for the operator of the lexeme, and ends
as far behind its beginning as the lexeme is long. -/
structure Token.Marks (t : Token) (lexeme : String) (line column : Int) (start : Option Int) :
    Prop where
  text : t.text = lexeme
  operator : ∀ op, (Object.token t).operator? = some op ↔ op.lexeme = lexeme
  begins : t.line = some line ∧ t.column = some column ∧ t.startPos = start
  endLine : t.endLine = some line
  endColumn : ∃ last, t.endColumn = some last ∧ last - column = lexeme.length
  endPos : ∀ first, start = some first → ∃ last, t.endPos = some last ∧ last - first = lexeme.length
  noEndPos : t.endPos = none ↔ start = none

theorem Token.marks_ofOperator (op : Operator) (line column : Int) (start : Option Int) :
    (ofOperator op line column start).Marks op.lexeme line column start where
  text := rfl
  operator op' := by
    have hkind : (Object.token (ofOperator op line column start)).operator? = some op :=
      Operator.ofName?_name op
    rw [hkind, Option.some_inj]
    exact ⟨fun h => h ▸ rfl, fun h => (Operator.lexeme_inj h).symm⟩
  begins := ⟨rfl, rfl, rfl⟩
  endLine := rfl
  endColumn := ⟨_, rfl, by omega⟩
  endPos := by
    rintro first rfl
    refine ⟨first + op.lexeme.length, rfl, ?_⟩
    omega
  noEndPos := Option.map_eq_none_iff

section Texts

variable {o : Object} {text : String} {kind : Option String}

theorem Object.written_of_asText? (h : o.asText? = some (text, kind)) :
    o.written = String.ofList (Text.named Text.isPrintable text kind) := by
  unfold Object.asText? at h
  split at h
  · cases h
    rfl
  · cases h
    unfold Text.named
    rw [Object.written, Token.written, Text.quoted, Text.quoted, String.ofList_append,
      String.ofList_append, String.ofList_append, String.ofList_append, String.ofList_toList,
      String.ofList_toList]
    simp only [String.append_assoc]
  · cases h

theorem Object.namedOperator_of_asText? (h : o.asText? = some (text, kind)) :
    o.namedOperator = match Operator.ofLexeme? text with
      | some op => .ok op
      | none => .error (.unknownLexeme o) := by
  unfold Object.asText? at h
  split at h
  · cases h
    rfl
  · cases h
    rfl
  · cases h

theorem Token.ofObject_of_asText? (h : o.asText? = some (text, kind)) (line column : Int)
    (start : Option Int) :
    ofObject o line column start = match Operator.ofLexeme? text with
      | some op => .ok (ofOperator op line column start)
      | none => .error (.unknownLexeme o) := by
  rw [ofObject, Object.namedOperator_of_asText? h]
  cases Operator.ofLexeme? text <;> rfl

theorem Failure.message_unknownLexeme (h : o.asText? = some (text, kind)) :
    (Failure.unknownLexeme o).message = Text.lexemeComplaint Text.isPrintable text kind :=
  congrArg ("Unknown operator lexeme " ++ ·) (Object.written_of_asText? h)

end Texts

open Text

/-- **A text is a lexeme or known from the message that it is none.** A token is made of a text, or
of a token's text, if and only if it is one of the eleven lexemes; it stands for the one operator of
that lexeme, and its end is told by the length. About any other text there is a message that quotes
it. For any set of printable characters the text can be read from that message, so that different
texts, and tokens of different kinds, have different messages. -/
theorem lexemes_known_from_complaints :
    (∀ (o : Object) (text : String) (kind : Option String), o.asText? = some (text, kind) →
      ∀ (line column : Int) (start : Option Int),
        ((∃ t, Token.ofObject o line column start = .ok t) ↔
          text ∈ ["!", "-", "+", "/", "*", ">", ">=", "<", "<=", "!=", "=="]) ∧
        (∀ t, Token.ofObject o line column start = .ok t → t.Marks text line column start) ∧
        (text ∉ ["!", "-", "+", "/", "*", ">", ">=", "<", "<=", "!=", "=="] →
          ∃ f, Token.ofObject o line column start = .error f ∧ f.category = .value ∧
            f.message = lexemeComplaint isPrintable text kind)) ∧
    (∀ (printable : Char → Bool) (text : String) (kind : Option String),
      readComplaint? (lexemeComplaint printable text kind) = some (text, kind)) ∧
    ∀ (printable : Char → Bool) (text text' : String) (kind kind' : Option String),
      lexemeComplaint printable text kind = lexemeComplaint printable text' kind' →
        text = text' ∧ kind = kind' := by
  refine ⟨fun o text kind h line column start => ?_,
    fun _ _ _ => readComplaint?_lexemeComplaint, fun printable text text' kind kind' heq => ?_⟩
  · rw [← Operator.exists_lexeme_iff, Token.ofObject_of_asText? h]
    cases hop : Operator.ofLexeme? text with
    | some op =>
      obtain rfl := Operator.lexeme_of_ofLexeme? hop
      refine ⟨⟨fun _ => ⟨op, rfl⟩, fun _ => ⟨_, rfl⟩⟩, fun t ht => ?_, fun hno => ?_⟩
      · cases ht
        exact Token.marks_ofOperator op line column start
      · exact absurd ⟨op, rfl⟩ hno
    | none =>
      have hno : ¬∃ op : Operator, op.lexeme = text := by
        rintro ⟨op, hlexeme⟩
        rw [Operator.ofLexeme?_eq_some_iff.2 hlexeme] at hop
        cases hop
      refine ⟨⟨fun ⟨t, ht⟩ => ?_, fun hlexeme => absurd hlexeme hno⟩, fun t ht => ?_, fun _ => ?_⟩
      · cases ht
      · cases ht
      · exact ⟨_, rfl, rfl, Failure.message_unknownLexeme h⟩
  · have hread := congrArg readComplaint? heq
    rw [readComplaint?_lexemeComplaint, readComplaint?_lexemeComplaint] at hread
    cases hread
    exact ⟨rfl, rfl⟩

/-- A lexeme of two characters, and a text that holds both marks, a backslash and a line feed. -/
theorem lexemes_known_from_complaints_at_marks :
    (∃ t, Token.ofObject (.plain (.text ">=")) (some 3) (some (-5)) (some 7) = .ok t ∧
      t.Marks ">=" 3 (-5) (some 7)) ∧
    (∃ f, Token.ofObject (.plain (.text "'\"\\\n")) (some 1) (some 1) none = .error f ∧
      f.category = .value ∧ f.message = lexemeComplaint isPrintable "'\"\\\n" none) ∧
    readComplaint? (lexemeComplaint isPrintable "'\"\\\n" none) = some ("'\"\\\n", none) := by
  obtain ⟨hlexemes, hread, -⟩ := lexemes_known_from_complaints
  obtain ⟨hiff, hmarks, -⟩ := hlexemes (.plain (.text ">=")) ">=" none rfl 3 (-5) (some 7)
  obtain ⟨t, ht⟩ := hiff.2 (by decide)
  obtain ⟨-, -, herror⟩ := hlexemes (.plain (.text "'\"\\\n")) _ none rfl 1 1 none
  exact ⟨⟨t, ht, hmarks t ht⟩, herror (by decide), hread _ _ _⟩

end TreeWalk
