import TreeWalk.Blueprint
import TreeWalk.Object.Render
import TreeWalk.Proofs.Variants
import TreeWalk.Proofs.Words

/-!
# Renderings are unambiguous

The rendering of a well-formed expression is a prefix code. Where a part of it ends can be seen from
the part itself: values end where their texts do, and all else stands in parentheses with the name
of its form or its operator, behind which one part or two can be told apart. So a rendering has one
reading, up to what it does not show.

* `WellFormed`, `WellFormedNode` : expressions of the four forms, and statements over them;
* `SameNode` : the same node up to the places of tokens and a relation on values; such nodes are
  rendered the same if their values have the same texts (`SameNode.render`);
* `Object.spelling` : the characters of a rendering, form by form (`spelling_literal`, …);
* `spelling_append_inj` : a spelling at the beginning of a text is the only one there;
* `render_unambiguous` : nodes with the same rendering are the same.
-/

namespace TreeWalk

/-! ## Parentheses -/

/-- A name and what follows it in parentheses. -/
def enclosed (name : String) (inside : List Char) : List Char :=
  '(' :: (name.toList ++ ' ' :: (inside ++ [')']))

theorem enclosed_append_inj {name name' : String} {p q r s : List Char}
    (hname : ' ' ∉ name.toList) (hname' : ' ' ∉ name'.toList)
    (h : enclosed name p ++ r = enclosed name' q ++ s) :
    name = name' ∧ p ++ ')' :: r = q ++ ')' :: s := by
  simp only [enclosed, List.cons_append, List.append_assoc, List.nil_append, List.cons.injEq,
    true_and] at h
  obtain ⟨heq, htail⟩ := append_inj_of_mark hname hname' h
  exact ⟨String.toList_inj.1 heq, htail⟩

namespace Object

theorem parenthesize_one (name : String) {cs : List Char} (h : cs ≠ []) :
    parenthesize name [.ok (String.ofList cs)] = .ok (String.ofList (enclosed name cs)) := by
  have hne : (String.ofList cs).isEmpty = false := by
    rw [Bool.eq_false_iff]
    intro hempty
    have := congrArg String.toList (String.isEmpty_iff.1 hempty)
    rw [String.toList_ofList] at this
    exact h this
  change Except.ok (if (String.ofList cs).isEmpty then "(" ++ name ++ ")"
    else "(" ++ name ++ " " ++ String.ofList cs ++ ")") = _
  rw [hne]
  congr 1
  apply String.toList_inj.1
  simp [enclosed]

theorem parenthesize_two (name : String) (cs ds : List Char) :
    parenthesize name [.ok (String.ofList cs), .ok (String.ofList ds)] =
      .ok (String.ofList (enclosed name (cs ++ ' ' :: ds))) := by
  have hjoin : String.ofList cs ++ " " ++ String.ofList ds = String.ofList (cs ++ ' ' :: ds) := by
    apply String.toList_inj.1
    simp
  rw [← parenthesize_one name (by simp), ← hjoin]
  rfl

end Object

/-! ## Well-formed nodes -/

/-- An expression of the four forms over literals with values that are allowed; each operator is a
token with the name and the lexeme of an operator that fits the form. -/
inductive WellFormed (allowed : Value → Prop) : Object → Prop
  | literal {v : Value} (h : allowed v) : WellFormed allowed (.node .literal [.value v])
  | grouping {e : Object} (h : WellFormed allowed e) : WellFormed allowed (.node .grouping [e])
  | unary {t : Token} {op : Operator} {e : Object} (kind : t.kind = op.name)
    (text : t.text = op.lexeme) (hop : op.isUnary) (h : WellFormed allowed e) :
    WellFormed allowed (.node .unary [.token t, e])
  | binary {t : Token} {op : Operator} {a b : Object} (kind : t.kind = op.name)
    (text : t.text = op.lexeme) (hop : op.isBinary) (ha : WellFormed allowed a)
    (hb : WellFormed allowed b) : WellFormed allowed (.node .binary [a, .token t, b])

/-- Such an expression, or one of the two statements over it. -/
inductive WellFormedNode (allowed : Value → Prop) : Object → Prop
  | bare {e : Object} (h : WellFormed allowed e) : WellFormedNode allowed e
  | expression {e : Object} (h : WellFormed allowed e) : WellFormedNode allowed e.expression
  | print {e : Object} (h : WellFormed allowed e) : WellFormedNode allowed e.print

/-- The same node up to the places of tokens and up to values that are the same. -/
inductive SameNode (same : Value → Value → Prop) : Object → Object → Prop
  | literal {v w : Value} (h : same v w) :
    SameNode same (.node .literal [.value v]) (.node .literal [.value w])
  | grouping {a b : Object} (h : SameNode same a b) :
    SameNode same (.node .grouping [a]) (.node .grouping [b])
  | unary {t u : Token} {a b : Object} (kind : t.kind = u.kind) (text : t.text = u.text)
    (h : SameNode same a b) :
    SameNode same (.node .unary [.token t, a]) (.node .unary [.token u, b])
  | binary {t u : Token} {a b c d : Object} (kind : t.kind = u.kind) (text : t.text = u.text)
    (hl : SameNode same a b) (hr : SameNode same c d) :
    SameNode same (.node .binary [a, .token t, c]) (.node .binary [b, .token u, d])
  | expression {a b : Object} (h : SameNode same a b) : SameNode same a.expression b.expression
  | print {a b : Object} (h : SameNode same a b) : SameNode same a.print b.print

theorem SameNode.label? {same : Value → Value → Prop} {t u : Object} (h : SameNode same t u) :
    t.label? = u.label? := by
  cases h <;> rfl

theorem Object.node_inj {f g : Form} {as bs : List Object} (h : node f as = node g bs) :
    f = g ∧ as = bs := by
  obtain ⟨hlabel, rfl⟩ := Object.tree.inj h
  refine ⟨?_, rfl⟩
  have := Form.ofLabel?_label f
  rw [Option.some.inj hlabel, Form.ofLabel?_label] at this
  exact (Option.some.inj this).symm

theorem SameNode.value {same : Value → Value → Prop} {v w : Value}
    (h : SameNode same (.node .literal [.value v]) (.node .literal [.value w])) : same v w := by
  generalize ht : Object.node .literal [.value v] = t at h
  generalize hu : Object.node .literal [.value w] = u at h
  cases h with
  | literal h =>
    cases (Object.node_inj ht).2
    cases (Object.node_inj hu).2
    exact h
  | _ => cases (Object.node_inj ht).1

theorem SameNode.right {same : Value → Value → Prop} {a b c d t u : Object}
    (h : SameNode same (.node .binary [a, t, b]) (.node .binary [c, u, d])) :
    SameNode same b d := by
  generalize hl : Object.node .binary [a, t, b] = left at h
  generalize hr : Object.node .binary [c, u, d] = right at h
  cases h with
  | binary _ _ _ h =>
    cases (Object.node_inj hl).2
    cases (Object.node_inj hr).2
    exact h
  | _ => cases (Object.node_inj hl).1

/-! ## Spellings -/

namespace Object

/-- The characters of a rendering; none if it fails. -/
def spelling (o : Object) : List Char := (o.render.toOption.getD "").toList

theorem spelling_of_render {o : Object} {cs : List Char} (h : o.render = .ok (String.ofList cs)) :
    o.spelling = cs := by
  rw [spelling, h]
  exact String.toList_ofList

theorem render_literal (v : Value) : (node .literal [.value v]).render = .ok v.written := rfl

theorem render_grouping (e : Object) :
    (node .grouping [e]).render = parenthesize "group" [e.render] := rfl

theorem render_unary (t : Token) (e : Object) :
    (node .unary [.token t, e]).render = parenthesize t.text [e.render] := rfl

theorem render_binary (a : Object) (t : Token) (b : Object) :
    (node .binary [a, .token t, b]).render = parenthesize t.text [a.render, b.render] := rfl

theorem render_expression (e : Object) : e.expression.render = parenthesize ";" [e.render] := rfl

theorem render_print (e : Object) : e.print.render = parenthesize "print" [e.render] := rfl

end Object

/-- A well-formed expression has a rendering, which is not empty. -/
theorem WellFormed.render {allowed : Value → Prop} {e : Object} (h : WellFormed allowed e) :
    e.render = .ok (String.ofList e.spelling) ∧ e.spelling ≠ [] := by
  suffices h : ∃ cs, e.render = .ok (String.ofList cs) ∧ cs ≠ [] by
    obtain ⟨cs, hrender, hne⟩ := h
    rw [Object.spelling_of_render hrender]
    exact ⟨hrender, hne⟩
  induction h with
  | @literal v hv =>
    refine ⟨v.written.toList, ?_, ?_⟩
    · rw [Object.render_literal, String.ofList_toList]
    · intro hempty
      exact v.written_ne_empty (String.toList_inj.1 hempty)
  | grouping _ ih =>
    obtain ⟨cs, hrender, hne⟩ := ih
    rw [Object.render_grouping, hrender, Object.parenthesize_one _ hne]
    exact ⟨_, rfl, List.cons_ne_nil _ _⟩
  | unary _ _ _ _ ih =>
    obtain ⟨cs, hrender, hne⟩ := ih
    rw [Object.render_unary, hrender, Object.parenthesize_one _ hne]
    exact ⟨_, rfl, List.cons_ne_nil _ _⟩
  | binary _ _ _ _ _ iha ihb =>
    obtain ⟨cs, hcs, -⟩ := iha
    obtain ⟨ds, hds, -⟩ := ihb
    rw [Object.render_binary, hcs, hds, Object.parenthesize_two]
    exact ⟨_, rfl, List.cons_ne_nil _ _⟩

section Spelling

variable {allowed : Value → Prop} {t a b e : Object}

theorem WellFormed.parenthesize (h : WellFormed allowed e) (name : String) :
    Object.parenthesize name [e.render] = .ok (String.ofList (enclosed name e.spelling)) := by
  rw [h.render.1, Object.parenthesize_one _ h.render.2]

theorem WellFormedNode.render (h : WellFormedNode allowed t) : ∃ text, t.render = .ok text := by
  cases h with
  | bare h => exact ⟨_, h.render.1⟩
  | expression h => exact ⟨_, h.parenthesize ";"⟩
  | print h => exact ⟨_, h.parenthesize "print"⟩

theorem spelling_literal (v : Value) :
    (Object.node .literal [.value v]).spelling = v.written.toList :=
  Object.spelling_of_render (by rw [Object.render_literal, String.ofList_toList])

theorem spelling_grouping (h : WellFormed allowed e) :
    (Object.node .grouping [e]).spelling = enclosed "group" e.spelling :=
  Object.spelling_of_render (h.parenthesize "group")

theorem spelling_unary (t : Token) (h : WellFormed allowed e) :
    (Object.node .unary [.token t, e]).spelling = enclosed t.text e.spelling :=
  Object.spelling_of_render (h.parenthesize t.text)

theorem spelling_binary (t : Token) (ha : WellFormed allowed a) (hb : WellFormed allowed b) :
    (Object.node .binary [a, .token t, b]).spelling =
      enclosed t.text (a.spelling ++ ' ' :: b.spelling) :=
  Object.spelling_of_render
    (by rw [Object.render_binary, ha.render.1, hb.render.1, Object.parenthesize_two])

theorem spelling_expression (h : WellFormed allowed e) :
    e.expression.spelling = enclosed ";" e.spelling :=
  Object.spelling_of_render (h.parenthesize ";")

theorem spelling_print (h : WellFormed allowed e) :
    e.print.spelling = enclosed "print" e.spelling :=
  Object.spelling_of_render (h.parenthesize "print")

end Spelling

/-! ## One reading -/

theorem Operator.lexeme_no_blank (op : Operator) : ' ' ∉ op.lexeme.toList := by
  cases op <;> decide

theorem Operator.lexeme_ne_keyword (op : Operator) :
    op.lexeme ≠ "group" ∧ op.lexeme ≠ ";" ∧ op.lexeme ≠ "print" := by
  cases op <;> decide

/-- No value begins with a parenthesis. -/
theorem written_ne_enclosed (v : Value) (name : String) (p r s : List Char) :
    v.written.toList ++ r ≠ enclosed name p ++ s := by
  intro h
  obtain ⟨text, kind, rfl⟩ | hword := v.string_or_word
  · rw [Value.written_string] at h
    exact absurd (List.cons.inj h).1 (by decide)
  · obtain ⟨c, cs, hcs, hfirst⟩ := Value.written_eq_cons hword
    rw [hcs] at h
    rw [(List.cons.inj h).1] at hfirst
    cases hfirst

section Reading

variable {allowed : Value → Prop} {same : Value → Value → Prop}

/-- **A rendering is a prefix code**: what begins with the spelling of a well-formed expression
begins with that of no other one. -/
theorem spelling_append_inj (hread : Value.Readable allowed same) {a b : Object}
    (ha : WellFormed allowed a) (hb : WellFormed allowed b) {r s : List Char} (hr : Ends r)
    (hs : Ends s) (h : a.spelling ++ r = b.spelling ++ s) : SameNode same a b ∧ r = s := by
  have hgroup : ' ' ∉ "group".toList := by decide
  induction ha generalizing b r s with
  | @literal v hv =>
    rw [spelling_literal] at h
    cases hb with
    | @literal w hw =>
      rw [spelling_literal] at h
      obtain ⟨hsame, hrest⟩ := hread v w hv hw r s hr hs h
      exact ⟨.literal hsame, hrest⟩
    | grouping he =>
      rw [spelling_grouping he] at h
      exact absurd h (written_ne_enclosed _ _ _ _ _)
    | unary _ _ _ he =>
      rw [spelling_unary _ he] at h
      exact absurd h (written_ne_enclosed _ _ _ _ _)
    | binary _ _ _ hc hd =>
      rw [spelling_binary _ hc hd] at h
      exact absurd h (written_ne_enclosed _ _ _ _ _)
  | grouping ha ih =>
    rw [spelling_grouping ha] at h
    cases hb with
    | literal =>
      rw [spelling_literal] at h
      exact absurd h.symm (written_ne_enclosed _ _ _ _ _)
    | grouping he =>
      rw [spelling_grouping he] at h
      obtain ⟨-, hrest⟩ := enclosed_append_inj hgroup hgroup h
      obtain ⟨hsame, hrest⟩ := ih he (ends_paren r) (ends_paren s) hrest
      exact ⟨.grouping hsame, (List.cons.inj hrest).2⟩
    | @unary t op e _ text _ he =>
      rw [spelling_unary _ he, text] at h
      obtain ⟨hname, -⟩ := enclosed_append_inj hgroup op.lexeme_no_blank h
      exact absurd hname.symm op.lexeme_ne_keyword.1
    | @binary t op c d _ text _ hc hd =>
      rw [spelling_binary _ hc hd, text] at h
      obtain ⟨hname, -⟩ := enclosed_append_inj hgroup op.lexeme_no_blank h
      exact absurd hname.symm op.lexeme_ne_keyword.1
  | @unary t op a kind text _ ha ih =>
    rw [spelling_unary _ ha, text] at h
    cases hb with
    | literal =>
      rw [spelling_literal] at h
      exact absurd h.symm (written_ne_enclosed _ _ _ _ _)
    | grouping he =>
      rw [spelling_grouping he] at h
      obtain ⟨hname, -⟩ := enclosed_append_inj op.lexeme_no_blank hgroup h
      exact absurd hname op.lexeme_ne_keyword.1
    | @unary t' op' e kind' text' _ he =>
      rw [spelling_unary _ he, text'] at h
      obtain ⟨hname, hrest⟩ := enclosed_append_inj op.lexeme_no_blank op'.lexeme_no_blank h
      obtain rfl := Operator.lexeme_inj hname
      obtain ⟨hsame, hrest⟩ := ih he (ends_paren r) (ends_paren s) hrest
      exact ⟨.unary (kind.trans kind'.symm) (text.trans text'.symm) hsame,
        (List.cons.inj hrest).2⟩
    | @binary t' op' c d _ text' _ hc hd =>
      rw [spelling_binary _ hc hd, text'] at h
      obtain ⟨-, hrest⟩ := enclosed_append_inj op.lexeme_no_blank op'.lexeme_no_blank h
      rw [List.append_assoc] at hrest
      -- the parenthesis behind an operand is not the blank between two
      obtain ⟨-, hrest⟩ := ih hc (ends_paren r) (ends_blank _) hrest
      exact absurd (List.cons.inj hrest).1 (by decide)
  | @binary t op a₁ a₂ kind text _ ha₁ ha₂ ih₁ ih₂ =>
    rw [spelling_binary _ ha₁ ha₂, text] at h
    cases hb with
    | literal =>
      rw [spelling_literal] at h
      exact absurd h.symm (written_ne_enclosed _ _ _ _ _)
    | grouping he =>
      rw [spelling_grouping he] at h
      obtain ⟨hname, -⟩ := enclosed_append_inj op.lexeme_no_blank hgroup h
      exact absurd hname op.lexeme_ne_keyword.1
    | @unary t' op' e _ text' _ he =>
      rw [spelling_unary _ he, text'] at h
      obtain ⟨-, hrest⟩ := enclosed_append_inj op.lexeme_no_blank op'.lexeme_no_blank h
      rw [List.append_assoc] at hrest
      obtain ⟨-, hrest⟩ := ih₁ he (ends_blank _) (ends_paren s) hrest
      exact absurd (List.cons.inj hrest).1 (by decide)
    | @binary t' op' c d kind' text' _ hc hd =>
      rw [spelling_binary _ hc hd, text'] at h
      obtain ⟨hname, hrest⟩ := enclosed_append_inj op.lexeme_no_blank op'.lexeme_no_blank h
      obtain rfl := Operator.lexeme_inj hname
      rw [List.append_assoc, List.append_assoc] at hrest
      obtain ⟨hsame₁, hrest⟩ := ih₁ hc (ends_blank _) (ends_blank _) hrest
      obtain ⟨hsame₂, hrest⟩ := ih₂ hd (ends_paren r) (ends_paren s) (List.cons.inj hrest).2
      exact ⟨.binary (kind.trans kind'.symm) (text.trans text'.symm) hsame₁ hsame₂,
        (List.cons.inj hrest).2⟩

theorem WellFormed.spelling_ne_enclosed {e : Object} (h : WellFormed allowed e) {name : String}
    (hname : name = ";" ∨ name = "print") (p : List Char) : e.spelling ≠ enclosed name p := by
  have hblank : ' ' ∉ name.toList := by
    obtain rfl | rfl := hname <;> decide
  intro heq
  rw [← List.append_nil e.spelling, ← List.append_nil (enclosed name p)] at heq
  cases h with
  | literal =>
    rw [spelling_literal] at heq
    exact written_ne_enclosed _ _ _ _ _ heq
  | grouping he =>
    rw [spelling_grouping he] at heq
    obtain ⟨rfl, -⟩ := enclosed_append_inj (by decide) hblank heq
    revert hname
    decide
  | @unary t op e _ text _ he =>
    rw [spelling_unary _ he, text] at heq
    obtain ⟨rfl, -⟩ := enclosed_append_inj op.lexeme_no_blank hblank heq
    exact hname.elim op.lexeme_ne_keyword.2.1 op.lexeme_ne_keyword.2.2
  | @binary t op a b _ text _ ha hb =>
    rw [spelling_binary _ ha hb, text] at heq
    obtain ⟨rfl, -⟩ := enclosed_append_inj op.lexeme_no_blank hblank heq
    exact hname.elim op.lexeme_ne_keyword.2.1 op.lexeme_ne_keyword.2.2

theorem sameNode_of_enclosed (hread : Value.Readable allowed same) {a b : Object}
    (ha : WellFormed allowed a) (hb : WellFormed allowed b) {name name' : String}
    (hname : ' ' ∉ name.toList) (hname' : ' ' ∉ name'.toList)
    (h : enclosed name a.spelling = enclosed name' b.spelling) :
    name = name' ∧ SameNode same a b := by
  rw [← List.append_nil (enclosed name _), ← List.append_nil (enclosed name' _)] at h
  obtain ⟨heq, hrest⟩ := enclosed_append_inj hname hname' h
  exact ⟨heq, (spelling_append_inj hread ha hb (ends_paren _) (ends_paren _) hrest).1⟩

theorem sameNode_of_render (hread : Value.Readable allowed same) {t u : Object}
    (ht : WellFormedNode allowed t) (hu : WellFormedNode allowed u) (h : t.render = u.render) :
    SameNode same t u := by
  have hspelling : t.spelling = u.spelling := by rw [Object.spelling, Object.spelling, h]
  cases ht with
  | bare ht =>
    cases hu with
    | bare hu =>
      rw [← List.append_nil t.spelling, ← List.append_nil u.spelling] at hspelling
      exact (spelling_append_inj hread ht hu ends_nil ends_nil hspelling).1
    | expression hu =>
      rw [spelling_expression hu] at hspelling
      exact absurd hspelling (ht.spelling_ne_enclosed (.inl rfl) _)
    | print hu =>
      rw [spelling_print hu] at hspelling
      exact absurd hspelling (ht.spelling_ne_enclosed (.inr rfl) _)
  | expression ht =>
    rw [spelling_expression ht] at hspelling
    cases hu with
    | bare hu => exact absurd hspelling.symm (hu.spelling_ne_enclosed (.inl rfl) _)
    | expression hu =>
      rw [spelling_expression hu] at hspelling
      exact .expression
        (sameNode_of_enclosed hread ht hu (by decide) (by decide) hspelling).2
    | print hu =>
      rw [spelling_print hu] at hspelling
      exact absurd (sameNode_of_enclosed hread ht hu (by decide) (by decide) hspelling).1
        (by decide)
  | print ht =>
    rw [spelling_print ht] at hspelling
    cases hu with
    | bare hu => exact absurd hspelling.symm (hu.spelling_ne_enclosed (.inr rfl) _)
    | expression hu =>
      rw [spelling_expression hu] at hspelling
      exact absurd (sameNode_of_enclosed hread ht hu (by decide) (by decide) hspelling).1
        (by decide)
    | print hu =>
      rw [spelling_print hu] at hspelling
      exact .print (sameNode_of_enclosed hread ht hu (by decide) (by decide) hspelling).2

end Reading

/-- What is the same up to the texts of its values is rendered the same. -/
theorem SameNode.render {t u : Object} (h : SameNode Value.SameText t u) :
    t.render = u.render := by
  induction h with
  | literal h => rw [Object.render_literal, Object.render_literal, h.written]
  | grouping _ ih => rw [Object.render_grouping, Object.render_grouping, ih]
  | unary _ text _ ih => rw [Object.render_unary, Object.render_unary, text, ih]
  | binary _ text _ _ ihl ihr => rw [Object.render_binary, Object.render_binary, text, ihl, ihr]
  | expression _ ih => rw [Object.render_expression, Object.render_expression, ih]
  | print _ ih => rw [Object.render_print, Object.render_print, ih]

/-! ## Unambiguity -/

/-- **Renderings are unambiguous.** A well-formed node without quotation marks in its strings has a
rendering, and two such nodes with the same one are the same node up to the places of tokens, the
texts of numbers and the kinds of the tokens that strings were taken from; where no string was
taken from a token, up to places and texts of numbers alone. Quotation marks have to be excluded:
with them two nodes of different shape have the same rendering. -/
theorem render_unambiguous :
    (∀ t : Object, WellFormedNode Value.QuoteFree t → ∃ text, t.render = .ok text) ∧
    (∀ t u : Object, WellFormedNode Value.QuoteFree t → WellFormedNode Value.QuoteFree u →
      t.render = u.render → SameNode Value.SameText t u) ∧
    (∀ t u : Object, WellFormedNode (fun v => v.QuoteFree ∧ v.Plain) t →
      WellFormedNode (fun v => v.QuoteFree ∧ v.Plain) u →
      t.render = u.render → SameNode Value.SameNumberText t u) ∧
    ∃ t u : Object, WellFormedNode Value.Plain t ∧ WellFormedNode Value.Plain u ∧
      t.render = u.render ∧ ¬ SameNode (fun _ _ => True) t u := by
  refine ⟨fun t ht => ht.render,
    fun t u ht hu h => sameNode_of_render Value.readable_quoteFree ht hu h,
    fun t u ht hu h => sameNode_of_render Value.readable_plain ht hu h, ?_⟩
  -- the marks within the one string look like the end of a string and the beginning of another
  let minus := Object.token (.ofOperator .minus (some 1) 1 none)
  let text (s : String) := Object.node .literal [.value (.string s none)]
  have plain (s : String) : WellFormed Value.Plain (text s) := .literal rfl
  exact ⟨.node .unary [minus, text "a\" \"b"], .node .binary [text "a", minus, text "b"],
    .bare (@WellFormed.unary _ _ .minus _ rfl rfl rfl (plain _)),
    .bare (@WellFormed.binary _ _ .minus _ _ rfl rfl rfl (plain _) (plain _)), rfl,
    fun h => absurd h.label? (by decide)⟩

/-- Two minus signs at different places before a string that looks like a part of a rendering. -/
theorem render_unambiguous_negation :
    let text := Object.node .literal [.value (.string "a) (b" none)]
    let negation (column : Int) :=
      (Object.node .unary [.token (.ofOperator .minus (some 1) column none), text]).print
    (negation 1).render = .ok "(print (- \"a) (b\"))" ∧
      SameNode Value.SameNumberText (negation 1) (negation 2) := by
  intro text negation
  have hwf (column : Int) :
      WellFormedNode (fun v => v.QuoteFree ∧ v.Plain) (negation column) :=
    .print (@WellFormed.unary _ _ .minus _ rfl rfl rfl (.literal ⟨by decide, rfl⟩))
  exact ⟨rfl, render_unambiguous.2.2.1 _ _ (hwf 1) (hwf 2) rfl⟩

/-- A comparison of two strings of the same text, taken from tokens of two kinds. -/
def tokenTexts (kind kind' : String) : Object :=
  .node .binary [.node .literal [.value (.string "a" (some kind))],
    .token (.ofOperator .equalEqual (some 1) 1 none),
    .node .literal [.value (.string "a" (some kind'))]]

/-- The kind of the token that a string was taken from decides comparisons, but does not show. -/
theorem render_hides_kinds :
    WellFormedNode Value.QuoteFree (tokenTexts "X" "X") ∧
      WellFormedNode Value.QuoteFree (tokenTexts "X" "Y") ∧
      (tokenTexts "X" "X").render = (tokenTexts "X" "Y").render ∧
      ¬ SameNode Value.SameNumberText (tokenTexts "X" "X") (tokenTexts "X" "Y") ∧
      (tokenTexts "X" "X").outcome = .ok (.value (.bool true)) ∧
      (tokenTexts "X" "Y").outcome = .ok (.value (.bool false)) := by
  have hwf (kind kind' : String) : WellFormedNode Value.QuoteFree (tokenTexts kind kind') :=
    .bare (@WellFormed.binary _ _ .equalEqual _ _ rfl rfl rfl
      (.literal (show '"' ∉ "a".toList by decide)) (.literal (show '"' ∉ "a".toList by decide)))
  refine ⟨hwf _ _, hwf _ _, rfl, fun h => ?_, rfl, rfl⟩
  exact absurd (show Value.string "a" (some "X") = .string "a" (some "Y") from h.right.value)
    (by decide)

end TreeWalk
