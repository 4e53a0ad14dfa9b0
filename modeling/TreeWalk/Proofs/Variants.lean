import Mathlib.Data.List.Forall2
import TreeWalk.Blueprint
import TreeWalk.Proofs.Programs

/-!
# Variants decide how a program ends

The guards of the operators are a type system: whether a well-formed expression has a value, of
which variant, and which error it ends with otherwise, follows from the variants of its literals.
No number, text or truth value changes it, so two programs that differ in nothing else run alike and
print equally many lines.

* `Variant.unary`, `Variant.binary` : the types of the operators; `Follows` : a result is as its
  type says (`applyUnary_follows`, `applyBinary_follows`);
* `Typed` : well-formed expressions with the variant or the error they end with (`Typed.outcome`);
* `Alike` : well-formed expressions that differ only in the payloads of literals;
* `payloads_unobservable` : alike expressions end alike, and so do programs of alike statements.
-/

namespace TreeWalk

open Run

/-! ## Operators -/

namespace Operator

def isUnary : Operator → Bool
  | .bang | .minus => true
  | _ => false

def isBinary : Operator → Bool
  | .bang => false
  | _ => true

end Operator

namespace Variant

/-- The guard of the operators on numbers. -/
def ofNumbers (token : Object) (result : Variant) : Variant → Variant → Except RuntimeError Variant
  | .number, .number => .ok result
  | _, _ => .error (.operandNotNumber token)

/-- What an operator makes of a variant, or the error that it ends with. -/
def unary (token : Object) : Operator → Variant → Except RuntimeError Variant
  | .minus, v => ofNumbers token .number v v
  | _, _ => .ok .bool

/-- What an operator makes of two variants, or the error that it ends with. -/
def binary (token : Object) (op : Operator) (v w : Variant) : Except RuntimeError Variant :=
  match op with
  | .plus =>
    match v, w with
    | .number, .number => .ok .number
    | .string, .string => .ok .string
    | _, _ => .error (.operandsDiffer token)
  | .minus | .star | .slash => ofNumbers token .number v w
  | .greater | .greaterEqual | .less | .lessEqual => ofNumbers token .bool v w
  | .equalEqual | .bangEqual | .bang => .ok .bool

end Variant

/-- Ends as foretold: with a value of a variant, or with a runtime error. -/
def Follows (x : Except Failure Object) : Except RuntimeError Variant → Prop
  | .ok variant => ∃ v : Value, x = .ok (.value v) ∧ v.variant = variant
  | .error e => x = .error (.runtime e)

/-- What goes on with a value follows what goes on with its variant. -/
theorem Follows.bind {x : Except Failure Object} {r : Except RuntimeError Variant}
    (h : Follows x r) {f : Object → Except Failure Object}
    {g : Variant → Except RuntimeError Variant}
    (hf : ∀ v : Value, Follows (f (.value v)) (g v.variant)) : Follows (x >>= f) (r >>= g) := by
  cases r with
  | error e =>
    have hx : x = .error (.runtime e) := h
    rw [hx]
    rfl
  | ok variant =>
    obtain ⟨v, rfl, rfl⟩ := h
    exact hf v

section Operations

variable (token : Object) (v w : Value)

theorem requireNumber_follows (operation : Double → Value) {variant : Variant}
    (h : ∀ x, (operation x).variant = variant) :
    Follows (Object.value <$> do return operation (← requireNumber token (.value v)))
      (Variant.ofNumbers token variant v.variant v.variant) := by
  cases v with
  | number x => exact ⟨_, rfl, h x⟩
  | nil | bool | string => rfl

theorem requireNumbers_follows (operation : Double × Double → Value) {variant : Variant}
    (h : ∀ p, (operation p).variant = variant) :
    Follows (Object.value <$> do return operation (← requireNumbers token (.value v) (.value w)))
      (Variant.ofNumbers token variant v.variant w.variant) := by
  cases v with
  | number x =>
    cases w with
    | number y => exact ⟨_, rfl, h (x, y)⟩
    | nil | bool | string => rfl
  | nil | bool | string => rfl

theorem applyPlus_follows :
    Follows (Object.value <$> applyPlus token (.value v) (.value w))
      (Variant.binary token .plus v.variant w.variant) := by
  cases v <;> cases w <;> first | rfl | exact ⟨_, rfl, rfl⟩

variable {token} {op : Operator} (hop : token.operator? = some op)

include hop in
theorem applyUnary_follows (hu : op.isUnary) :
    Follows (Object.value <$> applyUnary token (.value v)) (Variant.unary token op v.variant) := by
  rw [applyUnary, hop]
  cases op with
  | bang => exact ⟨_, rfl, rfl⟩
  | minus => exact requireNumber_follows token v (fun x => .number x.neg) fun _ => rfl
  | _ => cases hu

include hop in
theorem applyBinary_follows (hb : op.isBinary) :
    Follows (Object.value <$> applyBinary token (.value v) (.value w))
      (Variant.binary token op v.variant w.variant) := by
  have harithmetic : ∀ operation, Follows
      (Object.value <$> applyBinary.arithmetic token (.value v) (.value w) operation)
      (Variant.ofNumbers token .number v.variant w.variant) := fun operation =>
    requireNumbers_follows token v w (fun p => .number (operation p.1 p.2)) fun _ => rfl
  have hcomparison : ∀ relation, Follows
      (Object.value <$> applyBinary.comparison token (.value v) (.value w) relation)
      (Variant.ofNumbers token .bool v.variant w.variant) := fun relation =>
    requireNumbers_follows token v w (fun p => .bool (relation p.1 p.2)) fun _ => rfl
  rw [applyBinary, hop]
  cases op with
  | plus => exact applyPlus_follows token v w
  | minus | star | slash => exact harithmetic _
  | greater | greaterEqual | less | lessEqual => exact hcomparison _
  | equalEqual | bangEqual => exact ⟨_, rfl, rfl⟩
  | bang => cases hb

end Operations

/-! ## Expressions -/

/-- A well-formed expression, with the variant of its value or the error it ends with. -/
inductive Typed : Object → Except RuntimeError Variant → Prop where
  | literal (v : Value) : Typed (.node .literal [.value v]) (.ok v.variant)
  | grouping {e : Object} {r} (he : Typed e r) : Typed (.node .grouping [e]) r
  | unary {token e : Object} {op : Operator} {r} (hop : token.operator? = some op)
    (hu : op.isUnary) (he : Typed e r) :
    Typed (.node .unary [token, e]) (r >>= Variant.unary token op)
  | binary {token a b : Object} {op : Operator} {r s} (hop : token.operator? = some op)
    (hb : op.isBinary) (ha : Typed a r) (hb : Typed b s) :
    Typed (.node .binary [a, token, b]) (do Variant.binary token op (← r) (← s))

/-- An expression ends as its type says. -/
theorem Typed.outcome {e : Object} {r : Except RuntimeError Variant} (h : Typed e r) :
    Follows e.outcome r := by
  induction h with
  | literal v => exact ⟨v, outcome_literal .., rfl⟩
  | grouping he ih => rwa [outcome_grouping]
  | unary hop hu he ih =>
    rw [outcome_unary]
    exact ih.bind fun v => applyUnary_follows v hop hu
  | binary hop hb ha hb' iha ihb =>
    rw [outcome_binary]
    exact iha.bind fun v => ihb.bind fun w => applyBinary_follows v w hop hb

theorem Follows.fails {x : Except Failure Object} {r : Except RuntimeError Variant}
    (h : Follows x r) : (Run.ofExcept x).fails = !r.isOk := by
  cases r with
  | ok variant =>
    obtain ⟨v, rfl, -⟩ := h
    rfl
  | error e =>
    have hx : x = .error (.runtime e) := h
    rw [hx]
    rfl

/-! ## Two runs -/

/-- Well-formed expressions that differ only in the payloads of their literals. -/
inductive Alike : Object → Object → Prop where
  | literal {v w : Value} (h : v.variant = w.variant) :
    Alike (.node .literal [.value v]) (.node .literal [.value w])
  | grouping {a b : Object} (h : Alike a b) : Alike (.node .grouping [a]) (.node .grouping [b])
  | unary {token a b : Object} {op : Operator} (hop : token.operator? = some op) (hu : op.isUnary)
    (h : Alike a b) : Alike (.node .unary [token, a]) (.node .unary [token, b])
  | binary {token a b c d : Object} {op : Operator} (hop : token.operator? = some op)
    (hb : op.isBinary) (hl : Alike a b) (hr : Alike c d) :
    Alike (.node .binary [a, token, c]) (.node .binary [b, token, d])

theorem Alike.typed {a b : Object} (h : Alike a b) : ∃ r, Typed a r ∧ Typed b r := by
  induction h with
  | @literal v w h => exact ⟨.ok v.variant, .literal v, h ▸ .literal w⟩
  | grouping _ ih =>
    obtain ⟨r, ha, hb⟩ := ih
    exact ⟨r, .grouping ha, .grouping hb⟩
  | unary hop hu _ ih =>
    obtain ⟨r, ha, hb⟩ := ih
    exact ⟨_, .unary hop hu ha, .unary hop hu hb⟩
  | binary hop hb _ _ ihl ihr =>
    obtain ⟨r, ha, hb'⟩ := ihl
    obtain ⟨s, hc, hd⟩ := ihr
    exact ⟨_, .binary hop hb ha hc, .binary hop hb hb' hd⟩

theorem Alike.fails {a b : Object} (h : Alike a b) :
    (eval .initial a).fails = (eval .initial b).fails := by
  obtain ⟨r, ha, hb⟩ := h.typed
  rw [eval_initial, eval_initial, ha.outcome.fails, hb.outcome.fails]

/-- An error comes through the same calls. -/
theorem Alike.trace {a b : Object} (h : Alike a b) :
    evalTrace .initial a = evalTrace .initial b := by
  induction h with
  | literal => rfl
  | grouping h ih => exact evalTrace_congr rfl rfl (by simp only [evalStages, h.fails, ih])
  | unary _ _ h ih => exact evalTrace_congr rfl rfl (by simp only [evalStages, h.fails, ih])
  | binary _ _ hl hr ihl ihr =>
    exact evalTrace_congr rfl rfl (by simp only [evalStages, hl.fails, hr.fails, ihl, ihr])

/-- Statements over such expressions. -/
inductive AlikeStatement : Object → Object → Prop where
  | expression {a b : Object} (h : Alike a b) : AlikeStatement a.expression b.expression
  | print {a b : Object} (h : Alike a b) : AlikeStatement a.print b.print

/-- Alike statements have one name, end with one failure if any, and print equally many lines. -/
theorem AlikeStatement.same {s s' : Object} (h : AlikeStatement s s') :
    s.logName = s'.logName ∧ s.lines.length = s'.lines.length ∧
      ((s.failure? = none ∧ s'.failure? = none) ∨
        ∃ e, s.failure? = some (.runtime e) ∧ s'.failure? = some (.runtime e)) := by
  cases h with
  | expression h | print h =>
    obtain ⟨r, ha, hb⟩ := h.typed
    refine ⟨rfl, ?_⟩
    cases r with
    | ok variant =>
      obtain ⟨v, hv, -⟩ := ha.outcome
      obtain ⟨w, hw, -⟩ := hb.outcome
      simp [Object.failure?_expression, Object.failure?_print, Object.lines_expression,
        Object.lines_print, hv, hw]
    | error e =>
      have hv : _ = _ := ha.outcome
      have hw : _ = _ := hb.outcome
      simp [Object.failure?_expression, Object.failure?_print, Object.lines_expression,
        Object.lines_print, hv, hw]

/-- An error comes through the same calls. -/
theorem AlikeStatement.trace {context : Context} (hr : context.registry = .initial)
    {s s' : Object} (h : AlikeStatement s s') : execTrace context s = execTrace context s' := by
  obtain ⟨registry, source, reporter, tracing, wording⟩ := context
  obtain rfl : registry = .initial := hr
  cases h with
  | @expression a b h | @print a b h =>
    change blame _ _ [⟨(eval .initial a).fails, evalTrace .initial a⟩] _ =
      blame _ _ [⟨(eval .initial b).fails, evalTrace .initial b⟩] _
    rw [h.fails, h.trace]
    rfl

/-- Equal but for the contents of the printed lines. -/
structure Transcript.SameBesidesLines (t u : Transcript) : Prop where
  console : t.toConsole = u.toConsole
  log : t.log = u.log
  reports : t.reports = u.reports
  count : t.printed.length = u.printed.length

namespace Transcript.SameBesidesLines

variable {t u : Transcript}

theorem refl (t : Transcript) : SameBesidesLines t t := ⟨rfl, rfl, rfl, rfl⟩

theorem note (h : SameBesidesLines t u) (entry : String) :
    SameBesidesLines (t.note entry) (u.note entry) :=
  ⟨h.console, congrArg (· ++ [entry]) h.log, h.reports, h.count⟩

theorem report (h : SameBesidesLines t u) (reporter : Reporter) (r : Report) :
    SameBesidesLines (t.report reporter r) (u.report reporter r) :=
  ⟨congrArg (reporter.receive r) h.console, h.log, congrArg (· ++ [r.error]) h.reports, h.count⟩

theorem lines (h : SameBesidesLines t u) {xs ys : List String} (hxy : xs.length = ys.length) :
    SameBesidesLines { t with printed := t.printed ++ xs } { u with printed := u.printed ++ ys } :=
  ⟨h.console, h.log, h.reports, by simp [h.count, hxy]⟩

end Transcript.SameBesidesLines

theorem runFrom_alike {context : Context} (hr : context.registry = .initial)
    {statements others : List Object} (h : List.Forall₂ AlikeStatement statements others)
    (executed : Nat) {t u : Transcript} (htu : t.SameBesidesLines u) :
    ∃ summary t' u',
      (Clause.runFrom context executed (clauses context statements)).start t = (.ok summary, t') ∧
      (Clause.runFrom context executed (clauses context others)).start u = (.ok summary, u') ∧
      t'.SameBesidesLines u' := by
  induction h generalizing executed t u with
  | nil => exact ⟨_, t, u, rfl, rfl, htu⟩
  | @cons s s' rest rest' hs _ ih =>
    obtain ⟨hname, hlines, hend⟩ := hs.same
    have hnote := htu.note (statementEntry s'.logName)
    simp only [start_runFrom, exec_initial hr, stopAt, hname, hs.trace hr]
    obtain ⟨hn, hn'⟩ | ⟨e, he, he'⟩ := hend
    · rw [hn, hn']
      exact ih (executed + 1) (hnote.lines hlines)
    · rw [he, he']
      exact ⟨_, _, _, rfl, rfl, (hnote.note _).report ..⟩

/-- **The payloads of literals decide nothing but values.** Alike expressions both have values of
one variant or end with one runtime error, and nothing else can happen; programs of alike statements
have one summary, one log and one report, and print equally many lines. -/
theorem payloads_unobservable :
    (∀ a b, Alike a b → ∃ r, Follows a.outcome r ∧ Follows b.outcome r ∧
      ∀ t, (eval .initial a).start t = (a.outcome, t) ∧
        (eval .initial b).start t = (b.outcome, t)) ∧
    ∀ (source : Option String) (reporter : Reporter) (tracing : Bool)
      (wording : List Call → String) (statements others : List Object),
      List.Forall₂ AlikeStatement statements others → ∀ t, ∃ summary u u',
        (interpret { source, reporter, tracing, wording } statements).start t = (.ok summary, u) ∧
        (interpret { source, reporter, tracing, wording } others).start t = (.ok summary, u') ∧
        u.SameBesidesLines u' := by
  refine ⟨fun a b h => ?_, fun source reporter tracing wording statements others h t => ?_⟩
  · obtain ⟨r, ha, hb⟩ := h.typed
    refine ⟨r, ha.outcome, hb.outcome, fun t => ?_⟩
    rw [eval_initial, eval_initial]
    exact ⟨rfl, rfl⟩
  · rw [start_interpret, start_interpret, h.length_eq]
    exact runFrom_alike rfl h 0 (.refl _)

/-- No truth value can be negated, and no text has a say in that. -/
theorem payloads_unobservable_negation :
    let token := Object.token (.ofOperator .minus none 1 none)
    let text (s : String) := Object.node .literal [.value (.string s none)]
    let negation (b : Bool) := Object.node .unary [token, .node .literal [.value (.bool b)]]
    let program (s : String) (b : Bool) := [(text s).print, (negation b).expression]
    let run (s : String) (b : Bool) := (interpret {} (program s b)).start {}
    Alike (negation true) (negation false) ∧
      List.Forall₂ AlikeStatement (program "" true) (program "a" false) ∧
      (negation true).outcome = .error (.runtime (.operandNotNumber token)) ∧
      (negation true).outcome = (negation false).outcome ∧
      (run "" true).1 = .ok ⟨1, some (.operandNotNumber token)⟩ ∧
      (run "" true).1 = (run "a" false).1 ∧
      (run "" true).2.SameBesidesLines (run "a" false).2 := by
  intro token text negation program run
  have hnegation : Alike (negation true) (negation false) :=
    .unary (Operator.ofName?_name .minus) rfl (.literal rfl)
  have hprogram : List.Forall₂ AlikeStatement (program "" true) (program "a" false) :=
    .cons (.print (.literal rfl)) (.cons (.expression hnegation) .nil)
  have herror : (negation true).outcome = .error (.runtime (.operandNotNumber token)) := rfl
  obtain ⟨hexpressions, hprograms⟩ := payloads_unobservable
  obtain ⟨r, hr, hr', -⟩ := hexpressions _ _ hnegation
  obtain ⟨summary, u, u', hu, hu', hsame⟩ :=
    hprograms none .console false functionNames _ _ hprogram {}
  refine ⟨hnegation, hprogram, herror, ?_, rfl, ?_, ?_⟩
  · cases r with
    | ok variant =>
      obtain ⟨v, hv, -⟩ := hr
      cases herror.symm.trans hv
    | error e => exact Eq.trans hr (Eq.symm hr')
  · simp only [run, hu, hu']
  · simpa only [run, hu, hu'] using hsame

end TreeWalk
