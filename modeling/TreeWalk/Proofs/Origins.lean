import TreeWalk.Proofs.Variants

/-!
# Where failures come from

Nothing is assumed of an object that is evaluated with the initial registry, and still it fails in
few ways. Each failure is that of a single node at a position that evaluation reaches: the node
blames its own operator, has a wrong number of children, or is not understood.

* `Place` : the positions that evaluation reaches, as objects with a hole;
* `Failure.category` : the sort of a failure;
* `Blames`, `Miscounted`, `NotUnderstood` : how a node fails by itself; `Object.Raises` puts them
  together, and says that there are no other failures;
* `applyUnary_error`, `applyBinary_error` : the failures of operations;
* `outcome_error` : a failure is raised by a node at some place and passes all others unchanged;
* `outcome_ok` : what is no value comes out of a literal and passes nothing but groupings;
* `outcome_origin` : both, for every object.
-/

namespace TreeWalk

/-! ## Places -/

/-- An object with a hole at a position that is evaluated; all else in it is arbitrary. -/
inductive Place where
  | here
  | grouping (inner : Place) (rest : List Object)
  | unary (op : Object) (operand : Place) (rest : List Object)
  | left (inner : Place) (rest : List Object)
  | right (first op : Object) (inner : Place) (rest : List Object)
  deriving Repr

namespace Place

/-- The object with another one in its hole. -/
def fill (o : Object) : Place → Object
  | .here => o
  | .grouping inner rest => .node .grouping (inner.fill o :: rest)
  | .unary op operand rest => .node .unary (op :: operand.fill o :: rest)
  | .left inner rest => .node .binary (inner.fill o :: rest)
  | .right first op inner rest => .node .binary (first :: op :: inner.fill o :: rest)

/-- There are only groupings around the hole. -/
def IsGrouped : Place → Prop
  | .here => True
  | .grouping inner _ => inner.IsGrouped
  | .unary _ _ _ | .left _ _ | .right _ _ _ _ => False

end Place

/-! ## Failures of a single node -/

/-- The sorts of failures, by which they are told apart without their messages. -/
inductive FailureCategory where
  | runtime | defect | index | value | key | type | overflow
  deriving DecidableEq, Repr

def Failure.category : Failure → FailureCategory
  | .runtime _ => .runtime
  | .cannotEvaluate _ | .cannotExecute _ | .unsupportedUnary _ | .unsupportedBinary _ => .defect
  | .missingChild => .index
  | .tooFewChildren _ _ | .tooManyChildren _ | .unknownLexeme _ | .notANumeral _ => .value
  | .unknownOperator _ => .key
  | .notAKey _ | .unknownColumn | .notAValue _ | .notANumber _ => .type
  | .tooLarge => .overflow

/-- Whether an operator is applied to fitting operands only. -/
def Operator.isGuarded : Operator → Bool
  | .bang | .equalEqual | .bangEqual => false
  | _ => true

/-- The message of an operator that blames its operands. -/
def Operator.complaint (op : Operator) : String :=
  if op = .plus then "Operands must be 2 numbers or 2 strings." else "Operand must be a number."

/-- What the operands of a guarded operator have to be. -/
def Operator.Fits (op : Operator) (v w : Object) : Prop :=
  (∃ x y, v = .value (.number x) ∧ w = .value (.number y)) ∨
    op = .plus ∧ ∃ a k b l, v = .value (.string a k) ∧ w = .value (.string b l)

/-- A node blames the token of its operator, as its operands have values that do not fit. -/
inductive Blames : Object → RuntimeError → Prop
  | unary {t : Token} {operand v : Object} {rest : List Object}
    (kind : t.kind = Operator.minus.name) (value : operand.outcome = .ok v)
    (unfit : ∀ x, v ≠ .value (.number x)) :
    Blames (.node .unary (.token t :: operand :: rest))
      ⟨.token t, Operator.minus.complaint, none⟩
  | binary {t : Token} {left right v w : Object} {op : Operator}
    (kind : t.kind = op.name) (guarded : op.isGuarded) (leftValue : left.outcome = .ok v)
    (rightValue : right.outcome = .ok w) (unfit : ¬ op.Fits v w) :
    Blames (.node .binary [left, .token t, right]) ⟨.token t, op.complaint, none⟩

/-- A node of one of the four forms has a wrong number of children. -/
inductive Miscounted : Object → Failure → Prop
  | literal : Miscounted (.node .literal []) .missingChild
  | grouping : Miscounted (.node .grouping []) .missingChild
  | unary {children : List Object} (few : children.length < 2) :
    Miscounted (.node .unary children) .missingChild
  | few {children : List Object} (few : children.length < 3) :
    Miscounted (.node .binary children) (.tooFewChildren 3 children.length)
  | many {children : List Object} (many : 3 < children.length) :
    Miscounted (.node .binary children) (.tooManyChildren 3)

/-- An object is no expression, or its operator is no token of a kind that the form knows. -/
inductive NotUnderstood : Object → Failure → Prop
  | object {o : Object} (foreign : Registry.initial.isExpr o = false) :
    NotUnderstood o (.cannotEvaluate o)
  | unary {op operand : Object} {rest : List Object}
    (unknown : ∀ known, op.operator? = some known → known.isUnary = false) :
    NotUnderstood (.node .unary (op :: operand :: rest)) (.unsupportedUnary op)
  | binary {left op right : Object}
    (unknown : ∀ known, op.operator? = some known → known.isBinary = false) :
    NotUnderstood (.node .binary [left, op, right]) (.unsupportedBinary op)

/-- An object can fail in a way by itself; no object fails in any other way. -/
def Object.Raises (o : Object) : Failure → Prop
  | .runtime e => Blames o e
  | .missingChild => Miscounted o .missingChild
  | .tooFewChildren expected found => Miscounted o (.tooFewChildren expected found)
  | .tooManyChildren expected => Miscounted o (.tooManyChildren expected)
  | .cannotEvaluate node => NotUnderstood o (.cannotEvaluate node)
  | .unsupportedUnary op => NotUnderstood o (.unsupportedUnary op)
  | .unsupportedBinary op => NotUnderstood o (.unsupportedBinary op)
  | _ => False

theorem Object.Raises.category {o : Object} {f : Failure} (h : o.Raises f) :
    f.category ∈ [FailureCategory.runtime, .defect, .index, .value] := by
  cases f with
  | runtime | cannotEvaluate | unsupportedUnary | unsupportedBinary | missingChild |
      tooFewChildren | tooManyChildren => simp [Failure.category]
  | cannotExecute | unknownLexeme | unknownOperator | notAKey | unknownColumn | notAValue |
      notANumber | notANumeral | tooLarge => exact h.elim

/-! ## Operations -/

theorem bind_eq_error {α β ε : Type} {x : Except ε α} {g : α → Except ε β} {e : ε}
    (h : x >>= g = .error e) : x = .error e ∨ ∃ a, x = .ok a ∧ g a = .error e := by
  cases x with
  | error e' =>
    cases h
    exact .inl rfl
  | ok a => exact .inr ⟨a, rfl, h⟩

theorem bind_eq_ok {α β ε : Type} {x : Except ε α} {g : α → Except ε β} {b : β}
    (h : x >>= g = .ok b) : ∃ a, x = .ok a ∧ g a = .ok b := by
  cases x with
  | error e => cases h
  | ok a => exact ⟨a, rfl, h⟩

theorem map_eq_error {α β ε : Type} {f : α → β} {x : Except ε α} {e : ε}
    (h : f <$> x = .error e) : x = .error e := by
  cases x with
  | error e' =>
    cases h
    rfl
  | ok a => cases h

/-- The token of an operator, by its kind. -/
theorem token_of_operator? {o : Object} {op : Operator} (h : o.operator? = some op) :
    ∃ t, o = .token t ∧ t.kind = op.name := by
  cases o with
  | token t => exact ⟨t, rfl, (Operator.name_of_ofName? h).symm⟩
  | plain | value | operator | tree => cases h

theorem requireNumber_error {token v : Object} {f : Failure}
    (h : requireNumber token v = .error f) :
    (∀ x, v ≠ .value (.number x)) ∧ f = .runtime (.operandNotNumber token) := by
  rw [requireNumber] at h
  split at h
  · cases h
  · next hn =>
    cases h
    refine ⟨fun x hx => ?_, rfl⟩
    rw [hx] at hn
    cases hn

theorem requireNumbers_error {token v w : Object} {f : Failure}
    (h : requireNumbers token v w = .error f) :
    (¬ ∃ x y, v = .value (.number x) ∧ w = .value (.number y)) ∧
      f = .runtime (.operandNotNumber token) := by
  rw [requireNumbers] at h
  split at h
  · cases h
  · next hn =>
    cases h
    refine ⟨?_, rfl⟩
    rintro ⟨x, y, rfl, rfl⟩
    exact hn x y rfl rfl

theorem applyPlus_error {token v w : Object} {f : Failure} (h : applyPlus token v w = .error f) :
    ¬ Operator.plus.Fits v w ∧ f = .runtime (.operandsDiffer token) := by
  unfold applyPlus at h
  split at h
  · cases h
  · cases h
  · next hn hs =>
    cases h
    refine ⟨?_, rfl⟩
    rintro (⟨x, y, hx, hy⟩ | ⟨-, a, k, b, l, ha, hb⟩)
    · exact hn x y hx hy
    · exact hs a k b l ha hb

theorem applyUnary_error {op v : Object} {f : Failure} (h : applyUnary op v = .error f) :
    ((∀ known, op.operator? = some known → known.isUnary = false) ∧ f = .unsupportedUnary op) ∨
      ∃ t, op = .token t ∧ t.kind = Operator.minus.name ∧ (∀ x, v ≠ .value (.number x)) ∧
        f = .runtime ⟨.token t, Operator.minus.complaint, none⟩ := by
  rw [applyUnary] at h
  split at h
  · cases h
  · next hop =>
    obtain ⟨t, rfl, hkind⟩ := token_of_operator? hop
    obtain hnone | ⟨x, -, hx⟩ := bind_eq_error h
    · obtain ⟨hv, rfl⟩ := requireNumber_error hnone
      exact .inr ⟨t, rfl, hkind, hv, rfl⟩
    · cases hx
  · next hbang hminus =>
    cases h
    refine .inl ⟨fun known hknown => ?_, rfl⟩
    cases known with
    | bang => exact absurd hknown hbang
    | minus => exact absurd hknown hminus
    | _ => rfl

/-- All guarded operators but one want two numbers, and complain in the same words. -/
theorem numbers_error {op v w : Object} {known : Operator}
    {g : Double × Double → Except Failure Value} {f : Failure} (hknown : known ≠ .plus)
    (hg : ∀ p, ∃ r, g p = .ok r) (h : (requireNumbers op v w >>= g) = .error f) :
    ¬ known.Fits v w ∧ f = .runtime ⟨op, known.complaint, none⟩ := by
  obtain hnone | ⟨p, -, hp⟩ := bind_eq_error h
  · obtain ⟨hvw, rfl⟩ := requireNumbers_error hnone
    refine ⟨?_, ?_⟩
    · rintro (hfit | ⟨rfl, -⟩)
      · exact hvw hfit
      · exact hknown rfl
    · rw [Operator.complaint, if_neg hknown]
      rfl
  · obtain ⟨r, hr⟩ := hg p
    cases hr.symm.trans hp

theorem applyBinary_error {op v w : Object} {f : Failure} (h : applyBinary op v w = .error f) :
    ((∀ known, op.operator? = some known → known.isBinary = false) ∧
        f = .unsupportedBinary op) ∨
      ∃ (t : Token) (known : Operator), op = .token t ∧ t.kind = known.name ∧
        known.isGuarded = true ∧ ¬ known.Fits v w ∧
          f = .runtime ⟨.token t, known.complaint, none⟩ := by
  cases hop : op.operator? with
  | none =>
    rw [applyBinary, hop] at h
    cases h
    refine .inl ⟨fun _ hknown => ?_, rfl⟩
    cases hknown
  | some known =>
    obtain ⟨t, rfl, hkind⟩ := token_of_operator? hop
    rw [applyBinary, hop] at h
    cases known with
    | plus =>
      obtain ⟨hvw, rfl⟩ := applyPlus_error h
      exact .inr ⟨t, .plus, rfl, hkind, rfl, hvw, rfl⟩
    | minus | star | slash | greater | greaterEqual | less | lessEqual =>
      exact .inr ⟨t, _, rfl, hkind, rfl, numbers_error (by decide) (fun p => ⟨_, rfl⟩) h⟩
    | equalEqual | bangEqual => cases h
    | bang =>
      cases h
      refine .inl ⟨fun known hknown => ?_, rfl⟩
      cases hknown
      rfl

/-! ## Nodes that evaluate no child -/

theorem eval_binary_count {registry : Registry} {label : String}
    (h : registry.exprRule? label = some .binary) {children : List Object}
    (hcount : children.length ≠ 3) :
    eval registry (.tree (some label) children) = throw (.childCount 3 children.length) := by
  rw [eval, h, operands_eq_map]
  simp only [ExprRule.eval]
  split
  · next heq =>
    have hlength := congrArg List.length heq
    rw [List.length_map] at hlength
    exact absurd hlength hcount
  · rw [List.length_map]

theorem Registry.isExprLabel_initial (label : String) :
    Registry.initial.isExprLabel label = (Registry.initial.exprRule? label).isSome := by
  cases hf : Form.ofLabel? label with
  | none =>
    have hne : ∀ form : Form, form.label ≠ label := fun form hl => by
      rw [← hl, Form.ofLabel?_label] at hf
      cases hf
    change exprLabels.contains label = ((Form.ofLabel? label).bind Form.exprRule?).isSome
    rw [hf]
    simp [exprLabels, fun form => (hne form).symm]
  | some form =>
    obtain rfl := Form.label_of_ofLabel? hf
    cases form <;> decide

theorem outcome_foreign {o : Object} (h : Registry.initial.isExpr o = false) :
    o.outcome = .error (.cannotEvaluate o) := by
  cases o with
  | tree label children =>
    cases label with
    | none => rfl
    | some label =>
      have hrule : Registry.initial.exprRule? label = none := by
        have hl : Registry.initial.isExprLabel label = false := h
        rwa [Registry.isExprLabel_initial, Option.isSome_eq_false_iff, Option.isNone_iff_eq_none]
          at hl
      rw [Object.outcome, eval, hrule]
      rfl
  | plain | value | operator | token => rfl

theorem outcome_unary_few {children : List Object} (h : children.length < 2) :
    (Object.node .unary children).outcome = .error .missingChild := by
  match children with
  | [] => rfl
  | [_] => rfl
  | _ :: _ :: _ =>
    simp only [List.length_cons] at h
    omega

theorem outcome_binary_count {children : List Object} (h : children.length ≠ 3) :
    (Object.node .binary children).outcome = .error (.childCount 3 children.length) := by
  rw [Object.outcome, Object.node, eval_binary_count rfl h]
  rfl

/-! ## Evaluation -/

/-- Every object, by what its evaluation looks at: it is no expression, it has a wrong number of
children, or it is one of the four forms with all the children that are needed. -/
inductive Shaped : Object → Prop
  | foreign {o : Object} (h : Registry.initial.isExpr o = false) : Shaped o
  | miscounted {o : Object} {f : Failure} (h : Miscounted o f) : Shaped o
  | literal (o : Object) (rest : List Object) : Shaped (.node .literal (o :: rest))
  | grouping {inner : Object} (h : Shaped inner) (rest : List Object) :
    Shaped (.node .grouping (inner :: rest))
  | unary (op : Object) {operand : Object} (h : Shaped operand) (rest : List Object) :
    Shaped (.node .unary (op :: operand :: rest))
  | binary {left : Object} (op : Object) {right : Object} (hl : Shaped left) (hr : Shaped right) :
    Shaped (.node .binary [left, op, right])

theorem shaped (o : Object) : Shaped o := by
  cases o with
  | tree label children =>
    cases label with
    | none => exact .foreign rfl
    | some label =>
      cases hf : Form.ofLabel? label with
      | none =>
        refine .foreign ((Registry.isExprLabel_initial label).trans ?_)
        change ((Form.ofLabel? label).bind Form.exprRule?).isSome = false
        rw [hf]
        rfl
      | some form =>
        obtain rfl := Form.label_of_ofLabel? hf
        cases form with
        | literal =>
          cases children with
          | nil => exact .miscounted .literal
          | cons o rest => exact .literal o rest
        | grouping =>
          cases children with
          | nil => exact .miscounted .grouping
          | cons inner rest => exact .grouping (shaped inner) rest
        | unary =>
          rcases children with _ | ⟨op, _ | ⟨operand, rest⟩⟩
          · exact .miscounted (.unary Nat.zero_lt_two)
          · exact .miscounted (.unary Nat.one_lt_two)
          · exact .unary op (shaped operand) rest
        | binary =>
          rcases children with _ | ⟨left, _ | ⟨op, _ | ⟨right, _ | ⟨extra, rest⟩⟩⟩⟩
          · exact .miscounted (.few (Nat.zero_lt_succ 2))
          · exact .miscounted (.few (Nat.succ_lt_succ (Nat.zero_lt_succ 1)))
          · exact .miscounted (.few (Nat.lt_succ_self 2))
          · exact .binary op (shaped left) (shaped right)
          · exact .miscounted (.many (by simp))
        | expression | print => exact .foreign rfl
  | plain | value | operator | token => exact .foreign rfl

theorem Miscounted.outcome {o : Object} {f : Failure} (h : Miscounted o f) :
    o.outcome = .error f ∧ o.Raises f := by
  refine ⟨?_, ?_⟩
  · cases h with
    | literal | grouping => rfl
    | unary few => exact outcome_unary_few few
    | few few => rw [outcome_binary_count (Nat.ne_of_lt few), Failure.childCount, if_pos few]
    | many many =>
      rw [outcome_binary_count (Nat.ne_of_gt many), Failure.childCount, if_neg (Nat.lt_asymm many)]
  · cases h with
    | literal => exact .literal
    | grouping => exact .grouping
    | unary few => exact .unary few
    | few few => exact .few few
    | many many => exact .many many

/-- A failure is raised by a node at some place and passes all others unchanged. -/
theorem outcome_error {e : Object} {f : Failure} (h : e.outcome = .error f) :
    ∃ (place : Place) (n : Object), place.fill n = e ∧ n.outcome = .error f ∧ n.Raises f := by
  induction shaped e generalizing f with
  | @foreign o ho =>
    obtain rfl : Failure.cannotEvaluate o = f :=
      Except.error.inj ((outcome_foreign ho).symm.trans h)
    exact ⟨.here, o, rfl, h, .object ho⟩
  | @miscounted o g ho =>
    obtain ⟨houtcome, hraises⟩ := ho.outcome
    obtain rfl : g = f := Except.error.inj (houtcome.symm.trans h)
    exact ⟨.here, o, rfl, h, hraises⟩
  | literal o rest =>
    rw [outcome_literal] at h
    cases h
  | grouping _ rest ih =>
    rw [outcome_grouping] at h
    obtain ⟨place, n, rfl, hn⟩ := ih h
    exact ⟨.grouping place rest, n, rfl, hn⟩
  | @unary op operand _ rest ih =>
    obtain hoperand | ⟨v, hv, hop⟩ := bind_eq_error ((outcome_unary op operand rest).symm.trans h)
    · obtain ⟨place, n, rfl, hn⟩ := ih hoperand
      exact ⟨.unary op place rest, n, rfl, hn⟩
    · refine ⟨.here, _, rfl, h, ?_⟩
      obtain ⟨hunknown, rfl⟩ | ⟨t, rfl, hkind, hfit, rfl⟩ := applyUnary_error (map_eq_error hop)
      · exact .unary hunknown
      · exact .unary hkind hv hfit
  | @binary left op right _ _ ihl ihr =>
    obtain hleft | ⟨v, hv, hrest⟩ := bind_eq_error ((outcome_binary left op right).symm.trans h)
    · obtain ⟨place, n, rfl, hn⟩ := ihl hleft
      exact ⟨.left place [op, right], n, rfl, hn⟩
    · obtain hright | ⟨w, hw, hop⟩ := bind_eq_error hrest
      · obtain ⟨place, n, rfl, hn⟩ := ihr hright
        exact ⟨.right left op place [], n, rfl, hn⟩
      · refine ⟨.here, _, rfl, h, ?_⟩
        obtain ⟨hunknown, rfl⟩ | ⟨t, known, rfl, hkind, hguarded, hfit, rfl⟩ :=
          applyBinary_error (map_eq_error hop)
        · exact .binary hunknown
        · exact .binary hkind hguarded hv hw hfit

/-- What comes out of an evaluation is a value, as it comes out of an operator, or it is what a
literal holds and there are only groupings around that. -/
theorem outcome_ok {e o : Object} (h : e.outcome = .ok o) :
    (∃ v, o = .value v) ∨
      ∃ (place : Place) (rest : List Object), place.IsGrouped ∧
        place.fill (.node .literal (o :: rest)) = e := by
  have hvalue : ∀ {x : Except Failure Value}, Object.value <$> x = .ok o → ∃ v, o = .value v := by
    intro x hx
    cases x with
    | error _ => cases hx
    | ok v => exact ⟨v, (Except.ok.inj hx).symm⟩
  induction shaped e with
  | foreign ho => cases (outcome_foreign ho).symm.trans h
  | miscounted ho => cases ho.outcome.1.symm.trans h
  | literal o' rest =>
    rw [outcome_literal] at h
    obtain rfl : o' = o := Except.ok.inj h
    exact .inr ⟨.here, rest, trivial, rfl⟩
  | grouping _ rest ih =>
    rw [outcome_grouping] at h
    obtain hv | ⟨place, rest', hplace, rfl⟩ := ih h
    · exact .inl hv
    · exact .inr ⟨.grouping place rest, rest', hplace, rfl⟩
  | unary op _ rest =>
    rw [outcome_unary] at h
    obtain ⟨v, -, hv⟩ := bind_eq_ok h
    exact .inl (hvalue hv)
  | binary op =>
    rw [outcome_binary] at h
    obtain ⟨v, -, hv⟩ := bind_eq_ok h
    obtain ⟨w, -, hw⟩ := bind_eq_ok hv
    exact .inl (hvalue hw)

/-- **Where failures come from.** Evaluating any object with the initial registry writes nothing. It
ends with what a literal holds or an operator makes, or with a failure of one of four categories,
which a node raises by itself at a place that is evaluated: it blames the token of its own operator,
it has a wrong number of children, or it is not understood. -/
theorem outcome_origin (e : Object) :
    (∀ t, (eval .initial e).start t = (e.outcome, t)) ∧
      match e.outcome with
      | .ok o => (∃ v, o = .value v) ∨
          ∃ (place : Place) (rest : List Object), place.IsGrouped ∧
            place.fill (.node .literal (o :: rest)) = e
      | .error f => f.category ∈ [FailureCategory.runtime, .defect, .index, .value] ∧
          ∃ (place : Place) (n : Object), place.fill n = e ∧ n.outcome = .error f ∧ n.Raises f := by
  refine ⟨fun t => ?_, ?_⟩
  · rw [eval_initial]
    rfl
  · split
    · next h => exact outcome_ok h
    · next h =>
      obtain ⟨place, n, hfill, hn, hraises⟩ := outcome_error h
      exact ⟨hraises.category, place, n, hfill, hn, hraises⟩

end TreeWalk
