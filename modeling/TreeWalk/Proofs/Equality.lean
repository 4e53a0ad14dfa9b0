import TreeWalk.Blueprint
import TreeWalk.Proofs.Comparisons

/-!
# Equality of objects

Only values are equal to anything, and they are if they are of one variant and have the same
payload. Numbers have it by their exact values and strings by their texts; but two strings that were
both taken from tokens must be of tokens of one kind. That is all that keeps equality from being
transitive: a string that is no token's is equal to strings of tokens of any kinds.

* `Value.SamePayload` : one variant and the same payload, as `Value.equals` decides
  (`Value.equals_iff`);
* `Object.OfDifferentKinds` : strings taken from tokens of different kinds; no others break a chain
  of equal objects (`Object.equals_trans_iff`);
* `Object.asText?` : the text of a plain text or token, with the kind that a string made of it keeps;
* `equality_up_to_kinds` : what is equal, with the laws of a partial equivalence;
* `equality_not_transitive` : strings of tokens of two kinds between which there is a plain one.
-/

namespace TreeWalk

namespace Value

/-! ## Payloads -/

/-- Values of one variant with the same payload. -/
inductive SamePayload : Value → Value → Prop
  | nil : SamePayload .nil .nil
  | bool {b : Bool} : SamePayload (.bool b) (.bool b)
  | number {x y : Double} (h : Double.Related (· = ·) x y) : SamePayload (.number x) (.number y)
  | string {text : String} {k l : Option String} (h : ∀ kind ∈ k, ∀ kind' ∈ l, kind = kind') :
    SamePayload (.string text k) (.string text l)

theorem kindsAgree_iff {k l : Option String} :
    kindsAgree k l = true ↔ ∀ kind ∈ k, ∀ kind' ∈ l, kind = kind' := by
  cases k <;> cases l <;> simp [kindsAgree]

theorem equals_iff {v w : Value} : v.equals w = true ↔ v.SamePayload w := by
  constructor
  · intro h
    unfold equals at h
    split at h
    · exact .nil
    · next a b =>
      obtain rfl := eq_of_beq h
      exact .bool
    · next x y => exact .number ((Double.relations_iff x y).2.2.1 h)
    · next a k b l =>
      obtain ⟨htext, hkinds⟩ := Bool.and_eq_true_iff.1 h
      obtain rfl := eq_of_beq htext
      exact .string (kindsAgree_iff.1 hkinds)
    · cases h
  · intro h
    cases h with
    | nil => rfl
    | bool => exact beq_self_eq_true _
    | number h => exact (Double.relations_iff _ _).2.2.2 h
    | string h => exact Bool.and_eq_true_iff.2 ⟨beq_self_eq_true _, kindsAgree_iff.2 h⟩

theorem samePayload_self_iff {v : Value} : v.SamePayload v ↔ v ≠ .number .nan := by
  constructor
  · rintro h rfl
    cases h with
    | number h =>
      obtain ⟨p, hp, -⟩ := h
      cases hp
  · intro h
    cases v with
    | nil => exact .nil
    | bool b => exact .bool
    | number x =>
      have hx : x.isNaN = false := by
        rw [← Bool.not_eq_true, Double.isNaN_iff]
        rintro rfl
        exact h rfl
      obtain ⟨p, hp⟩ := Double.exists_extended hx
      exact .number ⟨p, hp, p, hp, rfl⟩
    | string text kind => exact .string fun k hk l hl => Option.mem_unique hk hl

end Value

namespace Object

theorem equals_iff {x y : Object} :
    x.equals y = true ↔ ∃ v w, x = .value v ∧ y = .value w ∧ v.SamePayload w := by
  constructor
  · intro h
    unfold equals at h
    split at h
    · next v w => exact ⟨v, w, rfl, rfl, Value.equals_iff.1 h⟩
    · cases h
  · rintro ⟨v, w, rfl, rfl, h⟩
    exact Value.equals_iff.2 h

theorem equals_comm (x y : Object) : x.equals y = y.equals x := by
  cases x <;> cases y <;> try rfl
  exact Value.equals_comm _ _

/-! ## Chains -/

/-- Strings that were taken from tokens of different kinds. -/
inductive OfDifferentKinds : Object → Object → Prop
  | strings {a b k l : String} (h : k ≠ l) :
    OfDifferentKinds (.value (.string a (some k))) (.value (.string b (some l)))

theorem ofDifferentKinds_iff {a b : String} {k l : Option String} :
    OfDifferentKinds (.value (.string a k)) (.value (.string b l)) ↔
      ¬ ∀ kind ∈ k, ∀ kind' ∈ l, kind = kind' := by
  constructor
  · rintro ⟨h⟩ hall
    exact h (hall _ rfl _ rfl)
  · intro h
    cases k with
    | none => exact absurd nofun h
    | some kind =>
      cases l with
      | none => exact absurd (fun _ _ => nofun) h
      | some kind' =>
        refine .strings fun heq => h fun _ hk _ hl => ?_
        rw [← Option.mem_some_iff.1 hk, ← Option.mem_some_iff.1 hl, heq]

/-- Equality is passed on along a chain but between strings of tokens of different kinds. -/
theorem equals_trans_iff {x y z : Object} (hxy : x.equals y = true) (hyz : y.equals z = true) :
    x.equals z = true ↔ ¬ x.OfDifferentKinds z := by
  obtain ⟨u, v, rfl, rfl, huv⟩ := equals_iff.1 hxy
  obtain ⟨v', w, hv, rfl, hvw⟩ := equals_iff.1 hyz
  obtain rfl := Object.value.inj hv
  have hiff : (value u).equals (value w) = true ↔ u.SamePayload w := Value.equals_iff
  rw [hiff]
  cases huv with
  | nil =>
    cases hvw
    exact iff_of_true .nil nofun
  | bool =>
    cases hvw
    exact iff_of_true .bool nofun
  | number h =>
    cases hvw with
    | number h' => exact iff_of_true (.number (h.trans h')) nofun
  | string h =>
    cases hvw with
    | string h' =>
      rw [ofDifferentKinds_iff, not_not]
      constructor
      · intro hsame
        cases hsame with
        | string hkinds => exact hkinds
      · exact .string

/-! ## Strings made of texts -/

/-- The text of a plain text or a token, and the kind of a token. -/
def asText? : Object → Option (String × Option String)
  | .plain (.text s) => some (s, none)
  | .token t => some (t.text, some t.kind)
  | _ => none

theorem ofObject_of_asText? {o : Object} {text : String} {kind : Option String}
    (h : o.asText? = some (text, kind)) : Value.ofObject o = .ok (.string text kind) := by
  unfold asText? at h
  split at h
  · cases h
    rfl
  · cases h
    rfl
  · cases h

end Object

open Object

/-- **Equality is a partial equivalence up to the kinds of tokens.** Equality is symmetric, and it
is passed on along a chain of equal objects but between strings that were taken from tokens of
different kinds. Only values are equal to anything: to themselves unless they are not a number, and
to each other if they are of one variant with the same payload. Strings have it if their texts are
the same and they are not of tokens of different kinds, also those made of texts and tokens. -/
theorem equality_up_to_kinds :
    (∀ x y : Object, x.equals y = y.equals x) ∧
    (∀ x y z : Object, x.equals y = true → y.equals z = true →
      (x.equals z = true ↔ ¬ x.OfDifferentKinds z)) ∧
    (∀ x : Object, x.equals x = true ↔ ∃ v, x = .value v ∧ v ≠ .number .nan) ∧
    (∀ x y : Object, x.equals y = true ↔
      ∃ v w, x = .value v ∧ y = .value w ∧ v.SamePayload w) ∧
    (∀ v w : Value, v.variant ≠ w.variant → (Object.value v).equals (.value w) = false) ∧
    (∀ a k b l, (Object.value (.string a k)).equals (.value (.string b l)) = true ↔
      a = b ∧ ∀ kind ∈ k, ∀ kind' ∈ l, kind = kind') ∧
    (∀ x y a k b l, asText? x = some (a, k) → asText? y = some (b, l) →
      ∃ v w, Value.ofObject x = .ok v ∧ Value.ofObject y = .ok w ∧
        x.literal = .ok (.node .literal [.value v]) ∧
        y.literal = .ok (.node .literal [.value w]) ∧
        ((Object.value v).equals (.value w) = true ↔
          a = b ∧ ∀ kind ∈ k, ∀ kind' ∈ l, kind = kind')) := by
  have hstrings (a k b l) : (Object.value (.string a k)).equals (.value (.string b l)) = true ↔
      a = b ∧ ∀ kind ∈ k, ∀ kind' ∈ l, kind = kind' := by
    rw [← Value.kindsAgree_iff, ← beq_iff_eq (a := a)]
    exact Bool.and_eq_true_iff
  refine ⟨Object.equals_comm, fun _ _ _ => equals_trans_iff, fun x => ?_, fun _ _ => equals_iff,
    fun v w h => ?_, hstrings, fun x y a k b l hx hy => ?_⟩
  · rw [equals_iff]
    constructor
    · rintro ⟨v, w, rfl, hw, h⟩
      obtain rfl := Object.value.inj hw
      exact ⟨v, rfl, Value.samePayload_self_iff.1 h⟩
    · rintro ⟨v, rfl, h⟩
      exact ⟨v, v, rfl, rfl, Value.samePayload_self_iff.2 h⟩
  · rw [← Bool.not_eq_true]
    exact mt Value.variant_eq_of_equals h
  · have hv := ofObject_of_asText? hx
    have hw := ofObject_of_asText? hy
    refine ⟨_, _, hv, hw, ?_, ?_, hstrings a k b l⟩
    · rw [literal, hv]
      rfl
    · rw [literal, hw]
      rfl

/-- Literals of a plain text and of tokens of two kinds with that text: the plain one is equal to
both others, which are not equal. -/
theorem equality_not_transitive :
    ∃ u v w,
      (Object.token { kind := "X", text := "a" }).literal = .ok (.node .literal [.value u]) ∧
      (Object.plain (.text "a")).literal = .ok (.node .literal [.value v]) ∧
      (Object.token { kind := "Y", text := "a" }).literal = .ok (.node .literal [.value w]) ∧
      (Object.value u).equals (.value v) = true ∧ (Object.value v).equals (.value w) = true ∧
      (Object.value u).equals (.value w) = false :=
  ⟨.string "a" (some "X"), .string "a" none, .string "a" (some "Y"), rfl, rfl, rfl, rfl, rfl, rfl⟩

end TreeWalk
