/-!
# Decimal digits of all scripts

Apart from the common digits, Unicode 14 has the decimal digits of many other scripts, among them
the full-width and the mathematical ones. The ten of a script stand together, from zero up.

* `zeros` : the table, in ascending order;
* `commonDigit` : the common digit for a digit of any script (`commonDigit_of_mem`); a text without
  digits of other scripts stays as it is (`map_commonDigit`).
-/

namespace TreeWalk.Text

/-- The code points of the zeros of all scripts but the common one. -/
def zeros : List Nat :=
  [0x660, 0x6f0, 0x7c0, 0x966, 0x9e6, 0xa66, 0xae6, 0xb66, 0xbe6, 0xc66, 0xce6, 0xd66, 0xde6, 0xe50,
    0xed0, 0xf20, 0x1040, 0x1090, 0x17e0, 0x1810, 0x1946, 0x19d0, 0x1a80, 0x1a90, 0x1b50, 0x1bb0,
    0x1c40, 0x1c50, 0xa620, 0xa8d0, 0xa900, 0xa9d0, 0xa9f0, 0xaa50, 0xabf0, 0xff10, 0x104a0,
    0x10d30, 0x11066, 0x110f0, 0x11136, 0x111d0, 0x112f0, 0x11450, 0x114d0, 0x11650, 0x116c0,
    0x11730, 0x118e0, 0x11950, 0x11c50, 0x11d50, 0x11da0, 0x16a60, 0x16ac0, 0x16b50, 0x1d7ce,
    0x1d7d8, 0x1d7e2, 0x1d7ec, 0x1d7f6, 0x1e140, 0x1e2f0, 0x1e950, 0x1fbf0]

/-- The common digit of the same value, if the character is the digit of another script. -/
def commonDigit (c : Char) : Char :=
  match zeros.find? fun first => first ≤ c.toNat && c.toNat ≤ first + 9 with
  | some first => Char.ofNat (0x30 + (c.toNat - first))
  | none => c

/-- The digits of no two scripts overlap. -/
theorem zeros_apart : ∀ first ∈ zeros, ∀ other ∈ zeros,
    first ≤ other + 9 → other ≤ first + 9 → first = other := by
  decide +kernel

/-- The digits of a script have the values from 0 to 9, in this order. -/
theorem commonDigit_of_mem {first : Nat} (hfirst : first ∈ zeros) {c : Char}
    (hlow : first ≤ c.toNat) (hhigh : c.toNat ≤ first + 9) :
    commonDigit c = Char.ofNat (0x30 + (c.toNat - first)) := by
  rw [commonDigit]
  cases hfind : zeros.find? fun first => first ≤ c.toNat && c.toNat ≤ first + 9 with
  | none =>
    have hnone := List.find?_eq_none.1 hfind first hfirst
    simp [hlow, hhigh] at hnone
  | some other =>
    have hother : other ≤ c.toNat ∧ c.toNat ≤ other + 9 := by simpa using List.find?_some hfind
    rw [zeros_apart first hfirst other (List.mem_of_find?_eq_some hfind) (by omega) (by omega)]

theorem commonDigit_of_lt {c : Char} (h : c.toNat < 0x660) : commonDigit c = c := by
  have hzeros : ∀ first ∈ zeros, 0x660 ≤ first := by decide
  have hnone : (zeros.find? fun first => first ≤ c.toNat && c.toNat ≤ first + 9) = none := by
    refine List.find?_eq_none.2 fun first hfirst => ?_
    have := hzeros first hfirst
    simp
    omega
  rw [commonDigit, hnone]

theorem map_commonDigit {cs : List Char} (h : ∀ c ∈ cs, c.toNat < 0x660) :
    cs.map commonDigit = cs :=
  (List.map_congr_left fun c hc => commonDigit_of_lt (h c hc)).trans (List.map_id' cs)

end TreeWalk.Text
