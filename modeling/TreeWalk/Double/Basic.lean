/-!
# Doubles: magnitudes in a chain

The magnitudes of the 64-bit binary format form one ascending chain, from zero through the
subnormal and normal numbers to infinity, and the bits of a magnitude are its place in the chain.

* `Magnitude` : a place in the chain, its `rank`;
* `Magnitude.units` : the magnitude in multiples of `2 ^ -1074`, the least positive one; infinity
  gets the value `2 ^ 1024` that would follow the largest finite number;
* `Double` : a magnitude with a sign, or not a number (all of those are one double here);
* `Double.ofBits`, `Double.toBits` : the 64-bit words (`ofBits_toBits`).
-/

namespace TreeWalk

-- with or without an algebraic library in scope, powers of naturals are those of the core library
attribute [local instance (high)] instPowNat

/-! ## Magnitudes -/

/-- The number of magnitudes that share one spacing: a significand has 52 bits after its first. -/
def binade : Nat := 2 ^ (52 : Nat)

/-- The rank of infinity, which is the number of finite magnitudes. -/
def infinityRank : Nat := 2047 * 2 ^ (52 : Nat)

/-- One over the least positive magnitude. -/
def unitsPerOne : Nat := 2 ^ (1074 : Nat)

/-- A magnitude, by its place in the ascending chain of all magnitudes. -/
structure Magnitude where
  rank : Nat
  rank_le : rank ≤ infinityRank
  deriving DecidableEq, Repr

namespace Magnitude

def zero : Magnitude := ⟨0, Nat.zero_le _⟩

def infinity : Magnitude := ⟨infinityRank, Nat.le_refl _⟩

def isZero (m : Magnitude) : Bool := m.rank == 0

def isInfinite (m : Magnitude) : Bool := m.rank == infinityRank

/-- The value at a place of the chain in multiples of `2 ^ -1074`: in the first binade neighbours
are one apart, and from the third on the distance doubles with each binade. -/
def unitsAt (rank : Nat) : Nat :=
  if rank / binade = 0 then rank % binade
  else (binade + rank % binade) * 2 ^ (rank / binade - 1)

def units (m : Magnitude) : Nat := unitsAt m.rank

@[ext] theorem ext {x y : Magnitude} (h : x.rank = y.rank) : x = y := by
  cases x; cases y; cases h; rfl

@[simp] theorem rank_zero : zero.rank = 0 := rfl

@[simp] theorem rank_infinity : infinity.rank = infinityRank := rfl

@[simp] theorem units_zero : zero.units = 0 := rfl

theorem isZero_iff {m : Magnitude} : m.isZero = true ↔ m = zero := by
  rw [isZero, beq_iff_eq]
  exact ⟨fun h => ext h, fun h => h ▸ rfl⟩

theorem isInfinite_iff {m : Magnitude} : m.isInfinite = true ↔ m = infinity := by
  rw [isInfinite, beq_iff_eq]
  exact ⟨fun h => ext h, fun h => h ▸ rfl⟩

end Magnitude

/-! ## Signs and words -/

/-- A double: a signed magnitude, or not a number. -/
inductive Double where
  | nan
  | signed (negative : Bool) (magnitude : Magnitude)
  deriving DecidableEq, Repr

namespace Double

def zero : Double := .signed false .zero

def infinity (negative : Bool) : Double := .signed negative .infinity

/-- The double of a word: the top bit is the sign and the others are the rank; ranks beyond
infinity are not numbers. -/
def ofBits (word : UInt64) : Double :=
  let rank := word.toNat % 2 ^ (63 : Nat)
  if h : rank ≤ infinityRank then .signed (2 ^ (63 : Nat) ≤ word.toNat) ⟨rank, h⟩ else .nan

/-- The word of a double; of the many words that are not numbers, the quiet one without sign. -/
def toBits : Double → UInt64
  | .nan => 0x7ff8000000000000
  | .signed negative m => UInt64.ofNat ((if negative then 2 ^ (63 : Nat) else 0) + m.rank)

theorem ofBits_of_rank {word : UInt64} {m : Magnitude} (h : word.toNat % 2 ^ (63 : Nat) = m.rank) :
    ofBits word = .signed (2 ^ (63 : Nat) ≤ word.toNat) m := by
  have hm := m.rank_le
  rw [ofBits, dif_pos (h ▸ hm)]
  congr 1
  exact Magnitude.ext h

theorem toNat_of_ofBits {word : UInt64} {s : Bool} {m : Magnitude}
    (h : ofBits word = .signed s m) :
    (s = true ↔ 2 ^ (63 : Nat) ≤ word.toNat) ∧ word.toNat % 2 ^ (63 : Nat) = m.rank := by
  unfold ofBits at h
  dsimp only at h
  split at h
  · obtain ⟨hs, hm⟩ := Double.signed.inj h
    exact ⟨by rw [← hs, decide_eq_true_eq], congrArg Magnitude.rank hm⟩
  · cases h

theorem ofBits_toBits (x : Double) : ofBits x.toBits = x := by
  match x with
  | .nan => decide
  | .signed negative m =>
    have hm : m.rank < 2 ^ (63 : Nat) := Nat.lt_of_le_of_lt m.rank_le (by decide)
    have hw : (toBits (.signed negative m)).toNat =
        (if negative then 2 ^ (63 : Nat) else 0) + m.rank := by
      rw [toBits, UInt64.toNat_ofNat']
      apply Nat.mod_eq_of_lt
      split <;> omega
    rw [ofBits_of_rank (m := m) (by rw [hw]; split <;> omega), hw]
    cases negative
    · simp; omega
    · simp

def isNaN : Double → Bool
  | .nan => true
  | .signed _ _ => false

theorem isNaN_iff {x : Double} : x.isNaN = true ↔ x = .nan := by
  cases x <;> simp [isNaN]

/-- Neither an infinity nor `nan`. -/
def isFinite : Double → Bool
  | .nan => false
  | .signed _ m => !m.isInfinite

end Double

end TreeWalk
