/-!
# Blank characters

Blanks are the spaces and separators of Unicode together with the control characters that move
the writing position or separate records. Zero-width characters are no blanks.

* `isBlank` : the table;
* `isSpacing` : the blanks that are no separators of records;
* `trim` : a text without the characters of a class at both ends; these may be any in front of and
  behind a text (`trim_append`), and there are no others (`exists_trim`).
-/

namespace TreeWalk.Text

/-- The first and last code points of the runs of blanks. -/
def blankRanges : List (Nat × Nat) :=
  [(0x09, 0x0d), (0x1c, 0x20), (0x85, 0x85), (0xa0, 0xa0), (0x1680, 0x1680), (0x2000, 0x200a),
    (0x2028, 0x2029), (0x202f, 0x202f), (0x205f, 0x205f), (0x3000, 0x3000)]

def isBlank (c : Char) : Bool :=
  blankRanges.any fun (first, last) => first ≤ c.toNat && c.toNat ≤ last

/-- The separators of files, groups, records and units. -/
def isRecordSeparator (c : Char) : Bool := 0x1c ≤ c.toNat && c.toNat ≤ 0x1f

def isSpacing (c : Char) : Bool := isBlank c && !isRecordSeparator c

/-- The text without the characters of a class at its ends. -/
def trim (inClass : Char → Bool) (cs : List Char) : List Char :=
  ((cs.dropWhile inClass).reverse.dropWhile inClass).reverse

section Trim

variable {inClass : Char → Bool} {before cs after : List Char}

theorem trim_eq_self_of_ends (hhead : ∀ c ∈ cs.head?, inClass c = false)
    (hlast : ∀ c ∈ cs.getLast?, inClass c = false) : trim inClass cs = cs := by
  have hdrop {l : List Char} (hl : ∀ c ∈ l.head?, inClass c = false) :
      l.dropWhile inClass = l := by
    cases l with
    | nil => rfl
    | cons c rest => rw [List.dropWhile_cons, hl c rfl]; rfl
  rw [trim, hdrop hhead, hdrop fun c hc => hlast c (List.head?_reverse ▸ hc),
    List.reverse_reverse]

theorem trim_eq_self (h : ∀ c ∈ cs, inClass c = false) : trim inClass cs = cs :=
  trim_eq_self_of_ends (fun c hc => h c (List.mem_of_mem_head? hc))
    fun c hc => h c (List.mem_of_mem_getLast? hc)

theorem trim_append (hbefore : ∀ c ∈ before, inClass c = true)
    (hafter : ∀ c ∈ after, inClass c = true) :
    trim inClass (before ++ (cs ++ after)) = trim inClass cs := by
  have hreverse : ∀ c ∈ after.reverse, inClass c = true :=
    fun c hc => hafter c (List.mem_reverse.1 hc)
  rw [trim, List.dropWhile_append_of_pos hbefore, List.dropWhile_append]
  split
  · next hcs =>
    have hnil : (after ++ []).dropWhile inClass = [] := List.dropWhile_append_of_pos hafter
    rw [List.append_nil] at hnil
    rw [trim, hnil, List.isEmpty_iff.1 hcs]
  · rw [trim, List.reverse_append, List.dropWhile_append_of_pos hreverse]

/-- What is trimmed off is in the class. -/
theorem exists_trim (inClass : Char → Bool) (cs : List Char) :
    ∃ before after, cs = before ++ (trim inClass cs ++ after) ∧
      (∀ c ∈ before, inClass c = true) ∧ ∀ c ∈ after, inClass c = true := by
  have hall (l : List Char) : ∀ c ∈ l.takeWhile inClass, inClass c = true :=
    List.all_eq_true.1 List.all_takeWhile
  refine ⟨cs.takeWhile inClass, ((cs.dropWhile inClass).reverse.takeWhile inClass).reverse,
    ?_, hall cs, fun c hc => hall _ c (List.mem_reverse.1 hc)⟩
  rw [trim, ← List.reverse_append, List.takeWhile_append_dropWhile, List.reverse_reverse,
    List.takeWhile_append_dropWhile]

theorem map_trim {f : Char → Char} (h : ∀ c, inClass (f c) = inClass c) :
    (trim inClass cs).map f = trim inClass (cs.map f) := by
  have hcomp : inClass ∘ f = inClass := funext h
  rw [trim, trim, List.dropWhile_map, ← List.map_reverse, List.dropWhile_map, List.map_reverse,
    hcomp]

end Trim

end TreeWalk.Text
