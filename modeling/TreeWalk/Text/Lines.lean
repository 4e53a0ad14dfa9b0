/-!
# Lines

A line ends at a boundary: a line feed, a carriage return, both in this order as one boundary, a
vertical tab, a form feed, one of the three upper separators of records, the next-line character,
and the line and paragraph separators. A boundary at the very end opens no further line.

* `isBoundary` : the characters that end a line;
* `lines` : the lines of a text, without their boundaries (`not_isBoundary_of_mem_lines`);
* `lineAt?` : the line of a number, counted from 1.
-/

namespace TreeWalk.Text

def boundaries : List Char :=
  ['\n', '\r', '\x0b', '\x0c', '\x1c', '\x1d', '\x1e', '\u0085', '\u2028', '\u2029']

def isBoundary (c : Char) : Bool := boundaries.contains c

/-- Puts a character in front of the first line. -/
def prependToFirst (c : Char) : List (List Char) → List (List Char)
  | [] => [[c]]
  | line :: rest => (c :: line) :: rest

def lines : List Char → List (List Char)
  | [] => []
  | '\r' :: '\n' :: rest => [] :: lines rest
  | c :: rest => if isBoundary c then [] :: lines rest else prependToFirst c (lines rest)

/-- The line of a number, if the text has it. -/
def lineAt? (text : String) (number : Int) : Option String :=
  if number < 1 then none else (lines text.toList)[number.toNat - 1]?.map String.ofList

theorem not_isBoundary_of_mem_lines {cs line : List Char} {c : Char} (hl : line ∈ lines cs)
    (hc : c ∈ line) : isBoundary c = false := by
  fun_induction lines cs generalizing line c with
  | case1 => simp at hl
  | case2 rest ih =>
    rcases List.mem_cons.1 hl with rfl | hl
    · simp at hc
    · exact ih hl hc
  | case3 d rest _ hd ih =>
    rcases List.mem_cons.1 hl with rfl | hl
    · simp at hc
    · exact ih hl hc
  | case4 d rest _ hd ih =>
    cases hr : lines rest with
    | nil =>
      rw [hr] at hl
      simp only [prependToFirst, List.mem_singleton] at hl
      subst hl
      simp only [List.mem_singleton] at hc
      simpa [hc] using hd
    | cons first others =>
      rw [hr] at hl ih
      rcases List.mem_cons.1 hl with rfl | hl
      · rcases List.mem_cons.1 hc with rfl | hc
        · simpa using hd
        · exact ih (List.mem_cons_self ..) hc
      · exact ih (List.mem_cons_of_mem _ hl) hc

end TreeWalk.Text
