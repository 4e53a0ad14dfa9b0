import TreeWalk.Text.Printable

/-!
# Quoted texts

A text is quoted in apostrophes, or in quotation marks if it holds an apostrophe and no quotation
mark. A backslash stands before the mark in use and before itself; the line feed, the carriage
return and the tab have letters of their own; any other character that is not printable is written
by its code point in two, four or eight hexadecimal digits.

* `escape` : the text of one character, for any set of printable characters;
* `quote` : the text of a whole text; `quoted` is the same for the characters of `isPrintable`.
-/

namespace TreeWalk.Text

/-- The apostrophe. -/
def apostrophe : Char := '\x27'

/-- The quotation mark. -/
def quotationMark : Char := '\x22'

/-- The mark that quotes a text. -/
def markFor (cs : List Char) : Char :=
  if cs.contains apostrophe && !cs.contains quotationMark then quotationMark else apostrophe

/-- Hexadecimal digits, padded in front with zeros. -/
def hexadecimal (width n : Nat) : List Char :=
  let digits := Nat.toDigits 16 n
  List.replicate (width - digits.length) '0' ++ digits

/-- A character by its code point, in as few digits as one of the three widths has. -/
def escapeCode (c : Char) : List Char :=
  if c.toNat < 0x100 then '\\' :: 'x' :: hexadecimal 2 c.toNat
  else if c.toNat < 0x10000 then '\\' :: 'u' :: hexadecimal 4 c.toNat
  else '\\' :: 'U' :: hexadecimal 8 c.toNat

/-- A character inside a text quoted by `mark`. -/
def escape (printable : Char → Bool) (mark c : Char) : List Char :=
  if c = mark ∨ c = '\\' then ['\\', c]
  else if c = '\n' then ['\\', 'n']
  else if c = '\r' then ['\\', 'r']
  else if c = '\t' then ['\\', 't']
  else if printable c then [c]
  else escapeCode c

/-- A text between its marks. -/
def quote (printable : Char → Bool) (cs : List Char) : List Char :=
  let mark := markFor cs
  mark :: (cs.flatMap (escape printable mark) ++ [mark])

def quoted (text : String) : String :=
  String.ofList (quote isPrintable text.toList)

end TreeWalk.Text
