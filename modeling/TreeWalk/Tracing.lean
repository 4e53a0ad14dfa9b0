import TreeWalk.Text.Blank
import TreeWalk.Text.Case

/-!
# The trace setting

Reports end with a heading for the trace if a setting asks for it: if its text is, between blanks
and in either case, one of the words below.

* `tracingWords` : the words;
* `tracingWanted` : what a setting says; a missing one says no.
-/

namespace TreeWalk.Text

/-- The words that ask for traces. -/
def tracingWords : List String := ["1", "true", "yes", "on"]

def tracingWanted : Option String → Bool
  | none => false
  | some setting =>
    tracingWords.contains (String.ofList ((trim isBlank setting.toList).flatMap lowerCase))

end TreeWalk.Text
