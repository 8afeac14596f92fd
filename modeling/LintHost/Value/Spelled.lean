import LintHost.Number.Reading
import LintHost.Text.Case
import LintHost.Value.Basic

/-!
# Values spelled in plain text

The environment and files of variables hold nothing but text. What a text stands for is decided in
this order: a word for yes or no, an integer, another number, the text itself.

* `Value.spelled`: the value that a text stands for.
-/

namespace LintHost.Value

open LintHost.Text

/-- The words for yes. -/
def yesWords : List String := ["true", "yes", "on"]

/-- The words for no. -/
def noWords : List String := ["false", "no", "off"]

/-- The truth value that a text is a word for, whatever its case. -/
def truthWord? (s : String) : Option Bool :=
  if lower s ∈ yesWords then some true
  else if lower s ∈ noWords then some false
  else none

/-- The value that a text stands for. -/
def spelled (s : String) : Value :=
  match truthWord? s, Number.readInt? s, Number.readFloat? s with
  | some b, _, _ => .bool b
  | none, some n, _ => .int n
  | none, none, some x => .float x
  | none, none, none => .text s

/-- Words for yes and no come before numbers, numbers before the text itself. -/
example : truthWord? "oN" = some true ∧ truthWord? "1" = none := by decide

end LintHost.Value
