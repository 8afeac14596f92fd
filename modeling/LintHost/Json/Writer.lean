import LintHost.Json.Reader
import LintHost.Text.Quoted
import LintHost.Text.Split
import LintHost.Number.Shortest

/-!
# Writing JSON text

Three styles are in use: requests are written on one line in ASCII, saved rule snapshots with
indentation in ASCII, and what is shown to people with indentation and all characters as they
are. Numbers that are not integers are written as the shortest decimal that reads back.

* `render style level j`: the text of a value at a level of indentation;
* `write style j`: the text of a whole value, refused only for what no reader takes back:
  integers of too many digits and too deep nesting.
-/

namespace LintHost.Json

open LintHost.Text

/-- How JSON text is laid out. -/
structure Style where
  /-- Items on lines of their own, with two more blanks of indentation per level. -/
  lines : Bool
  /-- Characters beyond ASCII escaped. -/
  ascii : Bool

/-- One line of ASCII. -/
def wire : Style := ⟨false, true⟩

/-- Indented ASCII. -/
def snapshot : Style := ⟨true, true⟩

/-- Indented, with all characters as they are. -/
def display : Style := ⟨true, false⟩

/-! ## 1. Strings and numbers -/

/-- The escape of a UTF-16 unit. -/
def unitEscape (n : Nat) : List Char := '\\' :: 'u' :: hex 4 n

/-- The escape of a character, as one unit or as a surrogate pair. -/
def escape (c : Char) : List Char :=
  let n := c.toNat
  if n < 0x10000 then unitEscape n
  else unitEscape (0xd800 + (n - 0x10000) / 0x400) ++ unitEscape (0xdc00 + (n - 0x10000) % 0x400)

/-- One character inside a string. -/
def stringChar (ascii : Bool) (c : Char) : List Char :=
  match c with
  | '"' => ['\\', '"']
  | '\\' => ['\\', '\\']
  | '\n' => ['\\', 'n']
  | '\r' => ['\\', 'r']
  | '\t' => ['\\', 't']
  | '\x0c' => ['\\', 'f']
  | '\x08' => ['\\', 'b']
  | c => if c.toNat < 0x20 ∨ (ascii ∧ 0x7e < c.toNat) then escape c else [c]

/-- A string with its quotes. -/
def stringText (ascii : Bool) (s : String) : List Char :=
  '"' :: s.toList.flatMap (stringChar ascii) ++ ['"']

/-- Numbers are laid out as everywhere; only the numbers without digits have JSON's names. -/
def floatLayout : Binary64.Layout :=
  { Binary64.numberLayout with nanText := "NaN".toList, infinityText := "Infinity".toList }

/-- The decimal text of an integer. -/
def intText (n : Int) : List Char :=
  (if n < 0 then ['-'] else []) ++ Nat.toDigits 10 n.natAbs

/-! ## 2. Values -/

/-- What stands in front of an item at a level of indentation. -/
def newline (style : Style) (level : Nat) : List Char :=
  if style.lines then '\n' :: List.replicate (2 * level) ' ' else []

/-- What stands between two items. -/
def separator (style : Style) (level : Nat) : List Char :=
  if style.lines then ',' :: newline style level else [',', ' ']

mutual

/-- The text of a value whose container stands at this level. -/
def render (style : Style) (level : Nat) : Json → List Char
  | .null => "null".toList
  | .bool b => (if b then "true" else "false").toList
  | .int n => intText n
  | .float x => floatLayout.render x
  | .text s => stringText style.ascii s
  | .list [] => ['[', ']']
  | .list (j :: js) =>
    '[' :: newline style (level + 1) ++ render style (level + 1) j ++
      renderItems style (level + 1) js ++ newline style level ++ [']']
  | .object [] => ['{', '}']
  | .object ((name, j) :: es) =>
    '{' :: newline style (level + 1) ++ stringText style.ascii name ++ ':' :: ' ' ::
      render style (level + 1) j ++ renderMembers style (level + 1) es ++
      newline style level ++ ['}']

/-- The items of a list after the first. -/
def renderItems (style : Style) (level : Nat) : List Json → List Char
  | [] => []
  | j :: js => separator style level ++ render style level j ++ renderItems style level js

/-- The members of an object after the first. -/
def renderMembers (style : Style) (level : Nat) : List (String × Json) → List Char
  | [] => []
  | (name, j) :: es =>
    separator style level ++ stringText style.ascii name ++ ':' :: ' ' ::
      render style level j ++ renderMembers style level es

end

/-! ## 3. Limits -/

/-- Whether an integer has at most `Number.digitLimit` digits. -/
def shortInt (n : Int) : Bool := n.natAbs < Number.tenTo Number.digitLimit

/-- The text of a value; too long integers and too deep nesting are refused. -/
def write (style : Style) (j : Json) : Except ReadFault String :=
  if !j.allInts shortInt then .error .longInteger
  else if depthLimit < j.depth then .error .tooDeep
  else .ok (String.ofList (render style 0 j))

end LintHost.Json
