import LintHost.Fault

/-!
# Moving through YAML text

YAML counts columns, so its readers move through the text with a cursor that knows where it is.
Past the end of the text the cursor sees NUL, which YAML text never contains.

* `Cursor.peek`, `Cursor.next`: the characters ahead, and the cursor behind the first of them;
* `Cursor.span`: the longest run of characters of a kind;
* `Cursor.lineBreak`: one line end;
* `Mistake`: what is wrong with a text, and where that shows.
-/

namespace LintHost.Yaml

/-! ## 1. Characters -/

/-- Whether a character may stand in YAML text at all. -/
def isPrintable (c : Char) : Bool :=
  let n := c.toNat
  n = 0x9 || n = 0xa || n = 0xd || (0x20 ≤ n && n ≤ 0x7e) || n = 0x85 ||
    (0xa0 ≤ n && n ≤ 0xd7ff) || (0xe000 ≤ n && n ≤ 0xfffd) || 0x10000 ≤ n

/-- Whether a character ends a line. -/
def isBreak (c : Char) : Bool :=
  c = '\n' || c = '\r' || c = '\x85' || c = '\u2028' || c = '\u2029'

/-- Whether a line ends here: at a line end or at the end of the text. -/
def endsLine (c : Char) : Bool := c = '\x00' || isBreak c

/-- Whether a character is a space or ends a line. -/
def isSpaceOrEnd (c : Char) : Bool := c = ' ' || endsLine c

/-- Whether a character is a space or tab or ends a line. -/
def isGap (c : Char) : Bool := c = '\t' || isSpaceOrEnd c

/-- Whether a character may stand in the name of an anchor or a directive. -/
def isNameChar (c : Char) : Bool := c.isAlphanum || c = '-' || c = '_'

/-! ## 2. Cursors -/

/-- A place in a text: what follows, how much went before, and where that is. -/
structure Cursor where
  rest : List Char
  index : Nat
  line : Nat
  column : Nat

/-- What is wrong with a text, and the place up to which it was looked at. -/
structure Mistake where
  place : Cursor
  fault : DocumentFault

namespace Cursor

/-- What is read of a text, with the place behind it, unless something is wrong. -/
abbrev Reading := Except Mistake

/-- The text is not of the format, which shows here. -/
def wrong {α : Type} (c : Cursor) : Reading α := .error ⟨c, .malformed⟩

/-- The beginning of a text. -/
def start (cs : List Char) : Cursor := ⟨cs, 0, 0, 0⟩

/-- The character ahead. -/
def peek (c : Cursor) : Char := c.rest.headD '\x00'

/-- The character that stands `n` places further ahead. -/
def peekAt (c : Cursor) (n : Nat) : Char := (c.rest[n]?).getD '\x00'

/-- The place behind the next character. A byte order mark takes no column. -/
def next (c : Cursor) : Cursor :=
  match c.rest with
  | [] => c
  | ch :: rest =>
    if isBreak ch ∧ ¬ (ch = '\r' ∧ rest.head? = some '\n') then
      ⟨rest, c.index + 1, c.line + 1, 0⟩
    else ⟨rest, c.index + 1, c.line, if ch = '\ufeff' then c.column else c.column + 1⟩

/-- The place behind the next `n` characters. -/
def skip : Nat → Cursor → Cursor
  | 0, c => c
  | n + 1, c => skip n c.next

/-- The characters of `cs` that satisfy `p` up to the first that does not, and the place behind
    them; `cs` is what follows the cursor. -/
def spanChars (p : Char → Bool) : List Char → Cursor → List Char × Cursor
  | [], c => ([], c)
  | ch :: cs, c =>
    if p ch then
      let (run, after) := spanChars p cs c.next
      (ch :: run, after)
    else ([], c)

/-- The longest run of characters ahead that satisfy `p`, and the place behind it. -/
def span (p : Char → Bool) (c : Cursor) : List Char × Cursor := spanChars p c.rest c

/-- The place behind the longest run of characters that satisfy `p`. -/
def skipWhile (p : Char → Bool) (c : Cursor) : Cursor := (c.span p).2

/-- The place behind the spaces ahead. -/
def skipSpaces (c : Cursor) : Cursor := c.skipWhile (· = ' ')

/-- The place behind a comment, if one begins here. -/
def skipComment (c : Cursor) : Cursor :=
  if c.peek = '#' then c.skipWhile (!endsLine ·) else c

/-- A line end and the place behind it; nothing if no line ends here. The usual line ends all read
    as a line feed. -/
def lineBreak (c : Cursor) : List Char × Cursor :=
  if c.peek = '\r' ∧ c.peekAt 1 = '\n' then (['\n'], c.skip 2)
  else if c.peek = '\u2028' ∨ c.peek = '\u2029' then ([c.peek], c.next)
  else if isBreak c.peek then (['\n'], c.next)
  else ([], c)

/-- Whether three dashes or three points stand alone ahead. -/
def atMarker (c : Cursor) (sign : Char) : Bool :=
  c.peek = sign && c.peekAt 1 = sign && c.peekAt 2 = sign && isGap (c.peekAt 3)

/-- Whether a document begins or ends ahead, were this the first column. -/
def atDocumentMarker (c : Cursor) : Bool := c.atMarker '-' || c.atMarker '.'

/-- The rest of a line that holds nothing more, up to the next one. -/
def emptyLine (c : Cursor) : Reading Cursor :=
  let after := c.skipSpaces.skipComment
  if endsLine after.peek then .ok after.lineBreak.2 else after.wrong

end Cursor

end LintHost.Yaml
