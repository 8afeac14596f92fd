import LintHost.Text.Digit
import LintHost.Yaml.Cursor

/-!
# YAML block scalars

After `|` the lines of a block are kept as they are; after `>` single line ends become spaces. A
digit in the header tells the indentation, which otherwise is that of the first line with text; a
sign tells whether the line ends at the end are dropped, kept, or kept as one.

* `Cursor.blockScalar`: the text of a scalar and the place behind it.
-/

namespace LintHost.Yaml.Cursor

open LintHost.Text

/-- What to do with the line ends at the end of a block. -/
inductive Chomping
  | strip
  | clip
  | keep
deriving DecidableEq

/-- What the header of a block tells. -/
structure BlockHeader where
  chomping : Chomping
  increment : Option Nat

/-! ## 1. The header -/

/-- The sign of a header. -/
def chompingSign? : Char → Option Chomping
  | '+' => some .keep
  | '-' => some .strip
  | _ => none

/-- The signs of a header in either order, and the place behind them. Zero is no indentation. -/
def blockSigns (c : Cursor) : Reading (BlockHeader × Cursor) :=
  match chompingSign? c.peek, asciiDigit? c.peek with
  | some chomping, _ =>
    match asciiDigit? c.next.peek with
    | some 0 => c.next.wrong
    | some n => .ok (⟨chomping, some n⟩, c.skip 2)
    | none => .ok (⟨chomping, none⟩, c.next)
  | none, some 0 => c.wrong
  | none, some n =>
    match chompingSign? c.next.peek with
    | some chomping => .ok (⟨chomping, some n⟩, c.skip 2)
    | none => .ok (⟨.clip, some n⟩, c.next)
  | none, none => .ok (⟨.clip, none⟩, c)

/-- The header and the place at the start of the next line. -/
def blockHeader (c : Cursor) : Reading (BlockHeader × Cursor) := do
  let (header, after) ← c.blockSigns
  if isSpaceOrEnd after.peek then return (header, ← after.emptyLine) else after.wrong

/-! ## 2. Indentation -/

/-- The place behind spaces, at most up to a column. -/
def skipIndent (indent : Nat) : Nat → Cursor → Cursor
  | 0, c => c
  | fuel + 1, c =>
    if c.column < indent ∧ c.peek = ' ' then skipIndent indent fuel c.next else c

/-- The line ends of empty lines, and the place behind them and the indentation of the next. -/
def blockBreaks (indent : Nat) : Nat → Cursor → List Char × Cursor
  | 0, c => ([], c)
  | fuel + 1, c =>
    let c := skipIndent indent indent c
    match c.lineBreak with
    | ([], _) => ([], c)
    | (ending, after) =>
      let (more, after) := blockBreaks indent fuel after
      (ending ++ more, after)

/-- The line ends of empty lines, the largest column that their spaces reach, and the place before
    the first character that is neither. -/
def blockIndent : Nat → Nat → Cursor → List Char × Nat × Cursor
  | 0, widest, c => ([], widest, c)
  | fuel + 1, widest, c =>
    let c := c.skipSpaces
    let widest := max widest c.column
    match c.lineBreak with
    | ([], _) => ([], widest, c)
    | (ending, after) =>
      let (more, widest, after) := blockIndent fuel widest after
      (ending ++ more, widest, after)

/-! ## 3. Lines -/

/-- Whether a character is a space or a tab. -/
def isInline (c : Char) : Bool := c = ' ' || c = '\t'

/-- What stands between two lines of a block: nothing if the first line end is folded into the
    empty lines that follow, a space if it is folded alone, else the line end itself. -/
def joint (fold : Bool) (ending breaks : List Char) : List Char :=
  if fold then (if breaks.isEmpty then [' '] else []) else ending

/-- What is left at the end of a block. -/
def tail (chomping : Chomping) (ending breaks : List Char) : List Char :=
  match chomping with
  | .strip => []
  | .clip => ending
  | .keep => ending ++ breaks

/-- The lines of a block from the first one on; `breaks` are the empty lines before it. -/
def blockLines (foldLines : Bool) (indent : Nat) (chomping : Chomping) :
    Nat → List Char → Cursor → List Char × Cursor
  | 0, _, c => ([], c)
  | fuel + 1, breaks, c =>
    let indented := isInline c.peek
    let (line, atEnd) := c.span (!endsLine ·)
    let (ending, after) := atEnd.lineBreak
    let (following, after) := blockBreaks indent (after.rest.length + 1) after
    if after.column = indent ∧ after.peek ≠ '\x00' then
      let fold := foldLines && ending = ['\n'] && !indented && !isInline after.peek
      let (more, after) := blockLines foldLines indent chomping fuel following after
      (breaks ++ line ++ joint fold ending following ++ more, after)
    else (breaks ++ line ++ tail chomping ending following, after)

/-- A block scalar from its indicator on; its lines are indented by at least `least`. -/
def blockScalar (least : Nat) (c : Cursor) : Reading (List Char × Cursor) := do
  let (header, first) ← c.next.blockHeader
  let size := first.rest.length + 1
  let (breaks, indent, after) := match header.increment with
    | some n =>
      let indent := least + n - 1
      let (breaks, after) := blockBreaks indent size first
      (breaks, indent, after)
    | none =>
      let (breaks, widest, after) := blockIndent size 0 first
      (breaks, max least widest, after)
  if after.column = indent ∧ after.peek ≠ '\x00' then
    return blockLines (c.peek = '>') indent header.chomping size breaks after
  else return (tail header.chomping [] breaks, after)

end LintHost.Yaml.Cursor
