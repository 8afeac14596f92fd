import LintHost.Yaml.Cursor

/-!
# YAML scalars without quotes

A plain scalar is a run of words. It goes on over line ends as long as the lines are indented
enough, and ends where an indicator takes over: at a colon before a blank, at a comment, and inside
flow collections at their own signs.

* `Cursor.plainScalar`: the text of a scalar, the place behind it and the blanks that follow it,
  and whether that is on a later line.
-/

namespace LintHost.Yaml.Cursor

/-- What is read of a plain scalar or of the blanks in it. -/
structure PlainRun where
  chars : List Char
  after : Cursor
  /-- Whether the last blanks went over a line end. -/
  newLine : Bool

/-- Whether a word ends before `ch`, which `following` comes after. -/
def endsWord (flow : Bool) (ch following : Char) : Bool :=
  isGap ch ||
    (ch = ':' && (isGap following || (flow && ",[]\x7b\x7d".toList.contains following))) ||
    (flow && ",?[]\x7b\x7d".toList.contains ch)

/-- The word ahead; `cs` is what follows the cursor. -/
def wordChars (flow : Bool) : List Char → Cursor → List Char × Cursor
  | [], c => ([], c)
  | ch :: cs, c =>
    if endsWord flow ch (cs.headD '\x00') then ([], c)
    else
      let (word, after) := wordChars flow cs c.next
      (ch :: word, after)

/-- Further line ends with the spaces around them, up to the next word. Nothing stands for them if
    a document marker comes first. -/
def plainBreaks : Nat → Cursor → Option (List Char) × Cursor
  | 0, c => (none, c)
  | fuel + 1, c =>
    if c.atDocumentMarker then (none, c)
    else
      let c := c.skipSpaces
      match c.lineBreak with
      | ([], _) => (some [], c)
      | (ending, after) =>
        let (more, after) := plainBreaks fuel after
        (more.map (ending ++ ·), after)

/-- The blanks after a word, folded if they go over a line end. -/
def plainBlanks (c : Cursor) : PlainRun :=
  let (run, after) := c.span (· = ' ')
  match after.lineBreak with
  | ([], _) => ⟨run, after, false⟩
  | (ending, next) =>
    match plainBreaks (next.rest.length + 1) next with
    | (none, after) => ⟨[], after, true⟩
    | (some more, after) =>
      let first := if ending ≠ ['\n'] then ending else if more.isEmpty then [' '] else []
      ⟨first ++ more, after, true⟩

/-- The words of a scalar with the blanks between them; `before` are the blanks in front. -/
def plainWords (flow : Bool) (indent : Nat) : Nat → PlainRun → PlainRun
  | 0, before => ⟨[], before.after, before.newLine⟩
  | fuel + 1, before =>
    let c := before.after
    if c.peek = '#' then ⟨[], c, before.newLine⟩
    else match wordChars flow c.rest c with
      | ([], _) => ⟨[], c, before.newLine⟩
      | (word, after) =>
        let blanks := plainBlanks after
        let cs := before.chars ++ word
        if blanks.chars.isEmpty ∨ blanks.after.peek = '#' ∨
            (!flow ∧ blanks.after.column < indent) then
          ⟨cs, blanks.after, blanks.newLine⟩
        else
          let more := plainWords flow indent fuel blanks
          ⟨cs ++ more.chars, more.after, more.newLine⟩

/-- A plain scalar, whose further lines are indented by at least `indent`. -/
def plainScalar (flow : Bool) (indent : Nat) (c : Cursor) : PlainRun :=
  plainWords flow indent (c.rest.length + 1) ⟨[], c, false⟩

end LintHost.Yaml.Cursor
