import LintHost.Json.Reader
import LintHost.Text.Utf8
import LintHost.Yaml.Cursor
import LintHost.Yaml.Token

/-!
# Anchors, tags and directives

The small forms of YAML text: names after `&` and `*`, tags after `!`, and the lines that begin
with `%`. Each reader starts at its indicator and gives what it has read with the place behind it.
-/

namespace LintHost.Yaml

open LintHost.Text

namespace Cursor

/-! ## 1. Names -/

/-- A name of letters, digits, dashes and underscores. -/
def name (c : Cursor) : Reading (String × Cursor) :=
  match c.span isNameChar with
  | ([], _) => c.wrong
  | (cs, after) => .ok (String.ofList cs, after)

/-- Whether a character may follow the name of an anchor or alias. -/
def endsName (c : Char) : Bool := isGap c || "?:,]\x7d%@\x60".toList.contains c

/-- The name after `&` or `*`. -/
def anchor (c : Cursor) : Reading (String × Cursor) := do
  let (name, after) ← c.next.name
  if endsName after.peek then return (name, after) else after.wrong

/-! ## 2. Tags -/

/-- Whether a character may stand in a tag. -/
def isTagChar (c : Char) : Bool :=
  c.isAlphanum || "-;/?:@&=+$,_.!~*'()[]%".toList.contains c

/-- The byte of an escape of the form `%41`, from its digits on. -/
def escapedByte (c : Cursor) : Reading (UInt8 × Cursor) :=
  match Json.hexDigit? c.peek, Json.hexDigit? (c.peekAt 1) with
  | some high, some low => .ok (UInt8.ofNat (16 * high + low), c.skip 2)
  | some _, none => c.next.wrong
  | none, _ => c.wrong

/-- The bytes of a run of escapes. -/
def escapedBytes : Nat → Cursor → Reading (List UInt8 × Cursor)
  | 0, c => c.wrong
  | fuel + 1, c =>
    if c.peek = '%' then do
      let (byte, after) ← c.next.escapedByte
      let (bytes, after) ← escapedBytes fuel after
      return (byte :: bytes, after)
    else .ok ([], c)

/-- The characters of a tag, escapes replaced. -/
def tagChars : Nat → Cursor → Reading (List Char × Cursor)
  | 0, c => c.wrong
  | fuel + 1, c =>
    if c.peek = '%' then do
      let (bytes, after) ← escapedBytes (c.rest.length + 1) c
      match decode? ⟨bytes.toArray⟩ with
      | none => after.wrong
      | some text =>
        let (cs, after) ← tagChars fuel after
        return (text.toList ++ cs, after)
    else if isTagChar c.peek then do
      let (cs, after) ← tagChars fuel c.next
      return (c.peek :: cs, after)
    else .ok ([], c)

/-- The text of a tag; it has at least one character or escape. -/
def tagText (c : Cursor) : Reading (String × Cursor) := do
  if !isTagChar c.peek then c.wrong
  else
    let (cs, after) ← tagChars (c.rest.length + 1) c
    return (String.ofList cs, after)

/-- A handle of a tag: `!`, or a name between two of them. -/
def handle (c : Cursor) : Reading (String × Cursor) :=
  if c.peek ≠ '!' then c.wrong
  else if c.peekAt 1 = ' ' then .ok ("!", c.next)
  else
    let (name, after) := c.next.span isNameChar
    if after.peek = '!' then .ok (String.ofList ('!' :: name ++ ['!']), after.next)
    else after.wrong

/-- A tag in one of its forms: in full between `<` and `>`, a lone `!`, or with a handle. Whether it
    has a handle is seen by looking for its end. -/
def tagForm (c : Cursor) : Reading (WrittenTag × Cursor) := do
  if c.peekAt 1 = '<' then
    let (suffix, after) ← (c.skip 2).tagText
    if after.peek = '>' then return (⟨none, suffix⟩, after.next) else after.wrong
  else if isGap (c.peekAt 1) then return (⟨none, "!"⟩, c.next)
  else
    let (run, atEnd) := c.next.span fun ch => !isSpaceOrEnd ch
    if run.contains '!' then
      let (handle, after) ← c.handle
      let (suffix, after) ← after.tagText
      return (⟨some handle, suffix⟩, after)
    else match c.next.tagText with
      | .ok (suffix, after) => return (⟨some "!", suffix⟩, after)
      | .error _ => atEnd.wrong

/-- A tag, which ends at a space or with the line. -/
def tag (c : Cursor) : Reading (WrittenTag × Cursor) := do
  let (written, after) ← c.tagForm
  if isSpaceOrEnd after.peek then return (written, after) else after.wrong

/-! ## 3. Directives -/

/-- A number of digits, which may not be more than integers can have. -/
def number (c : Cursor) : Reading (Nat × Cursor) :=
  match c.span Number.isDigit with
  | ([], _) => c.wrong
  | (cs, after) =>
    if Number.digitLimit < cs.length then
      .error ⟨after, .invalid (.value (.longDigits cs.length))⟩
    else .ok (Number.ofDigits (cs.filterMap asciiDigit?), after)

/-- The version after `%YAML`. -/
def version (c : Cursor) : Reading (Token × Cursor) := do
  let (major, after) ← c.skipSpaces.number
  if after.peek ≠ '.' then after.wrong
  else
    let (_, after) ← after.next.number
    if isSpaceOrEnd after.peek then return (.version major, after) else after.wrong

/-- The handle after `%TAG` and what it stands for. -/
def handleDirective (c : Cursor) : Reading (Token × Cursor) := do
  let (name, after) ← c.skipSpaces.handle
  if after.peek ≠ ' ' then after.wrong
  else
    let (stands, after) ← after.skipSpaces.tagText
    if isSpaceOrEnd after.peek then return (.handle name stands, after) else after.wrong

/-- A directive with the rest of its line. -/
def directive (c : Cursor) : Reading (Token × Cursor) := do
  let (name, after) ← c.next.name
  if !isSpaceOrEnd after.peek then after.wrong
  else
    let (token, after) ←
      if name = "YAML" then after.version
      else if name = "TAG" then after.handleDirective
      else pure (.directive, after.skipWhile (!endsLine ·))
    return (token, ← after.emptyLine)

end Cursor

end LintHost.Yaml
