import LintHost.Json.Reader
import LintHost.Yaml.Cursor

/-!
# YAML scalars between quotes

Between single quotes only the quote itself is written specially, namely twice; between double
quotes there are escapes. Both may run over several lines: a single line end becomes a space, more
of them become one less, and the blanks around them are dropped.

* `Cursor.quotedScalar`: the text of a scalar and the place behind its closing quote.
-/

namespace LintHost.Yaml.Cursor

/-! ## 1. Escapes -/

/-- The character of a one-letter escape. -/
def shortEscape? : Char → Option Char
  | '0' => some '\x00'
  | 'a' => some '\x07'
  | 'b' => some '\x08'
  | 't' | '\t' => some '\t'
  | 'n' => some '\n'
  | 'v' => some '\x0b'
  | 'f' => some '\x0c'
  | 'r' => some '\r'
  | 'e' => some '\x1b'
  | ' ' => some ' '
  | '"' => some '"'
  | '\\' => some '\\'
  | '/' => some '/'
  | 'N' => some '\x85'
  | '_' => some '\xa0'
  | 'L' => some '\u2028'
  | 'P' => some '\u2029'
  | _ => none

/-- How many hexadecimal digits follow the letter of an escape. -/
def codeLength? : Char → Option Nat
  | 'x' => some 2
  | 'u' => some 4
  | 'U' => some 8
  | _ => none

/-- The number that hexadecimal digits spell. -/
def hexNumber? (cs : List Char) : Option Nat :=
  cs.foldlM (fun n c => (Json.hexDigit? c).map (16 * n + ·)) 0

/-- The character with a number. Half of a surrogate pair reads as the replacement character. -/
def character (n : Nat) : Except DocumentFault Char :=
  if 0x7fffffff < n then .error (.invalid .tooLarge)
  else if 0x10ffff < n then .error (.invalid (.value .notCharacter))
  else if 0xd800 ≤ n ∧ n < 0xe000 then .ok '\ufffd'
  else .ok (Char.ofNat n)

/-- The character whose number is given by `length` digits ahead. -/
def codeEscape (length : Nat) (c : Cursor) : Reading (List Char × Cursor) :=
  let digits := (c.rest.take length).takeWhile fun ch => (Json.hexDigit? ch).isSome
  if digits.length < length then (c.skip digits.length).wrong
  else match hexNumber? digits with
    | none => c.wrong
    | some n => match character n with
      | .ok ch => .ok ([ch], c.skip length)
      | .error fault => .error ⟨c, fault⟩

/-! ## 2. Line ends -/

/-- Further line ends and the blanks between them. A document marker at the start of a line is no
    part of a scalar. -/
def moreBreaks : Nat → Cursor → Reading (List Char × Cursor)
  | 0, c => c.wrong
  | fuel + 1, c =>
    if c.atDocumentMarker then c.wrong
    else
      let c := c.skipWhile fun ch => ch = ' ' || ch = '\t'
      match c.lineBreak with
      | ([], _) => .ok ([], c)
      | (ending, after) => do
        let (more, after) ← moreBreaks fuel after
        return (ending ++ more, after)

/-- What a line end and those after it stand for. -/
def folded (ending more : List Char) : List Char :=
  (if ending ≠ ['\n'] then ending else if more.isEmpty then [' '] else []) ++ more

/-- The blanks ahead: as they are within a line, and folded where the line ends. -/
def blanks (c : Cursor) : Reading (List Char × Cursor) := do
  let (run, after) := c.span fun ch => ch = ' ' || ch = '\t'
  if after.peek = '\x00' then after.wrong
  else match after.lineBreak with
    | ([], _) => return (run, after)
    | (ending, next) =>
      let (more, after) ← moreBreaks (next.rest.length + 1) next
      return (folded ending more, after)

/-! ## 3. Scalars -/

/-- An escape after its backslash; one before a line end joins the lines. -/
def escape (c : Cursor) : Reading (List Char × Cursor) :=
  match shortEscape? c.peek, codeLength? c.peek with
  | some ch, _ => .ok ([ch], c.next)
  | none, some length => codeEscape length c.next
  | none, none =>
    match c.lineBreak with
    | ([], _) => c.wrong
    | (_, after) => moreBreaks (after.rest.length + 1) after

/-- One piece of a scalar. -/
def piece (quote : Char) (c : Cursor) : Reading (List Char × Cursor) :=
  if isGap c.peek then c.blanks
  else if quote = '"' ∧ c.peek = '\\' then escape c.next
  else if quote = '\'' ∧ c.peek = '\'' then .ok (['\''], c.skip 2)
  else .ok ([c.peek], c.next)

/-- Whether the scalar ends ahead. -/
def atClosing (quote : Char) (c : Cursor) : Bool :=
  c.peek = quote && !(quote = '\'' && c.peekAt 1 = '\'')

/-- The pieces up to the closing quote. -/
def pieces (quote : Char) : Nat → Cursor → Reading (List Char × Cursor)
  | 0, c => c.wrong
  | fuel + 1, c =>
    if c.atClosing quote then .ok ([], c.next)
    else do
      let (cs, after) ← c.piece quote
      let (more, after) ← pieces quote fuel after
      return (cs ++ more, after)

/-- A scalar from its opening quote to its closing one. -/
def quotedScalar (c : Cursor) : Reading (List Char × Cursor) :=
  pieces c.peek (c.rest.length + 1) c.next

end LintHost.Yaml.Cursor
