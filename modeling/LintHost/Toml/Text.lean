import LintHost.Fault
import LintHost.Json.Reader

/-!
# Keys and strings of TOML

Strings come in four forms: between single quotes as they are, between double quotes with escapes,
and both with the quotes tripled over several lines. A key is a list of names with points between
them; a name is a bare word or a string on one line.

* `Toml.text`: a string in any of its forms;
* `Toml.key`: a key.
-/

namespace LintHost.Toml

/-! ## 1. Characters -/

/-- Whether a character is a space or a tab. -/
def isBlank (c : Char) : Bool := c = ' ' || c = '\t'

/-- Whether a character is a space, a tab or a line feed. -/
def isBlankOrLine (c : Char) : Bool := isBlank c || c = '\n'

/-- Whether a character may not stand in a string or comment on one line. -/
def isControl (c : Char) : Bool := (c.toNat < 0x20 && c ≠ '\t') || c.toNat = 0x7f

/-- Whether a character may not stand in a string over several lines. -/
def isControlInLines (c : Char) : Bool := isControl c && c ≠ '\n'

/-- Whether a character may stand in a bare name. -/
def isBare (c : Char) : Bool := c.isAlphanum || c = '-' || c = '_'

/-- What follows spaces and tabs. -/
def skipBlanks (cs : List Char) : List Char := cs.dropWhile isBlank

/-- What follows a comment, if one begins here; it may not hold control characters. -/
def comment : List Char → Except DocumentFault (List Char)
  | '#' :: cs =>
    if (cs.takeWhile (· ≠ '\n')).any isControl then .error .malformed
    else .ok (cs.dropWhile (· ≠ '\n'))
  | cs => .ok cs

/-! ## 2. Strings as they are -/

/-- What stands before the closing quote, on one line. -/
def literal (cs : List Char) : Except DocumentFault (List Char × List Char) :=
  let inside := cs.takeWhile (· ≠ '\'')
  if inside.length = cs.length ∨ inside.any isControl then .error .malformed
  else .ok (inside, cs.drop (inside.length + 1))

/-- What stands before three closing quotes, over several lines. -/
def literalLines : List Char → Except DocumentFault (List Char × List Char)
  | '\'' :: '\'' :: '\'' :: cs => .ok ([], cs)
  | c :: cs =>
    if isControlInLines c then .error .malformed
    else (literalLines cs).map fun (inside, rest) => (c :: inside, rest)
  | [] => .error .malformed

/-! ## 3. Strings with escapes -/

/-- The character of a one-letter escape. -/
def shortEscape? : Char → Option Char
  | 'b' => some '\x08'
  | 't' => some '\t'
  | 'n' => some '\n'
  | 'f' => some '\x0c'
  | 'r' => some '\r'
  | '"' => some '"'
  | '\\' => some '\\'
  | _ => none

/-- The character whose number is given by `length` hexadecimal digits. -/
def codeEscape (length : Nat) (cs : List Char) : Except DocumentFault (List Char × List Char) :=
  let digits := cs.take length
  match digits.foldlM (fun n c => (Json.hexDigit? c).map (16 * n + ·)) 0 with
  | some n =>
    if digits.length < length ∨ 0x10ffff < n ∨ (0xd800 ≤ n ∧ n < 0xe000) then .error .malformed
    else .ok ([Char.ofNat n], cs.drop length)
  | none => .error .malformed

/-- What an escape stands for, after its backslash. Over several lines one before blanks and a line
    end joins the lines. -/
def escape (lines : Bool) : List Char → Except DocumentFault (List Char × List Char)
  | [] => .error .malformed
  | c :: cs =>
    if lines ∧ isBlankOrLine c then
      match skipBlanks (c :: cs) with
      | [] => .ok ([], [])
      | '\n' :: rest => .ok ([], rest.dropWhile isBlankOrLine)
      | _ => .error .malformed
    else if c = 'u' then codeEscape 4 cs
    else if c = 'U' then codeEscape 8 cs
    else match shortEscape? c with
      | some x => .ok ([x], cs)
      | none => .error .malformed

/-- What stands before the closing quote or quotes. -/
def basic (lines : Bool) : Nat → List Char → Except DocumentFault (List Char × List Char)
  | 0, _ => .error .malformed
  | fuel + 1, cs =>
    match cs with
    | [] => .error .malformed
    | '\\' :: cs => do
      let (x, rest) ← escape lines cs
      let (more, rest) ← basic lines fuel rest
      return (x ++ more, rest)
    | '"' :: rest =>
      if !lines then .ok ([], rest)
      else match rest with
        | '"' :: '"' :: rest => .ok ([], rest)
        | rest => do
          let (more, rest) ← basic lines fuel rest
          return ('"' :: more, rest)
    | c :: cs =>
      if (if lines then isControlInLines c else isControl c) then .error .malformed
      else do
        let (more, rest) ← basic lines fuel cs
        return (c :: more, rest)

/-! ## 4. All forms -/

/-- What follows a line feed, if one comes first. -/
def dropLine : List Char → List Char
  | '\n' :: cs => cs
  | cs => cs

/-- Up to two more quotes that stand right behind three closing ones belong to the string. -/
def moreQuotes (quote : Char) (inside cs : List Char) : List Char × List Char :=
  let more := (cs.take 2).takeWhile (· = quote)
  (inside ++ more, cs.drop more.length)

/-- A string, in any form if `lines` allows those over several lines. -/
def string (lines : Bool) : List Char → Except DocumentFault (List Char × List Char)
  | '\'' :: '\'' :: '\'' :: cs => do
    if lines then
      let (inside, rest) ← literalLines (dropLine cs)
      return moreQuotes '\'' inside rest
    else return ([], '\'' :: cs)
  | '"' :: '"' :: '"' :: cs => do
    if lines then
      let (inside, rest) ← basic true (cs.length + 1) (dropLine cs)
      return moreQuotes '"' inside rest
    else return ([], '"' :: cs)
  | '\'' :: cs => literal cs
  | '"' :: cs => basic false (cs.length + 1) cs
  | _ => .error .malformed

/-- A string in any of its forms. -/
def text (cs : List Char) : Except DocumentFault (String × List Char) :=
  (string true cs).map fun (inside, rest) => (String.ofList inside, rest)

/-! ## 5. Keys -/

/-- The names on the way from one table to another. -/
abbrev Path := List String

/-- A name of a key. -/
def keyName (cs : List Char) : Except DocumentFault (String × List Char) :=
  match cs.takeWhile isBare with
  | [] => (string false cs).map fun (inside, rest) => (String.ofList inside, rest)
  | name => .ok (String.ofList name, cs.drop name.length)

/-- The names of a key, with blanks around the points between them. -/
def keyNames : Nat → List Char → Except DocumentFault (Path × List Char)
  | 0, _ => .error .malformed
  | fuel + 1, cs => do
    let (name, rest) ← keyName cs
    match skipBlanks rest with
    | '.' :: rest => do
      let (names, rest) ← keyNames fuel (skipBlanks rest)
      return (name :: names, rest)
    | rest => return ([name], rest)

/-- A key and what follows it and the blanks behind it. -/
def key (cs : List Char) : Except DocumentFault (Path × List Char) := keyNames (cs.length + 1) cs

end LintHost.Toml
