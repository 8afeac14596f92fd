import LintHost.Json.Basic
import LintHost.Number.Reading

/-!
# Reading JSON text

One document per text. The reader is strict about strings (no control characters, no unknown
escapes) and about numbers, and generous in one point: `NaN`, `Infinity` and `-Infinity` are
numbers. A name that comes twice in an object keeps its last value. Half of a surrogate pair that
is escaped without its partner reads as the replacement character.

* `Json.read` gives the value of a text or the reason why there is none;
* `depthLimit` bounds the nesting that is read and written.
-/

namespace LintHost.Json

open LintHost.Number

/-- How deep containers may be nested. -/
def depthLimit : Nat := 950

/-- Why a text is not read. -/
inductive ReadFault
  | malformed
  | longInteger
  | tooDeep
deriving DecidableEq

/-! ## 1. Blanks and literal words -/

/-- The blanks between tokens. -/
def isBlank (c : Char) : Bool := c = ' ' || c = '\t' || c = '\n' || c = '\r'

/-- The text after its leading blanks. -/
def skip (cs : List Char) : List Char := cs.dropWhile isBlank

/-! ## 2. Strings -/

/-- What a hexadecimal digit is worth. -/
def hexDigit? (c : Char) : Option Nat :=
  if '0' ≤ c ∧ c ≤ '9' then some (c.toNat - '0'.toNat)
  else if 'a' ≤ c ∧ c ≤ 'f' then some (c.toNat - 'a'.toNat + 10)
  else if 'A' ≤ c ∧ c ≤ 'F' then some (c.toNat - 'A'.toNat + 10)
  else none

/-- What four hexadecimal digits are worth. -/
def hex4? (a b c d : Char) : Option Nat := do
  return (((← hexDigit? a) * 16 + (← hexDigit? b)) * 16 + (← hexDigit? c)) * 16 + (← hexDigit? d)

/-- The character of a one-letter escape. -/
def shortEscape? : Char → Option Char
  | '"' => some '"'
  | '\\' => some '\\'
  | '/' => some '/'
  | 'b' => some '\x08'
  | 'f' => some '\x0c'
  | 'n' => some '\n'
  | 'r' => some '\r'
  | 't' => some '\t'
  | _ => none

/-- The code points of a string up to its closing quote, and what follows that. -/
def codePoints : List Char → Except ReadFault (List Nat × List Char)
  | [] => .error .malformed
  | '"' :: rest => .ok ([], rest)
  | '\\' :: 'u' :: a :: b :: c :: d :: rest => do
    match hex4? a b c d with
    | none => .error .malformed
    | some n => let (ns, rest) ← codePoints rest; return (n :: ns, rest)
  | '\\' :: e :: rest => do
    match shortEscape? e with
    | none => .error .malformed
    | some x => let (ns, rest) ← codePoints rest; return (x.toNat :: ns, rest)
  | c :: rest => do
    if c.toNat < 0x20 ∨ c = '\\' then .error .malformed
    else let (ns, rest) ← codePoints rest; return (c.toNat :: ns, rest)

/-- Whether a code point is the first half of a surrogate pair. -/
def isHighHalf (n : Nat) : Bool := 0xd800 ≤ n && n < 0xdc00

/-- Whether a code point is the second half of a surrogate pair. -/
def isLowHalf (n : Nat) : Bool := 0xdc00 ≤ n && n < 0xe000

/-- The characters of code points: pairs of halves make one character, a lone half the
    replacement character. -/
def joinHalves : List Nat → List Char
  | [] => []
  | n :: m :: rest =>
    if isHighHalf n ∧ isLowHalf m then
      Char.ofNat (0x10000 + (n - 0xd800) * 0x400 + (m - 0xdc00)) :: joinHalves rest
    else (if isHighHalf n ∨ isLowHalf n then '\ufffd' else Char.ofNat n) :: joinHalves (m :: rest)
  | [n] => [if isHighHalf n ∨ isLowHalf n then '\ufffd' else Char.ofNat n]

/-- A string after its opening quote. -/
def string (cs : List Char) : Except ReadFault (String × List Char) := do
  let (ns, rest) ← codePoints cs
  return (String.ofList (joinHalves ns), rest)

/-! ## 3. Numbers -/

/-- The digits after a decimal point, if the text goes on with a point and a digit. -/
def fraction : List Char → List Nat × List Char
  | '.' :: rest =>
    match spanDigits rest with
    | ([], _) => ([], '.' :: rest)
    | (ds, rest) => (ds, rest)
  | cs => ([], cs)

/-- The exponent, if the text goes on with one. -/
def exponent : List Char → Option Int × List Char
  | c :: cs =>
    if c = 'e' ∨ c = 'E' then
      let (negative, body) := spanSign cs
      match spanDigits body with
      | ([], _) => (none, c :: cs)
      | (ds, rest) => (some (signed negative (ofDigits ds)), rest)
    else (none, c :: cs)
  | [] => (none, [])

/-- The whole part of a number: no leading zero unless it is the only digit. -/
def wholePart : List Char → Option (List Nat × List Char)
  | '0' :: rest => some ([0], rest)
  | cs => match spanDigits cs with
    | ([], _) => none
    | (ds, rest) => some (ds, rest)

/-- A number after its sign. -/
def number (negative : Bool) (cs : List Char) : Except ReadFault (Json × List Char) :=
  match wholePart cs with
  | none => .error .malformed
  | some (whole, rest) =>
    let (part, rest) := fraction rest
    let (power, rest) := exponent rest
    if part.isEmpty ∧ power.isNone then
      if digitLimit < whole.length then .error .longInteger
      else .ok (.int (signed negative (ofDigits whole)), rest)
    else
      .ok (.float (.ofDecimal negative (ofDigits (whole ++ part)) (power.getD 0 - part.length)),
        rest)

/-! ## 4. Values -/

/-- A value that is no container. -/
def scalar : List Char → Except ReadFault (Json × List Char)
  | '"' :: cs => do let (s, rest) ← string cs; return (.text s, rest)
  | 'n' :: 'u' :: 'l' :: 'l' :: rest => .ok (.null, rest)
  | 't' :: 'r' :: 'u' :: 'e' :: rest => .ok (.bool true, rest)
  | 'f' :: 'a' :: 'l' :: 's' :: 'e' :: rest => .ok (.bool false, rest)
  | 'N' :: 'a' :: 'N' :: rest => .ok (.float .nan, rest)
  | 'I' :: 'n' :: 'f' :: 'i' :: 'n' :: 'i' :: 't' :: 'y' :: rest =>
    .ok (.float (.infinite false), rest)
  | '-' :: 'I' :: 'n' :: 'f' :: 'i' :: 'n' :: 'i' :: 't' :: 'y' :: rest =>
    .ok (.float (.infinite true), rest)
  | '-' :: cs => number true cs
  | cs => number false cs

mutual

/-- The value that the text begins with. The first argument bounds the steps, the second counts
    how many more containers may be opened. -/
def value : Nat → Nat → List Char → Except ReadFault (Json × List Char)
  | 0, _, _ => .error .malformed
  | fuel + 1, room, '[' :: cs =>
    match room with
    | 0 => .error .tooDeep
    | room + 1 =>
      match skip cs with
      | ']' :: rest => .ok (.list [], rest)
      | cs => do let (js, rest) ← items fuel room cs; return (.list js, rest)
  | fuel + 1, room, '{' :: cs =>
    match room with
    | 0 => .error .tooDeep
    | room + 1 =>
      match skip cs with
      | '}' :: rest => .ok (.object [], rest)
      | cs => do
        let (es, rest) ← members fuel room cs
        return (.object (Entries.ofPairs es), rest)
  | _ + 1, _, cs => scalar cs

/-- The items of a list up to its closing bracket. -/
def items : Nat → Nat → List Char → Except ReadFault (List Json × List Char)
  | 0, _, _ => .error .malformed
  | fuel + 1, room, cs => do
    let (j, rest) ← value fuel room cs
    match skip rest with
    | ']' :: rest => return ([j], rest)
    | ',' :: rest => do
      let (js, rest) ← items fuel room (skip rest)
      return (j :: js, rest)
    | _ => .error .malformed

/-- The members of an object up to its closing brace. -/
def members : Nat → Nat → List Char → Except ReadFault (List (String × Json) × List Char)
  | 0, _, _ => .error .malformed
  | fuel + 1, room, '"' :: cs => do
    let (name, rest) ← string cs
    match skip rest with
    | ':' :: rest => do
      let (j, rest) ← value fuel room (skip rest)
      match skip rest with
      | '}' :: rest => return ([(name, j)], rest)
      | ',' :: rest => do
        let (es, rest) ← members fuel room (skip rest)
        return ((name, j) :: es, rest)
      | _ => .error .malformed
    | _ => .error .malformed
  | _ + 1, _, _ => .error .malformed

end

/-- The document that the characters spell: one value between blanks. -/
def readChars (cs : List Char) : Except ReadFault Json := do
  let (j, rest) ← value (2 * cs.length + 2) depthLimit (skip cs)
  if (skip rest).isEmpty then return j else .error .malformed

/-- The value of a JSON text. -/
def read (s : String) : Except ReadFault Json := readChars s.toList

end LintHost.Json
