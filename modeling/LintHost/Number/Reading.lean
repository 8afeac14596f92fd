import LintHost.Text.Blank
import LintHost.Text.Digit
import LintHost.Number.Binary64

/-!
# Reading numbers

How a text spells a number. Both integers and floating-point numbers may stand between blanks,
carry a sign, use the decimal digits of any script, and have single underscores between digits.

* `readInt?`: an integer of at most 4300 digits;
* `readRadix?`: an integer in base two, eight or sixteen;
* `readFloat?`: digits with an optional point and exponent, `inf`, `infinity` or `nan`;
* `digitLimit` bounds how long an integer may be that is read from or written as decimal text.
-/

namespace LintHost.Number

open LintHost.Text

/-- The most decimal digits an integer may have where it is read from or written as text. -/
def digitLimit : Nat := 4300

/-! ## 1. Digits of any script -/

/-- A text with digits of all scripts as `0` to `9` and blanks beyond ASCII as spaces. Any other
    character beyond ASCII stands for one that no number holds, and ends the text. -/
def foldAscii : List Char → List Char
  | [] => []
  | c :: cs =>
    if c.toNat < 127 then c :: foldAscii cs
    else if isBlank c then ' ' :: foldAscii cs
    else match digitValue? c with
      | some d => digitChar d :: foldAscii cs
      | none => ['?']

/-- The text as number readers see it: digits folded unless all is ASCII, blanks trimmed. -/
def prepare (s : String) : List Char :=
  let cs := s.toList
  trimWhere isAsciiBlank (if cs.all fun c => c.toNat < 128 then cs else foldAscii cs)

/-! ## 2. Digits and underscores -/

/-- The digits `0` to `9` that the text begins with, and what follows them. -/
def spanDigits : List Char → List Nat × List Char
  | [] => ([], [])
  | c :: cs =>
    match asciiDigit? c with
    | some d => let (ds, rest) := spanDigits cs; (d :: ds, rest)
    | none => ([], c :: cs)

/-- The number that decimal digits spell. -/
def ofDigits (ds : List Nat) : Nat := ds.foldl (fun n d => 10 * n + d) 0

/-- Whether a character is one of `0` to `9`. -/
def isDigit (c : Char) : Bool := (asciiDigit? c).isSome

/-- The text without its underscores, if each of them stands between two digits; `before` is
    the character in front. -/
def dropUnderscores (before : Char) : List Char → Option (List Char)
  | [] => some []
  | '_' :: cs =>
    match cs with
    | c :: _ => if isDigit before ∧ isDigit c then dropUnderscores '_' cs else none
    | [] => none
  | c :: cs => (dropUnderscores c cs).map (c :: ·)

/-- A sign, if the text begins with one, and what follows; whether it is a minus. -/
def spanSign : List Char → Bool × List Char
  | '-' :: cs => (true, cs)
  | '+' :: cs => (false, cs)
  | cs => (false, cs)

/-- An integer with this sign. -/
def signed (negative : Bool) (n : Nat) : Int := if negative then -(n : Int) else n

/-! ## 3. Integers -/

/-- Why a text is no integer. -/
inductive IntFault
  | malformed
  | tooLong (digits : Nat)
deriving DecidableEq

/-- The integer that the text spells. -/
def readInt (s : String) : Except IntFault Int :=
  let (negative, body) := spanSign (prepare s)
  match dropUnderscores ' ' body with
  | none => .error .malformed
  | some cs =>
    match spanDigits cs with
    | (ds, []) =>
      if ds.isEmpty then .error .malformed
      else if digitLimit < ds.length then .error (.tooLong ds.length)
      else .ok (signed negative (ofDigits ds))
    | _ => .error .malformed

/-- The integer that the text spells, if it spells one. -/
def readInt? (s : String) : Option Int := (readInt s).toOption

/-- What a digit is worth in a base up to sixteen. -/
def radixDigit? (base : Nat) (c : Char) : Option Nat :=
  let worth :=
    if 'a' ≤ c ∧ c ≤ 'f' then some (c.toNat - 'a'.toNat + 10)
    else if 'A' ≤ c ∧ c ≤ 'F' then some (c.toNat - 'A'.toNat + 10)
    else asciiDigit? c
  worth.filter (· < base)

/-- The integer that a text without underscores spells in another base than ten. Its digits may
    follow a zero and the letter of the base. -/
def readRadix? (base : Nat) (letter : Char) (s : String) : Option Int :=
  let (negative, body) := spanSign (prepare s)
  let digits := match body with
    | '0' :: c :: rest => if c.toLower = letter then rest else body
    | _ => body
  if digits.isEmpty then none
  else (digits.mapM (radixDigit? base)).map fun ds =>
    signed negative (ds.foldl (fun n d => base * n + d) 0)

/-! ## 4. Floating-point numbers -/

/-- The exponent that the text consists of; none at all is zero. -/
def exponent? : List Char → Option Int
  | [] => some 0
  | c :: cs =>
    if c = 'e' ∨ c = 'E' then
      let (negative, body) := spanSign cs
      match spanDigits body with
      | ([], _) => none
      | (ds, []) => some (signed negative (ofDigits ds))
      | _ => none
    else none

/-- Digits, an optional point among or around them and an optional exponent, as digits and a
    power of ten. -/
def decimal? (cs : List Char) : Option (Nat × Int) :=
  let (whole, rest) := spanDigits cs
  let (part, rest) := match rest with
    | '.' :: rest => spanDigits rest
    | rest => ([], rest)
  if whole.isEmpty ∧ part.isEmpty then none
  else (exponent? rest).map fun e => (ofDigits (whole ++ part), e - part.length)

/-- The number that an unsigned ASCII text without blanks and underscores spells. -/
def unsignedFloat? (negative : Bool) (cs : List Char) : Option Binary64 :=
  let word := String.ofList (cs.map Char.toLower)
  if word = "inf" ∨ word = "infinity" then some (.infinite negative)
  else if word = "nan" then some .nan
  else (decimal? cs).map fun (digits, e) => .ofDecimal negative digits e

/-- The floating-point number that the text spells, if it spells one. -/
def readFloat? (s : String) : Option Binary64 :=
  (dropUnderscores ' ' (prepare s)).bind fun cs =>
    let (negative, body) := spanSign cs
    unsignedFloat? negative body

end LintHost.Number
