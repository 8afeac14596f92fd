import LintHost.Fault
import LintHost.Number.Reading

/-!
# Numbers, dates and times of TOML

A scalar that is no string is found by its look. A date or time of day wins over a number, and what
follows the longest form that fits is left to whoever reads on.

* `Toml.scalar?`: the scalar that a text begins with, if it begins with one.
-/

namespace LintHost.Toml

open LintHost.Text

/-! ## 1. Digits -/

/-- Digits that satisfy `p`, single underscores between them left out, and what follows. -/
def spanDigits (p : Char → Bool) : List Char → List Char × List Char
  | '_' :: c :: cs =>
    if p c then
      let (ds, rest) := spanDigits p cs
      (c :: ds, rest)
    else ([], '_' :: c :: cs)
  | c :: cs =>
    if p c then
      let (ds, rest) := spanDigits p cs
      (c :: ds, rest)
    else ([], c :: cs)
  | [] => ([], [])

/-- Digits with a digit first, if a text begins with them. -/
def digits? (p : Char → Bool) : List Char → Option (List Char × List Char)
  | c :: cs => if p c then some (spanDigits p (c :: cs)) else none
  | [] => none

/-- The number that `n` digits ahead spell. -/
def fixed? (n : Nat) (cs : List Char) : Option (Nat × List Char) :=
  let ds := (cs.take n).filterMap asciiDigit?
  if ds.length = n then some (Number.ofDigits ds, cs.drop n) else none

/-- What follows a character. -/
def after? (c : Char) : List Char → Option (List Char)
  | d :: cs => if c = d then some cs else none
  | [] => none

/-! ## 2. Dates and times -/

/-- A number of two digits within bounds. -/
def within? (low high : Nat) (cs : List Char) : Option (Nat × List Char) :=
  (fixed? 2 cs).filter fun (n, _) => low ≤ n && n ≤ high

/-- The millionths after a point, if digits follow it; more than six digits are cut. -/
def millionths : List Char → Nat × List Char
  | '.' :: cs =>
    match cs.takeWhile Number.isDigit with
    | [] => (0, '.' :: cs)
    | ds =>
      let six := (ds.filterMap asciiDigit? ++ List.replicate 6 0).take 6
      (Number.ofDigits six, cs.drop ds.length)
  | cs => (0, cs)

/-- A time of day. -/
def clock? (cs : List Char) : Option (Clock × List Char) := do
  let (hour, rest) ← within? 0 23 cs
  let (minute, rest) ← within? 0 59 (← after? ':' rest)
  let (second, rest) ← within? 0 59 (← after? ':' rest)
  let (micro, rest) := millionths rest
  return (⟨hour, minute, second, micro⟩, rest)

/-- An offset from UTC in seconds. -/
def offset? : List Char → Option (Int × List Char)
  | 'Z' :: cs | 'z' :: cs => some (0, cs)
  | sign :: cs => do
    if sign ≠ '+' ∧ sign ≠ '-' then none
    else
      let (hours, rest) ← within? 0 23 cs
      let (minutes, rest) ← within? 0 59 (← after? ':' rest)
      let seconds : Int := hours * 3600 + minutes * 60
      return (if sign = '-' then -seconds else seconds, rest)
  | [] => none

/-- The fields of a date. -/
def dateFields? (cs : List Char) : Option ((Nat × Nat × Nat) × List Char) := do
  let (year, rest) ← fixed? 4 cs
  let (month, rest) ← within? 1 12 (← after? '-' rest)
  let (day, rest) ← within? 1 31 (← after? '-' rest)
  return ((year, month, day), rest)

/-- The time of day that follows a date, and its offset if there is one. -/
def timeAfterDate? : List Char → Option ((Clock × Option Int) × List Char)
  | gap :: cs => do
    if gap ≠ 'T' ∧ gap ≠ 't' ∧ gap ≠ ' ' then none
    else
      let (clock, rest) ← clock? cs
      match offset? rest with
      | some (offset, rest) => return ((clock, some offset), rest)
      | none => return ((clock, none), rest)
  | [] => none

/-- A date or moment; the fields must be those of a day of the calendar. -/
def date? (cs : List Char) : Option (Except DocumentFault Value × List Char) := do
  let ((year, month, day), rest) ← dateFields? cs
  match Date.valid? year month day with
  | .error _ => return (.error .malformed, rest)
  | .ok date =>
    match timeAfterDate? rest with
    | some ((clock, offset), rest) => return (.ok (.moment ⟨date, clock, offset⟩), rest)
    | none => return (.ok (.date date), rest)

/-! ## 3. Numbers -/

/-- An integer in another base, after its zero and letter. -/
def radix? (cs : List Char) : Option (Value × List Char) :=
  let read (base : Nat) (cs : List Char) : Option (Value × List Char) :=
    (digits? (fun c => (Number.radixDigit? base c).isSome) cs).map fun (ds, rest) =>
      let worth := ds.filterMap (Number.radixDigit? base)
      (.int (worth.foldl (fun n d => base * n + d) 0 : Nat), rest)
  match cs with
  | '0' :: 'x' :: cs => read 16 cs
  | '0' :: 'b' :: cs => read 2 cs
  | '0' :: 'o' :: cs => read 8 cs
  | _ => none

/-- The whole part of a decimal number: a zero, or digits with another one first. -/
def wholePart? : List Char → Option (List Char × List Char)
  | '0' :: cs => some (['0'], cs)
  | cs => digits? Number.isDigit cs

/-- A point and the digits behind it, if they follow. -/
def fractionPart : List Char → List Char × List Char
  | '.' :: cs =>
    match digits? Number.isDigit cs with
    | some (ds, rest) => ('.' :: ds, rest)
    | none => ([], '.' :: cs)
  | cs => ([], cs)

/-- An exponent, if one follows. -/
def exponentPart : List Char → List Char × List Char
  | e :: cs =>
    if e ≠ 'e' ∧ e ≠ 'E' then ([], e :: cs)
    else
      let (sign, body) := match cs with
        | '+' :: cs => (['+'], cs)
        | '-' :: cs => (['-'], cs)
        | cs => ([], cs)
      match digits? Number.isDigit body with
      | some (ds, rest) => ('e' :: sign ++ ds, rest)
      | none => ([], e :: cs)
  | [] => ([], [])

/-- A decimal number; one without fraction and exponent is an integer of limited length. -/
def decimal? (cs : List Char) : Option (Except DocumentFault Value × List Char) := do
  let (negative, body) := Number.spanSign cs
  let (whole, rest) ← wholePart? body
  let (fraction, rest) := fractionPart rest
  let (exponent, rest) := exponentPart rest
  if fraction.isEmpty ∧ exponent.isEmpty then
    if Number.digitLimit < whole.length then
      return (.error (.invalid (.value (.longDigits whole.length))), rest)
    else
      let n := Number.ofDigits (whole.filterMap asciiDigit?)
      return (.ok (.int (Number.signed negative n)), rest)
  else
    let x ← Number.unsignedFloat? negative (whole ++ fraction ++ exponent)
    return (.ok (.float x), rest)

/-- A number without digits. -/
def special? (cs : List Char) : Option (Value × List Char) :=
  let (negative, body) := Number.spanSign cs
  match body with
  | 'i' :: 'n' :: 'f' :: rest => some (.float (.infinite negative), rest)
  | 'n' :: 'a' :: 'n' :: rest => some (.float .nan, rest)
  | _ => none

/-! ## 4. Scalars -/

/-- A word for yes or no. -/
def bool? : List Char → Option (Value × List Char)
  | 't' :: 'r' :: 'u' :: 'e' :: rest => some (.bool true, rest)
  | 'f' :: 'a' :: 'l' :: 's' :: 'e' :: rest => some (.bool false, rest)
  | _ => none

/-- A value that was read. -/
def certain (found : Option (Value × List Char)) : Option (Except DocumentFault Value × List Char) :=
  found.map fun (v, rest) => (.ok v, rest)

/-- The scalar that a text begins with, if it begins with one. -/
def scalar? (cs : List Char) : Option (Except DocumentFault Value × List Char) :=
  certain (bool? cs) <|> date? cs <|> certain ((clock? cs).map fun (c, rest) => (.time c, rest)) <|>
    certain (radix? cs) <|> decimal? cs <|> certain (special? cs)

end LintHost.Toml
