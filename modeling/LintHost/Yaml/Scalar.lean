import LintHost.Number.Reading
import LintHost.Text.Case
import LintHost.Text.Split
import LintHost.Yaml.Tag
import LintHost.Fault

/-!
# The values of YAML scalars

A scalar's tag tells how its text is read. A tag that was written may not fit the text; what is
wrong then depends on the tag.

* `Tag.scalarValue`: the value of a text under a tag.
-/

namespace LintHost.Yaml

open LintHost.Text

/-- The value of a scalar, or why it has none. -/
abbrev ScalarResult := Except DocumentFault Value

/-- A fault of a text that its tag does not fit. -/
def unfit (fault : Fault) : DocumentFault := .invalid fault

/-! ## 1. Words -/

/-- The worth of a word for yes or no, whatever its case. -/
def boolValue (s : String) : ScalarResult :=
  if lower s ∈ ["yes", "true", "on"] then .ok (.bool true)
  else if lower s ∈ ["no", "false", "off"] then .ok (.bool false)
  else .error (unfit .unknownName)

/-! ## 2. Numbers -/

/-- The parts of a number in base sixty, each with the power that it counts, first part first. -/
def sixtieths (parts : List (List Char)) : List (List Char × Nat) :=
  parts.zip ((List.range parts.length).reverse.map (Nat.pow 60))

/-- A decimal integer. -/
def decimalInt (cs : List Char) : Except DocumentFault Int :=
  let s := String.ofList cs
  match Number.readInt s with
  | .ok n => .ok n
  | .error .malformed => .error (unfit (.value (.notInteger 10 s)))
  | .error (.tooLong digits) => .error (unfit (.value (.longDigits digits)))

/-- An integer in another base. -/
def radixInt (base : Nat) (letter : Char) (cs : List Char) : Except DocumentFault Int :=
  let s := String.ofList cs
  match Number.readRadix? base letter s with
  | some n => .ok n
  | none => .error (unfit (.value (.notInteger base s)))

/-- An integer without its sign. A zero in front makes it octal. -/
def unsignedInt (cs : List Char) : Except DocumentFault Int :=
  match cs with
  | [] => .error (unfit .outOfRange)
  | ['0'] => .ok 0
  | '0' :: 'b' :: digits => radixInt 2 'b' digits
  | '0' :: 'x' :: digits => radixInt 16 'x' digits
  | '0' :: _ => radixInt 8 'o' cs
  | cs =>
    if cs.contains ':' then do
      let terms ← (sixtieths (splitOn ':' cs)).mapM fun (part, power) =>
        (decimalInt part).map (· * (power : Int))
      return terms.foldl (· + ·) 0
    else decimalInt cs

/-- The sign in front of a number without underscores, and what follows. -/
def signedPart (cs : List Char) : Except DocumentFault (Bool × List Char) :=
  match cs.filter (· ≠ '_') with
  | [] => .error (unfit .outOfRange)
  | cs => .ok (cs.head? = some '-', dropSign cs)

/-- An integer. -/
def intValue (s : String) : ScalarResult := do
  let (negative, cs) ← signedPart s.toList
  let n ← unsignedInt cs
  return .int (if negative then -n else n)

/-- A decimal number. -/
def decimalFloat (cs : List Char) : Except DocumentFault Binary64 :=
  match Number.readFloat? (String.ofList cs) with
  | some x => .ok x
  | none => .error (unfit (.value (.notNumber (String.ofList cs))))

/-- A part of a number in base sixty, times the power that it counts. -/
def floatTerm (x : Binary64) (power : Nat) : Except DocumentFault Binary64 :=
  match Binary64.ofInt power with
  | .infinite _ => .error (unfit .tooLarge)
  | p => .ok (x.mul p)

/-- A number without its sign. Terms in base sixty are added from the last to the first. -/
def unsignedFloat (cs : List Char) : Except DocumentFault Binary64 :=
  if cs = ".inf".toList then .ok (.infinite false)
  else if cs = ".nan".toList then .ok .nan
  else if cs.contains ':' then do
    let parts ← (sixtieths (splitOn ':' cs)).mapM fun (part, power) =>
      (decimalFloat part).map (·, power)
    let terms ← parts.reverse.mapM fun (x, power) => floatTerm x power
    return terms.foldl Binary64.add Binary64.zero
  else decimalFloat cs

/-- A number. -/
def floatValue (s : String) : ScalarResult := do
  let (negative, cs) ← signedPart (lower s).toList
  let x ← unsignedFloat cs
  return .float (if negative then x.neg else x)

/-! ## 3. Dates -/

/-- The first six digits of a fraction as millionths. -/
def millionths (digits : List Nat) : Nat :=
  Number.ofDigits ((digits ++ List.replicate 6 0).take 6)

/-- The offset in seconds. -/
def offsetSeconds (offset : Option (Bool × Nat × Nat)) : Except CalendarFault (Option Int) :=
  match offset with
  | none => .ok none
  | some (negative, hours, minutes) =>
    let seconds : Int := hours * 3600 + minutes * 60
    some <$> Moment.offset? (if negative then -seconds else seconds)

/-- The date or moment with these fields. -/
def Timestamp.value? (fields : Timestamp) : Except CalendarFault Value :=
  match fields.time with
  | none => .date <$> Date.valid? fields.year fields.month fields.day
  | some (hour, minute, second) => do
    let offset ← offsetSeconds fields.offset
    let date ← Date.valid? fields.year fields.month fields.day
    let clock ← Clock.valid? hour minute second (millionths fields.fraction)
    return .moment ⟨date, clock, offset⟩

/-- A date or moment. -/
def timestampValue (s : String) : ScalarResult :=
  match Timestamp.read? (dropLineFeed s.toList) with
  | none => .error (unfit .missingFeature)
  | some fields =>
    match fields.value? with
    | .ok v => .ok v
    | .error fault => .error (unfit (.value (.calendar fault)))

/-! ## 4. Bytes -/

/-- What a character of base 64 is worth. -/
def sixtyFour? (c : Char) : Option Nat :=
  if 'A' ≤ c ∧ c ≤ 'Z' then some (c.toNat - 'A'.toNat)
  else if 'a' ≤ c ∧ c ≤ 'z' then some (c.toNat - 'a'.toNat + 26)
  else if '0' ≤ c ∧ c ≤ '9' then some (c.toNat - '0'.toNat + 52)
  else if c = '+' then some 62
  else if c = '/' then some 63
  else none

/-- The bytes of base 64 text. `count` characters of the current group of four were read and are
    worth `held` together; `pads` equal signs came right before. Other characters are passed
    over, and the group may be cut short only by enough equal signs. -/
def bytesFrom (count held pads : Nat) : List Char → Option (List UInt8)
  | [] => if count = 0 then some [] else none
  | '=' :: cs =>
    if 2 ≤ count ∧ 4 ≤ count + pads + 1 then some []
    else bytesFrom count held (if 2 ≤ count then pads + 1 else pads) cs
  | c :: cs =>
    match sixtyFour? c with
    | none => bytesFrom count held pads cs
    | some n =>
      let all := held * 64 + n
      match count with
      | 0 => bytesFrom 1 n 0 cs
      | 1 => (bytesFrom 2 (all % 16) 0 cs).map (UInt8.ofNat (all / 16) :: ·)
      | 2 => (bytesFrom 3 (all % 4) 0 cs).map (UInt8.ofNat (all / 4) :: ·)
      | _ => (bytesFrom 0 0 0 cs).map (UInt8.ofNat all :: ·)

/-- The bytes that a text spells in base 64. -/
def bytesValue (s : String) : ScalarResult :=
  if s.toList.any fun c => 0x7f < c.toNat then .error .malformed
  else match bytesFrom 0 0 0 s.toList with
    | some bytes => .ok (.bytes bytes)
    | none => .error .malformed

/-! ## 5. By tag -/

/-- The value of a text under a tag; tags of collections fit no text. -/
def Tag.scalarValue (tag : Tag) (s : String) : ScalarResult :=
  match tag with
  | .null => .ok .null
  | .bool => boolValue s
  | .int => intValue s
  | .float => floatValue s
  | .binary => bytesValue s
  | .timestamp => timestampValue s
  | .text => .ok (.text s)
  | _ => .error .malformed

end LintHost.Yaml
