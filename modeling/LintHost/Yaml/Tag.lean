import LintHost.Text.Digit

/-!
# YAML tags

A tag tells what kind of value a node is. Plain scalars without a tag have one by their look: a
word for yes, no or nothing, a number, a date, or one of two signs with a meaning inside mappings;
all others are text. The looks are those of YAML 1.1.

* `Tag.ofName`: a tag given in full;
* `Tag.ofPlain`: the tag of a plain scalar;
* `Timestamp.read?`: the fields of a date or moment.
-/

namespace LintHost.Yaml

open LintHost.Text

/-- A kind of value. -/
inductive Tag
  | null
  | bool
  | int
  | float
  | binary
  | timestamp
  | text
  | sequence
  | mapping
  | set
  | orderedMap
  | pairs
  /-- The key `<<`. -/
  | merge
  /-- The key `=`. -/
  | default
  /-- A tag that no value is known for. -/
  | unknown
deriving DecidableEq

/-- What the names of the common tags begin with. -/
def Tag.commonStart : String := "tag:yaml.org,2002:"

/-- The common tags by the ends of their names. -/
def Tag.common : List (String × Tag) := [
  ("null", .null), ("bool", .bool), ("int", .int), ("float", .float), ("binary", .binary),
  ("timestamp", .timestamp), ("str", .text), ("seq", .sequence), ("map", .mapping), ("set", .set),
  ("omap", .orderedMap), ("pairs", .pairs), ("merge", .merge), ("value", .default)]

/-- The tag with a name. -/
def Tag.ofName (name : String) : Tag :=
  match common.find? fun (ending, _) => commonStart ++ ending = name with
  | some (_, tag) => tag
  | none => .unknown

/-! ## 1. Numbers -/

/-- Whether a character is one of `0` to `9`. -/
def isDigit (c : Char) : Bool := '0' ≤ c && c ≤ '9'

/-- Whether a character is a digit or an underscore. -/
def isDigitOr_ (c : Char) : Bool := isDigit c || c = '_'

/-- What follows a sign, if there is one. -/
def dropSign : List Char → List Char
  | '-' :: cs | '+' :: cs => cs
  | cs => cs

/-- Digits and underscores with a digit first, and what follows them. -/
def spanNumber? : List Char → Option (List Char × List Char)
  | c :: cs =>
    if isDigit c then some (c :: cs.takeWhile isDigitOr_, cs.dropWhile isDigitOr_) else none
  | [] => none

/-- Whether a text is nothing or an exponent with a sign. -/
def isExponent : List Char → Bool
  | [] => true
  | e :: sign :: digits =>
    (e = 'e' || e = 'E') && (sign = '-' || sign = '+') && !digits.isEmpty && digits.all isDigit
  | _ => false

/-- What follows the places of base sixty at the start of a text, and how many there are. -/
def dropSixties : Nat → List Char → Nat × List Char
  | 0, cs => (0, cs)
  | fuel + 1, ':' :: a :: b :: cs =>
    if '0' ≤ a ∧ a ≤ '5' ∧ isDigit b then
      let (n, rest) := dropSixties fuel cs
      (n + 1, rest)
    else if isDigit a then
      let (n, rest) := dropSixties fuel (b :: cs)
      (n + 1, rest)
    else (0, ':' :: a :: b :: cs)
  | _ + 1, [':', a] => if isDigit a then (1, []) else (0, [':', a])
  | _ + 1, cs => (0, cs)

/-- Whether a text without its sign looks like an integer: zero, binary, octal, decimal,
    hexadecimal or in base sixty. -/
def looksInt (cs : List Char) : Bool :=
  match cs with
  | ['0'] => true
  | '0' :: 'b' :: ds => !ds.isEmpty && ds.all fun c => c = '0' || c = '1' || c = '_'
  | '0' :: 'x' :: ds => !ds.isEmpty && ds.all fun c =>
      isDigitOr_ c || ('a' ≤ c && c ≤ 'f') || ('A' ≤ c && c ≤ 'F')
  | '0' :: ds => ds.all fun c => ('0' ≤ c && c ≤ '7') || c = '_'
  | cs =>
    match spanNumber? cs with
    | some (_, rest) => rest.isEmpty || (dropSixties cs.length rest).2.isEmpty
    | none => false

/-- Whether a text without its sign is digits with a point among or behind them, and an exponent
    or places of base sixty. -/
def looksPointed (cs : List Char) : Bool :=
  match spanNumber? cs with
  | none => false
  | some (_, rest) =>
    let (sixties, afterSixties) := dropSixties cs.length rest
    match rest, afterSixties with
    | '.' :: cs, _ => isExponent (cs.dropWhile isDigitOr_)
    | _, '.' :: cs => 0 < sixties && cs.all isDigitOr_
    | _, _ => false

/-- Whether a text looks like a number that is no integer. -/
def looksFloat (cs : List Char) : Bool :=
  looksPointed (dropSign cs) ||
    (match cs with
      | '.' :: c :: rest => isDigit c && isExponent (rest.dropWhile isDigitOr_)
      | _ => false) ||
    [".inf", ".Inf", ".INF"].contains (String.ofList (dropSign cs)) ||
    [".nan", ".NaN", ".NAN"].contains (String.ofList cs)

/-! ## 2. Dates -/

/-- The fields of a date, and of a time of day and an offset if they follow. -/
structure Timestamp where
  year : Nat
  month : Nat
  day : Nat
  /-- Whether month and day have two digits. -/
  full : Bool
  time : Option (Nat × Nat × Nat)
  /-- The digits after the point of the seconds. -/
  fraction : List Nat
  /-- The offset: nothing, or its sign, hours and minutes. -/
  offset : Option (Bool × Nat × Nat)

namespace Timestamp

/-- A reader of a part, which gives what follows it too. -/
abbrev Part (α : Type) := StateT (List Char) Option α

/-- One digit. -/
def digit : Part Nat := fun
  | c :: cs => (asciiDigit? c).map (·, cs)
  | [] => none

/-- Two digits. -/
def twoDigits : Part Nat := do return 10 * (← digit) + (← digit)

/-- One or two digits, and whether there are two. -/
def upToTwo : Part (Nat × Bool) := do
  let d ← digit
  match ← get with
  | c :: cs => match asciiDigit? c with
    | some e => set cs; return (10 * d + e, true)
    | none => return (d, false)
  | [] => return (d, false)

/-- One character. -/
def sign (c : Char) : Part Unit := fun
  | d :: cs => if c = d then some ((), cs) else none
  | [] => none

/-- The blanks ahead, and whether there are any. -/
def blanks : Part Bool := do
  let cs ← get
  let rest := cs.dropWhile fun c => c = ' ' || c = '\t'
  set rest
  return rest.length < cs.length

/-- What stands between date and time: a letter or blanks. -/
def gap : Part Unit := do
  match ← get with
  | 'T' :: cs | 't' :: cs => set cs
  | _ => if ← blanks then return () else failure

/-- The digits after a point, if there is one. -/
def point : Part (List Nat) := do
  match ← get with
  | '.' :: cs =>
    set (cs.dropWhile isDigit)
    return (cs.takeWhile isDigit).filterMap asciiDigit?
  | _ => return []

/-- The minutes of an offset, if they are given. -/
def offsetMinutes : Part Nat := do
  match ← get with
  | ':' :: cs => set cs; twoDigits
  | _ => return 0

/-- An offset, if one follows. -/
def zone : Part (Option (Bool × Nat × Nat)) := do
  match ← get with
  | [] => return none
  | _ =>
    discard blanks
    match ← get with
    | 'Z' :: cs => set cs; return some (false, 0, 0)
    | c :: cs =>
      if c = '+' ∨ c = '-' then
        set cs
        let (hours, _) ← upToTwo
        return some (c = '-', hours, ← offsetMinutes)
      else failure
    | [] => failure

/-- A time of day after the date, with its fraction and offset. -/
def timePart : Part ((Nat × Nat × Nat) × List Nat × Option (Bool × Nat × Nat)) := do
  gap
  let (hour, _) ← upToTwo
  sign ':'
  let minute ← twoDigits
  sign ':'
  let second ← twoDigits
  let fraction ← point
  return ((hour, minute, second), fraction, ← zone)

/-- A date, and a time if the text goes on. -/
def whole : Part Timestamp := do
  let century ← twoDigits
  let year := 100 * century + (← twoDigits)
  sign '-'
  let (month, longMonth) ← upToTwo
  sign '-'
  let (day, longDay) ← upToTwo
  let full := longMonth && longDay
  match ← get with
  | [] => return ⟨year, month, day, full, none, [], none⟩
  | _ =>
    let (time, fraction, offset) ← timePart
    return ⟨year, month, day, full, some time, fraction, offset⟩

/-- The fields of a date or moment, if the text is one. -/
def read? (cs : List Char) : Option Timestamp :=
  match whole.run cs with
  | some (fields, []) => some fields
  | _ => none

end Timestamp

/-- Whether a text looks like a date with two digits for month and day, or like a moment. -/
def looksTimestamp (cs : List Char) : Bool :=
  match Timestamp.read? cs with
  | some fields => fields.full || fields.time.isSome
  | none => false

/-! ## 3. Plain scalars -/

/-- The words for yes and no. -/
def boolWords : List String := [
  "yes", "Yes", "YES", "no", "No", "NO", "true", "True", "TRUE", "false", "False", "FALSE",
  "on", "On", "ON", "off", "Off", "OFF"]

/-- The words for nothing. -/
def nullWords : List String := ["~", "null", "Null", "NULL", ""]

/-- A text without a line feed at its end. -/
def dropLineFeed (cs : List Char) : List Char :=
  if cs.getLast? = some '\n' then cs.dropLast else cs

/-- The tag of a scalar by its look; a line feed at its end does not count. -/
def Tag.ofPlain (s : String) : Tag :=
  let cs := dropLineFeed s.toList
  let word := String.ofList cs
  if word = "" then (if s = "" then .null else .text)
  else if word ∈ boolWords then .bool
  else if looksFloat cs then .float
  else if looksInt (dropSign cs) then .int
  else if word = "<<" then .merge
  else if word ∈ nullWords then .null
  else if looksTimestamp cs then .timestamp
  else if word = "=" then .default
  else if word ∈ ["!", "&", "*"] then .unknown
  else .text

end LintHost.Yaml
