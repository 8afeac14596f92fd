import LintHost.Fault

/-!
# Checking records

Records come in from hosts, configuration and the engine as names with values. A record is read
field by field, and all that is wrong with its fields is reported together, in the order of the
fields. Unknown names are passed over.

* `Checked`: a value, or all that is wrong with it;
* `field`, `required`: reading a field that may be left out, or may not;
* `bool`, `text`, …: reading a field's value.
-/

namespace LintHost

/-- A value that was checked, or all that is wrong with it. -/
inductive Checked (α : Type)
  | ok (a : α)
  | bad (issues : List Issue)

namespace Checked

variable {α β : Type}

/-- Both sides are checked even if the first is bad. -/
def seq (f : Checked (α → β)) (a : Unit → Checked α) : Checked β :=
  match f, a () with
  | .ok f, .ok a => .ok (f a)
  | .ok _, .bad is => .bad is
  | .bad is, .ok _ => .bad is
  | .bad is, .bad js => .bad (is ++ js)

instance : Applicative Checked where
  pure := .ok
  seq := seq

/-- What is wrong, seen from one step further out. -/
def inside (step : FieldStep) : Checked α → Checked α
  | .ok a => .ok a
  | .bad is => .bad (is.map fun i => ⟨step :: i.place, i.kind⟩)

/-- One thing that is wrong with the value itself. -/
def wrong (kind : IssueKind) : Checked α := .bad [⟨[], kind⟩]

/-- A checked value as the result of an operation. -/
def toExcept : Checked α → Except Fault α
  | .ok a => .ok a
  | .bad is => .error (.invalid is)

/-- Reads the items of a list, each at its place. -/
def items (read : α → Checked β) : Nat → List α → Checked (List β)
  | _, [] => .ok []
  | n, a :: rest => List.cons <$> (read a).inside (.index n) <*> items read (n + 1) rest

end Checked

namespace Record

open Checked

variable {α β : Type}

/-! ## 1. Fields -/

/-- A field that stands for `absent` if it is left out. -/
def field (entries : Entries α) (name : String) (absent : β) (read : α → Checked β) :
    Checked β :=
  match entries.get? name with
  | none => .ok absent
  | some a => (read a).inside (.field name)

/-- A field that may not be left out. -/
def required (entries : Entries α) (name : String) (read : α → Checked β) : Checked β :=
  match entries.get? name with
  | none => .bad [⟨[.field name], .missing⟩]
  | some a => (read a).inside (.field name)

/-! ## 2. Values -/

/-- The words that stand for yes. -/
def yesWords : List String := ["1", "on", "t", "true", "y", "yes"]

/-- The words that stand for no. -/
def noWords : List String := ["0", "off", "f", "false", "n", "no"]

/-- A word as a truth value, whatever its case. -/
def boolOfText (s : String) : Checked Bool :=
  let word := String.ofList (s.toList.map Char.toLower)
  if word ∈ yesWords then .ok true else if word ∈ noWords then .ok false else wrong .boolText

/-- An integer as a truth value. Integers beyond 64 bits are not even looked at. -/
def boolOfInt (n : Int) : Checked Bool :=
  if n = 0 then .ok false
  else if n = 1 then .ok true
  else if -(Number.twoTo 63 : Int) ≤ n ∧ n < (Number.twoTo 63 : Int) then wrong .boolText
  else wrong .boolType

/-- A truth value, or a number or word that stands for one. -/
def bool : Value → Checked Bool
  | .bool b => .ok b
  | .int n => boolOfInt n
  | .float x => match x.toInt? with
    | some n => boolOfInt n
    | none => wrong .boolType
  | .text s => boolOfText s
  | .bytes bs => match Text.decode? ⟨bs.toArray⟩ with
    | some s => boolOfText s
    | none => wrong .boolText
  | _ => wrong .boolType

/-- A text. -/
def text : Value → Checked String
  | .text s => .ok s
  | .bytes bs => match Text.decode? ⟨bs.toArray⟩ with
    | some s => .ok s
    | none => wrong .textEncoding
  | _ => wrong .textType

/-- A text or null. -/
def text? : Value → Checked (Option String)
  | .null => .ok none
  | v => some <$> text v

/-- A list of texts. -/
def texts : Value → Checked (List String)
  | .list vs => items text 0 vs
  | _ => wrong .tupleType

/-! ## 3. JSON -/

/-- A JSON value read as a configuration value is. -/
def json (read : Value → Checked β) (j : Json) : Checked β := read (.ofJson j)

/-- An object. -/
def object : Json → Checked (Entries Json)
  | .object entries => .ok entries
  | _ => wrong .mapType

/-- A list of objects. -/
def objects : Json → Checked (List (Entries Json))
  | .list js => items object 0 js
  | _ => wrong .listType

end Record

end LintHost
