import LintHost.Value.Basic

/-!
# Values in messages

A value is shown in two ways. Inside a container, and wherever a message quotes it, it is shown
as a *literal*: texts stand between quotes. On its own a text is shown as it is, and so is a date.

* `literal` and `shown` are the two ways;
* `display?` refuses values whose integers have too many digits to be shown.
-/

namespace LintHost.Value

open LintHost.Text

/-- One byte between quotes. -/
def byteChar (quote : Char) (b : UInt8) : List Char :=
  let c := Char.ofNat b.toNat
  if c = quote ∨ c = '\\' then ['\\', c]
  else if c = '\n' then ['\\', 'n']
  else if c = '\r' then ['\\', 'r']
  else if c = '\t' then ['\\', 't']
  else if 0x20 ≤ b.toNat ∧ b.toNat < 0x7f then [c]
  else '\\' :: 'x' :: hex 2 b.toNat

/-- Bytes between quotes after the letter `b`. -/
def bytesLiteral (bs : List UInt8) : String :=
  let quote := quoteFor (bs.map fun b => Char.ofNat b.toNat)
  String.ofList ('b' :: quote :: bs.flatMap (byteChar quote) ++ [quote])

mutual

/-- A value as it is shown inside a container. -/
def literal : Value → String
  | .null => "None"
  | .bool b => if b then "True" else "False"
  | .int n => toString n
  | .float x => x.text
  | .text s => quoted s
  | .bytes bs => bytesLiteral bs
  | .list items => "[" ++ ", ".intercalate (literals items) ++ "]"
  | .pair a b => "(" ++ literal a ++ ", " ++ literal b ++ ")"
  | .map entries => "\x7b" ++ ", ".intercalate (entryLiterals entries) ++ "\x7d"
  | .set [] => "set()"
  | .set items => "\x7b" ++ ", ".intercalate (literals items) ++ "\x7d"
  | .date d => d.literal
  | .time c => c.literal
  | .moment m => m.literal

def literals : List Value → List String
  | [] => []
  | v :: rest => literal v :: literals rest

def entryLiterals : List (Value × Value) → List String
  | [] => []
  | (k, v) :: rest => (literal k ++ ": " ++ literal v) :: entryLiterals rest

end

/-- A value as it is shown on its own. -/
def shown : Value → String
  | .text s => s
  | .date d => d.text
  | .time c => c.text
  | .moment m => m.text
  | v => v.literal

mutual

/-- Whether all integers of a value have few enough digits to be shown. -/
def showable : Value → Bool
  | .int n => Json.shortInt n
  | .list items | .set items => allShowable items
  | .pair a b => showable a && showable b
  | .map entries => allShowableEntries entries
  | _ => true

def allShowable : List Value → Bool
  | [] => true
  | v :: rest => showable v && allShowable rest

def allShowableEntries : List (Value × Value) → Bool
  | [] => true
  | (k, v) :: rest => showable k && showable v && allShowableEntries rest

end

/-- A value as it is shown on its own, if it can be. -/
def display? (v : Value) : Option String := if v.showable then some v.shown else none

/-- A value as it is shown inside a container, if it can be. -/
def literal? (v : Value) : Option String := if v.showable then some v.literal else none

end LintHost.Value
