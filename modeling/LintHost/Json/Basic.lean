import LintHost.Entries
import LintHost.Number.Binary64

/-!
# JSON values

What manifests, engine requests, engine replies and rule inventories are made of. Integers are
exact and of any size, other numbers are binary64, and an object keeps the order of its names.
-/

namespace LintHost

/-- A JSON value. -/
inductive Json
  | null
  | bool (b : Bool)
  | int (n : Int)
  | float (x : Binary64)
  | text (s : String)
  | list (items : List Json)
  | object (entries : List (String × Json))
deriving Inhabited

namespace Json

/-- Whether a value stands for yes where one is asked for: not null, not false, not zero and not
    empty. -/
def truthy : Json → Bool
  | .null => false
  | .bool b => b
  | .int n => n != 0
  | .float x => !x.isZero
  | .text s => s != ""
  | .list items => !items.isEmpty
  | .object entries => !entries.isEmpty

/-- What an object holds under a name; nothing for other values. -/
def get? (name : String) : Json → Option Json
  | .object entries => Entries.get? name entries
  | _ => none

/-- A text, or null for none. -/
def ofText? : Option String → Json
  | some s => .text s
  | none => .null

/-- A list of texts. -/
def ofTexts (texts : List String) : Json := .list (texts.map .text)

/-- How many containers the nesting of a value is deep. -/
def depth : Json → Nat
  | .list items => depthList items + 1
  | .object entries => depthEntries entries + 1
  | _ => 0
where
  depthList : List Json → Nat
    | [] => 0
    | j :: rest => max j.depth (depthList rest)
  depthEntries : List (String × Json) → Nat
    | [] => 0
    | (_, j) :: rest => max j.depth (depthEntries rest)

/-- Whether every integer inside a value satisfies `p`. -/
def allInts (p : Int → Bool) : Json → Bool
  | .int n => p n
  | .list items => allInList items
  | .object entries => allInEntries entries
  | _ => true
where
  allInList : List Json → Bool
    | [] => true
    | j :: rest => j.allInts p && allInList rest
  allInEntries : List (String × Json) → Bool
    | [] => true
    | (_, j) :: rest => j.allInts p && allInEntries rest

end Json

end LintHost
