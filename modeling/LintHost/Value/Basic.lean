import LintHost.Json.Writer
import LintHost.Value.Time

/-!
# Configuration values

What a configuration file, an environment variable or a command-line option can hold. Files may
give any of these to any option, so options hold values and are checked where they are used.

* `truthy`: whether a value stands for yes;
* `sameKey`: when two values are the same key of a mapping (numbers of all kinds compare by what
  they are worth);
* `put`: setting a key of a mapping, which keeps its place;
* `ofJson`: every JSON value is a configuration value;
* `toJson?`: which configuration values can be written as JSON.
-/

namespace LintHost

/-- A value of a configuration option. -/
inductive Value
  | null
  | bool (b : Bool)
  | int (n : Int)
  | float (x : Binary64)
  | text (s : String)
  | bytes (bs : List UInt8)
  | list (items : List Value)
  | pair (first second : Value)
  | map (entries : List (Value × Value))
  | set (items : List Value)
  | date (d : Date)
  | time (c : Clock)
  | moment (m : Moment)
deriving Inhabited

namespace Value

/-- Whether a value stands for yes where one is asked for: not null, not false, not zero and not
    empty. -/
def truthy : Value → Bool
  | .null => false
  | .bool b => b
  | .int n => n != 0
  | .float x => !x.isZero
  | .text s => s != ""
  | .bytes bs => !bs.isEmpty
  | .list items | .set items => !items.isEmpty
  | .map entries => !entries.isEmpty
  | .pair _ _ | .date _ | .time _ | .moment _ => true

/-- The integer that a truth value or an integer is worth. -/
def intWorth? : Value → Option Int
  | .bool b => some (if b then 1 else 0)
  | .int n => some n
  | _ => none

/-- Whether two values are the same key. Containers are never keys. -/
def sameKey (a b : Value) : Bool :=
  match a, b with
  | .null, .null => true
  | .text s, .text t => s == t
  | .bytes s, .bytes t => s == t
  | .date d, .date e => d == e
  | .time c, .time d => c == d
  | .moment m, .moment n => m == n
  | .float x, .float y => x.same y
  | .float x, b => (b.intWorth?.map x.eqInt).getD false
  | a, .float y => (a.intWorth?.map y.eqInt).getD false
  | a, b => match a.intWorth?, b.intWorth? with
    | some m, some n => m == n
    | _, _ => false

/-- Whether a value may be a key. -/
def isKey : Value → Bool
  | .list _ | .pair _ _ | .map _ | .set _ => false
  | _ => true

/-- What a mapping holds under a key. -/
def get? (key : Value) : List (Value × Value) → Option Value
  | [] => none
  | (k, v) :: rest => if sameKey k key then some v else get? key rest

/-- A mapping with a key standing for `v`, in its old place or else at the end. -/
def put (key v : Value) : List (Value × Value) → List (Value × Value)
  | [] => [(key, v)]
  | (k, w) :: rest => if sameKey k key then (k, v) :: rest else (k, w) :: put key v rest

/-- The name of a value's type in messages about wrong types. -/
def typeName : Value → String
  | .null => "NoneType"
  | .bool _ => "bool"
  | .int _ => "int"
  | .float _ => "float"
  | .text _ => "str"
  | .bytes _ => "bytes"
  | .list _ => "list"
  | .pair _ _ => "tuple"
  | .map _ => "dict"
  | .set _ => "set"
  | .date _ => "datetime.date"
  | .time _ => "datetime.time"
  | .moment _ => "datetime.datetime"

/-! ## JSON -/

mutual

/-- A JSON value as a configuration value. -/
def ofJson : Json → Value
  | .null => .null
  | .bool b => .bool b
  | .int n => .int n
  | .float x => .float x
  | .text s => .text s
  | .list items => .list (ofJsonList items)
  | .object entries => .map (ofJsonEntries entries)

def ofJsonList : List Json → List Value
  | [] => []
  | j :: rest => ofJson j :: ofJsonList rest

def ofJsonEntries : List (String × Json) → List (Value × Value)
  | [] => []
  | (name, j) :: rest => (.text name, ofJson j) :: ofJsonEntries rest

end

/-- The name that JSON gives to a key: texts as they are, other scalars as JSON writes them. -/
def keyName? : Value → Option String
  | .text s => some s
  | .null => some "null"
  | .bool b => some (if b then "true" else "false")
  | .int n => some (toString n)
  | .float x => some (String.ofList (Json.floatLayout.render x))
  | _ => none

mutual

/-- A value as JSON, if it has no part that JSON cannot write. -/
def toJson? : Value → Option Json
  | .null => some .null
  | .bool b => some (.bool b)
  | .int n => some (.int n)
  | .float x => some (.float x)
  | .text s => some (.text s)
  | .list items => (toJsonList? items).map .list
  | .pair a b => do return .list [← toJson? a, ← toJson? b]
  | .map entries => (toJsonEntries? entries).map .object
  | .bytes _ | .set _ | .date _ | .time _ | .moment _ => none

def toJsonList? : List Value → Option (List Json)
  | [] => some []
  | v :: rest => do return (← toJson? v) :: (← toJsonList? rest)

def toJsonEntries? : List (Value × Value) → Option (List (String × Json))
  | [] => some []
  | (k, v) :: rest => do return (← keyName? k, ← toJson? v) :: (← toJsonEntries? rest)

end

end Value

end LintHost
