import LintHost.Toml.Text

/-!
# The tables of a TOML document

A document fills tables step by step, and what it has said it may not say again. A table may be
declared once, a value set once, and values written in place are closed for good. So a document
keeps, next to the tables, which of them were declared and which are closed. A new entry of an
array of tables forgets what was declared below the one before it.

* `Tables`: the tables and what is settled about them;
* `Tables.declare`, `Tables.extend`: headers of tables and of entries of arrays of tables;
* `Tables.set`: a key with its value.
-/

namespace LintHost.Toml

/-- Entries of a table. -/
abbrev Table := List (Value × Value)

/-- What an operation leaves, unless the document says something twice. -/
abbrev Change := Except DocumentFault

/-! ## 1. Entries below a path -/

/-- The table below a path changed by `f`. Tables that are not there are made; of an array of
    tables, if `arrays` allows going into them, the last one is meant. -/
def changeAt (arrays : Bool) (f : Table → Change Table) : Path → Table → Change Table
  | [], table => f table
  | name :: path, table => do
    let changed ← match Value.get? (.text name) table with
      | none => .map <$> changeAt arrays f path []
      | some (.map inner) => .map <$> changeAt arrays f path inner
      | some (.list items) =>
        match arrays, items.getLast? with
        | true, some (.map inner) => do
          let last ← changeAt arrays f path inner
          pure (.list (items.dropLast ++ [.map last]))
        | _, _ => throw .malformed
      | some _ => throw .malformed
    return Value.put (.text name) changed table

/-- A table with an entry that it does not have yet. -/
def setNew (name : String) (v : Value) (table : Table) : Change Table :=
  match Value.get? (.text name) table with
  | some _ => .error .malformed
  | none => .ok (Value.put (.text name) v table)

/-- A table with one more empty table in an array. -/
def appendTable (name : String) (table : Table) : Change Table :=
  match Value.get? (.text name) table with
  | none => .ok (Value.put (.text name) (.list [.map []]) table)
  | some (.list items) => .ok (Value.put (.text name) (.list (items ++ [.map []])) table)
  | some _ => .error .malformed

/-- Whether a value is closed once it is written. -/
def isContainer : Value → Bool
  | .map _ | .list _ => true
  | _ => false

/-! ## 2. Documents -/

/-- The tables of a document so far. -/
structure Tables where
  root : Table
  /-- The table that keys are set in. -/
  header : Path
  /-- What may not be declared again. -/
  declared : List Path
  /-- What may not be changed, with all below it. -/
  closed : List Path
  /-- What may not be declared once the next header comes. -/
  pending : List Path

namespace Tables

/-- The tables of an empty document. -/
def empty : Tables := ⟨[], [], [], [], []⟩

/-- Whether a path lies at or below a closed one. -/
def isClosed (tables : Tables) (path : Path) : Bool :=
  tables.closed.any (·.isPrefixOf path)

/-- With what was pending settled. -/
def settle (tables : Tables) : Tables :=
  { tables with declared := tables.pending ++ tables.declared, pending := [] }

/-- Without anything settled at or below a path. -/
def forget (tables : Tables) (path : Path) : Tables :=
  { tables with
    declared := tables.declared.filter fun p => !path.isPrefixOf p
    closed := tables.closed.filter fun p => !path.isPrefixOf p }

/-- With a table declared, in which keys are set from now on. -/
def declare (tables : Tables) (path : Path) : Change Tables :=
  if path ∈ tables.declared ∨ tables.isClosed path then .error .malformed
  else do
    let root ← changeAt true .ok path tables.root
    return { tables with root := root, header := path, declared := path :: tables.declared }

/-- With one more entry of an array of tables, in which keys are set from now on. -/
def extend (tables : Tables) (path : Path) : Change Tables :=
  if tables.isClosed path then .error .malformed
  else do
    let tables := tables.forget path
    let root ← changeAt true (appendTable (path.getLastD "")) path.dropLast tables.root
    return { tables with root := root, header := path, declared := path :: tables.declared }

/-- The tables that a key of several names passes through. -/
def passed (tables : Tables) (key : Path) : List Path :=
  ((List.range key.length).drop 1).map fun n => tables.header ++ key.take n

/-- With a key set. -/
def set (tables : Tables) (key : Path) (v : Value) : Change Tables :=
  let passed := tables.passed key
  let holder := tables.header ++ key.dropLast
  if passed.any (tables.declared.contains ·) ∨ tables.isClosed holder then .error .malformed
  else do
    let root ← changeAt true (setNew (key.getLastD "") v) holder tables.root
    return { tables with
      root := root
      pending := passed ++ tables.pending
      closed := if isContainer v then (tables.header ++ key) :: tables.closed else tables.closed }

end Tables

end LintHost.Toml
