import LintHost.Toml.Scalar
import LintHost.Toml.Table

/-!
# TOML documents

A document is a list of lines: keys with values, headers of tables and of entries of arrays of
tables, comments and nothing. Arrays may run over several lines, tables written in place may not.

* `Toml.value`: a value in any of its forms;
* `Toml.read`: the table that a text spells.
-/

namespace LintHost.Toml

/-- How much nesting is followed; an array takes two of it, a table written in place three. -/
def nestingLimit : Nat := 960

/-! ## 1. Values -/

/-- What follows the blanks, line ends and comments between the entries of an array. -/
def skipBetween : Nat → List Char → Except DocumentFault (List Char)
  | 0, cs => .ok cs
  | fuel + 1, cs =>
    match cs.dropWhile isBlankOrLine with
    | '#' :: rest => do skipBetween fuel (← comment ('#' :: rest))
    | rest => .ok rest

/-- What follows the blanks, line ends and comments ahead. -/
def between (cs : List Char) : Except DocumentFault (List Char) := skipBetween (cs.length + 1) cs

/-- A table written in place so far, and the keys in it that are closed. -/
structure Inline where
  table : Table
  closed : List Path

/-- With one more key. -/
def Inline.set (inline : Inline) (key : Path) (v : Value) : Change Inline :=
  if inline.closed.any (·.isPrefixOf key) then .error .malformed
  else do
    let table ← changeAt false (setNew (key.getLastD "") v) key.dropLast inline.table
    return ⟨table, if isContainer v then key :: inline.closed else inline.closed⟩

mutual

/-- A value. The first argument bounds the steps, the second is the nesting that is left. -/
def value : Nat → Nat → List Char → Except DocumentFault (Value × List Char)
  | 0, _, _ => .error .malformed
  | fuel + 1, room, cs =>
    match cs with
    | '"' :: _ | '\'' :: _ => (text cs).map fun (s, rest) => (.text s, rest)
    | '[' :: rest =>
      if room < 2 then .error (.invalid .tooDeep)
      else do
        let (vs, rest) ← items fuel (room - 2) (← between rest)
        return (.list vs, rest)
    | '{' :: rest =>
      if room < 3 then .error (.invalid .tooDeep)
      else match skipBlanks rest with
        | '}' :: rest => .ok (.map [], rest)
        | rest => do
          let (table, rest) ← members fuel (room - 3) ⟨[], []⟩ rest
          return (.map table, rest)
    | cs =>
      match scalar? cs with
      | some (.ok v, rest) => .ok (v, rest)
      | some (.error fault, _) => .error fault
      | none => .error .malformed

/-- The entries of an array up to its end; the last one may be followed by a comma. -/
def items : Nat → Nat → List Char → Except DocumentFault (List Value × List Char)
  | 0, _, _ => .error .malformed
  | fuel + 1, room, cs =>
    match cs with
    | ']' :: rest => .ok ([], rest)
    | cs => do
      let (v, rest) ← value fuel room cs
      match ← between rest with
      | ']' :: rest => return ([v], rest)
      | ',' :: rest => do
        let (vs, rest) ← items fuel room (← between rest)
        return (v :: vs, rest)
      | _ => throw .malformed

/-- The keys and values of a table written in place up to its end. -/
def members : Nat → Nat → Inline → List Char → Except DocumentFault (Table × List Char)
  | 0, _, _, _ => .error .malformed
  | fuel + 1, room, inline, cs => do
    let (path, rest) ← key cs
    match rest with
    | '=' :: rest => do
      let (v, rest) ← value fuel room (skipBlanks rest)
      let inline ← inline.set path v
      match skipBlanks rest with
      | '}' :: rest => return (inline.table, rest)
      | ',' :: rest => members fuel room inline (skipBlanks rest)
      | _ => throw .malformed
    | _ => throw .malformed

end

/-! ## 2. Documents -/

/-- The document after a line with a key, and what follows. -/
def keyLine (tables : Tables) (cs : List Char) : Except DocumentFault (Tables × List Char) := do
  let (path, rest) ← key cs
  match rest with
  | '=' :: rest => do
    let (v, rest) ← value (3 * rest.length + 3) nestingLimit (skipBlanks rest)
    return (← tables.set path v, rest)
  | _ => throw .malformed

/-- The document after a header of an entry of an array of tables. -/
def arrayHeader (tables : Tables) (cs : List Char) : Except DocumentFault (Tables × List Char) := do
  let (path, rest) ← key (skipBlanks cs)
  let tables ← tables.extend path
  match rest with
  | ']' :: ']' :: rest => return (tables, rest)
  | _ => throw .malformed

/-- The document after a header of a table. -/
def tableHeader (tables : Tables) (cs : List Char) : Except DocumentFault (Tables × List Char) := do
  let (path, rest) ← key (skipBlanks cs)
  let tables ← tables.declare path
  match rest with
  | ']' :: rest => return (tables, rest)
  | _ => throw .malformed

/-- The document after one line without its comment, and what follows. -/
def line (tables : Tables) : List Char → Except DocumentFault (Tables × List Char)
  | '[' :: '[' :: cs => arrayHeader tables.settle cs
  | '[' :: cs => tableHeader tables.settle cs
  | c :: cs =>
    if isBare c ∨ c = '"' ∨ c = '\'' then keyLine tables (c :: cs) else .ok (tables, c :: cs)
  | [] => .ok (tables, [])

/-- The document after all lines. -/
def lines : Nat → Tables → List Char → Change Tables
  | 0, _, _ => .error .malformed
  | fuel + 1, tables, cs => do
    let (tables, rest) ← line tables (skipBlanks cs)
    match ← comment (skipBlanks rest) with
    | [] => return tables
    | '\n' :: rest => lines fuel tables rest
    | _ => throw .malformed

/-- A text with `\r\n` as one line feed. -/
def joinLineEnds : List Char → List Char
  | '\r' :: '\n' :: cs => '\n' :: joinLineEnds cs
  | c :: cs => c :: joinLineEnds cs
  | [] => []

/-- The table that a text spells. -/
def read (s : String) : Except DocumentFault Value :=
  let cs := joinLineEnds s.toList
  (lines (cs.length + 1) .empty cs).map fun tables => .map tables.root

end LintHost.Toml
