import LintHost.Entries
import LintHost.Text.Blank

/-!
# Files of environment variables

A line `NAME=value` sets a variable. Names may follow `export` and may stand between single
quotes; values may stand between quotes of either kind, then with escapes and over several lines,
and otherwise end at a blank and `#` or at the end of the line. A byte order mark at the start is
no part of the text. A line that is neither blank, a comment nor a setting is passed over with a
warning. In every value `${NAME}` and
`${NAME:-default}` are replaced.

* `EnvFile.statements`: the settings of a text and the lines of its bad statements;
* `EnvFile.interpolate`: a value with its references replaced;
* `EnvFile.added`: the environment after a text has added its variables.
-/

namespace LintHost.EnvFile

open LintHost.Text

/-! ## 1. Reading -/

/-- A blank that does not end a line. -/
def isInlineBlank (c : Char) : Bool := isBlank c && c ≠ '\n' && c ≠ '\r'

/-- Whether a character ends a line. -/
def isLineEnd (c : Char) : Bool := c = '\n' || c = '\r'

/-- The text after the blanks of its line. -/
def skipInline (cs : List Char) : List Char := cs.dropWhile isInlineBlank

/-- The text after an optional `export`. -/
def skipExport : List Char → List Char
  | 'e' :: 'x' :: 'p' :: 'o' :: 'r' :: 't' :: c :: cs =>
    if isInlineBlank c then skipInline cs else 'e' :: 'x' :: 'p' :: 'o' :: 'r' :: 't' :: c :: cs
  | cs => cs

/-- A name and what follows it; a comment has no name. -/
def key? : List Char → Option (Option String × List Char)
  | '#' :: cs => some (none, '#' :: cs)
  | '\'' :: cs =>
    let name := cs.takeWhile (· ≠ '\'')
    if name.isEmpty ∨ name.length = cs.length then none
    else some (some (String.ofList name), cs.drop (name.length + 1))
  | cs =>
    let name := cs.takeWhile fun c => c ≠ '=' ∧ c ≠ '#' ∧ !isBlank c
    if name.isEmpty then none else some (some (String.ofList name), cs.drop name.length)

/-- What stands before the closing quote, and what follows it: a backslash keeps the character
    behind it from closing, whatever that is, and both stay. -/
def quotedPart? (quote : Char) : List Char → Option (List Char × List Char)
  | [] => none
  | '\\' :: c :: cs =>
    (quotedPart? quote cs).map fun (part, rest) => ('\\' :: c :: part, rest)
  | c :: cs =>
    if c = quote then some ([], cs)
    else (quotedPart? quote cs).map fun (part, rest) => (c :: part, rest)

/-- The character of an escape between double quotes. -/
def escape? : Char → Option Char
  | '\\' => some '\\'
  | '\'' => some '\''
  | '"' => some '"'
  | 'a' => some '\x07'
  | 'b' => some '\x08'
  | 'f' => some '\x0c'
  | 'n' => some '\n'
  | 'r' => some '\r'
  | 't' => some '\t'
  | 'v' => some '\x0b'
  | _ => none

/-- The character of an escape between single quotes. -/
def singleEscape? : Char → Option Char
  | '\\' => some '\\'
  | '\'' => some '\''
  | _ => none

/-- A text with its escapes replaced. -/
def unescape (escape : Char → Option Char) : List Char → List Char
  | '\\' :: c :: cs =>
    match escape c with
    | some x => x :: unescape escape cs
    | none => '\\' :: unescape escape (c :: cs)
  | c :: cs => c :: unescape escape cs
  | [] => []

/-- The part of a line before a comment, which begins at a blank and `#`. -/
def beforeComment : List Char → List Char
  | [] => []
  | c :: cs =>
    if isBlank c ∧ (cs.dropWhile isBlank).head? = some '#' then [] else c :: beforeComment cs

/-- The value behind an equals sign, and what follows it. Blanks before the value are no part of
    it, but a comment may begin at them, and then the value is empty. -/
def value? (cs : List Char) : Option (List Char × List Char) :=
  match skipInline cs with
  | '\'' :: cs => (quotedPart? '\'' cs).map fun (v, rest) => (unescape singleEscape? v, rest)
  | '"' :: cs => (quotedPart? '"' cs).map fun (v, rest) => (unescape escape? v, rest)
  | _ =>
    let line := cs.takeWhile (!isLineEnd ·)
    some (trimWhere isBlank (beforeComment line), cs.drop line.length)

/-- What follows the end of the line, if only blanks and a comment stand before it. -/
def endOfLine? (cs : List Char) : Option (List Char) :=
  let rest := match skipInline cs with
    | '#' :: comment => comment.dropWhile (!isLineEnd ·)
    | _ => skipInline cs
  match rest with
  | [] => some []
  | '\r' :: '\n' :: rest => some rest
  | c :: rest => if isLineEnd c then some rest else none

/-- What follows the line. -/
def dropLine (cs : List Char) : List Char :=
  match cs.dropWhile (!isLineEnd ·) with
  | _ :: rest => rest
  | [] => []

/-- A statement: a name with its value, if it has them, or a bad one; and what follows it. -/
inductive Statement
  | setting (name : Option String) (value : Option String) (rest : List Char)
  | bad (rest : List Char)

/-- The rest of the text after a statement. -/
def Statement.rest : Statement → List Char
  | .setting _ _ rest => rest
  | .bad rest => rest

/-- The end of a statement whose name and value are read. -/
def finish (name value : Option String) (cs : List Char) : Statement :=
  match endOfLine? cs with
  | some rest => .setting name value rest
  | none => .bad (dropLine cs)

/-- The statement that the text begins with, blanks and empty lines before it included. -/
def statement (cs : List Char) : Statement :=
  let cs := cs.dropWhile isBlank
  if cs.isEmpty then .setting none none []
  else
    let cs := skipExport cs
    match key? cs with
    | none => .bad (dropLine cs)
    | some (name, rest) =>
      match skipInline rest with
      | '=' :: rest =>
        match value? rest with
        | none => .bad (dropLine rest)
        | some (value, rest) => finish name (some (String.ofList value)) rest
      | rest => finish name none rest

/-- How many line ends a text has; `\r\n` is one. -/
def lineEnds : List Char → Nat
  | [] => 0
  | '\r' :: '\n' :: cs => lineEnds cs + 1
  | c :: cs => lineEnds cs + if isLineEnd c then 1 else 0

/-- The settings of a text in order, and the lines at which bad statements begin. The first
    argument bounds the number of statements. -/
def statementsFrom : Nat → Nat → List Char → List (String × Option String) × List Nat
  | 0, _, _ => ([], [])
  | fuel + 1, line, cs =>
    if cs.isEmpty then ([], [])
    else
      let statement := statement cs
      let rest := statement.rest
      let next := line + lineEnds (cs.take (cs.length - rest.length))
      let (settings, bad) := statementsFrom fuel next rest
      match statement with
      | .setting (some name) value _ => ((name, value) :: settings, bad)
      | .setting none _ _ => (settings, bad)
      | .bad _ => (settings, line :: bad)

/-- The text without a byte order mark at its start. -/
def skipMark : List Char → List Char
  | '\ufeff' :: cs => cs
  | cs => cs

/-- The settings of a text in order, and the lines at which bad statements begin. -/
def statements (s : String) : List (String × Option String) × List Nat :=
  let cs := skipMark s.toList
  statementsFrom (cs.length + 1) 1 cs

/-! ## 2. References -/

/-- A reference after its `${`: the name, the default if there is one, and how many characters
    there are up to the closing brace and with it. -/
def reference? (cs : List Char) : Option (String × String × Nat) :=
  let name := cs.takeWhile fun c => c ≠ '\x7d' ∧ c ≠ ':'
  match cs.drop name.length with
  | '\x7d' :: _ => some (String.ofList name, "", name.length + 1)
  | ':' :: '-' :: rest =>
    let fallback := rest.takeWhile (· ≠ '\x7d')
    if fallback.length < rest.length then
      some (String.ofList name, String.ofList fallback, name.length + fallback.length + 3)
    else none
  | _ => none

/-- A text with its references replaced; the first argument counts the characters of the last
    reference that are still to be passed over. -/
def interpolateFrom (look : String → Option String) : Nat → List Char → List Char
  | _, [] => []
  | skip + 1, _ :: cs => interpolateFrom look skip cs
  | 0, '$' :: '\x7b' :: cs =>
    match reference? cs with
    | some (name, fallback, size) =>
      ((look name).getD fallback).toList ++ interpolateFrom look (size + 1) ('\x7b' :: cs)
    | none => '$' :: interpolateFrom look 0 ('\x7b' :: cs)
  | 0, c :: cs => c :: interpolateFrom look 0 cs

/-- A value with its references replaced by what `look` tells of variables. -/
def interpolate (look : String → Option String) (value : String) : String :=
  String.ofList (interpolateFrom look 0 value.toList)

/-- What a name stands for while settings are resolved: the environment comes first, then the
    settings before; a name that was set to nothing is empty. -/
def lookup (env : Entries String) (earlier : Entries (Option String)) (name : String) :
    Option String :=
  match env.get? name with
  | some value => some value
  | none => (earlier.get? name).map (·.getD "")

/-- The settings with all references replaced; of several settings of one name the last one
    counts, in the place of the first. -/
def resolve (env : Entries String) (settings : List (String × Option String)) :
    Entries (Option String) :=
  settings.foldl
    (fun earlier (name, value) =>
      earlier.put name (value.map (interpolate (lookup env earlier))))
    []

/-- Why no environment can hold a variable. -/
inductive Refusal
  /-- Its name or value holds a NUL character. -/
  | embeddedNull
  /-- Its name holds an equals sign. -/
  | badName
deriving DecidableEq

/-- Why no environment can hold this variable, if none can. -/
def refusal? (name value : String) : Option Refusal :=
  if name.toList.contains '\x00' ∨ value.toList.contains '\x00' then some .embeddedNull
  else if name.toList.contains '=' then some .badName
  else none

/-- The environment with variables added one after the other, up to the first that it cannot hold.
    Variables that are there stay, and a name without a value adds none. -/
def extend : Entries (Option String) → Entries String → Entries String × Option Refusal
  | [], env => (env, none)
  | (_, none) :: rest, env => extend rest env
  | (name, some value) :: rest, env =>
    if env.has name then extend rest env
    else match refusal? name value with
      | some refusal => (env, some refusal)
      | none => extend rest (env.put name value)

/-- The environment with the variables that a text sets added, as far as it can hold them. -/
def added (env : Entries String) (s : String) : Entries String × Option Refusal :=
  extend (resolve env (statements s).1) env

end LintHost.EnvFile
