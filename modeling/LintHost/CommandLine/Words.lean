/-!
# The words of a command line

A word is an option if it begins with a dash and is longer than that. An option stands for
something by itself or takes a value: `--name value`, `--name=value`, `-n value`, `-nvalue`. Names
are written in full, one-letter names may share a dash, and the word `--` ends the options.

* `Meaning`, `Table`: what options stand for, by name;
* `Word.read?`: what one word says;
* `given?`: the options of a command line in order, and its other words.
-/

namespace LintHost.CommandLine

/-- What an option stands for: something by itself, or something once it has a value. -/
inductive Meaning (α : Type)
  | alone (a : α)
  | valued (of : String → α)

/-- Options by their names, dashes included. -/
abbrev Table (α : Type) := List (String × Meaning α)

/-! ## 1. One word -/

/-- What a word says. -/
inductive Word (α : Type)
  /-- The options end here. -/
  | stop
  /-- It is no option. -/
  | plain
  /-- It gives options; one more may be waiting for the next word as its value. -/
  | options (given : List α) (waiting : Option (String → α))

/-- What one-letter names behind a dash say. The first that takes a value takes all that is
    left. -/
def cluster? (table : Table α) : List Char → Option (List α × Option (String → α))
  | [] => some ([], none)
  | c :: cs =>
    match table.lookup (String.ofList ['-', c]) with
    | none => none
    | some (.alone a) => (cluster? table cs).map fun (as, waiting) => (a :: as, waiting)
    | some (.valued of) =>
      some (if cs.isEmpty then ([], some of) else ([of (String.ofList cs)], none))

/-- The name in a word, and the value behind its first equals sign. -/
def splitValue (word : List Char) : String × Option String :=
  let name := word.takeWhile (· ≠ '=')
  (String.ofList name,
    if name.length = word.length then none
    else some (String.ofList (word.drop (name.length + 1))))

/-- What a full name says. -/
def named? (table : Table α) (word : List Char) : Option (List α × Option (String → α)) :=
  let (name, value) := splitValue word
  match table.lookup name, value with
  | some (.alone a), none => some ([a], none)
  | some (.valued of), none => some ([], some of)
  | some (.valued of), some v => some ([of v], none)
  | some (.alone _), some _ | none, _ => none

/-- What a word says, if it makes sense. -/
def Word.read? (table : Table α) (word : String) : Option (Word α) :=
  match word.toList with
  | ['-', '-'] => some .stop
  | '-' :: '-' :: cs => (named? table ('-' :: '-' :: cs)).map fun (as, waiting) => .options as waiting
  | '-' :: c :: cs => (cluster? table (c :: cs)).map fun (as, waiting) => .options as waiting
  | _ => some .plain

/-! ## 2. All words -/

/-- The options that words give, in order, and the other words. Unless options may be `mixed` with
    other words, the first of these ends the options. -/
def givenAfter? (table : Table α) (mixed : Bool) :
    Option (String → α) → List String → Option (List α × List String)
  | none, [] => some ([], [])
  | some _, [] => none
  | some of, word :: words =>
    (givenAfter? table mixed none words).map fun (as, others) => (of word :: as, others)
  | none, word :: words =>
    match Word.read? table word with
    | none => none
    | some .stop => some ([], words)
    | some .plain =>
      if mixed then
        (givenAfter? table mixed none words).map fun (as, others) => (as, word :: others)
      else some ([], word :: words)
    | some (.options as waiting) =>
      (givenAfter? table mixed waiting words).map fun (bs, others) => (as ++ bs, others)

/-- The options of a command line and its other words, if all options make sense. -/
def given? (table : Table α) (mixed : Bool) (words : List String) :
    Option (List α × List String) :=
  givenAfter? table mixed none words

end LintHost.CommandLine
