import LintHost.Fault

/-!
# YAML tokens

What the structure of a YAML document is read off: indicators, the beginnings and ends of blocks
that indentation tells, names, and scalars whose text is already put together.
-/

namespace LintHost.Yaml

/-- A tag as it is written: a suffix, with a handle unless the tag is given in full. -/
structure WrittenTag where
  handle : Option String
  suffix : String
deriving DecidableEq

/-- A token. -/
inductive Token
  /-- `%YAML` with its first number. -/
  | version (major : Nat)
  /-- `%TAG`: what a handle stands for. -/
  | handle (name stands : String)
  /-- Any other directive. -/
  | directive
  | documentStart
  | documentEnd
  | blockSequence
  | blockMapping
  | blockEnd
  | flowSequence
  | flowMapping
  | flowSequenceEnd
  | flowMappingEnd
  /-- The dash of a block sequence. -/
  | dash
  /-- The comma between the entries of a flow collection. -/
  | comma
  | key
  | value
  | alias (name : String)
  | anchor (name : String)
  | tag (written : WrittenTag)
  /-- A scalar; plain ones stand without quotes and are no block scalars. -/
  | scalar (plain : Bool) (text : String)
  | streamEnd
deriving DecidableEq

/-- The tokens of a text as far as they could be told, and what then went wrong. -/
structure Lexed where
  tokens : List Token
  fault : DocumentFault

end LintHost.Yaml
