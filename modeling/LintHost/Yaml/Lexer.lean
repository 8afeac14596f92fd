import LintHost.Yaml.BlockScalar
import LintHost.Yaml.PlainScalar
import LintHost.Yaml.Properties
import LintHost.Yaml.QuotedScalar

/-!
# The tokens of YAML text

Two things make YAML's tokens depend on what went before. Blocks begin and end by indentation, so
the lexer keeps the margins of the open ones. And a key is known only by the colon behind it, so
the lexer keeps, for each level of flow collections, the last place where a key may have begun;
the colon then puts a key token there. Such a key stands on one line, and its colon follows within
1024 characters.

* `Lexer`: the cursor, the open blocks, the possible keys and the tokens so far;
* `Lexer.step`: the next token;
* `Source`: a text that is read on demand, piece by piece;
* `Lexed.ofSource`: the tokens of a text.
-/

namespace LintHost.Yaml

open LintHost.Text

/-! ## 1. States -/

/-- A place where a key may have begun. -/
structure PossibleKey where
  /-- How many tokens stand before it. -/
  place : Nat
  /-- Whether it has to be a key, as nothing else could begin at the margin of a block. -/
  required : Bool
  index : Nat
  line : Nat
  column : Nat

/-- How far the tokens of a text were told. -/
structure Lexer where
  cursor : Cursor
  /-- How many flow collections are open. -/
  flow : Nat
  /-- The margins of the open blocks, innermost first; a margin is one more than the column that
      its lines begin in. -/
  blocks : List Nat
  /-- Whether a key may begin here. -/
  mayKey : Bool
  keys : List (Nat × PossibleKey)
  /-- The tokens, last first. -/
  tokens : List Token

namespace Lexer

/-- A step, which may fail. -/
abbrev Result := Except Mistake Lexer

/-- The beginning of a text. -/
def start (cs : List Char) : Lexer := ⟨.start cs, 0, [], true, [], []⟩

/-- The margin of the innermost block, zero if no block is open. -/
def margin (l : Lexer) : Nat := l.blocks.headD 0

/-- With one more token. -/
def push (l : Lexer) (token : Token) : Lexer := { l with tokens := token :: l.tokens }

/-- At another place. -/
def moveTo (l : Lexer) (c : Cursor) : Lexer := { l with cursor := c }

/-- With keys allowed here or not. -/
def allowKey (l : Lexer) (allowed : Bool) : Lexer := { l with mayKey := allowed }

/-- With a token put behind the first `place` ones. -/
def insert (l : Lexer) (place : Nat) (token : Token) : Lexer :=
  let later := l.tokens.length - place
  { l with tokens := l.tokens.take later ++ token :: l.tokens.drop later }

/-! ## 2. Possible keys -/

/-- How many characters a key and the blanks behind it may take. -/
def keyLimit : Nat := 1024

/-- Whether a possible key can no longer be one. -/
def isStale (l : Lexer) (key : PossibleKey) : Bool :=
  key.line ≠ l.cursor.line || keyLimit < l.cursor.index - key.index

/-- Without the possible keys that can no longer be keys; none of them may be required. -/
def dropStale (l : Lexer) : Result :=
  if l.keys.any fun (_, key) => l.isStale key && key.required then l.cursor.wrong
  else .ok { l with keys := l.keys.filter fun (_, key) => !l.isStale key }

/-- Without the possible key of this level, which may not be required. -/
def dropKey (l : Lexer) : Result :=
  match l.keys.lookup l.flow with
  | some key =>
    if key.required then l.cursor.wrong
    else .ok { l with keys := l.keys.filter (·.1 ≠ l.flow) }
  | none => .ok l

/-- With this place as the possible key of its level, if a key may begin here. -/
def markKey (l : Lexer) : Result :=
  if l.mayKey then do
    let required := l.flow = 0 && l.margin = l.cursor.column + 1
    let l ← l.dropKey
    let c := l.cursor
    let key : PossibleKey := ⟨l.tokens.length, required, c.index, c.line, c.column⟩
    return { l with keys := (l.flow, key) :: l.keys }
  else .ok l

/-! ## 3. Blocks -/

/-- The tokens that end the blocks whose margin is beyond `limit`, innermost first, and the blocks
    that stay. -/
def closeBlocks (limit : Nat) : List Nat → List Token × List Nat
  | [] => ([], [])
  | margin :: rest =>
    if limit < margin then
      let (ends, kept) := closeBlocks limit rest
      (.blockEnd :: ends, kept)
    else ([], margin :: rest)

/-- With the blocks ended that a line of this margin leaves; in flow collections margins do not
    matter. -/
def unwind (l : Lexer) (limit : Nat) : Lexer :=
  if 0 < l.flow then l
  else
    let (ends, kept) := closeBlocks limit l.blocks
    { l with blocks := kept, tokens := ends ++ l.tokens }

/-- With a block opened in this column behind the first `place` tokens, if the column lies further
    in than the innermost block. -/
def openBlock (l : Lexer) (column place : Nat) (token : Token) : Lexer :=
  if l.flow = 0 ∧ l.margin ≤ column then
    { l.insert place token with blocks := (column + 1) :: l.blocks }
  else l

/-- With a block opened here. -/
def openHere (l : Lexer) (token : Token) : Lexer :=
  l.openBlock l.cursor.column l.tokens.length token

/-! ## 4. Indicators -/

/-- Outside flow collections the indicator ahead may only stand where a key may. -/
def needKeyPlace (l : Lexer) : Result :=
  if l.flow = 0 ∧ !l.mayKey then l.cursor.wrong else .ok l

/-- With the token of an indicator of `n` characters. -/
def indicator (l : Lexer) (n : Nat) (token : Token) : Lexer :=
  (l.moveTo (l.cursor.skip n)).push token

/-- The end of the text. -/
def finish (l : Lexer) : Result := do
  let l ← (l.unwind 0).dropKey
  return { l.push .streamEnd with mayKey := false, keys := [] }

/-- A directive. -/
def directive (l : Lexer) : Result := do
  let l ← (l.unwind 0).dropKey
  let (token, after) ← l.cursor.directive
  return ((l.allowKey false).moveTo after).push token

/-- The beginning or the end of a document. -/
def documentMarker (l : Lexer) (token : Token) : Result := do
  let l ← (l.unwind 0).dropKey
  return (l.allowKey false).indicator 3 token

/-- The opening of a flow collection. -/
def openFlow (l : Lexer) (token : Token) : Result := do
  let l ← l.markKey
  return { l.indicator 1 token with flow := l.flow + 1, mayKey := true }

/-- The closing of a flow collection. -/
def closeFlow (l : Lexer) (token : Token) : Result := do
  let l ← l.dropKey
  if l.flow = 0 then l.cursor.wrong
  else return { l.indicator 1 token with flow := l.flow - 1, mayKey := false }

/-- The comma between entries of a flow collection. -/
def comma (l : Lexer) : Result := do
  let l ← l.dropKey
  return (l.allowKey true).indicator 1 .comma

/-- The dash before an entry of a block sequence. -/
def dash (l : Lexer) : Result := do
  let l ← l.needKeyPlace
  let l ← (l.openHere .blockSequence).dropKey
  return (l.allowKey true).indicator 1 .dash

/-- The question mark before a key. -/
def keyMark (l : Lexer) : Result := do
  let l ← l.needKeyPlace
  let l ← (l.openHere .blockMapping).dropKey
  return (l.allowKey (l.flow = 0)).indicator 1 .key

/-- The colon behind a key: behind a possible one, which it makes a key, or behind one that was
    marked. -/
def colon (l : Lexer) : Result :=
  match l.keys.lookup l.flow with
  | some key =>
    let l := { l with keys := l.keys.filter (·.1 ≠ l.flow) }
    let l := (l.insert key.place .key).openBlock key.column key.place .blockMapping
    .ok ((l.allowKey false).indicator 1 .value)
  | none => do
    let l ← l.needKeyPlace
    let l ← ((l.openHere .blockMapping).allowKey (l.flow = 0)).dropKey
    return l.indicator 1 .value

/-! ## 5. Names, tags and scalars -/

/-- A token that may begin a key, and the place behind it. -/
def keyable (l : Lexer) (token : Token) (after : Cursor) : Result := do
  let l ← l.markKey
  return ((l.allowKey false).moveTo after).push token

/-- A name after its indicator. -/
def name (l : Lexer) (token : String → Token) : Result := do
  let (name, after) ← l.cursor.anchor
  l.keyable (token name) after

/-- A tag. -/
def tag (l : Lexer) : Result := do
  let (written, after) ← l.cursor.tag
  l.keyable (.tag written) after

/-- A scalar between quotes. -/
def quoted (l : Lexer) : Result := do
  let (cs, after) ← l.cursor.quotedScalar
  l.keyable (.scalar false (String.ofList cs)) after

/-- A block scalar; a key may follow it. -/
def block (l : Lexer) : Result := do
  let l ← (l.allowKey true).dropKey
  let (cs, after) ← l.cursor.blockScalar (max 1 l.margin)
  return (l.moveTo after).push (.scalar false (String.ofList cs))

/-- A plain scalar; a key may follow it on a later line. -/
def plain (l : Lexer) : Result := do
  let run := l.cursor.plainScalar (0 < l.flow) l.margin
  let l ← l.keyable (.scalar true (String.ofList run.chars)) run.after
  return l.allowKey run.newLine

/-- Whether a plain scalar may begin with the character ahead. -/
def startsPlain (l : Lexer) : Bool :=
  let ch := l.cursor.peek
  !(isGap ch || "-?:,[]\x7b\x7d#&*!|>'\"%@\x60".toList.contains ch) ||
    (!isGap (l.cursor.peekAt 1) && (ch = '-' || (l.flow = 0 && (ch = '?' || ch = ':'))))

/-! ## 6. All tokens -/

/-- The place of the next token: blanks, comments and line ends are passed over, and outside flow
    collections a key may begin on a new line. -/
def toToken : Nat → Lexer → Lexer
  | 0, l => l
  | fuel + 1, l =>
    let c := l.cursor.skipSpaces.skipComment
    match c.lineBreak with
    | ([], _) => l.moveTo c
    | (_, after) => toToken fuel { l with cursor := after, mayKey := l.mayKey || l.flow = 0 }

/-- The place behind a byte order mark at the start of the text. -/
def skipMark (l : Lexer) : Lexer :=
  if l.cursor.index = 0 ∧ l.cursor.peek = '\ufeff' then l.moveTo l.cursor.next else l

/-- The token that begins here. -/
def token (l : Lexer) : Result :=
  let c := l.cursor
  let alone := isGap (c.peekAt 1) || 0 < l.flow
  if c.peek = '\x00' then l.finish
  else if c.column = 0 ∧ c.peek = '%' then l.directive
  else if c.column = 0 ∧ c.atMarker '-' then l.documentMarker .documentStart
  else if c.column = 0 ∧ c.atMarker '.' then l.documentMarker .documentEnd
  else if c.peek = '-' ∧ isGap (c.peekAt 1) then l.dash
  else if c.peek = '?' ∧ alone then l.keyMark
  else if c.peek = ':' ∧ alone then l.colon
  else if l.flow = 0 ∧ (c.peek = '|' ∨ c.peek = '>') then l.block
  else match c.peek with
    | '[' => l.openFlow .flowSequence
    | '{' => l.openFlow .flowMapping
    | ']' => l.closeFlow .flowSequenceEnd
    | '}' => l.closeFlow .flowMappingEnd
    | ',' => l.comma
    | '*' => l.name .alias
    | '&' => l.name .anchor
    | '!' => l.tag
    | '\'' | '"' => l.quoted
    | _ => if l.startsPlain then l.plain else c.wrong

/-- The next token. -/
def step (l : Lexer) : Result := do
  let l ← (toToken (l.cursor.rest.length + 1) l.skipMark).dropStale
  (l.unwind (l.cursor.column + 1)).token

/-- The tokens that are told for certain, up to the first that a key token may still come before. -/
def told (l : Lexer) : List Token :=
  match (l.keys.map fun (_, key) => key.place).min? with
  | some place => l.tokens.reverse.take place
  | none => l.tokens.reverse

/-- All tokens from here on. Where the text is not known to its end, `beyond` is what is wrong with
    what follows; it counts as soon as that is looked at. -/
def run (beyond : Option DocumentFault) : Nat → Lexer → Lexed
  | 0, l => ⟨l.told, .malformed⟩
  | fuel + 1, l =>
    let ended (l : Lexer) (mistake : Mistake) : Lexed :=
      ⟨l.told, if mistake.place.rest.isEmpty then beyond.getD mistake.fault else mistake.fault⟩
    match l.dropStale with
    | .error mistake => ended l mistake
    | .ok l =>
      match l.step, beyond with
      | .error mistake, _ => ended l mistake
      | .ok next, some fault =>
        if next.cursor.rest.isEmpty then ⟨l.told, fault⟩ else run beyond fuel next
      | .ok next, none =>
        if next.tokens.head? = some .streamEnd then ⟨next.tokens.reverse, .malformed⟩
        else run beyond fuel next

end Lexer

/-! ## 7. Reading on demand -/

/-- How many characters are read together, when those before them are used up. -/
def pieceSize : Nat := 4096

/-- The pieces that consist of the first `count` characters of a text. The first piece is twice as
    long as the others. -/
def wholePieces (count : Nat) (cs : List Char) : List Char :=
  if count < 2 * pieceSize then [] else cs.take (count / pieceSize * pieceSize)

/-- What is read of a text. -/
structure Source where
  chars : List Char
  /-- What is wrong with what follows, unless the text ends. -/
  beyond : Option DocumentFault

/-- A text, which may hold printable characters only. Each piece is checked when it is read. -/
def Source.checked (cs : List Char) (beyond : Option DocumentFault) : Source :=
  if cs.all isPrintable then ⟨cs, beyond⟩
  else ⟨wholePieces (cs.takeWhile isPrintable).length cs, some .malformed⟩

/-- A text of which everything is known. -/
def Source.ofText (s : String) : Source := .checked s.toList none

/-- A file that is no text. What comes before the first piece that cannot be decoded is read. -/
def Source.garbled (content : ByteArray) : Source :=
  let cs := soundStart content
  .checked (wholePieces cs.length cs) (some (.invalid .notUtf8))

/-- The tokens of what is read of a text. -/
def Lexed.ofSource (source : Source) : Lexed :=
  (Lexer.start source.chars).run source.beyond (source.chars.length + 1)

end LintHost.Yaml
