import LintHost.Entries
import LintHost.Yaml.Lexer
import LintHost.Yaml.Tag

/-!
# YAML nodes

The tokens of a document form one node: a scalar, a sequence or a mapping, each with a tag. An
anchor names a node, and an alias stands for the node that was named. An alias inside the node that
it names stands for an empty one of that kind. A text holds at most one document.

* `Node`: the nodes;
* `Node.ofSource?`: the node of a text; none if there is no document;
* `nestingLimit`: how deep nodes may be nested.
-/

namespace LintHost.Yaml

/-- A node. -/
inductive Node
  | scalar (tag : Tag) (text : String)
  | sequence (tag : Tag) (items : List Node)
  | mapping (tag : Tag) (pairs : List (Node × Node))

/-- How deep nodes may be nested. -/
def nestingLimit : Nat := 480

/-- The node that stands where nothing is written. -/
def Node.empty : Node := .scalar .null ""

/-- What is left of the tokens, the handles of tags, and the nodes with names. -/
structure Parsing where
  lexed : Lexed
  handles : Entries String
  anchors : Entries Node

/-- A step of parsing. -/
abbrev Parse := StateT Parsing (Except DocumentFault)

namespace Parse

/-! ## 1. Tokens -/

/-- The next token; if there is none, the fault that ended them. -/
def peek : Parse Token := do
  let lexed := (← get).lexed
  match lexed.tokens with
  | token :: _ => return token
  | [] => throw lexed.fault

/-- Passes over the next token. -/
def drop : Parse Unit :=
  modify fun parsing =>
    { parsing with lexed := ⟨parsing.lexed.tokens.tail, parsing.lexed.fault⟩ }

/-- Passes over the next token if it is this one; whether it was. -/
def skip (token : Token) : Parse Bool := do
  if (← peek) = token then
    drop
    return true
  else return false

/-- Passes over the next token, which must be this one. -/
def expect (token : Token) : Parse Unit := do
  if ← skip token then return () else throw .malformed

/-! ## 2. Names and tags -/

/-- The anchor ahead, if there is one. -/
def anchor? : Parse (Option String) := do
  match ← peek with
  | .anchor name => drop; return some name
  | _ => return none

/-- The tag ahead, if there is one. -/
def tag? : Parse (Option WrittenTag) := do
  match ← peek with
  | .tag written => drop; return some written
  | _ => return none

/-- Anchor and tag, in either order. -/
def properties : Parse (Option String × Option WrittenTag) := do
  match ← anchor? with
  | some name => return (some name, ← tag?)
  | none =>
    match ← tag? with
    | some written => return (← anchor?, some written)
    | none => return (none, none)

/-- The name of a tag; its handle must be known. -/
def tagName (written : WrittenTag) : Parse String := do
  match written.handle with
  | none => return written.suffix
  | some handle =>
    match (← get).handles.get? handle with
    | some stands => return stands ++ written.suffix
    | none => throw .malformed

/-- The tag of a collection or scalar; without one, or with a lone `!`, it is `usual`. -/
def tagOr (usual : Tag) : Option String → Tag
  | none | some "!" => usual
  | some name => .ofName name

/-- The tag of a scalar. -/
def scalarTag (plain : Bool) (text : String) : Option String → Tag
  | none => if plain then .ofPlain text else .text
  | some "!" => .ofPlain text
  | some name => .ofName name

/-- Names a node. -/
def name (anchor : Option String) (node : Node) : Parse Node := do
  match anchor with
  | none => return node
  | some name =>
    modify fun parsing => { parsing with anchors := parsing.anchors.put name node }
    return node

/-- The node with a name. -/
def named (name : String) : Parse Node := do
  match (← get).anchors.get? name with
  | some node => return node
  | none => throw .malformed

/-! ## 3. Nodes -/

/-- Whether nothing is written for an entry of a block, as the next token goes on with it. -/
def endsEntry (indentless : Bool) : Token → Bool
  | .dash | .blockEnd => true
  | .key | .value => indentless
  | _ => false

/-- Whether nothing is written for a key or value of a block mapping. -/
def endsMember : Token → Bool
  | .key | .value | .blockEnd => true
  | _ => false

/-- Whether nothing is written for a part of a pair in a flow collection that `close` closes. -/
def endsPart (close : Token) (isKey : Bool) (token : Token) : Bool :=
  token = .comma || token = close || (isKey && token = .value)

/-- Where a node stands, as far as that decides how it may be written. -/
inductive Place
  | flow
  | block
  /-- In a block mapping, where the dashes of a sequence need no indentation. -/
  | member
deriving DecidableEq

/-- Goes into a collection, if there is room for one more level. -/
def enter {α : Type} (room : Nat) (inside : Nat → Parse α) : Parse α :=
  match room with
  | 0 => throw (.invalid .tooDeep)
  | room + 1 => inside room

mutual

/-- A node. The first argument bounds the steps, the second tells how many more levels of nesting
    there is room for. -/
def node : Nat → Nat → Place → Parse Node
  | 0, _, _ => throw .malformed
  | fuel + 1, room, place => do
    match ← peek with
    | .alias name => drop; named name
    | _ =>
      let (anchor, written) ← properties
      let tag ← written.mapM tagName
      if let some name := anchor then
        if (← get).anchors.has name then throw .malformed
      match ← peek with
      | .scalar plain text => do
        drop
        name anchor (.scalar (scalarTag plain text tag) text)
      | .flowSequence =>
        drop
        let tag := tagOr .sequence tag
        discard (name anchor (.sequence tag []))
        name anchor (.sequence tag (← enter room fun room => flowItems fuel room true))
      | .flowMapping =>
        drop
        let tag := tagOr .mapping tag
        discard (name anchor (.mapping tag []))
        name anchor (.mapping tag (← enter room fun room => flowPairs fuel room true))
      | token =>
        if token = .blockSequence ∧ place ≠ .flow then
          drop
          let tag := tagOr .sequence tag
          discard (name anchor (.sequence tag []))
          name anchor (.sequence tag (← enter room fun room => blockItems fuel room false))
        else if token = .dash ∧ place = .member then
          let tag := tagOr .sequence tag
          discard (name anchor (.sequence tag []))
          name anchor (.sequence tag (← enter room fun room => blockItems fuel room true))
        else if token = .blockMapping ∧ place ≠ .flow then
          drop
          let tag := tagOr .mapping tag
          discard (name anchor (.mapping tag []))
          name anchor (.mapping tag (← enter room fun room => blockPairs fuel room))
        else if anchor.isSome ∨ written.isSome then
          name anchor (.scalar (scalarTag true "" tag) "")
        else throw .malformed

/-- The entries of a block sequence up to its end; one without indentation ends where its mapping
    goes on. -/
def blockItems : Nat → Nat → Bool → Parse (List Node)
  | 0, _, _ => throw .malformed
  | fuel + 1, room, indentless => do
    if ← skip .dash then
      let item ←
        if endsEntry indentless (← peek) then pure .empty else node fuel room .block
      return item :: (← blockItems fuel room indentless)
    else
      if !indentless then expect .blockEnd
      return []

/-- The pairs of a block mapping up to its end. -/
def blockPairs : Nat → Nat → Parse (List (Node × Node))
  | 0, _ => throw .malformed
  | fuel + 1, room => do
    if ← skip .blockEnd then return []
    else
      let key ←
        if ← skip .key then
          if endsMember (← peek) then pure .empty else node fuel room .member
        else throw .malformed
      let value ←
        if ← skip .value then
          if endsMember (← peek) then pure .empty else node fuel room .member
        else pure .empty
      return (key, value) :: (← blockPairs fuel room)

/-- The pair that a key token begins in a flow collection. -/
def flowPair : Nat → Nat → Token → Parse (Node × Node)
  | 0, _, _ => throw .malformed
  | fuel + 1, room, close => do
    let key ←
      if endsPart close true (← peek) then pure .empty else node fuel room .flow
    let value ←
      if ← skip .value then
        if endsPart close false (← peek) then pure .empty else node fuel room .flow
      else pure .empty
    return (key, value)

/-- The entries of a flow sequence up to its end; a pair among them is a mapping of its own. -/
def flowItems : Nat → Nat → Bool → Parse (List Node)
  | 0, _, _ => throw .malformed
  | fuel + 1, room, first => do
    if ← skip .flowSequenceEnd then return []
    else
      if !first then expect .comma
      if ← skip .flowSequenceEnd then return []
      else
        let item ←
          if ← skip .key then
            .mapping .mapping <$> enter room fun room =>
              ([·]) <$> flowPair fuel room .flowSequenceEnd
          else node fuel room .flow
        return item :: (← flowItems fuel room false)

/-- The pairs of a flow mapping up to its end; an entry that is no pair is a key without value. -/
def flowPairs : Nat → Nat → Bool → Parse (List (Node × Node))
  | 0, _, _ => throw .malformed
  | fuel + 1, room, first => do
    if ← skip .flowMappingEnd then return []
    else
      if !first then expect .comma
      if ← skip .flowMappingEnd then return []
      else
        let pair ←
          if ← skip .key then flowPair fuel room .flowMappingEnd
          else (·, .empty) <$> node fuel room .flow
        return pair :: (← flowPairs fuel room false)

end

/-! ## 4. Documents -/

/-- The handles that need no directive. -/
def usualHandles : Entries String := [("!", "!"), ("!!", Tag.commonStart)]

/-- The directives ahead, of which one may give a version and none a handle that was given; the
    handles that they give. -/
def directives : Nat → Bool → Entries String → Parse (Entries String)
  | 0, _, _ => throw .malformed
  | fuel + 1, versioned, handles => do
    match ← peek with
    | .version major =>
      if versioned ∨ major ≠ 1 then throw .malformed
      drop
      directives fuel true handles
    | .handle name stands =>
      if handles.has name then throw .malformed
      drop
      directives fuel versioned (handles ++ [(name, stands)])
    | .directive =>
      drop
      directives fuel versioned handles
    | _ => return handles ++ usualHandles

/-- Passes over marks that end a document. -/
def skipEnds : Nat → Parse Unit
  | 0 => throw .malformed
  | fuel + 1 => do if ← skip .documentEnd then skipEnds fuel else return ()

/-- The node of a document whose beginning was marked. -/
def content (fuel : Nat) : Parse Node := do
  match ← peek with
  | .version _ | .handle _ _ | .directive | .documentStart | .documentEnd | .streamEnd =>
    return .empty
  | _ => node fuel nestingLimit .block

/-- The only document of a text, if there is one. -/
def document (fuel : Nat) : Parse (Option Node) := do
  let found ← match ← peek with
    | .streamEnd => return none
    | .version _ | .handle _ _ | .directive | .documentStart => do
      let handles ← directives fuel false []
      modify fun parsing => { parsing with handles := handles }
      expect .documentStart
      content fuel
    | _ => node fuel nestingLimit .block
  skipEnds fuel
  expect .streamEnd
  return some found

end Parse

/-- The node of a text; none if the text holds no document. -/
def Node.ofSource? (source : Source) : Except DocumentFault (Option Node) :=
  let lexed := Lexed.ofSource source
  let fuel := 8 * lexed.tokens.length + 8
  ((Parse.document fuel).run ⟨lexed, Parse.usualHandles, []⟩).map (·.1)

end LintHost.Yaml
