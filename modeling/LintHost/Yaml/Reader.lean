import LintHost.Yaml.Node
import LintHost.Yaml.Scalar

/-!
# Reading YAML

A document stands for a value: its nodes are turned into values level by level from the top, so of
several faults the one nearest to the top is told, and of those on one level the first. Keys of
mappings are scalars; of equal keys the last value counts. The key `<<` brings in the pairs of
other mappings, which the mapping's own pairs override.

* `Node.pairs?`: the pairs of a mapping with those that are brought in;
* `Node.value`: the value of a node;
* `Yaml.read`: the value of a text; null if it holds no document.
-/

namespace LintHost.Yaml

/-! ## 1. Nodes -/

namespace Node

/-- The tag of a node. -/
def tag : Node → Tag
  | .scalar tag _ | .sequence tag _ | .mapping tag _ => tag

mutual

/-- How deep nodes are nested below a node. -/
def depth : Node → Nat
  | .scalar _ _ => 0
  | .sequence _ items => depthItems items + 1
  | .mapping _ pairs => depthPairs pairs + 1

def depthItems : List Node → Nat
  | [] => 0
  | node :: rest => max node.depth (depthItems rest)

def depthPairs : List (Node × Node) → Nat
  | [] => 0
  | (key, value) :: rest => max (max key.depth value.depth) (depthPairs rest)

end

/-- A key as it counts in a mapping: there the sign `=` is a text. -/
def asKey : Node → Node
  | .scalar .default text => .scalar .text text
  | .sequence .default items => .sequence .text items
  | .mapping .default pairs => .mapping .text pairs
  | node => node

mutual

/-- The pairs of a mapping, those that are brought in first; nothing if what is to be brought in
    is no mapping. -/
def pairs? : Node → Option (List (Node × Node))
  | .mapping _ pairs => do
    let (brought, own) ← pairsOf pairs
    return brought ++ own
  | _ => none

/-- The pairs that a list of pairs brings in, and its own. -/
def pairsOf : List (Node × Node) → Option (List (Node × Node) × List (Node × Node))
  | [] => some ([], [])
  | (key, value) :: rest =>
    if key.tag = .merge then do
      let first ← broughtBy value
      let (brought, own) ← pairsOf rest
      return (first ++ brought, own)
    else do
      let (brought, own) ← pairsOf rest
      return (brought, (key.asKey, value) :: own)

/-- The pairs that a value of `<<` brings in: those of a mapping, or of several, of which the first
    counts most and so comes last. -/
def broughtBy : Node → Option (List (Node × Node))
  | .mapping _ pairs => do
    let (brought, own) ← pairsOf pairs
    return brought ++ own
  | .sequence _ items => broughtByAll items
  | .scalar _ _ => none

def broughtByAll : List Node → Option (List (Node × Node))
  | [] => some []
  | node :: rest => do
    let first ← node.pairs?
    return (← broughtByAll rest) ++ first

end

mutual

/-- The text of a node where a scalar is asked for: that of a scalar, or of what a mapping holds
    under the key `=`. -/
def text? : Node → Option String
  | .scalar _ text => some text
  | .sequence _ _ => none
  | .mapping _ pairs => defaultText? pairs

def defaultText? : List (Node × Node) → Option String
  | [] => none
  | (key, value) :: rest => if key.tag = .default then value.text? else defaultText? rest

end

end Node

/-! ## 2. Faults by level -/

/-- Something read, or the fault to be told with the level on which it arises. -/
abbrev Leveled (α : Type) := Except (Nat × DocumentFault) α

namespace Leveled

variable {α β : Type}

/-- A fault on a level. -/
def bad (level : Nat) : Leveled α := .error (level, .malformed)

/-- Both of two things; of two faults the one on the upper level, else the first. -/
def both : Leveled α → Leveled β → Leveled (α × β)
  | .ok a, .ok b => .ok (a, b)
  | .error f, .error g => .error (if g.1 < f.1 then g else f)
  | .error f, .ok _ => .error f
  | .ok _, .error g => .error g

/-- All of some things. -/
def all : List (Leveled α) → Leveled (List α)
  | [] => .ok []
  | a :: rest => (both a (all rest)).map fun (a, rest) => a :: rest

/-- A scalar on a level. -/
def ofScalar (level : Nat) : ScalarResult → Leveled Value
  | .ok v => .ok v
  | .error fault => .error (level, fault)

end Leveled

/-! ## 3. Values -/

open Leveled

/-- Whether values of a tag are collections, which are no keys. -/
def Tag.isCollection : Tag → Bool
  | .sequence | .mapping | .set | .orderedMap | .pairs => true
  | _ => false

/-- A mapping from its pairs in order. -/
def mappingOf (pairs : List (Value × Value)) : List (Value × Value) :=
  pairs.foldl (fun entries (key, v) => Value.put key v entries) []

/-- A pair of a mapping, whose parts `read` reads. -/
def readPair (level : Nat) (read : Node → Leveled Value) (pair : Node × Node) :
    Leveled (Value × Value) :=
  if pair.1.tag.isCollection then both (both (read pair.1) (bad level)) (read pair.2) |>.map (·.1)
  else both (read pair.1) (read pair.2)

/-- The entry of a list of pairs. -/
def readEntry (level : Nat) (read : Node → Leveled Value) : Node → Leveled Value
  | .mapping _ [(key, value)] => (both (read key) (read value)).map fun (k, v) => .pair k v
  | _ => bad level

/-- The pairs of a mapping on a level. -/
def readPairs (level : Nat) (read : Node → Leveled Value) (node : Node) :
    Leveled (List (Value × Value)) :=
  match node.pairs? with
  | some pairs => (all (pairs.map (readPair level read))).map mappingOf
  | none => bad level

/-- The value of a collection whose content stands on a level. -/
def readCollection (level : Nat) (read : Node → Leveled Value) (node : Node) : Leveled Value :=
  match node.tag, node with
  | .sequence, .sequence _ items => (all (items.map read)).map .list
  | .orderedMap, .sequence _ items | .pairs, .sequence _ items =>
    (all (items.map (readEntry level read))).map .list
  | .mapping, node => (readPairs level read node).map .map
  | .set, node => (readPairs level read node).map fun entries => .set (entries.map (·.1))
  | _, _ => bad level

/-- The value of a node that stands for no collection. -/
def readScalar (level : Nat) (node : Node) : Leveled Value :=
  match node.text? with
  | none => bad level
  | some text =>
    match node.tag, node with
    | .timestamp, .mapping _ _ => .error (level, unfit .wrongType)
    | tag, _ => ofScalar level (tag.scalarValue text)

/-- The value of a node on a level; the first argument bounds the nesting. -/
def Node.value : Nat → Nat → Node → Leveled Value
  | 0, level, _ => .error (level, .invalid .tooDeep)
  | fuel + 1, level, node =>
    if node.tag.isCollection then
      readCollection (level + 1) (Node.value fuel (level + 1)) node
    else readScalar level node

/-- The value of what is read of a text. -/
def Source.read (source : Source) : Except DocumentFault Value :=
  match Node.ofSource? source with
  | .error fault => .error fault
  | .ok none => .ok .null
  | .ok (some node) =>
    match Node.value (node.depth + 1) 0 node with
    | .ok v => .ok v
    | .error (_, fault) => .error fault

/-- The value of a text. -/
def read (s : String) : Except DocumentFault Value := (Source.ofText s).read

/-- The fault of a file that is no text: what comes before counts first. -/
def garbledFault (content : ByteArray) : DocumentFault :=
  match (Source.garbled content).read with
  | .error fault => fault
  | .ok _ => .invalid .notUtf8

end LintHost.Yaml
