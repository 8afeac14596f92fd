import LintHost.Path.Text

/-!
# Paths as parts

A path as its root and the names below it. Reading a text this way drops empty and `.` components
but, unlike the normal form of `Path.normalize`, keeps `..`, whose meaning depends on links.

* `PartPath.ofText` and `PartPath.text`: from text and back;
* `PartPath.child`: a path seen from another;
* `PartPath.ancestors`: the path and all that are above it, nearest first;
* `PartPath.below?`: the rest of a path that lies at or below another.
-/

namespace LintHost

open LintHost.Text

/-- A path as its root (nothing, `/` or `//`) and the names that follow. -/
structure PartPath where
  slashes : Nat
  names : List (List Char)
deriving DecidableEq

namespace PartPath

/-- The parts of a path. -/
def ofChars (path : List Char) : PartPath :=
  ⟨Path.leadingSlashes path, (Path.split path).filter fun n => n ≠ [] ∧ n ≠ Path.dot⟩

/-- The parts of a path. -/
def ofText (path : String) : PartPath := ofChars path.toList

/-- A path without root and names is the directory it is seen from. -/
def chars (p : PartPath) : List Char :=
  let whole := List.replicate p.slashes '/' ++ Path.unsplit p.names
  if whole.isEmpty then Path.dot else whole

/-- A path as text. -/
def text (p : PartPath) : String := String.ofList p.chars

/-- Whether a path has a root. -/
def isAbsolute (p : PartPath) : Bool := p.slashes ≠ 0

/-- A path seen from another: one with a root stands for itself. -/
def child (p q : PartPath) : PartPath :=
  if q.isAbsolute then q else ⟨p.slashes, p.names ++ q.names⟩

/-- What a text names, seen from a path. -/
def entry (p : PartPath) (name : String) : PartPath := p.child (ofText name)

/-- The path one name up; a path without names is its own parent. -/
def parent (p : PartPath) : PartPath := ⟨p.slashes, p.names.dropLast⟩

/-- The prefixes of a list, longest first. -/
def prefixesDown (names : List (List Char)) : List (List (List Char)) :=
  (List.range (names.length + 1)).reverse.map names.take

/-- The path and all above it, nearest first. -/
def ancestors (p : PartPath) : List PartPath := (prefixesDown p.names).map (⟨p.slashes, ·⟩)

/-- The last name, if there is one. -/
def name? (p : PartPath) : Option (List Char) := p.names.getLast?

/-- The path with something added to its last name, if it has one. -/
def extendName? (p : PartPath) (suffix : List Char) : Option PartPath :=
  p.name?.map fun name => ⟨p.slashes, p.names.dropLast ++ [name ++ suffix]⟩

/-- What stands from the last point of the last name on, if that point is neither first nor
    last. -/
def suffix (p : PartPath) : String :=
  let name := p.name?.getD []
  let tail := name.reverse.takeWhile (· ≠ '.')
  if tail.isEmpty ∨ name.length ≤ tail.length + 1 then "" else String.ofList ('.' :: tail.reverse)

/-- The names of a path below those of another, if it begins with them. -/
def dropNames? : List (List Char) → List (List Char) → Option (List (List Char))
  | [], names => some names
  | _ :: _, [] => none
  | a :: as, b :: bs => if a = b then dropNames? as bs else none

/-- The path seen from `root`, if it lies at or below it. -/
def below? (p root : PartPath) : Option PartPath :=
  if p.slashes = root.slashes then (dropNames? root.names p.names).map (⟨0, ·⟩) else none

end PartPath

end LintHost
