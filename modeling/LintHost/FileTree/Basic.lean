import LintHost.Path.Parts
import LintHost.Text.Utf8

/-!
# File trees

What a machine's files look like to this library: at each location a regular file, a directory or
a symbolic link. A file may be closed to reading or to writing, and a directory may be closed to
searching.

* `FileTree.node?`: what stands at a location;
* `FileTree.put`, `FileTree.remove`: the tree after a change.
-/

namespace LintHost

/-- A place in the tree: the names on the way from the top. -/
abbrev Location := List String

/-- What stands at a location. -/
inductive Node
  /-- A regular file, and whether it may be read and whether it may be written. -/
  | file (content : ByteArray) (readable writable : Bool)
  /-- A directory; nothing can be looked up in one that is not searchable. -/
  | directory (searchable : Bool)
  /-- A symbolic link. -/
  | link (target : String)

/-- A tree of files; whatever is not listed is not there. -/
structure FileTree where
  nodes : List (Location × Node)

namespace FileTree

/-- The tree with nothing in it. -/
def empty : FileTree := ⟨[]⟩

/-- What stands at a location. The top is a directory even if it is not listed. -/
def node? (tree : FileTree) (place : Location) : Option Node :=
  match tree.nodes.lookup place with
  | some node => some node
  | none => if place = [] then some (.directory true) else none

/-- The tree with a node put at a location, in place of what was there. -/
def put (tree : FileTree) (place : Location) (node : Node) : FileTree :=
  ⟨(place, node) :: tree.nodes.filter (·.1 ≠ place)⟩

/-- The tree with the directories above a location put where nothing is. -/
def withParents (tree : FileTree) (place : Location) : FileTree :=
  (List.range place.length).foldl
    (fun tree n =>
      if (tree.node? (place.take n)).isSome then tree else tree.put (place.take n) (.directory true))
    tree

/-- The tree with a node put at a location and directories above it. -/
def add (tree : FileTree) (place : Location) (node : Node) : FileTree :=
  (tree.withParents place).put place node

/-- The tree without a location and all below it. -/
def remove (tree : FileTree) (place : Location) : FileTree :=
  ⟨tree.nodes.filter fun (other, _) => !place.isPrefixOf other⟩

/-- The location that an absolute path spells, links left aside. -/
def location (path : String) : Location :=
  ((Path.split path.toList).filter (· ≠ [])).map String.ofList

end FileTree

end LintHost
