import LintHost.FileTree.Lookup

/-!
# Removing and renaming files

* `FileTree.present`: whether something stands at a path, as far as can be told;
* `FileTree.unlink`: the tree without a file or link;
* `FileTree.rename`: the tree with something moved to another path.

A refusal is not explained: those who rename files here give up when they are refused.
-/

namespace LintHost

/-- Whether a node is a directory. -/
def Node.isDirectory : Node → Bool
  | .directory _ => true
  | _ => false

namespace FileTree

/-- Whether something stands at a path, a last link followed. What cannot be told counts as no. -/
def present (tree : FileTree) (cwd path : String) : Bool :=
  match tree.stat cwd path with
  | .ok _ => true
  | .error _ => false

/-- The tree without the file or link at a path. A directory is not removed. -/
def unlink (tree : FileTree) (cwd path : String) : Option FileTree :=
  match tree.find cwd false path with
  | .ok (.taken place node) => if node.isDirectory then none else some (tree.remove place)
  | _ => none

/-- The tree with a location, and all below it, moved to another one. -/
def move (tree : FileTree) (here there : Location) : FileTree :=
  ⟨(tree.remove there).nodes.map fun (place, node) =>
    (if here.isPrefixOf place then there ++ place.drop here.length else place, node)⟩

/-- The tree with what stands at a path moved to another one. It takes the place of a file or link
    there, but neither replaces a directory nor is replaced by one. -/
def rename (tree : FileTree) (cwd path other : String) : Option FileTree :=
  match tree.find cwd false path, tree.find cwd false other with
  | .ok (.taken here _), .ok (.free there) => some (tree.move here there)
  | .ok (.taken here node), .ok (.taken there old) =>
    if here = there then some tree
    else if node.isDirectory ∨ old.isDirectory then none
    else some (tree.move here there)
  | _, _ => none

end FileTree

end LintHost
