import LintHost.FileTree.Basic

/-!
# Looking paths up

A path is followed name by name from the top of the tree or from the working directory. Every
name is looked up in a directory that must be searchable; links are followed, at most 40 of them;
`..` leads to the directory above the one that has been reached.

* `walk`: where a list of names leads;
* `stat`: what stands at the end of a path, and `lstat` the same without following a last link;
* `LookupFault.saysAbsent`: the faults that only say that nothing is there;
* `read`, `write`, `extend`, `makeDirectories`: the contents of files.
-/

namespace LintHost

/-- Why a path leads nowhere. -/
inductive LookupFault
  | noEntry
  | notDirectory
  | isDirectory
  | denied
  | nameTooLong
  | linkLoop
  | exists
  /-- The path holds a NUL character, which no path can. -/
  | embeddedNull
deriving DecidableEq

/-- Where names lead: to a node, or to a name that is free in a directory. -/
inductive Spot
  | taken (place : Location) (node : Node)
  | free (place : Location)

/-- The faults that only say that there is nothing at the path. -/
def LookupFault.saysAbsent : LookupFault → Bool
  | .noEntry | .notDirectory | .linkLoop | .embeddedNull => true
  | _ => false

namespace FileTree

/-! ## 1. Following names -/

/-- The longest name of a directory entry, in bytes. -/
def nameLimit : Nat := 255

/-- The longest path, in bytes. -/
def pathLimit : Nat := 4095

/-- How many links one lookup follows. -/
def linkLimit : Nat := 40

/-- The names that a path consists of. A slash at the end asks for a directory, as an empty last
    name. -/
def steps (path : String) : List String :=
  let names := (Path.split path.toList).filter (· ≠ [])
  let asks := path.toList.getLast? = some '/' ∧ names ≠ []
  names.map String.ofList ++ if asks then [""] else []

/-- Follows names from a location. A link is left to `jump`, which is given the location and the
    names to go on with; `follow` tells whether a link at the very end counts. -/
def walkWith (jump : Location → List String → Except LookupFault Spot) (tree : FileTree)
    (follow : Bool) (place : Location) : List String → Except LookupFault Spot
  | [] =>
    match tree.node? place with
    | some node => .ok (.taken place node)
    | none => .error .noEntry
  | name :: rest =>
    match tree.node? place with
    | none => .error .noEntry
    | some (.directory isOpen) =>
      if name = "" then walkWith jump tree follow place rest
      else if !isOpen then .error .denied
      else if name = "." then walkWith jump tree follow place rest
      else if name = ".." then walkWith jump tree follow place.dropLast rest
      else if nameLimit < name.utf8ByteSize then .error .nameTooLong
      else match tree.node? (place ++ [name]) with
        | none => if rest.isEmpty then .ok (.free (place ++ [name])) else .error .noEntry
        | some (.link target) =>
          if rest.isEmpty ∧ !follow then .ok (.taken (place ++ [name]) (.link target))
          else jump (if Path.isAbsolute target then [] else place) (steps target ++ rest)
        | some _ => walkWith jump tree follow (place ++ [name]) rest
    | some _ => .error .notDirectory

/-- Follows names from a location and at most so many links. -/
def walk (tree : FileTree) (follow : Bool) : Nat → Location → List String →
    Except LookupFault Spot
  | 0 => walkWith (fun _ _ => .error .linkLoop) tree follow
  | links + 1 => walkWith (walk tree follow links) tree follow

/-- Where a path leads, seen from a working directory. -/
def find (tree : FileTree) (cwd : String) (follow : Bool) (path : String) :
    Except LookupFault Spot :=
  if path.toList.contains '\x00' then .error .embeddedNull
  else if path = "" then .error .noEntry
  else if pathLimit < path.utf8ByteSize then .error .nameTooLong
  else tree.walk follow linkLimit []
    (if Path.isAbsolute path then steps path else steps cwd ++ steps path)

/-- What stands at a path. -/
def statWith (tree : FileTree) (cwd : String) (follow : Bool) (path : String) :
    Except LookupFault (Location × Node) :=
  match tree.find cwd follow path with
  | .ok (.taken place node) => .ok (place, node)
  | .ok (.free _) => .error .noEntry
  | .error fault => .error fault

/-- What stands at a path, a last link followed. -/
def stat (tree : FileTree) (cwd path : String) : Except LookupFault Node :=
  (tree.statWith cwd true path).map (·.2)

/-- What stands at a path, a last link not followed. -/
def lstat (tree : FileTree) (cwd path : String) : Except LookupFault Node :=
  (tree.statWith cwd false path).map (·.2)

/-! ## 2. Questions about a path -/

/-- Whether something stands at a path; a fault that says more than that nothing is there is
    handed on. -/
def exists? (tree : FileTree) (cwd path : String) : Except LookupFault Bool :=
  match tree.stat cwd path with
  | .ok _ => .ok true
  | .error fault => if fault.saysAbsent then .ok false else .error fault

/-- Whether a regular file stands at a path; faults as for `exists?`. -/
def isFile? (tree : FileTree) (cwd path : String) : Except LookupFault Bool :=
  match tree.stat cwd path with
  | .ok (.file _ _ _) => .ok true
  | .ok _ => .ok false
  | .error fault => if fault.saysAbsent then .ok false else .error fault

/-- Whether a directory stands at a path. -/
def isDirectory (tree : FileTree) (cwd path : String) : Bool :=
  match tree.stat cwd path with
  | .ok (.directory _) => true
  | _ => false

/-- Whether what stands at a path may be read: a file's text, or what a directory holds. -/
def accessible (tree : FileTree) (cwd path : String) : Bool :=
  match tree.stat cwd path with
  | .ok (.file _ readable _) => readable
  | .ok (.directory searchable) => searchable
  | _ => false

/-! ## 3. Contents -/

/-- The bytes of the file at a path. -/
def read (tree : FileTree) (cwd path : String) : Except LookupFault ByteArray :=
  match tree.stat cwd path with
  | .ok (.file content true _) => .ok content
  | .ok (.file _ false _) => .error .denied
  | .ok _ => .error .isDirectory
  | .error fault => .error fault

/-- A file that may be written: where it is, what it holds, and whether it may be read. -/
structure Sheet where
  place : Location
  content : ByteArray
  readable : Bool

/-- The file that is written at a path, or an empty one where nothing is. A path that ends in a
    slash names no file. -/
def writable (tree : FileTree) (cwd path : String) : Except LookupFault Sheet :=
  match tree.find cwd true path with
  | .ok (.taken place (.file content readable true)) => .ok ⟨place, content, readable⟩
  | .ok (.taken _ (.file _ _ false)) => .error .denied
  | .ok (.taken _ _) => .error .isDirectory
  | .ok (.free place) => .ok ⟨place, .empty, true⟩
  | .error fault => .error fault

/-- The tree with a file that holds something else. -/
def fill (tree : FileTree) (sheet : Sheet) (content : ByteArray) : FileTree :=
  tree.put sheet.place (.file content sheet.readable true)

/-- The tree after writing a file at a path. -/
def write (tree : FileTree) (cwd path : String) (content : ByteArray) :
    Except LookupFault FileTree :=
  (tree.writable cwd path).map fun sheet => tree.fill sheet content

/-- The tree after adding to a file at a path. -/
def extend (tree : FileTree) (cwd path : String) (more : ByteArray) :
    Except LookupFault FileTree :=
  (tree.writable cwd path).map fun sheet => tree.fill sheet (sheet.content ++ more)

/-- The tree after making one directory. -/
def makeDirectory (tree : FileTree) (cwd path : String) : Except LookupFault FileTree :=
  match tree.find cwd false path with
  | .ok (.taken _ _) => .error .exists
  | .ok (.free place) => .ok (tree.put place (.directory true))
  | .error fault => .error fault

/-- The tree, if a directory stands at the path, although making one there has failed; else the
    reason, or why it cannot be told what stands there. -/
def keepDirectory (tree : FileTree) (cwd path : String) (fault : LookupFault) :
    Except (String × LookupFault) FileTree :=
  match tree.stat cwd path with
  | .ok (.directory _) => .ok tree
  | .ok _ => .error (path, fault)
  | .error other => .error (path, if other.saysAbsent then fault else other)

/-- The tree after making a directory and those above it; a directory that is there is kept. A
    fault comes with the path that could not be made. The first argument bounds how many are
    made. -/
def makeDirectories (cwd : String) : Nat → PartPath → FileTree →
    Except (String × LookupFault) FileTree
  | fuel, p, tree =>
    match tree.makeDirectory cwd p.text with
    | .ok tree => .ok tree
    | .error .embeddedNull => .error (p.text, .embeddedNull)
    | .error .noEntry =>
      match fuel with
      | 0 => .error (p.text, .noEntry)
      | fuel + 1 =>
        if p.parent = p then .error (p.text, .noEntry)
        else do
          let tree ← makeDirectories cwd fuel p.parent tree
          match tree.makeDirectory cwd p.text with
          | .ok tree => .ok tree
          | .error fault => tree.keepDirectory cwd p.text fault
    | .error fault => tree.keepDirectory cwd p.text fault

end FileTree

end LintHost
