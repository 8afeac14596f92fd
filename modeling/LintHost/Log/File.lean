import LintHost.FileTree.Rename
import LintHost.Log

/-!
# The log file

A record is added to the log file as soon as it is told. A file that the record would make too large
makes room first: it becomes the first backup, the first backup the second, and so on up to the
last, which is given up. What goes wrong on the way is nobody's fault: the record is dropped, and
what has been moved by then stays there.

* `File.full`: whether a line makes the file too large;
* `File.rotate`: making room;
* `File.keep`, `Setup.kept`: the files after a record, and after many.
-/

namespace LintHost.Log

open LintHost.Text (encode)

/-! ## 1. The limits -/

/-- Whether a file of this size has reached a limit. A limit that is not positive is none. -/
def reaches (size : Nat) : Value → Bool
  | .float x => !(x.ltInt 0 || x.isZero) && (x.ltInt size || x.eqInt size)
  | limit => match limit.intWorth? with
    | some n => decide (0 < n) && decide (n ≤ size)
    | none => false

/-- How many backups a value stands for, if it is a number of things at all. -/
def backupsOf? : Value → Option Nat
  | .float x => if x = .nan ∨ x.ltInt 0 ∨ x.isZero then some 0 else none
  | count => count.intWorth?.map Int.toNat

/-! ## 2. Making room -/

/-- The path of the log, and of its backups from the first one on. -/
def File.backup (file : File) : Nat → String
  | 0 => file.path
  | n + 1 => file.path ++ "." ++ toString (n + 1)

/-- Moves a file to a path whose own file is given up, and tells whether all went well. Where nothing
    is, nothing is moved. -/
def shift (cwd : String) (tree : FileTree) (path other : String) : FileTree × Bool :=
  if !tree.present cwd path then (tree, true)
  else
    match if tree.present cwd other then tree.unlink cwd other else some tree with
    | none => (tree, false)
    | some tree => match tree.rename cwd path other with
      | none => (tree, false)
      | some tree => (tree, true)

/-- Moves so many files to the next backup, the last one first. -/
def File.rotate (file : File) (cwd : String) : Nat → FileTree → FileTree × Bool
  | 0, tree => (tree, true)
  | n + 1, tree =>
    match shift cwd tree (file.backup n) (file.backup (n + 1)) with
    | (tree, true) => file.rotate cwd n tree
    | (tree, false) => (tree, false)

/-! ## 3. Keeping records -/

/-- Whether a line makes the file too large. -/
def File.full (file : File) (cwd : String) (tree : FileTree) (line : String) : Bool :=
  match tree.stat cwd file.path with
  | .ok (.file content _ _) => reaches (content.size + line.length) file.maxBytes
  | _ => false

/-- The files with a line added to the log, or without it if that is not to be. -/
def File.add (file : File) (cwd : String) (tree : FileTree) (line : String) : FileTree :=
  match tree.extend cwd file.path (encode line) with
  | .ok tree => tree
  | .error _ => tree

/-- The files after a line was kept. The log is there already, or is made now. -/
def File.keep (file : File) (cwd : String) (tree : FileTree) (line : String) : FileTree :=
  match tree.extend cwd file.path .empty with
  | .error _ => tree
  | .ok tree =>
    if file.full cwd tree line then
      match backupsOf? file.backupCount with
      | none => tree
      | some count => match file.rotate cwd count tree with
        | (tree, true) => file.add cwd tree line
        | (tree, false) => tree
    else file.add cwd tree line

/-- The files after records were told one by one, with the stamps that records get after others. -/
def Setup.kept (setup : Setup) (file : File) (cwd : String)
    (stamp : List Record → Record → Stamp) : FileTree → List Record → List Record → FileTree
  | tree, _, [] => tree
  | tree, earlier, r :: records =>
    let after := if setup.files r then file.keep cwd tree (fileLine (stamp earlier r) r) else tree
    setup.kept file cwd stamp after (earlier ++ [r]) records

end LintHost.Log
