import LintHost.FileTree.Lookup

/-!
# Real paths

The real path of a path names the same place without passing through a link. Names that are not
there are kept as they are, so every path has one, with two exceptions: links that run in a circle,
and a path with a NUL character in it.

* `RealPath.follow`: the real path as far as it goes;
* `FileTree.resolve`: the real path, or why there is none.
-/

namespace LintHost

namespace RealPath

open LintHost.Text

/-- What is known on the way: for each link met, its real path, or none while it is being
    followed. -/
abbrev Seen := List (List Char × Option (List Char))

/-- How far a path was followed. -/
inductive Progress
  /-- To its end. -/
  | done (path : List Char) (seen : Seen)
  /-- To a link that is being followed already; the names after it are left as they are. -/
  | circle (path : List Char)

/-- Why a real path is not found. -/
inductive Fault
  | embeddedNull
  | linkLoop
  | tooDeep
deriving DecidableEq

/-- How many links may lead into one another. -/
def depthLimit : Nat := 900

/-- The directory above a path followed so far. -/
def up (path : List Char) : List Char :=
  if path.isEmpty then Path.dotDot
  else
    let name := Path.baseChars path
    let head := Path.directoryChars path
    if name = Path.dotDot then Path.joinChars (Path.joinChars head Path.dotDot) Path.dotDot
    else head

/-- The target of the link at a path, if a link is there. -/
def target? (tree : FileTree) (cwd : String) (path : List Char) : Except Fault (Option String) :=
  match tree.lstat cwd (String.ofList path) with
  | .ok (.link target) => .ok (some target)
  | .error .embeddedNull => .error .embeddedNull
  | _ => .ok none

/-- Follows components from a path; `jump` follows the target of a link. -/
def followWith (jump : List Char → Seen → List Char → Except Fault Progress) (tree : FileTree)
    (cwd : String) (path : List Char) (seen : Seen) :
    List (List Char) → Except Fault Progress
  | [] => .ok (.done path seen)
  | name :: rest =>
    if name = [] ∨ name = Path.dot then followWith jump tree cwd path seen rest
    else if name = Path.dotDot then followWith jump tree cwd (up path) seen rest
    else do
      let next := Path.joinChars path name
      match ← target? tree cwd next with
      | none => followWith jump tree cwd next seen rest
      | some target =>
        match seen.lookup next with
        | some (some real) => followWith jump tree cwd real seen rest
        | some none => return .circle (Path.joinChars next (Path.unsplit rest))
        | none =>
          match ← jump path ((next, none) :: seen) target.toList with
          | .circle stopped => return .circle (Path.joinChars stopped (Path.unsplit rest))
          | .done real seen =>
            followWith jump tree cwd real ((next, some real) :: seen) rest

/-- Follows a path from another through at most so many nested links. -/
def follow (tree : FileTree) (cwd : String) : Nat → List Char → Seen → List Char →
    Except Fault Progress
  | 0, _, _, _ => .error .tooDeep
  | depth + 1, path, seen, rest =>
    if Path.startsWithSlash rest then
      followWith (follow tree cwd depth) tree cwd ['/'] seen (Path.split rest.tail)
    else followWith (follow tree cwd depth) tree cwd path seen (Path.split rest)

end RealPath

/-- The real path of a path, as parts. -/
def FileTree.resolve (tree : FileTree) (cwd : String) (p : PartPath) :
    Except RealPath.Fault PartPath := do
  let stopped ← match ← RealPath.follow tree cwd RealPath.depthLimit [] [] p.chars with
    | .done path _ => pure path
    | .circle path => pure path
  let real := Path.absolute cwd (String.ofList stopped)
  match tree.stat cwd real with
  | .error .linkLoop => throw .linkLoop
  | .error .embeddedNull => throw .embeddedNull
  | _ => return PartPath.ofText real

end LintHost
