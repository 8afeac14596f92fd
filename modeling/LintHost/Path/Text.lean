import LintHost.Text.Split

/-!
# Paths as text

Paths are taken as they are written; nothing here looks at any file. A path is absolute when it
begins with a slash. Exactly two leading slashes are kept apart from one (or three and more, which
mean one).

* `normalize`: no empty and no `.` component, and `..` only where nothing is left for it to cancel;
* `absolute`: a path from the working directory, normalized;
* `join`, `directory`, `base`: putting paths together and taking them apart;
* `relative`: the way from one absolute path to another.

The functions on characters stand first, each with its form on texts beside it.
-/

namespace LintHost.Path

open LintHost.Text

/-! ## 1. Components -/

/-- The component that names the directory it stands in. -/
def dot : List Char := ['.']

/-- The component that names the directory above. -/
def dotDot : List Char := ['.', '.']

/-- The components between the slashes, empty ones included. -/
def split (path : List Char) : List (List Char) := splitOn '/' path

/-- Components with slashes between them. -/
def unsplit (components : List (List Char)) : List Char := intercalate ['/'] components

/-- Whether a path begins with a slash. -/
def startsWithSlash : List Char → Bool
  | '/' :: _ => true
  | _ => false

/-- Whether a path is absolute. -/
def isAbsolute (path : String) : Bool := startsWithSlash path.toList

/-- How many leading slashes a path keeps: none, one, or two where it has exactly two. -/
def leadingSlashes : List Char → Nat
  | '/' :: '/' :: '/' :: _ => 1
  | '/' :: '/' :: _ => 2
  | '/' :: _ => 1
  | _ => 0

/-! ## 2. Normal form -/

/-- One component on the stack of those kept so far, the last one on top. -/
def push (rooted : Bool) (stack : List (List Char)) (component : List Char) :
    List (List Char) :=
  if component = [] ∨ component = dot then stack
  else if component = dotDot then
    match stack with
    | [] => if rooted then [] else [dotDot]
    | top :: rest => if top = dotDot then dotDot :: stack else rest
  else component :: stack

/-- The components that are left when `.` and `..` have had their effect. -/
def reduce (rooted : Bool) (components : List (List Char)) : List (List Char) :=
  (components.foldl (push rooted) []).reverse

/-- The normal form of a path; that of nothing is `.`. -/
def normalizeChars (path : List Char) : List Char :=
  let slashes := leadingSlashes path
  let body := unsplit (reduce (slashes ≠ 0) (split path))
  let whole := List.replicate slashes '/' ++ body
  if whole.isEmpty then dot else whole

/-- The normal form of a path. -/
def normalize (path : String) : String := String.ofList (normalizeChars path.toList)

/-! ## 3. Joining and cutting -/

/-- A path seen from another: an absolute one stands for itself. -/
def joinChars (base path : List Char) : List Char :=
  if startsWithSlash path then path
  else if base.isEmpty ∨ base.getLast? = some '/' then base ++ path
  else base ++ '/' :: path

/-- A path seen from another. -/
def join (base path : String) : String := String.ofList (joinChars base.toList path.toList)

/-- The path from the working directory on, normalized. -/
def absolute (cwd path : String) : String :=
  normalize (if isAbsolute path then path else join cwd path)

/-- What stands after the last slash. -/
def baseChars (path : List Char) : List Char := (path.reverse.takeWhile (· ≠ '/')).reverse

/-- What stands after the last slash. -/
def base (path : String) : String := String.ofList (baseChars path.toList)

/-- What stands before the last component, without the slashes at its end unless there is nothing
    else. -/
def directoryChars (path : List Char) : List Char :=
  let head := (path.reverse.dropWhile (· ≠ '/')).reverse
  if head.all (· = '/') then head else (head.reverse.dropWhile (· = '/')).reverse

/-- What stands before the last component. -/
def directory (path : String) : String := String.ofList (directoryChars path.toList)

/-! ## 4. The way from one path to another -/

/-- The components of an absolute path. -/
def components (path : String) : List (List Char) := (split path.toList).filter (· ≠ [])

/-- The part of the second list that goes beyond what both begin with, and how much of the first
    one goes beyond it. -/
def diverge : List (List Char) → List (List Char) → Nat × List (List Char)
  | a :: as, b :: bs => if a = b then diverge as bs else ((a :: as).length, b :: bs)
  | as, bs => (as.length, bs)

/-- The way to a list of components from another: up to what they share and down again. -/
def way (start goal : List (List Char)) : List (List Char) :=
  let (ups, downs) := diverge start goal
  List.replicate ups dotDot ++ downs

/-- The way from `root` to `path`, both made absolute; `.` if they are the same. -/
def relative (cwd path root : String) : String :=
  let steps := way (components (absolute cwd root)) (components (absolute cwd path))
  String.ofList (if steps.isEmpty then dot else unsplit steps)

end LintHost.Path
