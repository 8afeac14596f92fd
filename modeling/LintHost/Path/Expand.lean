import LintHost.Fault
import LintHost.Path.Text

/-!
# Home directories and variables in paths

* `expandHomeChars`: a leading `~` or `~user` becomes a home directory, if that is known;
* `expandVariables`: `$NAME` and `${NAME}` become the value of a variable that is set;
* `clean`: both, then the normal form.
-/

namespace LintHost.Path

open LintHost.Text

/-- The home directories of a machine: that of the user at work and those known by name. -/
structure Homes where
  own : String
  byName : List (String × String)

/-- The directory that `~` or `~name` stands for, if there is one; a variable `HOME` decides for the
    user at work. Nobody can be asked for by a name with a NUL character in it. -/
def homeOf? (homes : Homes) (env : Entries String) (name : List Char) :
    Except Fault (Option String) :=
  if name.isEmpty then .ok (some ((env.get? "HOME").getD homes.own))
  else if name.contains '\x00' then .error (.value .embeddedNull)
  else .ok (homes.byName.lookup (String.ofList name))

/-- A home directory with the rest of a path behind it. -/
def behindHome (home : String) (rest : List Char) : List Char :=
  let whole := (home.toList.reverse.dropWhile (· = '/')).reverse ++ rest
  if whole.isEmpty then ['/'] else whole

/-- A path with its leading `~` or `~name` replaced; one that names an unknown user stays. -/
def expandHomeChars (homes : Homes) (env : Entries String) :
    List Char → Except Fault (List Char)
  | '~' :: path => do
    match ← homeOf? homes env (path.takeWhile (· ≠ '/')) with
    | none => return '~' :: path
    | some home => return behindHome home (path.dropWhile (· ≠ '/'))
  | path => return path

/-- Whether a character may stand in a variable's name without braces. -/
def isNameChar (c : Char) : Bool :=
  ('a' ≤ c && c ≤ 'z') || ('A' ≤ c && c ≤ 'Z') || ('0' ≤ c && c ≤ '9') || c = '_'

/-- The variable named after a `$`: its name, how many characters name it, braces included. -/
def reference? : List Char → Option (List Char × Nat)
  | '\x7b' :: cs =>
    let name := cs.takeWhile (· ≠ '\x7d')
    if name.length < cs.length then some (name, name.length + 2) else none
  | cs =>
    let name := cs.takeWhile isNameChar
    if name.isEmpty then none else some (name, name.length)

/-- A text with its references replaced; the first argument counts the characters of the last
    reference that are still to be passed over. A reference to a variable that is not set stays,
    and what a variable holds is not looked at again. -/
def expandFrom (env : Entries String) : Nat → List Char → List Char
  | _, [] => []
  | skip + 1, _ :: cs => expandFrom env skip cs
  | 0, '$' :: cs =>
    match reference? cs with
    | none => '$' :: expandFrom env 0 cs
    | some (name, size) =>
      match env.get? (String.ofList name) with
      | some value => value.toList ++ expandFrom env size cs
      | none => '$' :: cs.take size ++ expandFrom env size cs
  | 0, c :: cs => c :: expandFrom env 0 cs

/-- A text with its references to variables replaced. -/
def expandVariables (env : Entries String) (path : List Char) : List Char := expandFrom env 0 path

/-- A path with home directory and variables in place, in normal form; nothing stays nothing. -/
def clean (homes : Homes) (env : Entries String) (path : String) : Except Fault String :=
  if path = "" then .ok ""
  else do
    let expanded ← expandHomeChars homes env path.toList
    return String.ofList (normalizeChars (expandVariables env expanded))

end LintHost.Path
