import LintHost.Json.Payload
import LintHost.World

/-!
# Looking upwards

Many things are looked for in a directory, then in the one above it, and so on up to the top: the
first directory that has one of the names decides, and within it the first such name.

* `Finder.search`: the search itself;
* `Finder.find`: the search with the cache's memo, which is asked first and told the result;
* `loadJson`: a JSON file, where an unreadable file counts as none.
-/

namespace LintHost

namespace Finder

/-- The first answer that is not nothing; a fault ends the search. -/
def firstSome {ε α β : Type} (ask : α → Except ε (Option β)) : List α → Except ε (Option β)
  | [] => .ok none
  | a :: rest =>
    match ask a with
    | .ok none => firstSome ask rest
    | found => found

/-- The path, if something stands at it. -/
def probe (files : FileTree) (cwd : String) (p : PartPath) : Except Fault (Option String) :=
  match files.exists? cwd p.text with
  | .ok true => .ok (some p.text)
  | .ok false => .ok none
  | .error fault => .error (.ofLookup p.text fault)

/-- The first of the names that exists in a directory. -/
def inDirectory (files : FileTree) (cwd : String) (names : List String) (directory : PartPath) :
    Except Fault (Option String) :=
  firstSome (fun name => probe files cwd (directory.entry name)) names

/-- The first of the names that exists in a directory or above it, nearest first. -/
def search (files : FileTree) (cwd : String) (names : List String) (directory : PartPath) :
    Except Fault (Option String) :=
  firstSome (inDirectory files cwd names) directory.ancestors

/-- The search from `start` upwards. Its result is remembered for the directory and the names; a
    fault is not. -/
def find (start : String) (names : List String) : Action (Option String) := do
  let world ← read
  let directory := PartPath.ofText (Path.absolute world.cwd start)
  let key := (directory.text, names)
  match (← get).cache.finder.lookup key with
  | some found => return found
  | none =>
    let found ← Action.ofExcept (search world.files world.cwd names directory)
    Action.modifyCache fun cache => { cache with finder := cache.finder ++ [(key, found)] }
    return found

end Finder

/-- Whether a directory stands at a path; whatever else may be wrong there, the answer is no. -/
def World.isDirectory (world : World) (path : String) : Bool :=
  world.files.isDirectory world.cwd (PartPath.ofText path).text

/-- The JSON value in a file. A file that is missing, closed or malformed holds none; bytes that
    are no text, a path with a NUL and nesting that is too deep are faults. -/
def World.loadJson (world : World) (path : PartPath) : Except Fault (Option Json) :=
  match world.files.read world.cwd path.text with
  | .error .embeddedNull => .error (.value .embeddedNull)
  | .error _ => .ok none
  | .ok content =>
    match Text.ofFile? content with
    | none => .error .notUtf8
    | some text => Json.attempt text

end LintHost
