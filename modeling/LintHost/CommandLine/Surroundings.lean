import LintHost.ConfigFile
import LintHost.NodeTools
import LintHost.Settings.Overrides
import LintHost.Workplace

/-!
# What a run may look at

Before a run, the part of the machine that it may look at is copied. It lies in the directories on
the way to the working directory and to whatever the words of the command line and the variables for
the settings may name, and below the directory of the bundled tools.

* `places`: the paths that are copied;
* `namedBy`: the paths that variables may name;
* `variablesIn`: an environment from its bytes.
-/

namespace LintHost.CommandLine

/-- The manifests of a linter, seen from a directory that may hold one. -/
def manifestPlaces : List String := [
  "node_modules/eslint/package.json", "lib/node_modules/eslint/package.json",
  "eslint/package.json", "package.json"]

/-- The entry points of a linter, seen from its directory. -/
def entryPlaces : List String := ["index.js", "lib/api.js"]

/-- What may be looked for in a directory. -/
def namesLookedFor (words : List String) : List String :=
  ConfigFile.names ++ [ignoreFileName] ++ manifestPlaces ++
    manifestPlaces.flatMap (fun manifest => entryPlaces.map (Path.join (Path.directory manifest))) ++
    words.filter fun word => !Path.isAbsolute word

/-- How many backups of a log are looked for. -/
def backupsLookedFor : Nat := 9

/-- The paths that variables of an environment may name, and those of their backups. -/
def namedBy (env : Entries String) : List String :=
  (env.filter fun (name, _) => name.startsWith Settings.variableStart).flatMap fun (_, path) =>
    path :: (List.range backupsLookedFor).map fun n => path ++ "." ++ toString (n + 1)

/-- The directories on the way to a path, and the path itself. -/
def upwards (path : String) : List String := (PartPath.ofText path).ancestors.map (·.text)

/-- The paths that a run with these words may look at. -/
def places (host : Host) (cwd : String) (words : List String) : List String :=
  let given := words.filter (!·.toList.contains '\x00')
  let directories := ((cwd :: given.map (Path.absolute cwd)).flatMap upwards).eraseDups
  let near := directories.flatMap fun directory =>
    directory :: (namesLookedFor given).map (Path.join directory)
  (host.envFile :: near ++ (namesLookedFor []).map (Path.join host.nodeTools)).eraseDups

/-- The bytes up to the next NUL, and those after it. -/
def splitNul : List UInt8 → List (List UInt8)
  | [] => [[]]
  | b :: bs =>
    if b = 0 then [] :: splitNul bs
    else match splitNul bs with
      | [] => [[b]]
      | piece :: pieces => (b :: piece) :: pieces

/-- An environment from its bytes: `NAME=value`, each followed by a NUL. -/
def variablesIn (bytes : ByteArray) : Entries String :=
  Entries.ofPairs ((splitNul bytes.toList).filterMap fun piece => do
    let line ← Text.decode? ⟨piece.toArray⟩
    match Text.splitOn '=' line.toList with
    | name :: value :: more =>
      if name.isEmpty then none
      else some (String.ofList name, String.ofList (Text.intercalate ['='] (value :: more)))
    | _ => none)

end LintHost.CommandLine
