import LintHost.Finder

/-!
# The linter's own configuration file

The file that applies to a directory is the nearest one upwards. A package manifest counts only if
it has a configuration section; one without is passed over and the search goes on above it.

* `ConfigFile.embeds`: whether a manifest has a configuration section;
* `ConfigFile.find`: the file that applies.
-/

namespace LintHost.ConfigFile

/-- The name of a package manifest. -/
def manifestName : String := "package.json"

/-- The names of configuration files in order of preference; the manifest comes last. -/
def names : List String := [
  ".eslintrc.js", ".eslintrc.yaml", ".eslintrc.yml", ".eslintrc.json", ".eslintrc", manifestName]

/-- The manifest's configuration section. -/
def sectionName : String := "eslintConfig"

/-- Whether a value is a configuration section: any object or list, even an empty one, and
    whatever else stands for yes. -/
def isSection : Json → Bool
  | .object _ | .list _ => true
  | j => j.truthy

/-- Whether a manifest has a configuration section. -/
def embeds (world : World) (path : String) : Except Fault Bool := do
  match ← world.loadJson (PartPath.ofText path) with
  | some (.object manifest) => return ((Entries.get? sectionName manifest).map isSection).getD false
  | _ => return false

/-- What the search tells about. -/
def source : String := Log.root ++ ".application.config_files"

/-- Searches from a directory upwards, above a manifest without a section again; the first
    argument bounds how often. -/
def findFrom (start : String) : Nat → String → Action (Option String)
  | 0, _ => return none
  | fuel + 1, directory => do
    match ← Finder.find directory names with
    | none => return none
    | some file =>
      let counts ←
        if Path.base file = manifestName then Action.ofExcept (embeds (← read) file)
        else pure true
      if counts then
        Action.tell source .debug ("Config file for " ++ start ++ ": " ++ file)
        return some file
      else
        let holder := Path.directory file
        let above := Path.directory holder
        if above = holder then return none else findFrom start fuel above

/-- The configuration file that applies to the files of a directory. -/
def find (start : String) : Action (Option String) := do
  let directory ← Action.absolute start
  findFrom start ((Path.components directory).length + 1) directory

end LintHost.ConfigFile
