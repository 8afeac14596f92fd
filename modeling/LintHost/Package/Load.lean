import LintHost.Package.Locate

/-!
# Loading a copy of the linter

A copy can be loaded if its manifest is a JSON object and the entry point that the manifest names
is a file. A project's copy that cannot be loaded is replaced by the bundled one; the global copy
never is.

* `Package`: a copy whose manifest and entry point were verified;
* `loadFrom`: the copy at a location, or why it cannot be loaded;
* `load`: the copy to use, verified;
* `refreshSearchPath`, `forDirectory`: the copy for the files of a directory.
-/

namespace LintHost

/-- A verified copy of the linter. -/
structure Package where
  installation : Installation
  name : String
  version : Option String
  main : String
deriving DecidableEq

namespace Package

open LintHost.Text

/-- Where the copy lies. -/
def path (package : Package) : String := package.installation.path

/-- What is said when the global copy cannot be loaded. -/
def globalUnloadable : String := "ESLint not found, try restarting the editor to clear caches."

/-- What is said when the bundled copy cannot be loaded. -/
def bundledDamaged : String := "The bundled ESLint is missing or damaged."

/-- The name of a manifest. -/
def manifestName : String := "package.json"

/-- What a manifest says under a name, unless that is missing, null, empty or zero. -/
def nameOr (manifest : Entries Json) (name fallback : String) : Json :=
  match manifest.get? name with
  | some j => if j.truthy then j else .text fallback
  | none => .text fallback

/-- The entry point that a manifest names, seen from its directory. -/
def entryPoint (directory : PartPath) (manifest : Entries Json) : Except Fault PartPath :=
  match nameOr manifest "main" "index.js" with
  | .text main => .ok (directory.entry main)
  | _ => .error .wrongType

/-- Whether a regular file stands at a path. -/
def isFile (world : World) (p : PartPath) : Except Fault Bool :=
  LookupFault.lift p.text (world.files.isFile? world.cwd p.text)

/-- Whether the entry point or its sibling with `.js` added is a file. -/
def entryExists (world : World) (entry : PartPath) : Except Fault Bool := do
  if ← isFile world entry then return true
  else match entry.extendName? ".js".toList with
    | none => throw (.value (.namelessPath entry.text))
    | some sibling => isFile world sibling

/-- A copy from its manifest and entry point. -/
def ofManifest (found : Installation) (manifest : Entries Json) (entry : PartPath) :
    Checked Package :=
  (fun name version => ⟨found, name, version, entry.text⟩) <$>
    ((Record.json Record.text (nameOr manifest "name" "eslint")).inside (.field "name")) <*>
    Record.field manifest "version" none (Record.json Record.text?)

/-- The copy at a location, or why it cannot be loaded. -/
def loadFrom (world : World) (found : Installation) :
    Except Fault (Except String Package) := do
  let directory := PartPath.ofText found.path
  match ← world.loadJson (directory.entry manifestName) with
  | some (.object manifest) =>
    let entry ← entryPoint directory manifest
    if ← entryExists world entry then
      return .ok (← (ofManifest found manifest entry).toExcept)
    else return .error ("entry point " ++ entry.text ++ " does not exist")
  | _ => return .error ("no readable " ++ manifestName ++ " in " ++ found.path)

/-- A copy that cannot be loaded and has no replacement. -/
def unusable (path message reason : String) : Fault :=
  .reported (.package path message [("reason", .text reason)])

/-- The bundled copy. -/
def loadBundled : Action Package := do
  let path ← NodeTools.bundledPath
  match ← Action.ofExcept (loadFrom (← read) ⟨path, .bundled⟩) with
  | .ok package => return package
  | .error reason => throw (unusable path bundledDamaged reason)

/-- The copy to use, verified. -/
def load (modulesDir : Option String) (policy : Policy) (project : Option String) :
    Action Package := do
  let found ← locate modulesDir policy project
  match ← Action.ofExcept (loadFrom (← read) found) with
  | .ok package => return package
  | .error reason =>
    match found.origin with
    | .global => throw (unusable found.path globalUnloadable reason)
    | .bundled => throw (unusable found.path bundledDamaged reason)
    | .localProject | .advanced =>
      Action.tell source .warning ("Could not load ESLint from " ++ found.path ++ " (" ++
        reason ++ "), using bundled copy")
      loadBundled

/-- Points the search path of later children at a modules directory, unless it points there
    already; none clears it. Whether it changed. -/
def refreshSearchPath (modulesDir : Option String) : Action Bool := do
  if (← Action.context).searchPath = .to modulesDir then return false
  else
    let dir := modulesDir.getD ""
    Action.modifyContext fun context =>
      { context with searchPath := .to modulesDir, env := NodeTools.childEnv context.env (some dir) [] }
    Action.tell source .debug ("NODE_PATH set to " ++ quoted dir)
    return true

/-- The copy for the files of a directory: the nearest modules directory with a linter in it
    becomes the search path of children, and the policy decides from there. -/
def forDirectory (fileDir : String) (policy : Policy) (project : Option String) :
    Action Package := do
  let found ← Finder.find fileDir ["node_modules/eslint"]
  let modulesDir := found.map Path.directory
  discard (refreshSearchPath modulesDir)
  load modulesDir policy project

end Package

end LintHost
