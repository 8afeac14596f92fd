import LintHost.World

/-!
# The bundled copy and the environment of children

* `NodeTools.standard`: the directory of the bundled tools, from the environment or the host;
* `NodeTools.directory`, `NodeTools.bundled`: the directory in use, and where the bundled linter
  lies in it;
* `NodeTools.childEnv`: the environment that children get.
-/

namespace LintHost

/-- A path with its leading `~` or `~user` replaced; an unknown user is a fault. -/
def PartPath.expandHome (homes : Path.Homes) (env : Entries String) (p : PartPath) :
    Except Fault PartPath :=
  match p.isAbsolute, p.names with
  | false, ('~' :: user) :: rest => do
    match ← Path.expandHomeChars homes env ('~' :: user) with
    | '~' :: _ => .error .unknownHome
    | home => return (ofChars home).child ⟨0, rest⟩
  | _, _ => .ok p

namespace NodeTools

/-- The variable that names the directory of the bundled tools. -/
def variableName : String := "ESLINT_BRIDGE_NODE_TOOLS"

/-- The directory of the bundled tools when no context names one. -/
def standard (world : World) : Except Fault PartPath :=
  match world.env.get? variableName with
  | none | some "" => .ok (PartPath.ofText world.host.nodeTools)
  | some path => do
    let p ← (PartPath.ofText path).expandHome world.host.homes world.env
    match world.files.resolve world.cwd p with
    | .ok real => .ok real
    | .error fault => .error (.ofRealPath fault)

/-- The directory of the bundled tools, for one that a context may name. -/
def directory (world : World) (nodeTools : Value) : Except Fault PartPath :=
  if nodeTools.truthy then
    match nodeTools with
    | .text path => (PartPath.ofText path).expandHome world.host.homes world.env
    | _ => .error .wrongType
  else standard world

/-- Where the bundled linter lies, for a directory of tools that a context may name. -/
def bundled (world : World) (nodeTools : Value) : Except Fault String := do
  let base ← directory world nodeTools
  return Path.normalize ((base.entry "node_modules").entry "eslint").text

/-- An environment with directories put in front of `PATH` and `NODE_PATH` set. Without a modules
    directory `NODE_PATH` stays as it is. -/
def childEnv (env : Entries String) (modulesDir : Option String) (extra : List String) :
    Entries String :=
  let env := if extra.isEmpty then env else
    let joined := Text.join ":" extra
    let old := (env.get? "PATH").getD ""
    env.put "PATH" (if old = "" then joined else joined ++ ":" ++ old)
  match modulesDir with
  | none => env
  | some dir => env.put "NODE_PATH" dir

/-- Where the bundled linter lies for the session's context, remembered once it is known. -/
def bundledPath : Action String := do
  let session ← get
  match session.cache.bundledPath with
  | some path => return path
  | none =>
    let path ← Action.ofExcept (bundled (← read) session.context.nodeToolsDir)
    Action.modifyCache fun cache => { cache with bundledPath := some path }
    return path

end NodeTools

end LintHost
