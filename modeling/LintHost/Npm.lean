import LintHost.Child

/-!
# The package manager's prefix

Globally installed packages lie under a prefix that only the package manager knows. Asking it is
slow, so the first answer is remembered in the cache; a failure is not.
-/

namespace LintHost.Npm

open LintHost.Text

/-- The name of the package manager's program on a platform. -/
def program (platform : String) : String := if platform = "win32" then "npm.cmd" else "npm"

/-- The command that prints the prefix. -/
def command (platform : String) : List String := [program platform, "get", "prefix"]

/-- What the package manager tells about. -/
def source : String := Log.root ++ ".infra.tools.npm"

/-- The prefix that a result holds, or why it holds none. -/
def prefixOf (command : List String) : Except OsFault Child.Result → Except Failure String
  | .error fault => .error (.npmPrefix command fault.message [])
  | .ok result =>
    if result.code ≠ 0 then
      .error (.npmPrefix command ("exit code " ++ toString result.code)
        [("stderr", .text (trim result.stderr))])
    else if trim result.stdout = "" then .error (.npmPrefix command "empty output" [])
    else .ok (trim result.stdout)

/-- Asks the package manager for its prefix. -/
def askPrefix (env : Entries String) (platform : String) : Action String := do
  let command := command platform
  let result ← Child.run (command.map .text) none (some env) .null none
  match prefixOf command result with
  | .error fault => throw (.reported fault)
  | .ok found =>
    Action.tell source .debug ("npm prefix resolved to " ++ found)
    return found

/-- The prefix: the remembered one, or else the one that is asked for now and remembered. -/
def nodePrefix : Action String := do
  let session ← get
  match session.cache.nodePrefix with
  | some found => return found
  | none =>
    let found ← askPrefix session.context.env (← read).host.platform
    Action.modifyCache fun cache => { cache with nodePrefix := some found }
    return found

end LintHost.Npm
