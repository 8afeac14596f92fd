import LintHost.CommandLine.Run
import LintHost.CommandLine.Surroundings
import LintHost.CommandLine.Usage

/-!
# The program

The outermost layer: it copies what a run may look at, performs the run, and carries out what the
run leaves behind. It starts no children; to the run they look like programs that are not there.
-/

namespace LintHost.Program

open LintHost.CommandLine

/-- The machine that the program runs on. -/
def host (cwd : String) (env : Entries String) : Host where
  platform := "linux"
  runtime := libraryVersion
  rehearsed := false
  nodeTools := "/usr/local/share/lint-host/node_tools"
  envFile := Path.join cwd ".env"
  homes := ⟨(env.get? "HOME").getD "/root", []⟩

/-- Whether a file that is there can be written. It stays as it is. -/
def isWritable (path : String) : IO Bool := do
  try
    discard (IO.FS.Handle.mk path .append)
    return true
  catch _ => return false

/-- What stands at a path of the machine, if anything does. -/
def probe (path : String) : IO (Option Node) := do
  try
    let content ← IO.FS.readBinFile path
    return some (.file content true (← isWritable path))
  catch
    | .inappropriateType .. => return some (.directory true)
    | .permissionDenied .. => return some (.file .empty false (← isWritable path))
    | _ => return none

/-- A copy of what stands at some paths. -/
def copy (paths : List String) : IO FileTree :=
  paths.foldlM (fun tree path => do
    match ← probe path with
    | some node => return tree.add (FileTree.location path) node
    | none => return tree) .empty

/-- The environment. -/
def environment : IO (Entries String) := do
  try return variablesIn (← IO.FS.readBinFile "/proc/self/environ")
  catch _ => return []

/-- Writes the files that a run leaves otherwise than it found them, and removes those that it has
    moved away. -/
def save (before after : FileTree) : IO Unit := do
  for (place, node) in after.nodes do
    if let .file content _ _ := node then
      let path := "/" ++ Text.join "/" place
      let same := match before.node? place with
        | some (.file old _ _) => old == content
        | _ => false
      unless same do
        IO.FS.createDirAll (Path.directory path)
        IO.FS.writeBinFile path content
  for (place, node) in before.nodes do
    if let .file _ _ _ := node then
      if (after.node? place).isNone then
        IO.FS.removeFile ("/" ++ Text.join "/" place)

/-- Shows what a run shows. -/
def tell (outcome : Outcome) : IO Unit := do
  IO.eprint outcome.errors
  match outcome.ending with
  | .help => IO.println usage
  | .misused => IO.eprintln usage
  | .broken _ => IO.eprintln "Broken off by a fault that no command reports."
  | _ => IO.print outcome.output

end LintHost.Program

/-- Runs the program. -/
def main (words : List String) : IO UInt32 := do
  let env ← LintHost.Program.environment
  let cwd := (← IO.currentDir).toString
  let host := LintHost.Program.host cwd env
  let named := words ++ LintHost.CommandLine.namedBy env
  let files ← LintHost.Program.copy (LintHost.CommandLine.places host cwd named)
  let input ← if words.contains "--stdin" then (← IO.getStdin).readToEnd else pure ""
  let clock := toString (← IO.monoMsNow)
  let stamp (_ : List LintHost.Log.Record) (r : LintHost.Log.Record) : LintHost.Log.Stamp :=
    ⟨clock, r.source⟩
  let world : LintHost.World := ⟨host, files, env, cwd, fun _ _ => .unstartable 2, stamp⟩
  let outcome := LintHost.CommandLine.run world words input
  LintHost.Program.save files outcome.files
  LintHost.Program.tell outcome
  return UInt32.ofNat outcome.exitCode
