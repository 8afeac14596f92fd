import LintHost.World
import LintHost.Text.Case

/-!
# Setting up the log

Where records go is decided by five options: a level, a log file, whether there is a console, how
large a log file may grow, and how many full ones are kept. The options may hold any value, as those
of a configuration do.

* `Log.open?`: the set-up that the options describe. The directories above the log file are made,
  and the file is there afterwards.
-/

namespace LintHost.Log

/-- The level that a value names, whatever its case; a name that is not known stands for the
    default. -/
def levelOf : Value → Except Fault Nat
  | .text s => .ok ((names.lookup (Text.upper s)).getD defaultLevel)
  | .bytes _ => .error .wrongType
  | _ => .error .missingFeature

/-- Fails for a size that is no number. -/
def sized : Value → Except Fault Unit
  | .bool _ | .int _ | .float _ => .ok ()
  | _ => .error .wrongType

/-- The path of a log file and the files after it was made. -/
def openFile (world : World) (path : String) (maxBytes : Value) :
    Except Fault (String × FileTree) := do
  let p := PartPath.ofText path
  let files ← match world.files.makeDirectories world.cwd (p.names.length + 1) p.parent with
    | .ok files => pure files
    | .error (directory, fault) => throw (.ofLookup directory fault)
  sized maxBytes
  let whole := Path.absolute world.cwd p.text
  return (whole, ← LookupFault.lift whole (files.extend world.cwd whole .empty))

/-- The set-up that the options describe, and the files after it. -/
def open? (world : World) (level file console maxBytes backupCount : Value) :
    Except Fault (Setup × FileTree) := do
  let number ← levelOf level
  let shown := if console.truthy then some number else none
  if !file.truthy then return (⟨number, shown, none⟩, world.files)
  match file with
  | .text path =>
    let (whole, files) ← openFile world path maxBytes
    return (⟨number, shown, some ⟨whole, maxBytes, backupCount⟩⟩, files)
  | _ => throw .wrongType

end LintHost.Log
