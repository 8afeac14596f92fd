import LintHost.CommandLine.Perform
import LintHost.Log.Open
import LintHost.Settings.Load

/-!
# A run of the program

The part of the command line in front of the command decides the settings; they decide the log,
the policy and the context. Only then are the words after the command read and its task performed.

* `Outcome`: what a run leaves behind;
* `Outcome.exitCode`, `Outcome.output`, `Outcome.errors`: what its caller sees;
* `run`: a run.
-/

namespace LintHost.CommandLine

open LintHost.Text

/-! ## 1. Outcomes -/

/-- What a run leaves behind. -/
structure Outcome where
  ending : Ending
  /-- What was logged on the error output. -/
  logged : String
  files : FileTree
  /-- The files that were opened for writing. -/
  written : List String
  /-- The children that were started. -/
  started : List Child.Request

/-- What follows parameters of a terminal sequence and its letter. -/
def afterSequence? (cs : List Char) : Option (List Char) :=
  match cs.dropWhile fun c => c.isDigit || c = ';' || c = '?' with
  | c :: rest => if c.isAlpha then some rest else none
  | [] => none

/-- A text without the sequences that steer a terminal. The first argument bounds the steps. -/
def plainFrom : Nat → List Char → List Char
  | 0, cs => cs
  | _, [] => []
  | fuel + 1, c :: cs =>
    match c, cs with
    | '\x1b', '[' :: rest =>
      match afterSequence? rest with
      | some rest => plainFrom fuel rest
      | none => c :: plainFrom fuel cs
    | _, _ => c :: plainFrom fuel cs

/-- A text without the sequences that steer a terminal. -/
def plain (s : String) : String := String.ofList (plainFrom s.length s.toList)

namespace Outcome

/-- The exit code. -/
def exitCode (outcome : Outcome) : Nat :=
  match outcome.ending with
  | .shown _ | .help => 0
  | .failed _ | .broken _ => 1
  | .misused => 2

/-- The standard output, unless that explains how the program is used. -/
def output (outcome : Outcome) : String :=
  match outcome.ending with
  | .shown text => text ++ "\n"
  | _ => ""

/-- The error output, unless that explains how the program is used. -/
def errors (outcome : Outcome) : String :=
  match outcome.ending with
  | .failed message => outcome.logged ++ "Error: " ++ plain message ++ "\n"
  | _ => outcome.logged

end Outcome

/-! ## 2. Before the command -/

/-- What the settings decide. -/
structure Prepared where
  setup : Log.Setup
  policy : Policy
  context : Context

/-- Opens the log and fixes policy and context. The outcome is the one of a run that ends here, but
    for its ending. -/
def prepare (world : World) (settings : Settings) (outcome : Outcome) :
    Except Fault Prepared × Outcome :=
  match Log.open? world (settings.value .logLevel) (settings.value .logFile)
      (settings.value .logConsole) (settings.value .logMaxBytes)
      (settings.value .logBackups) with
  | .error fault => (.error fault, outcome)
  | .ok (setup, files) =>
    let outcome := { outcome with files := files, written := setup.file.toList.map (·.path) }
    let prepared : Except Fault Prepared := do
      return ⟨setup, ← settings.policy, ← settings.context world.env⟩
    (prepared, outcome)

/-! ## 3. The command -/

/-- Writes the file of an answer and shows the rest. -/
def settle (world : World) (answer : Answer) (outcome : Outcome) : Outcome :=
  match answer.written with
  | none => finish answer.payload outcome
  | some (file, text) =>
    match LookupFault.lift file.text (world.files.write world.cwd file.text (encode text)) with
    | .error fault => { outcome with ending := .ofFault fault }
    | .ok files =>
      finish answer.payload
        { outcome with files := files, written := outcome.written ++ [file.text] }
where
  /-- Shows a value. -/
  finish (payload : Json) (outcome : Outcome) : Outcome :=
    match CommandLine.written Json.display payload with
    | .ok text => { outcome with ending := .shown text }
    | .error fault => { outcome with ending := .ofFault fault }

/-- Performs a task. The log is kept all the while. -/
def performed (world : World) (prepared : Prepared) (input : String) (task : Task)
    (outcome : Outcome) : Outcome :=
  let machine : Machine := ⟨world, prepared.setup⟩
  let (result, session) :=
    (task.perform prepared.policy input).run machine (.start prepared.context)
  let world := machine.now session
  let outcome := { outcome with
    started := session.started
    logged := outcome.logged ++ prepared.setup.consoleText session.log
    files := world.files }
  match result with
  | .ok answer => settle world answer outcome
  | .error fault => { outcome with ending := .ofFault fault }

/-! ## 4. The whole run -/

/-- A run from the command on, after the part in front of it. -/
def runCommand (world : World) (globals : Globals) (command : Command) (words : List String)
    (input : String) : Outcome :=
  let request : Loader.Request := ⟨globals.config.map (·.text), true, globals.arguments, none⟩
  let (loaded, loading) := (Loader.load request).run world (.start world.env)
  let outcome : Outcome :=
    ⟨.misused, Log.Setup.initial.consoleText loading.log, world.files, [], []⟩
  match loaded with
  | .error fault => { outcome with ending := .ofFault fault }
  | .ok settings =>
    let world := { world with env := loading.env }
    match prepare world settings outcome with
    | (.error fault, outcome) => { outcome with ending := .ofFault fault }
    | (.ok prepared, outcome) =>
      let world := { world with files := outcome.files }
      match Task.ofWords world command words with
      | .error ending => { outcome with ending := ending }
      | .ok task => performed world prepared input task outcome

/-- A run of the program with these words and this input. -/
def run (world : World) (words : List String) (input : String) : Outcome :=
  let asked : Except Ending (Globals × Command × List String) := do
    let (globals, rest) ← Globals.ofWords world words
    let (command, rest) ← Command.ofWords world rest
    return (globals, command, rest)
  match asked with
  | .error ending => ⟨ending, "", world.files, [], []⟩
  | .ok (globals, command, rest) => runCommand world globals command rest input

end LintHost.CommandLine
