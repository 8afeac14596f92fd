import LintHost.CommandLine.Request
import LintHost.Job

/-!
# What commands do

A command computes what it shows, and perhaps a file that it writes before showing anything.

* `Answer`: what is shown and what is written;
* `Task.perform`: the answer of a task.
-/

namespace LintHost.CommandLine

open LintHost.Text

/-- What a command shows, and a file with its text that is written before. -/
structure Answer where
  payload : Json
  written : Option (PartPath × String)

/-- An answer that only shows something. -/
def Answer.showing (payload : Json) : Answer := ⟨payload, none⟩

/-! ## 1. Where a file lies -/

/-- The absolute path of a file. -/
def wholePath (file : PartPath) : Action String := Action.absolute file.text

/-- The directory of a file. -/
def directoryOf (file : PartPath) : Action String := do return Path.directory (← wholePath file)

/-! ## 2. Linting -/

/-- The text of a file. That it cannot be opened is told like any failure. -/
def textOf (world : World) (file : PartPath) : Except Fault String :=
  match LookupFault.lift file.text (world.files.read world.cwd file.text) with
  | .error (.os fault) => .error (.reported (.plain fault.message []))
  | .error fault => .error fault
  | .ok content => match ofFile? content with
    | some s => .ok s
    | none => .error .notUtf8

/-- A result as it is shown; what it lacks is left out. -/
def shownResult (result : Job.Reply) : Json :=
  let output : Entries Json := match result.output with
    | some s => [("output", .text s)]
    | none => []
  let rules : Entries Json := match result.updatedRules with
    | some rules => [("updated_rules", .object rules)]
    | none => []
  .object ([("type", .text result.type), ("messages", .list (result.messages.map .object))] ++
    output ++ rules)

/-- The fixed text, if it is to be written and differs from what was linted. -/
def replacement (file : PartPath) (contents : String) : Option String → Option (PartPath × String)
  | some s => if s = contents then none else some (file, s)
  | none => none

/-- Lints a text as that of a file. -/
def lintText (policy : Policy) (file : PartPath) (project : Option String) (fix write : Bool)
    (contents : String) : Action Answer := do
  let job : Job := ⟨if fix then "fix" else "lint", contents, file.text, project, [], []⟩
  let result ← job.run policy
  return ⟨shownResult result,
    if fix ∧ write then replacement file contents result.output else none⟩

/-! ## 3. Inspecting -/

/-- The options that the engine would get for a file. -/
def optionsFor (policy : Policy) (file : PartPath) (fix : Bool) : Action Engine.Options := do
  let directory ← directoryOf file
  let config ← ConfigFile.find directory
  Engine.Options.build (if fix then "fix" else "lint") policy [] directory config

/-- The rules that the engine for a file reports. -/
def rulesFor (policy : Policy) (file : PartPath) (project : Option String) :
    Action (Entries Json) := do
  let directory ← directoryOf file
  let package ← Package.forDirectory directory policy project
  discard (Workplace.resolve directory (← wholePath file) policy project)
  let adapter := Adapter.new package
  let engine ← adapter.construct 0 (← optionsFor policy file false)
  return (← adapter.rules engine).1

/-- A JSON text, unless it cannot be written. -/
def written (style : Json.Style) (j : Json) : Except Fault String :=
  match Json.write style j with
  | .ok s => .ok s
  | .error fault => .error (.ofJsonWriter fault)

/-- The inventory in a file; a file that holds none counts as an empty one. -/
def inventoryIn (world : World) (file : PartPath) : Except Fault (Entries Json) := do
  match ← world.loadJson file with
  | some (.object rules) => return rules
  | _ => return []

/-- The ids of rules, compared with an earlier inventory if there is one, which may be
    replaced. -/
def compared (world : World) (current : Entries Json) (previous : Option PartPath) (save : Bool) :
    Except Fault Answer := do
  let ids : Json := .ofTexts (Rules.sorted current).names
  match previous with
  | none => return .showing (.object [("rules", ids)])
  | some file =>
    let known ← inventoryIn world file
    let payload : Json := .object [("rules", ids), ("changed", .bool (Rules.changed known current))]
    if save then
      let text ← written Json.snapshot (.object (Rules.sorted current))
      return ⟨payload, some (file, text)⟩
    else return .showing payload

/-- The description of a resolution as it is shown. -/
def shownDebug : Option Job.Findings → Except Fault Json
  | none => .ok .null
  | some info =>
    match Value.toJson? (.map (info.entries.map fun (name, v) => (.text name, v))) with
    | some j => .ok j
    | none => .error .wrongType

/-! ## 4. Tasks -/

/-- The answer of a task; the text is what stands on the input. -/
def Task.perform (policy : Policy) (input : String) : Task → Action Answer
  | .locate file project => do
    let package ← Package.forDirectory (← directoryOf file) policy project
    return .showing (.object [("path", .text package.path),
      ("source_kind", .text package.installation.origin.text), ("version", .ofText? package.version)])
  | .findConfig file => do
    let found ← ConfigFile.find (← directoryOf file)
    return .showing (.object [("config_path", .ofText? found)])
  | .context file project => do
    let working ← Workplace.resolve (← directoryOf file) (← wholePath file) policy project
    return .showing (.object [("cwd", .text working.cwd),
      ("relative_path", .text working.relativePath)])
  | .options file fix => do return .showing (← optionsFor policy file fix).toJson
  | .lint file project fix write stdin => do
    let contents ←
      if stdin then pure (String.ofList (unifyNewlines input.toList))
      else Action.ofExcept (textOf (← read) file)
    lintText policy file project fix write contents
  | .rules file project previous save => do
    let current ← rulesFor policy file project
    Action.ofExcept (compared (← read) current previous save)
  | .debug file project => do
    let job : Job := ⟨"debug", "", file.text, project, [], []⟩
    return .showing (← Action.ofExcept (shownDebug (← job.run policy).debug))

end LintHost.CommandLine
