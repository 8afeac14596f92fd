import LintHost.ConfigFile
import LintHost.Engine.Adapter
import LintHost.Rules

/-!
# Jobs

A host sends jobs: lint a text, fix it, or describe how the linter for a file was resolved.

* `Job`, `Job.Reply`: what is sent and what comes back;
* `Job.Findings`: the description of a resolution;
* `Job.resolve`, `Job.lint`: what a job is run with, and the run of an engine;
* `Job.run`: the operation.
-/

namespace LintHost

open LintHost.Text

/-- What a host asks for. -/
structure Job where
  type : String
  contents : String
  filePath : String
  projectPath : Option String
  rules : Entries Json
  knownRules : Entries Json

/-- A job from names and values. -/
def Job.ofFields (entries : Entries Json) : Checked Job :=
  Job.mk <$> Record.field entries "type" "lint" (Record.json Record.text)
    <*> Record.field entries "contents" "" (Record.json Record.text)
    <*> Record.required entries "file_path" (Record.json Record.text)
    <*> Record.field entries "project_path" none (Record.json Record.text?)
    <*> Record.field entries "rules" [] Record.object
    <*> Record.field entries "known_rules" [] Record.object

/-- How the linter for a file was resolved. -/
structure Job.Findings where
  runtime : String
  platform : String
  package : Package
  configPath : Option String
  policy : Policy
  working : Workplace
  nodeExecutable : Value
  nodePath : String

/-- What a host gets. -/
structure Job.Reply where
  type : String
  messages : List (Entries Json)
  output : Option String
  updatedRules : Option (Entries Json)
  debug : Option Job.Findings

/-- The version of this library that debug reports name. -/
def libraryVersion : String := "1.0.0"

/-- A description as names and values. -/
def Job.Findings.entries (info : Job.Findings) : Entries Value := [
  ("bridge_version", .text libraryVersion),
  ("python", .text info.runtime),
  ("platform", .text info.platform),
  ("eslint_path", .text info.package.path),
  ("eslint_type", .text info.package.installation.origin.text),
  ("eslint_version", .ofJson (.ofText? info.package.version)),
  ("config_path", .ofJson (.ofText? info.configPath)),
  ("policy", .ofJson info.policy.toJson),
  ("cwd", .text info.working.cwd),
  ("relative_path", .text info.working.relativePath),
  ("node_executable", info.nodeExecutable),
  ("node_path", .text info.nodePath)]

namespace Job

/-- The types of jobs. -/
def types : List String := ["lint", "fix", "debug"]

/-- What jobs tell about. -/
def source : String := Log.root ++ ".application.worker"

/-- A path as a host is shown it: relative to `root` if it lies at or below it, links followed,
    and else as it is. A path without a root is shown as it is. -/
def shownPath (world : World) (path root : String) : Except Fault String :=
  let p := PartPath.ofText path
  if !p.isAbsolute then .ok p.text
  else
    let resolve (q : PartPath) := world.files.resolve world.cwd q
    match resolve p with
    | .error .embeddedNull => .ok p.text
    | .error fault => .error (.ofRealPath fault)
    | .ok real =>
      match resolve (PartPath.ofText root) with
      | .error .embeddedNull => .ok p.text
      | .error fault => .error (.ofRealPath fault)
      | .ok realRoot => match real.below? realRoot with
        | some below => .ok below.text
        | none => .ok p.text

/-- What a host is shown for a path that it gave: a text as a path, nothing for nothing, and
    whatever else it may have given as that value is shown. -/
def shownGiven (world : World) (root : String) : Value → Except Fault (Option String)
  | .null => .ok none
  | .text path => some <$> shownPath world path root
  | v => match v.display? with
    | some shown => .ok (some shown)
    | none => .error (.value .longInteger)

/-- The configuration file as a debug report shows it. -/
def shownConfig (world : World) (config project : Option String) :
    Except Fault (Option String) :=
  match config, project with
  | some path, some root =>
    if path = "" ∨ root = "" then .ok config else some <$> shownPath world path root
  | _, _ => .ok config

/-- Describes a resolution. -/
def describe (package : Package) (policy : Policy) (config : Option String)
    (working : Workplace) (project : Option String) : Action Job.Findings := do
  let world ← read
  let shown ← Action.ofExcept (shownConfig world config project)
  let context ← Action.context
  return ⟨world.host.runtime, world.host.platform, package, shown, policy, working,
    context.nodeExecutable, (context.env.get? "NODE_PATH").getD ""⟩

/-- The result of a job from the report of its engine. -/
def resultOf (job : Job) (report : Report) (rules : Entries Json) : Job.Reply :=
  ⟨job.type, report.messages,
    if job.type = "fix" then some (report.output.getD job.contents) else none,
    if Rules.changed job.knownRules rules then some (Rules.sorted rules) else none, none⟩

/-- What was resolved for a job: the directory of its file, the copy of the linter, the
    configuration file and the engine's working directory. -/
structure Resolved where
  fileDir : String
  package : Package
  config : Option String
  working : Workplace

/-- Resolves what a job is run with. -/
def resolve (job : Job) (policy : Policy) : Action Resolved := do
  let filePath ← Action.absolute job.filePath
  let fileDir := Path.directory filePath
  let package ← Package.forDirectory fileDir policy job.projectPath
  let config ← ConfigFile.find fileDir
  let working ← Workplace.resolve fileDir filePath policy job.projectPath
  return ⟨fileDir, package, config, working⟩

/-- Constructs an engine and lints the job's text with it. -/
def lint (job : Job) (policy : Policy) (resolved : Resolved) : Action Job.Reply := do
  let options ← Engine.Options.build job.type policy job.rules resolved.fileDir resolved.config
  let engine ← (Adapter.new resolved.package).construct 0 options
  let (report, adapter) ←
    (Adapter.new resolved.package).lint engine job.contents resolved.working.relativePath
  let (rules, _) ← adapter.rules engine
  if Rules.changed job.knownRules rules then
    Action.tell source .info ("Rule inventory changed: " ++ toString rules.length ++ " rules")
  return job.resultOf report rules

/-- Runs a job. -/
def run (job : Job) (policy : Policy) : Action Job.Reply :=
  if job.type ∉ types then throw (.value (.unknownJob job.type))
  else do
    let resolved ← job.resolve policy
    if job.type = "debug" then
      let info ← describe resolved.package policy resolved.config resolved.working job.projectPath
      return ⟨job.type, [], none, none, some info⟩
    else job.lint policy resolved

end Job

end LintHost
