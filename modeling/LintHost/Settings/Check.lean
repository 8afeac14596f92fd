import LintHost.NodeTools
import LintHost.Settings.Basic
import LintHost.Text.Case

/-!
# Checking and using settings

* `Settings.listOf`: a list option, which may also be written with commas;
* `Settings.problems`: all that is wrong with the settings, in words;
* `Settings.check`: the settings are accepted, or all problems reported at once;
* `Settings.policy`, `Settings.pathEntries`, `Settings.context`: what settings are for.
-/

namespace LintHost.Settings

open LintHost.Text

/-! ## 1. Lists -/

/-- A value shown on its own; integers that are too long to show are a fault. -/
def shownText (v : Value) : Except Fault String :=
  match v.display? with
  | some s => .ok s
  | none => .error (.value .longInteger)

/-- The entries of a text with commas: trimmed, blank ones dropped. -/
def commaList (s : String) : List String :=
  ((splitOn ',' s.toList).map fun piece => String.ofList (trimWhere isBlank piece)).filter (· ≠ "")

/-- The entries of a list option: the parts of a text between its commas, or the items of a
    container, shown as texts. -/
def listOf : Value → Except Fault (List String)
  | .null => .ok []
  | .text s => .ok (commaList s)
  | .list vs | .set vs => vs.mapM shownText
  | .pair a b => [a, b].mapM shownText
  | .map entries => entries.mapM fun (k, _) => shownText k
  | .bytes bs => .ok (bs.map fun b => toString b.toNat)
  | _ => .error .wrongType

/-! ## 2. Problems -/

/-- Whether a number is below a bound; other values have no order. -/
def below (v : Value) (bound : Int) : Except Fault Bool :=
  match v with
  | .float x => .ok (x.ltInt bound)
  | v => match v.intWorth? with
    | some n => .ok (n < bound)
    | none => .error .wrongType

/-- The problem, if there is one. -/
def problemIf (wrong : Bool) (text : Except Fault String) : Except Fault (List String) :=
  if wrong then text.map ([·]) else .ok []

/-- A truth-valued option must hold a truth value. -/
def boolProblem (settings : Settings) (option : Setting) : Except Fault (List String) :=
  match settings.value option with
  | .bool _ => .ok []
  | v => match v.literal? with
    | some shown => .ok [option.name ++ " must be a boolean, got " ++ shown]
    | none => .error (.value .longInteger)

/-- Fails if a routine was taken away. -/
def available (settings : Settings) (routine : Routine) : Except Fault Unit :=
  if routine ∈ settings.gone then .error .wrongType else .ok ()

/-- What is wrong with the policy section. -/
def policyProblems (settings : Settings) : Except Fault (List String) := do
  settings.available .checkPolicy
  let first ← settings.boolProblem .useGlobal
  let second ← settings.boolProblem .disableIgnore
  let dirs ← listOf (settings.value .rulesDirs)
  let third := (dirs.filter (· = "")).map fun _ =>
    Setting.rulesDirs.name ++ " contains an empty entry"
  return first ++ second ++ third

/-- What is wrong with the engine section. -/
def engineProblems (settings : Settings) : Except Fault (List String) := do
  settings.available .checkEngine
  let first ← problemIf (!(settings.value .nodeExecutable).truthy)
    (.ok "node_executable must not be empty")
  let timeout := settings.value .timeout
  let second ← problemIf (← below timeout 1)
    ((shownText timeout).map ("timeout_s must be >= 1, got " ++ ·))
  return first ++ second

/-- The levels that may be configured. -/
def levels : List String := ["DEBUG", "INFO", "WARNING", "ERROR", "CRITICAL"]

/-- Whether a value names a level, whatever its case; only texts and bytes have a case. -/
def namesLevel : Value → Except Fault Bool
  | .text s => .ok (upper s ∈ levels)
  | .bytes _ => .ok false
  | _ => .error .missingFeature

/-- What is wrong with the logging section. -/
def loggingProblems (settings : Settings) : Except Fault (List String) := do
  settings.available .checkLogging
  let level := settings.value .logLevel
  let first ← problemIf (!(← namesLevel level)) ((shownText level).map ("Invalid log level: " ++ ·))
  let size := settings.value .logMaxBytes
  let second ← problemIf (← below size 1024) ((shownText size).map ("max_bytes too small: " ++ ·))
  let count := settings.value .logBackups
  let third ← problemIf (← below count 0)
    ((shownText count).map ("backup_count must be >= 0, got " ++ ·))
  return first ++ second ++ third

/-- All that is wrong, section by section. -/
def problems (settings : Settings) : Except Fault (List String) := do
  return (← settings.policyProblems) ++ (← settings.engineProblems) ++ (← settings.loggingProblems)

/-- Problems as one failure. -/
def rejection (problems : List String) : Failure :=
  .configuration "configuration"
    ("Configuration validation failed:\n" ++ join "\n" (problems.map ("  - " ++ ·)))
    [("errors", .ofTexts problems)]

/-- Accepts the settings or reports all problems. -/
def check (settings : Settings) : Except Fault Unit := do
  let found ← settings.problems
  if found.isEmpty then return () else throw (.reported (rejection found))

/-! ## 3. Uses -/

/-- A value, or null in place of one that stands for no. -/
def orNull (v : Value) : Value := if v.truthy then v else .null

/-- The resolution policy. -/
def policy (settings : Settings) : Except Fault Policy := do
  settings.available .toPolicy
  let dirs ← listOf (settings.value .rulesDirs)
  (Policy.ofFields [
    (Setting.useGlobal.name, settings.value .useGlobal),
    (Setting.globalPath.name, orNull (settings.value .globalPath)),
    (Setting.localModules.name, orNull (settings.value .localModules)),
    (Setting.disableIgnore.name, settings.value .disableIgnore),
    (Setting.rulesDirs.name, .list (dirs.map .text)),
    (Setting.fallbackConfig.name, orNull (settings.value .fallbackConfig))]).toExcept

/-- The directories that are put in front of the search path of children. -/
def pathEntries (settings : Settings) : Except Fault (List String) := do
  settings.available .pathEntries
  return (← listOf (settings.value .extraPaths)).filter (· ≠ "")

/-- The context that the settings describe, in an environment. -/
def context (settings : Settings) (env : Entries String) : Except Fault Context := do
  let extra ← settings.pathEntries
  return {
    Context.ofEnv (NodeTools.childEnv env none extra) with
    nodeToolsDir := settings.value .nodeTools
    nodeExecutable := settings.value .nodeExecutable
    timeout := settings.value .timeout }

end LintHost.Settings
