import LintHost.Workplace

/-!
# The engine's options

What an engine is constructed with, put together from the policy and from what lies near the file.

* `Engine.Options.request`: the options under the names that the engine expects;
* `Engine.Options.ruleDirectories`: the rule directories that exist;
* `Engine.Options.build`: the options for a job.
-/

namespace LintHost

/-- What an engine is constructed with. -/
structure Engine.Options where
  rules : Entries Json
  ignore : Bool
  fix : Bool
  ignorePath : Option String
  rulePaths : List String
  configFile : Option String

namespace Engine.Options

/-- Options of which nothing is set. -/
def standard : Engine.Options := ⟨[], true, false, none, [], none⟩

/-- Options from names and values. -/
def ofFields (entries : Entries Json) : Checked Engine.Options :=
  Engine.Options.mk <$> Record.field entries "rules" [] Record.object
    <*> Record.field entries "ignore" true (Record.json Record.bool)
    <*> Record.field entries "fix" false (Record.json Record.bool)
    <*> Record.field entries "ignore_path" none (Record.json Record.text?)
    <*> Record.field entries "rule_paths" [] (Record.json Record.texts)
    <*> Record.field entries "config_file" none (Record.json Record.text?)

/-- A member that is left out when its text is missing or empty. -/
def optional (name : String) : Option String → Entries Json
  | none | some "" => []
  | some s => [(name, .text s)]

/-- Options under the names that the engine expects. -/
def request (options : Engine.Options) : Json := .object (
  [("rules", .object options.rules), ("ignore", .bool options.ignore),
    ("fix", .bool options.fix), ("rulePaths", .ofTexts options.rulePaths)] ++
  optional "ignorePath" options.ignorePath ++ optional "configFile" options.configFile)

/-- Options as names and values. -/
def toJson (options : Engine.Options) : Json := .object [
  ("rules", .object options.rules), ("ignore", .bool options.ignore), ("fix", .bool options.fix),
  ("ignore_path", .ofText? options.ignorePath), ("rule_paths", .ofTexts options.rulePaths),
  ("config_file", .ofText? options.configFile)]

/-- The directory that an entry stands for, if it stands for one: an absolute entry is taken as it
    is, any other is looked for upwards. -/
def rulePath (fileDir entry : String) : Action (Option String) := do
  let directory ← Action.cleanPath entry
  if directory = "" then return none
  else if Path.isAbsolute directory then return some directory
  else Finder.find fileDir [directory]

/-- The directories that entries stand for, in order. -/
def ruleDirectories (fileDir : String) : List String → Action (List String)
  | [] => return []
  | entry :: rest => do
    let found ← rulePath fileDir entry
    let others ← ruleDirectories fileDir rest
    return found.toList ++ others

/-- The configuration file that is named when none was found nearby. -/
def fallback (policy : Policy) (config : Option String) : Action (Option String) :=
  match config, policy.fallbackConfig with
  | none, some path => if path = "" then pure none else some <$> Action.cleanPath path
  | _, _ => pure none

/-- The options for a job on a file of a directory. -/
def build (jobType : String) (policy : Policy) (rules : Entries Json) (fileDir : String)
    (config : Option String) : Action Engine.Options := do
  let configFile ← fallback policy config
  let ignorePath ← ignoreFile fileDir policy
  let paths ← ruleDirectories fileDir policy.rulesDirs
  return ⟨rules, !policy.disableIgnore, jobType = "fix", ignorePath, paths, configFile⟩

end Engine.Options

end LintHost
