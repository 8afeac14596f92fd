import LintHost.Fault
import LintHost.Policy

/-!
# Settings

The options that configuration files, the environment and the command line can set, in three
sections. Each option holds a value, whatever its type; checks come later. Next to its options a
section has routines that work on them. A source that sets a routine's name takes the routine away,
and whoever asks for it afterwards fails.

* `Setting`: the declared options, with their sections and names;
* `Settings`: what all options hold;
* `Settings.assign`: setting an option by section and name;
* `Settings.ofMapping`: the settings that a mapping of mappings describes.
-/

namespace LintHost

/-! ## 1. The options -/

/-- A section of the configuration. -/
inductive Section
  | policy
  | engine
  | logging
deriving DecidableEq

/-- A declared option. -/
inductive Setting
  | useGlobal
  | globalPath
  | localModules
  | disableIgnore
  | rulesDirs
  | fallbackConfig
  | nodeExecutable
  | timeout
  | nodeTools
  | extraPaths
  | logLevel
  | logFile
  | logConsole
  | logMaxBytes
  | logBackups
deriving DecidableEq

/-- A routine of a section. -/
inductive Routine
  | checkPolicy
  | toPolicy
  | checkEngine
  | pathEntries
  | checkLogging
deriving DecidableEq

namespace Section

/-- All sections in order. -/
def all : List Section := [.policy, .engine, .logging]

/-- The name of a section. -/
def name : Section → String
  | .policy => "policy"
  | .engine => "engine"
  | .logging => "logging"

/-- The name of a section's record in messages. -/
def recordName : Section → String
  | .policy => "PolicyConfig"
  | .engine => "EngineConfig"
  | .logging => "LoggingConfig"

end Section

namespace Setting

/-- All options in order. -/
def all : List Setting := [
  .useGlobal, .globalPath, .localModules, .disableIgnore, .rulesDirs, .fallbackConfig,
  .nodeExecutable, .timeout, .nodeTools, .extraPaths,
  .logLevel, .logFile, .logConsole, .logMaxBytes, .logBackups]

/-- The section that an option belongs to. -/
def inSection : Setting → Section
  | .useGlobal | .globalPath | .localModules | .disableIgnore | .rulesDirs | .fallbackConfig =>
    .policy
  | .nodeExecutable | .timeout | .nodeTools | .extraPaths => .engine
  | .logLevel | .logFile | .logConsole | .logMaxBytes | .logBackups => .logging

/-- The name of an option in its section. -/
def name : Setting → String
  | .useGlobal => "use_global_eslint"
  | .globalPath => "global_node_path"
  | .localModules => "advanced_local_node_modules"
  | .disableIgnore => "disable_eslint_ignore"
  | .rulesDirs => "eslint_rules_dirs"
  | .fallbackConfig => "eslintrc_path"
  | .nodeExecutable => "node_executable"
  | .timeout => "timeout_s"
  | .nodeTools => "node_tools_dir"
  | .extraPaths => "extra_paths"
  | .logLevel => "level"
  | .logFile => "file"
  | .logConsole => "console"
  | .logMaxBytes => "max_bytes"
  | .logBackups => "backup_count"

/-- What an option holds when nothing sets it. -/
def standard : Setting → Value
  | .useGlobal | .disableIgnore => .bool false
  | .rulesDirs | .extraPaths => .list []
  | .globalPath | .localModules | .fallbackConfig | .nodeTools | .logFile => .null
  | .nodeExecutable => .text "node"
  | .timeout => .int 60
  | .logLevel => .text "WARNING"
  | .logConsole => .bool true
  | .logMaxBytes => .int 10485760
  | .logBackups => .int 5

/-- The options of a section. -/
def ofSection (s : Section) : List Setting := all.filter (·.inSection = s)

/-- The option with a name in a section. -/
def find? (s : Section) (name : String) : Option Setting :=
  (ofSection s).find? (·.name = name)

end Setting

namespace Routine

/-- All routines. -/
def all : List Routine := [.checkPolicy, .toPolicy, .checkEngine, .pathEntries, .checkLogging]

/-- The section that a routine belongs to. -/
def inSection : Routine → Section
  | .checkPolicy | .toPolicy => .policy
  | .checkEngine | .pathEntries => .engine
  | .checkLogging => .logging

/-- The name of a routine in its section. -/
def name : Routine → String
  | .checkPolicy | .checkEngine | .checkLogging => "validate"
  | .toPolicy => "to_policy"
  | .pathEntries => "path_entries"

/-- The routine with a name in a section. -/
def find? (s : Section) (name : String) : Option Routine :=
  all.find? fun r => r.inSection = s ∧ r.name = name

end Routine

/-! ## 2. Settings -/

/-- What all options hold, and the routines that were taken away. -/
structure Settings where
  value : Setting → Value
  gone : List Routine

namespace Settings

/-- The settings that nothing has touched. -/
def standard : Settings := ⟨Setting.standard, []⟩

/-- The settings with one option holding a value. -/
def put (settings : Settings) (option : Setting) (v : Value) : Settings :=
  { settings with value := fun o => if o = option then v else settings.value o }

/-- The settings with the option or routine of a section that has this name set; a name that is
    neither changes nothing. -/
def assignIn (settings : Settings) (s : Section) (name : String) (v : Value) : Settings :=
  match Setting.find? s name with
  | some option => settings.put option v
  | none =>
    match Routine.find? s name with
    | some routine => { settings with gone := routine :: settings.gone }
    | none => settings

/-- The section with a name. -/
def sectionNamed? (name : String) : Option Section := Section.all.find? (·.name = name)

/-- The settings with a name in a section set, both given as text. -/
def assign (settings : Settings) (s name : String) (v : Value) : Settings :=
  match sectionNamed? s with
  | some s => settings.assignIn s name v
  | none => settings

/-- The options of a section with what they hold. -/
def sectionEntries (settings : Settings) (s : Section) : Entries Value :=
  (Setting.ofSection s).map fun option => (option.name, settings.value option)

/-! ## 3. Settings from mappings -/

/-- Why a mapping describes no settings. -/
inductive MappingFault
  /-- What should hold the sections is no mapping. -/
  | noSections
  | sectionNotMapping (s : Section) (typeName : String)
  | keyNotText
  | unknownOption (s : Section) (name : String)
  /-- The name that a record has for itself. -/
  | reservedName (s : Section)
deriving DecidableEq

/-- What is wrong with a mapping, in words. -/
def MappingFault.message : MappingFault → String
  | .noSections => "no sections"
  | .sectionNotMapping s typeName =>
    "eslint_bridge.config.config_schema." ++ s.recordName ++
      "() argument after ** must be a mapping, not " ++ typeName
  | .keyNotText => "keywords must be strings"
  | .unknownOption s name =>
    s.recordName ++ ".__init__() got an unexpected keyword argument '" ++ name ++ "'"
  | .reservedName s =>
    s.recordName ++ ".__init__() got multiple values for argument 'self'"

/-- A fault of a mapping where no message is asked for. -/
def MappingFault.fault : MappingFault → Fault
  | .noSections => .missingFeature
  | _ => .wrongType

/-- Whether a key is a text. -/
def isText : Value → Bool
  | .text _ => true
  | _ => false

/-- The settings with the entries of a section set, which must all be declared. -/
def setEntries (s : Section) : List (Value × Value) → Settings → Except MappingFault Settings
  | [], settings => .ok settings
  | (.text name, v) :: rest, settings =>
    if name = "self" then .error (.reservedName s)
    else match Setting.find? s name with
      | some option => setEntries s rest (settings.put option v)
      | none => .error (.unknownOption s name)
  | _ :: _, _ => .error .keyNotText

/-- The settings with a section set from the mapping of sections, if it is there. -/
def setSection (sections : List (Value × Value)) (settings : Settings) (s : Section) :
    Except MappingFault Settings :=
  match Value.get? (.text s.name) sections with
  | none => .ok settings
  | some (.map entries) =>
    if entries.all (isText ·.1) then setEntries s entries settings else .error .keyNotText
  | some v => .error (.sectionNotMapping s v.typeName)

/-- The settings that a mapping of sections describes. -/
def ofMapping : Value → Except MappingFault Settings
  | .map sections => Section.all.foldlM (setSection sections) standard
  | _ => .error .noSections

end Settings

end LintHost
