import LintHost.Settings.Basic
import LintHost.Text.Case
import LintHost.Text.Split
import LintHost.Value.Spelled

/-!
# Settings from the environment and the command line

Both kinds of source set single options and leave the others alone. A later setting of an option
counts.

* `Settings.withEnvironment`: variables `ESLINT_BRIDGE_SECTION__OPTION`, collected by section in
  the order of the environment;
* `Settings.withArguments`: named arguments; one that is null sets nothing.
-/

namespace LintHost.Settings

open LintHost.Text

/-! ## 1. The environment -/

/-- What the names of variables for settings begin with. -/
def variableStart : String := "ESLINT_BRIDGE_"

/-- The section and the option that a variable names, both in lower case. -/
def variableTarget? (name : String) : Option (String × String) :=
  match dropStart? variableStart.toList name.toList with
  | none => none
  | some rest =>
    match splitOnPair '_' (rest.map lowerChar) with
    | [s, option] => some (String.ofList s, String.ofList option)
    | _ => none

/-- The options by section with what one variable sets. -/
def groupVariable (groups : Entries (Entries Value)) (name value : String) :
    Entries (Entries Value) :=
  match variableTarget? name with
  | some (s, option) => groups.put s (((groups.get? s).getD []).put option (.spelled value))
  | none => groups

/-- What the variables of an environment set, section by section; any name may be a section here. -/
def groups (env : Entries String) : Entries (Entries Value) :=
  env.foldl (fun groups (name, value) => groupVariable groups name value) []

/-- The settings with the options of one section set. -/
def assignAll (settings : Settings) (s : String) (options : Entries Value) : Settings :=
  options.foldl (fun settings (option, v) => settings.assign s option v) settings

/-- The settings with what the variables of an environment set. -/
def withEnvironment (settings : Settings) (env : Entries String) : Settings :=
  (groups env).foldl (fun settings (s, options) => settings.assignAll s options) settings

/-! ## 2. Arguments -/

/-- The names of arguments with the options they set. -/
def argumentNames : List (String × Setting) := [
  ("use_global_eslint", .useGlobal), ("global_node_path", .globalPath),
  ("advanced_local_node_modules", .localModules), ("disable_eslint_ignore", .disableIgnore),
  ("eslint_rules_dirs", .rulesDirs), ("eslintrc_path", .fallbackConfig),
  ("node_executable", .nodeExecutable), ("node_tools_dir", .nodeTools), ("timeout", .timeout),
  ("log_level", .logLevel), ("log_file", .logFile)]

/-- The settings with what one argument sets. -/
def withArgument (settings : Settings) (name : String) (v : Value) : Settings :=
  match v, argumentNames.lookup name with
  | .null, _ | _, none => settings
  | v, some option => settings.put option v

/-- The settings with what named arguments set. -/
def withArguments (settings : Settings) (arguments : Entries Value) : Settings :=
  arguments.foldl (fun settings (name, v) => settings.withArgument name v) settings

end LintHost.Settings
