import LintHost.CommandLine.Words
import LintHost.World

/-!
# What a command line asks for

In front stand options for all commands, then the name of a command, then its own options and the
file that it is about, in any order. Of options that hold one value the last one counts.

* `GlobalOption`, `Command`, `CommandOption`: what may be written;
* `Ending`: how a run of the program ends;
* `Globals.ofWords`: the part in front of the command;
* `Task.ofWords`: what a command is to do.

A path that is given must be open to the user if something stands there. Asking for help wins over
everything but options that make no sense.
-/

namespace LintHost.CommandLine

/-! ## 1. Endings -/

/-- How a run of the program ends. -/
inductive Ending
  /-- It shows a text. -/
  | shown (text : String)
  /-- It explains how it is used, because it was asked to. -/
  | help
  /-- The command line makes no sense. -/
  | misused
  /-- It tells about a failure that it expects. -/
  | failed (message : String)
  /-- It breaks off. -/
  | broken (fault : Fault)

/-- The ending for a fault: those that the library reports are told. -/
def Ending.ofFault : Fault → Ending
  | .reported fault => .failed fault.message
  | fault => .broken fault

/-- The path in a word. If something stands there, it must be open to the user. -/
def pathIn (world : World) (word : String) : Except Ending PartPath :=
  match world.files.stat world.cwd word with
  | .error .embeddedNull => .error (.broken (.value .embeddedNull))
  | .error _ => .ok (.ofText word)
  | .ok _ => if world.files.accessible world.cwd word then .ok (.ofText word) else .error .misused

/-! ## 2. In front of the command -/

/-- An option in front of the command. -/
inductive GlobalOption
  | help
  | config (path : String)
  /-- A named argument for the settings. -/
  | argument (name : String) (v : Value)
  /-- One more directory with rules. -/
  | rulesDir (path : String)

namespace GlobalOption

/-- The option whose value is an argument of this name. -/
def text (name : String) : Meaning GlobalOption := .valued fun s => .argument name (.text s)

/-- The option that gives an argument of this name a truth value. -/
def switch (name : String) (b : Bool) : Meaning GlobalOption := .alone (.argument name (.bool b))

/-- All options in front of the command. -/
def table : Table GlobalOption := [
  ("--config", .valued .config), ("-c", .valued .config),
  ("--use-global-eslint", switch "use_global_eslint" true),
  ("--no-use-global-eslint", switch "use_global_eslint" false),
  ("--global-node-path", text "global_node_path"),
  ("--local-node-modules", text "advanced_local_node_modules"),
  ("--disable-eslint-ignore", switch "disable_eslint_ignore" true),
  ("--enable-eslint-ignore", switch "disable_eslint_ignore" false),
  ("--rules-dir", .valued .rulesDir),
  ("--eslintrc", text "eslintrc_path"),
  ("--node", text "node_executable"),
  ("--log-level", text "log_level"),
  ("--help", .alone .help)]

/-- The configuration file that an option names. -/
def config? : GlobalOption → Option String
  | .config path => some path
  | _ => none

/-- The argument that an option gives. -/
def argument? : GlobalOption → Option (String × Value)
  | .argument name v => some (name, v)
  | _ => none

/-- The directory with rules that an option adds. -/
def rulesDir? : GlobalOption → Option String
  | .rulesDir path => some path
  | _ => none

/-- Whether an option asks for help. -/
def asksHelp : GlobalOption → Bool
  | .help => true
  | _ => false

/-- The arguments that options give together. -/
def arguments (options : List GlobalOption) : Entries Value :=
  let dirs := options.filterMap rulesDir?
  Entries.ofPairs (options.filterMap argument?) ++
    if dirs.isEmpty then [] else [("eslint_rules_dirs", .list (dirs.map .text))]

end GlobalOption

/-- The part of a command line in front of the command. -/
structure Globals where
  config : Option PartPath
  arguments : Entries Value

/-- The part in front of the command, and the words from the command on. -/
def Globals.ofWords (world : World) (words : List String) :
    Except Ending (Globals × List String) :=
  match given? GlobalOption.table false words with
  | none => .error .misused
  | some (options, rest) =>
    if options.any GlobalOption.asksHelp then .error .help
    else do
      let config ← (options.filterMap GlobalOption.config?).getLast?.mapM (pathIn world)
      return (⟨config, GlobalOption.arguments options⟩, rest)

/-! ## 3. Commands -/

/-- A command. -/
inductive Command
  | locate
  | findConfig
  | context
  | options
  | lint
  | rules
  | debug
deriving DecidableEq

namespace Command

/-- All commands. -/
def all : List Command := [.locate, .findConfig, .context, .options, .lint, .rules, .debug]

/-- The name of a command. -/
def name : Command → String
  | .locate => "locate"
  | .findConfig => "find-config"
  | .context => "context"
  | .options => "options"
  | .lint => "lint"
  | .rules => "rules"
  | .debug => "debug"

/-- The command with a name. -/
def named? (name : String) : Option Command := all.find? (·.name = name)

/-- The command that the first word names, and the words after it. A word that names none may have
    been meant as an option in front of a command. -/
def ofWords (world : World) : List String → Except Ending (Command × List String)
  | [] => .error .misused
  | word :: words =>
    match named? word with
    | some command => .ok (command, words)
    | none => do
      discard (Globals.ofWords world (word :: words))
      throw .misused

end Command

/-- An option of a command. -/
inductive CommandOption
  | help
  | project (root : String)
  | fix
  | write
  | stdin
  | previous (path : String)
  | save
deriving DecidableEq

namespace CommandOption

/-- The options of a project. -/
def projectTable : Table CommandOption := [
  ("--project-root", .valued .project), ("-p", .valued .project)]

/-- The options that a command has besides the one for help. -/
def ownTable : Command → Table CommandOption
  | .locate | .context | .debug => projectTable
  | .findConfig => []
  | .options => [("--fix", .alone .fix)]
  | .lint => projectTable ++
    [("--fix", .alone .fix), ("--write", .alone .write), ("--stdin", .alone .stdin)]
  | .rules => projectTable ++ [("--previous", .valued .previous), ("--save", .alone .save)]

/-- The options of a command. -/
def table (command : Command) : Table CommandOption :=
  ownTable command ++ [("--help", .alone .help)]

/-- The root of the project that an option names. -/
def project? : CommandOption → Option String
  | .project root => some root
  | _ => none

/-- The file with an earlier inventory that an option names. -/
def previous? : CommandOption → Option String
  | .previous path => some path
  | _ => none

end CommandOption

/-! ## 4. Tasks -/

/-- What a command is to do. -/
inductive Task
  /-- Tell which copy of the linter would lint a file. -/
  | locate (file : PartPath) (project : Option String)
  /-- Tell which configuration file applies to a file. -/
  | findConfig (file : PartPath)
  /-- Tell where the engine would run. -/
  | context (file : PartPath) (project : Option String)
  /-- Tell which options the engine would get. -/
  | options (file : PartPath) (fix : Bool)
  /-- Lint a file or the text on the input; write a fixed text back if asked to. -/
  | lint (file : PartPath) (project : Option String) (fix write stdin : Bool)
  /-- Tell which rules there are, and whether they are others than before. -/
  | rules (file : PartPath) (project : Option String) (previous : Option PartPath) (save : Bool)
  /-- Tell how the linter for a file was resolved. -/
  | debug (file : PartPath) (project : Option String)

namespace Task

/-- The task of a command with these options. -/
def of (command : Command) (options : List CommandOption) (previous : Option PartPath)
    (file : PartPath) : Task :=
  let project := (options.filterMap CommandOption.project?).getLast?
  let has (option : CommandOption) : Bool := option ∈ options
  match command with
  | .locate => .locate file project
  | .findConfig => .findConfig file
  | .context => .context file project
  | .options => .options file (has .fix)
  | .lint => .lint file project (has .fix) (has .write) (has .stdin)
  | .rules => .rules file project previous (has .save)
  | .debug => .debug file project

/-- What the words after a command ask it to do. -/
def ofWords (world : World) (command : Command) (words : List String) : Except Ending Task :=
  match given? (CommandOption.table command) true words with
  | none => .error .misused
  | some (asked, others) =>
    if .help ∈ asked then .error .help
    else do
      let previous ← (asked.filterMap CommandOption.previous?).getLast?.mapM (pathIn world)
      match others with
      | [] => throw .misused
      | word :: more =>
        let file ← pathIn world word
        if more.isEmpty then return of command asked previous file else throw .misused

end Task

end LintHost.CommandLine
