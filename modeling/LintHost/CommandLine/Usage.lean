import LintHost.CommandLine.Request

/-!
# How the program is used

The text that is shown to whoever asks for help or writes a command line that makes no sense. It
is made from the tables that command lines are read with.
-/

namespace LintHost.CommandLine

/-- An option as it is written. -/
def optionText (option : String × Meaning α) : String :=
  match option with
  | (name, .alone _) => name
  | (name, .valued _) => name ++ " VALUE"

/-- The options of a table, one a line. -/
def optionLines (table : Table α) : List String := table.map fun option => "  " ++ optionText option

/-- A command with its own options. -/
def commandLines (command : Command) : List String :=
  ("  " ++ command.name ++ " FILE") ::
    (CommandOption.ownTable command).map fun option => "      " ++ optionText option

/-- The whole text. -/
def usage : String :=
  "\n".intercalate (
    ["Usage: [OPTION]... COMMAND [OPTION]... FILE", "", "Options:"] ++
    optionLines GlobalOption.table ++ ["", "Commands:"] ++ Command.all.flatMap commandLines)

end LintHost.CommandLine
