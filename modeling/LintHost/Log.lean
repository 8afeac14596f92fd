import LintHost.Value.Basic

/-!
# Log records

What operations tell about their work. A record has a source, a level and a message; whether and
where it is shown is decided by `Log.Setup` later.

* `Level`: the named levels and the names of all others;
* `Setup`: where records go;
* `Setup.consoleText`: what a list of records leaves on the error output;
* `Setup.files` and `fileLine`: which records the log file keeps, and as what.
-/

namespace LintHost.Log

/-! ## 1. Levels and records -/

/-- The levels that records are written with. -/
inductive Level
  | debug
  | info
  | warning
deriving DecidableEq

/-- The number of a level: the higher, the graver. -/
def Level.number : Level → Nat
  | .debug => 10
  | .info => 20
  | .warning => 30

/-- The names of levels with their numbers; the first name of a number is the one it is shown
    with. -/
def names : List (String × Nat) := [
  ("CRITICAL", 50), ("ERROR", 40), ("WARNING", 30), ("INFO", 20), ("DEBUG", 10), ("NOTSET", 0),
  ("WARN", 30), ("FATAL", 50)]

/-- The name that a level number is shown with. -/
def levelName (number : Int) : String :=
  match names.find? fun (_, n) => (n : Int) = number with
  | some (name, _) => name
  | none => "Level " ++ toString number

/-- What an operation tells. -/
structure Record where
  source : String
  level : Nat
  message : String

/-- The source of all records of this library; the parts below it have longer names. -/
def root : String := "eslint_bridge"

/-! ## 2. Where records go -/

/-- The file that a log is kept in: where it is, the size from which on it is full, and how many full
    ones are kept beside it. Both numbers are options of a configuration and may be any value. -/
structure File where
  path : String
  maxBytes : Value
  backupCount : Value

/-- Where records go: nothing below `level` goes anywhere; the console shows what reaches its own
    level too, and the file takes all that is left from `DEBUG` up. -/
structure Setup where
  level : Nat
  console : Option Nat
  file : Option File

/-- The level of records that go out where no level is set. -/
def defaultLevel : Nat := Level.warning.number

/-- How it is before anything is set up. -/
def Setup.initial : Setup := ⟨0, none, none⟩

/-- The level from which records count. A level of zero leaves the decision to the default. -/
def Setup.threshold (setup : Setup) : Nat :=
  if setup.level = 0 then defaultLevel else setup.level

/-- Whether a record comes from this library. -/
def Record.isOwn (r : Record) : Bool :=
  r.source = root || r.source.startsWith (root ++ ".")

/-- Whether a record counts. -/
def Setup.passes (setup : Setup) (r : Record) : Bool := setup.threshold ≤ r.level

/-- The colours that level names are shown in on a terminal. -/
def colors : List (String × String) := [
  ("DEBUG", "\x1b[36m"), ("INFO", "\x1b[32m"), ("WARNING", "\x1b[33m"), ("ERROR", "\x1b[31m"),
  ("CRITICAL", "\x1b[35m")]

/-- A record as the console shows it; a terminal shows the level in colour. -/
def consoleLine (terminal : Bool) (level : Int) (message : String) : String :=
  let name := levelName level
  let shown := match terminal, colors.lookup name with
    | true, some color => color ++ name ++ "\x1b[0m"
    | _, _ => name
  shown ++ ": " ++ message

/-- What a record of this library shows on the console. Where nothing is set up, grave ones are
    shown as bare messages. -/
def Setup.ownLine? (setup : Setup) (r : Record) : Option String :=
  match setup.console, setup.file with
  | some level, _ => if level ≤ r.level then some (consoleLine false r.level r.message) else none
  | none, some _ => none
  | none, none => if defaultLevel ≤ r.level then some r.message else none

/-- What a record shows on the console; what is set up here concerns only records of this
    library. -/
def Setup.line? (setup : Setup) (r : Record) : Option String :=
  let setup := if r.isOwn then setup else initial
  if setup.passes r then setup.ownLine? r else none

/-- What records leave on the error output. -/
def Setup.consoleText (setup : Setup) (records : List Record) : String :=
  String.join ((records.filterMap setup.line?).map (· ++ "\n"))

/-- What a record is stamped with in the log file: when it was told, and where in the program. -/
structure Stamp where
  time : String
  place : String

/-- A record as the log file keeps it. -/
def fileLine (stamp : Stamp) (r : Record) : String :=
  stamp.time ++ " - " ++ r.source ++ " - " ++ levelName r.level ++ " - " ++ stamp.place ++ " - " ++
    r.message ++ "\n"

/-- Whether the log file keeps a record. -/
def Setup.files (setup : Setup) (r : Record) : Bool :=
  setup.passes r && Level.debug.number ≤ r.level && r.isOwn

end LintHost.Log
