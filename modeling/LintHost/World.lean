import LintHost.Log.File
import LintHost.Path.Expand

/-!
# The world and the session of an operation

An operation runs in a *world* that it only reads, and in a *session* that it may change. The
world holds the machine, its files, the environment, the working directory, and how child
processes answer. The session holds the context of one host, the memo that contexts may share, the
children started so far and what was logged. A failing operation keeps what it has changed.

One thing that an operation does can be seen in its world while it runs: where the log is kept in a
file, what it tells stands there at once. So an operation runs on a *machine*, a world with a log.

* `Context` and `Cache`: the caller's state and the memo;
* `Child.Request` and `Child.Outcome`: what is started and how it ends;
* `Machine`: a world and where its log goes; `Machine.now`: the world as an operation finds it;
* `Action`: an operation.
-/

namespace LintHost

/-! ## 1. Children -/

/-- A child process to be started. -/
structure Child.Request where
  command : List String
  cwd : String
  /-- The whole environment of the child, unless it inherits that of its parent. -/
  env : Option (Entries String)
  timeout : Value
  input : Option String

/-- Output that a child left when its time ran out: text, or bytes that were not yet decoded. -/
inductive Child.Captured
  | text (s : String)
  | bytes (bs : ByteArray)

/-- How a child ends. -/
inductive Child.Outcome
  /-- It ran to its end. -/
  | finished (code : Int) (stdout stderr : String)
  /-- It ran to its end, and what it has printed is no text. -/
  | garbled
  /-- It could not be started, for the reason with this number. -/
  | unstartable (code : Nat)
  /-- It was stopped when its time ran out. -/
  | timedOut (stdout stderr : Child.Captured)

/-! ## 2. The world -/

/-- What is fixed for a machine. -/
structure Host where
  platform : String
  /-- The version of the runtime that debug reports name. -/
  runtime : String
  /-- Whether children are only rehearsed. A rehearsed child takes any request; a process takes none
      that it cannot be given. -/
  rehearsed : Bool
  /-- Where the bundled tools are unless the environment says otherwise. -/
  nodeTools : String
  /-- Where variables are read from when no file is named. -/
  envFile : String
  homes : Path.Homes

/-- What an operation can see. -/
structure World where
  host : Host
  files : FileTree
  env : Entries String
  cwd : String
  /-- How a child ends that is started after others. -/
  answer : List Child.Request → Child.Request → Child.Outcome
  /-- What a record is stamped with that is told after others. -/
  stamp : List Log.Record → Log.Record → Log.Stamp

/-- The world after records were told. -/
def World.after (world : World) (setup : Log.Setup) (records : List Log.Record) : World :=
  match setup.file with
  | none => world
  | some file => { world with
      files := setup.kept file world.cwd world.stamp world.files [] records }

/-- A world at work, and where its log goes. -/
structure Machine where
  world : World
  setup : Log.Setup

/-- A machine that keeps no log in a file. -/
abbrev Machine.plain (world : World) : Machine := ⟨world, .initial⟩

instance : Coe World Machine := ⟨Machine.plain⟩

/-! ## 3. The session -/

/-- What looking for one of some names from a directory upwards has found, for each directory and
    names that were asked for. -/
abbrev FinderMemo := List ((String × List String) × Option String)

/-- What is remembered from one operation to the next; contexts may share it. -/
structure Cache where
  nodePrefix : Option String
  bundledPath : Option String
  finder : FinderMemo

/-- A cache with nothing in it. -/
def Cache.empty : Cache := ⟨none, none, []⟩

/-- The modules directory that the search path of children was last set to. -/
inductive SearchPath
  | unset
  | to (modulesDir : Option String)
deriving DecidableEq

/-- The state of one host: the settings of its children and the working directory chosen for the
    engine. -/
structure Context where
  env : Entries String
  nodeToolsDir : Value
  nodeExecutable : Value
  timeout : Value
  cwd : Option String
  searchPath : SearchPath

/-- A context with this environment and nothing else chosen. -/
def Context.ofEnv (env : Entries String) : Context :=
  ⟨env, .null, .text "node", .null, none, .unset⟩

/-- What an operation may change. -/
structure Session where
  context : Context
  cache : Cache
  /-- The children started so far, in order. -/
  started : List Child.Request
  log : List Log.Record

/-- A session that nothing has happened in. -/
def Session.start (context : Context) : Session := ⟨context, .empty, [], []⟩

/-- The world as an operation finds it: the log holds what was told so far. -/
def Machine.now (machine : Machine) (session : Session) : World :=
  machine.world.after machine.setup session.log

/-! ## 4. Operations -/

/-- An operation: it reads the world, may change the session and may fail. -/
abbrev Action := ReaderT Machine (ExceptT Fault (StateM Session))

/-- What an operation reads is the world as it finds it. -/
instance : MonadReaderOf World Action where
  read := do return (← readThe Machine).now (← get)

namespace Action

/-- The result of an operation and the session after it. -/
def run {α : Type} (action : Action α) (machine : Machine) (session : Session) :
    Except Fault α × Session :=
  (ReaderT.run action machine).run.run session

/-- An operation that only computes. -/
def ofExcept {α : Type} : Except Fault α → Action α
  | .ok a => pure a
  | .error fault => throw fault

/-- An operation that asks the files. -/
def lookup {α : Type} (path : String) (ask : FileTree → String → Except LookupFault α) :
    Action α := do
  let world ← read
  ofExcept (LookupFault.lift path (ask world.files world.cwd))

/-- Tells something. -/
def tell (source : String) (level : Log.Level) (message : String) : Action Unit :=
  modify fun session =>
    { session with log := session.log ++ [⟨source, level.number, message⟩] }

/-- Changes the context. -/
def modifyContext (change : Context → Context) : Action Unit :=
  modify fun session => { session with context := change session.context }

/-- Changes the cache. -/
def modifyCache (change : Cache → Cache) : Action Unit :=
  modify fun session => { session with cache := change session.cache }

/-- The session's context. -/
def context : Action Context := do return (← get).context

/-- The path made absolute. -/
def absolute (path : String) : Action String := do return Path.absolute (← read).cwd path

/-- The path with home directory and variables in place. -/
def cleanPath (path : String) : Action String := do
  let world ← read
  ofExcept (Path.clean world.host.homes world.env path)

end Action

end LintHost
