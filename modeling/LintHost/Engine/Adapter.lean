import LintHost.Child
import LintHost.Engine.Script
import LintHost.Engine.Options
import LintHost.Package.Load

/-!
# Engines in child processes

An engine is a package, its options and the surroundings of the moment it was constructed in. Each
call starts one child, sends it a request and reads its reply. An adapter remembers, engine by
engine, the rules that the last successful call reported.

* `Engine.requestOf`: the request that a call sends;
* `Engine.replyOf`: the reply that a child's result holds;
* `Adapter.construct`, `Adapter.lint`, `Adapter.rules`: the operations;
* `Adapter.forget`: what is left when an engine is gone.
-/

namespace LintHost

open LintHost.Text

/-- What a call reports. -/
structure Report where
  messages : List (Entries Json)
  output : Option String
  rules : Entries Json

/-- A report from names and values. -/
def Report.ofFields (entries : Entries Json) : Checked Report :=
  Report.mk <$> Record.field entries "messages" [] Record.objects
    <*> Record.field entries "output" none (Record.json Record.text?)
    <*> Record.field entries "rules" [] Record.object

/-- What a call asks for. -/
inductive Engine.Mode
  | lint
  | rules
deriving DecidableEq

/-- The name of a mode. -/
def Engine.Mode.name : Engine.Mode → String
  | .lint => "lint"
  | .rules => "rules"

/-- A constructed engine. Its number tells it from all others, even from those with equal
    options. -/
structure Engine where
  number : Nat
  package : Package
  options : Engine.Options
  cwd : Option String
  env : Entries String

namespace Engine

/-- The request that a call sends. -/
def requestOf (engine : Engine) (mode : Mode) (text : String) (file : Option String) : Json :=
  .object [
    ("eslintPath", .text engine.package.path), ("mode", .text mode.name),
    ("options", engine.options.request), ("text", .text text), ("filePath", .ofText? file)]

/-- How much of an unexpected output is reported. -/
def shownOutput : Nat := 2000

/-- A failure of a call. -/
def failure (mode : Mode) (problem : String) (more : Entries Json) : Fault :=
  .reported (.engine mode.name problem more)

/-- The object that a child's result holds, or why it holds none. -/
def replyOf (mode : Mode) (program : String) :
    Except OsFault Child.Result → Except Fault (Entries Json)
  | .error fault =>
    .error (failure mode ("cannot start " ++ program ++ ": " ++ fault.message) [])
  | .ok result =>
    if result.code ≠ 0 then
      .error (failure mode ("node exited with code " ++ toString result.code)
        [("stderr", .text (trim result.stderr))])
    else match result.parsed with
      | some (.object reply) => .ok reply
      | _ => .error (failure mode "unexpected output"
          [("stdout", .text (String.ofList (result.stdout.toList.take shownOutput)))])

/-- What calls tell about. -/
def source : String := Log.root ++ ".infra.tools.eslint.base"

/-- Calls an engine. -/
def call (engine : Engine) (mode : Mode) (text : String) (file : Option String) :
    Action Report := do
  let context ← Action.context
  match Json.write Json.wire (requestOf engine mode text file) with
  | .error fault => throw (.ofJsonWriter fault)
  | .ok input =>
    let result ← Child.run [context.nodeExecutable, .text "-e", .text script] engine.cwd
      (some engine.env) context.timeout (some input)
    let reply ← Action.ofExcept (replyOf mode context.nodeExecutable.shown result)
    Action.tell source .debug ("ESLint " ++ mode.name ++ " finished in 0.00s")
    Action.ofExcept (Report.ofFields reply).toExcept

end Engine

/-- A verified package and the rules that its engines reported last. -/
structure Adapter where
  package : Package
  reported : List (Nat × Entries Json)

namespace Adapter

/-- An adapter that nothing was reported to. -/
def new (package : Package) : Adapter := ⟨package, []⟩

/-- The adapter with an engine's rules set. -/
def remember (adapter : Adapter) (engine : Nat) (rules : Entries Json) : Adapter :=
  ⟨adapter.package, (engine, rules) :: adapter.reported.filter (·.1 ≠ engine)⟩

/-- The adapter without an engine's rules. -/
def forget (adapter : Adapter) (engine : Nat) : Adapter :=
  ⟨adapter.package, adapter.reported.filter (·.1 ≠ engine)⟩

/-- The rules that an engine reported last. -/
def known? (adapter : Adapter) (engine : Nat) : Option (Entries Json) :=
  adapter.reported.lookup engine

/-- An engine in the surroundings of this moment. -/
def construct (adapter : Adapter) (number : Nat) (options : Engine.Options) : Action Engine := do
  let context ← Action.context
  return ⟨number, adapter.package, options, context.cwd, context.env⟩

/-- Lints a text; the rules that are reported with it are remembered. -/
def lint (adapter : Adapter) (engine : Engine) (text file : String) :
    Action (Report × Adapter) := do
  let report ← engine.call .lint text (some file)
  return (report, adapter.remember engine.number report.rules)

/-- The rules of an engine: the remembered ones, or else those that are asked for now. -/
def rules (adapter : Adapter) (engine : Engine) : Action (Entries Json × Adapter) := do
  match adapter.known? engine.number with
  | some rules => return (rules, adapter)
  | none =>
    let report ← engine.call .rules "" none
    return (report.rules, adapter.remember engine.number report.rules)

end Adapter

end LintHost
