import LintHost.Json.Payload
import LintHost.World

/-!
# Running child processes

A child runs to its end or until its time runs out; either way its output is captured. Output that
looks like a JSON object or list is read as one. A request that no process can be given starts no
child, and one whose time limit cannot be waited for is given up as soon as its child was started.

* `Child.refusal?`: why a request starts no child;
* `Child.awaited`: the outcome of a child, unless it is not waited for;
* `Child.Result.ofOutcome`: what a caller gets from an outcome;
* `Child.sniff`: the JSON object or list that a text is;
* `Child.run`: the operation.
-/

namespace LintHost.Child

open LintHost.Text

/-! ## 1. Requests -/

/-- The texts that a process is started with. -/
def Request.texts (request : Request) : List String :=
  request.command ++ request.cwd :: (request.env.getD []).flatMap fun (name, value) => [name, value]

/-- Why no process can be started for a request: it has no words, a variable's name has a `=` in it,
    or a text has a NUL character in it. -/
def refusal? (host : Host) (request : Request) : Option Fault :=
  if host.rehearsed then none
  else if request.command.isEmpty then some .outOfRange
  else if (request.env.getD []).names.any (·.toList.contains '=') then some (.value .variableName)
  else if request.texts.any (·.toList.contains '\x00') then some (.value .embeddedNull)
  else none

/-- How long a child can be waited for, in milliseconds. -/
def longestWait : Nat := 2147483647

/-- Why a child cannot be waited for with this time limit, which is given in seconds. -/
def unwaited? (host : Host) (timeout : Value) : Option Fault :=
  if host.rehearsed then none
  else match timeout with
    | .null | .bool _ => none
    | .int n =>
      if (longestWait : Int) < n * 1000 ∨ Binary64.ofInt n = .infinite true then some .tooLarge
      else none
    | .float x =>
      let time := x.mul (.ofInt 1000)
      if x = .nan then some (.value .nanInteger)
      else if time.ltInt longestWait || time.eqInt longestWait then none
      else some .tooLarge
    | _ => some .wrongType

/-- The outcome of a child, unless it was started and is not waited for. -/
def awaited (host : Host) (timeout : Value) : Outcome → Except Fault Outcome
  | .unstartable code => .ok (.unstartable code)
  | outcome => match unwaited? host timeout with
    | some fault => .error fault
    | none => .ok outcome

/-! ## 2. Results -/

/-- What a child leaves behind. -/
structure Result where
  command : List String
  cwd : String
  code : Int
  stdout : String
  stderr : String
  parsed : Option Json

/-- The exit code that stands for a child whose time ran out. -/
def timeoutCode : Int := 124

/-- Output as text; bytes that are not UTF-8 are dropped. -/
def Captured.asText : Captured → String
  | .text s => s
  | .bytes bs => decodeLenient bs

/-- The JSON object or list that a text is between blanks. Of other texts nothing is read; only
    nesting that is too deep is a fault. -/
def sniff (stdout : String) : Except Fault (Option Json) :=
  let body := trim stdout
  match body.toList with
  | '\x7b' :: _ | '[' :: _ => Json.attempt body
  | _ => .ok none

/-- The note that is added to the errors of a child whose time ran out. -/
def timeoutNote (timeout : Value) : Except Fault String :=
  match timeout.display? with
  | some shown => .ok ("\n[TIMEOUT after " ++ shown ++ "s]")
  | none => .error (.value .longInteger)

/-- What an outcome means for the caller; a child that could not be started leaves nothing. -/
def Result.ofOutcome (request : Request) : Outcome → Except Fault (Except OsFault Result)
  | .unstartable code => .ok (.error ⟨code, request.command.headD ""⟩)
  | .finished code stdout stderr => do
    let parsed ← sniff stdout
    return .ok ⟨request.command, request.cwd, code, stdout, stderr, parsed⟩
  | .garbled => .error .notUtf8
  | .timedOut stdout stderr => do
    let note ← timeoutNote request.timeout
    return .ok ⟨request.command, request.cwd, timeoutCode, stdout.asText, stderr.asText ++ note, none⟩

/-! ## 3. Running -/

/-- The words of a command, all of which must be texts. -/
def words? : List Value → Option (List String)
  | [] => some []
  | .text s :: rest => (words? rest).map (s :: ·)
  | _ :: _ => none

/-- What children tell about. -/
def source : String := Log.root ++ ".infra.tools.base"

/-- The directory that a child runs in: the working directory unless another one is named. -/
def directory (world : World) (cwd : Option String) : String :=
  let named := cwd.getD ""
  Path.absolute world.cwd (if named = "" then world.cwd else named)

/-- What the caller of a child gets that is started after others. -/
def ended (world : World) (earlier : List Request) (request : Request) :
    Except Fault (Except OsFault Result) := do
  Result.ofOutcome request (← awaited world.host request.timeout (world.answer earlier request))

/-- Starts a child and waits for it. -/
def run (command : List Value) (cwd : Option String) (env : Option (Entries String))
    (timeout : Value) (input : Option String) : Action (Except OsFault Result) := do
  let world ← read
  match words? command with
  | none => throw .wrongType
  | some words =>
    let request : Request := ⟨words, directory world cwd, env, timeout, input⟩
    Action.tell source .debug ("Running " ++ join " " words ++ " in " ++ request.cwd)
    match refusal? world.host request with
    | some fault => throw fault
    | none =>
      let earlier := (← get).started
      modify fun session => { session with started := session.started ++ [request] }
      Action.ofExcept (ended world earlier request)

end LintHost.Child
