import LintHost.FileTree.RealPath
import LintHost.Value.Shown

/-!
# What can go wrong

Every way in which an operation can fail, by its cause.

* `Failure`: the failures this library reports on its own account, with details for a host;
* `OsFault`: the operating system refused something;
* `Issue`: a field of a record does not have the type it must have;
* `ValueFault`: a value is of the right type but not acceptable;
* `Fault`: all of these and the few that carry no text.

Each kind has one function that words it.
-/

namespace LintHost

open LintHost.Text

/-! ## 1. Failures reported on the library's own account -/

/-- A failure of resolution, configuration or engine, with details for the host. -/
inductive Failure
  /-- A failure that is worded where it arises. -/
  | plain (message : String) (more : Entries Json)
  /-- The package manager did not tell its prefix. -/
  | npmPrefix (command : List String) (reason : String) (more : Entries Json)
  /-- A requested package is not usable. -/
  | package (path message : String) (more : Entries Json)
  /-- The configuration is not acceptable. -/
  | configuration (key problem : String) (more : Entries Json)
  /-- The engine's process failed. -/
  | engine (operation problem : String) (more : Entries Json)

namespace Failure

/-- What the user is told. -/
def message : Failure → String
  | .plain message _ => message
  | .npmPrefix _ reason _ =>
    "Unable to execute `npm get prefix`. Please make sure the editor is getting $PATH correctly. ("
      ++ reason ++ ")"
  | .package _ message _ => message
  | .configuration key problem _ => "Configuration error for '" ++ key ++ "': " ++ problem
  | .engine operation problem _ => "ESLint " ++ operation ++ " failed: " ++ problem

/-- What sets the failure apart from others of its kind. -/
def own : Failure → Entries Json
  | .plain _ _ => []
  | .npmPrefix command reason _ => [("command", .ofTexts command), ("reason", .text reason)]
  | .package path _ _ => [("path", .text path)]
  | .configuration key _ _ => [("config_key", .text key)]
  | .engine operation _ _ => [("operation", .text operation)]

/-- What else was given. -/
def more : Failure → Entries Json
  | .plain _ more | .npmPrefix _ _ more | .package _ _ more | .configuration _ _ more
  | .engine _ _ more => more

/-- The details: what else was given, with what sets the failure apart on top. -/
def details (fault : Failure) : Entries Json :=
  fault.own.foldl (fun entries (name, j) => entries.put name j) fault.more

end Failure

/-! ## 2. The operating system -/

/-- A refusal of the operating system: its number and the path it is about. -/
structure OsFault where
  code : Nat
  path : String
deriving DecidableEq

/-- What the numbers from 1 on mean. -/
def OsFault.meanings : List String := [
  "Operation not permitted", "No such file or directory", "No such process",
  "Interrupted system call", "Input/output error", "No such device or address",
  "Argument list too long", "Exec format error", "Bad file descriptor", "No child processes",
  "Resource temporarily unavailable", "Cannot allocate memory", "Permission denied",
  "Bad address", "Block device required", "Device or resource busy", "File exists",
  "Invalid cross-device link", "No such device", "Not a directory", "Is a directory",
  "Invalid argument", "Too many open files in system", "Too many open files",
  "Inappropriate ioctl for device", "Text file busy", "File too large",
  "No space left on device", "Illegal seek", "Read-only file system", "Too many links",
  "Broken pipe", "Numerical argument out of domain", "Numerical result out of range",
  "Resource deadlock avoided", "File name too long", "No locks available",
  "Function not implemented", "Directory not empty", "Too many levels of symbolic links"]

/-- What a number means. -/
def OsFault.meaning (code : Nat) : String :=
  if code = 0 then "Success"
  else (meanings[code - 1]?).getD ("Unknown error " ++ toString code)

/-- A refusal in words. -/
def OsFault.message (fault : OsFault) : String :=
  "[Errno " ++ toString fault.code ++ "] " ++ meaning fault.code ++ ": " ++ quoted fault.path

/-! ## 3. Records -/

/-- A step on the way to a part of a record. -/
inductive FieldStep
  | field (name : String)
  | index (n : Nat)
deriving DecidableEq

/-- What is wrong with a part of a record. -/
inductive IssueKind
  | missing
  | boolType
  | boolText
  | textType
  | textEncoding
  | listType
  | tupleType
  | mapType
deriving DecidableEq

/-- A part of a record that does not have the type it must have. -/
structure Issue where
  place : List FieldStep
  kind : IssueKind
deriving DecidableEq

/-- The name of what is wrong. -/
def IssueKind.name : IssueKind → String
  | .missing => "missing"
  | .boolType => "bool_type"
  | .boolText => "bool_parsing"
  | .textType => "string_type"
  | .textEncoding => "string_unicode"
  | .listType => "list_type"
  | .tupleType => "tuple_type"
  | .mapType => "dict_type"

/-! ## 4. Values -/

/-- A value that is not acceptable. -/
inductive ValueFault
  | embeddedNull
  | namelessPath (path : String)
  | unknownJob (type : String)
  | calendar (fault : CalendarFault)
  | longInteger
  | longDigits (count : Nat)
  | notInteger (base : Nat) (text : String)
  | notNumber (text : String)
  | notCharacter
  | variableName
  | nanInteger
deriving DecidableEq

/-- The limit on the digits of integers, in words. -/
def ValueFault.limitText : String :=
  "Exceeds the limit (" ++ toString Number.digitLimit ++ " digits) for integer string conversion"

/-- How much of a text that is no integer is shown. -/
def ValueFault.shownDigits : Nat := 200

/-- What is not acceptable about a value. -/
def ValueFault.message : ValueFault → String
  | .embeddedNull => "embedded null byte"
  | .namelessPath path => "PosixPath(" ++ quoted path ++ ") has an empty name"
  | .unknownJob type => "Unknown job type: " ++ quoted type
  | .calendar fault => fault.message
  | .longInteger =>
    limitText ++ "; use sys.set_int_max_str_digits() to increase the limit"
  | .longDigits count =>
    limitText ++ ": value has " ++ toString count ++
      " digits; use sys.set_int_max_str_digits() to increase the limit"
  | .notInteger base text =>
    "invalid literal for int() with base " ++ toString base ++ ": " ++
      String.ofList ((quoted text).toList.take shownDigits)
  | .notNumber text => "could not convert string to float: " ++ quoted text
  | .notCharacter => "chr() arg not in range(0x110000)"
  | .variableName => "illegal environment variable name"
  | .nanInteger => "cannot convert float NaN to integer"

/-! ## 5. All of them -/

/-- Why an operation failed. -/
inductive Fault
  | reported (failure : Failure)
  | os (fault : OsFault)
  | invalid (issues : List Issue)
  | value (fault : ValueFault)
  /-- A value of a type that the operation does not take. -/
  | wrongType
  /-- A value without the feature that the operation asks for. -/
  | missingFeature
  /-- A name that stands for nothing. -/
  | unknownName
  /-- A text that is too short for what is looked for in it. -/
  | outOfRange
  /-- A number that is too large for what it is used for. -/
  | tooLarge
  /-- Bytes that are no text. -/
  | notUtf8
  /-- Links that run in a circle, where a path must have an end. -/
  | linkLoop
  /-- A home directory that is not known. -/
  | unknownHome
  /-- Nesting beyond what is followed. -/
  | tooDeep

namespace Fault

/-- Why a path leads nowhere, as a fault about that path. -/
def ofLookup (path : String) : LookupFault → Fault
  | .embeddedNull => .value .embeddedNull
  | .noEntry => .os ⟨2, path⟩
  | .denied => .os ⟨13, path⟩
  | .exists => .os ⟨17, path⟩
  | .notDirectory => .os ⟨20, path⟩
  | .isDirectory => .os ⟨21, path⟩
  | .nameTooLong => .os ⟨36, path⟩
  | .linkLoop => .os ⟨40, path⟩

/-- Why a path has no real path. -/
def ofRealPath : RealPath.Fault → Fault
  | .embeddedNull => .value .embeddedNull
  | .linkLoop => .linkLoop
  | .tooDeep => .tooDeep

/-- Why JSON text was not written. -/
def ofJsonWriter : Json.ReadFault → Fault
  | .tooDeep => .tooDeep
  | .longInteger | .malformed => .value .longInteger

end Fault

/-- The result of a lookup as that of an operation on the path. -/
def LookupFault.lift {α : Type} (path : String) : Except LookupFault α → Except Fault α
  | .ok a => .ok a
  | .error fault => .error (.ofLookup path fault)

/-! ## 6. Documents -/

/-- Why a document was not read. -/
inductive DocumentFault
  /-- The text is not of the document's format. -/
  | malformed
  /-- The text is of the format, but something it says stands for no value. -/
  | invalid (fault : Fault)

end LintHost
