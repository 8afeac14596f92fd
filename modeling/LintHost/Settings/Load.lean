import LintHost.EnvFile
import LintHost.Settings.Check
import LintHost.Settings.Document
import LintHost.Settings.Overrides
import LintHost.Toml.Reader
import LintHost.Yaml.Reader

/-!
# Loading settings

Settings are loaded in layers: the standard ones, a configuration file, the environment, the
arguments. Each layer sets what it names and leaves the rest; at the end everything is checked
together. Before the environment is asked, a file of variables adds those that it lacks, and they
stay in it.

* `Loading`: the settings so far, the environment and what was logged;
* `Loader.file`, `Loader.environment`, `Loader.arguments`: single layers;
* `Loader.load`: all of them. A failing layer keeps what the ones before it have set.
-/

namespace LintHost

open LintHost.Text

/-- What loading changes. -/
structure Loading where
  settings : Settings
  env : Entries String
  log : List Log.Record

/-- The beginning, in an environment. -/
def Loading.start (env : Entries String) : Loading := ⟨.standard, env, []⟩

/-- A step of loading. The world is only read; its environment is the one before loading. -/
abbrev Loader := ReaderT World (ExceptT Fault (StateM Loading))

namespace Loader

/-- The result of a step and the state after it. -/
def run {α : Type} (step : Loader α) (world : World) (loading : Loading) :
    Except Fault α × Loading :=
  (ReaderT.run step world).run.run loading

/-- A step that only computes. -/
def ofExcept {α : Type} : Except Fault α → Loader α
  | .ok a => pure a
  | .error fault => throw fault

/-- Sets the settings. -/
def keep (settings : Settings) : Loader Unit :=
  modify fun loading => { loading with settings := settings }

/-! ## 1. Configuration files -/

/-- The formats of configuration files. -/
inductive Format
  | yaml
  | toml
deriving DecidableEq

/-- The format that the end of a file's name tells. -/
def Format.ofSuffix? : String → Option Format
  | ".yaml" | ".yml" => some .yaml
  | ".toml" => some .toml
  | _ => none

/-- The name of a format. -/
def Format.name : Format → String
  | .yaml => "YAML"
  | .toml => "TOML"

/-- The key under which malformed files of a format are reported. -/
def Format.key : Format → String
  | .yaml => "yaml_parse"
  | .toml => "toml_parse"

/-- The text of a file of this format. -/
def Format.text? : Format → ByteArray → Option String
  | .yaml => ofFile?
  | .toml => decode?

/-- The document that a text of this format spells; one that stands for no is an empty mapping. -/
def Format.read : Format → String → Except DocumentFault Value
  | .yaml, s => (Yaml.read s).map fun v => if v.truthy then v else .map []
  | .toml, s => Toml.read s

/-- What is wrong with a file that is no text. A file in YAML is decoded while it is read. -/
def Format.garbledFault : Format → ByteArray → DocumentFault
  | .yaml, content => Yaml.garbledFault content
  | .toml, _ => .invalid .notUtf8

/-- The document of a format that some bytes spell. -/
def Format.readBytes (format : Format) (content : ByteArray) : Except DocumentFault Value :=
  match format.text? content with
  | none => .error (format.garbledFault content)
  | some text => format.read text

/-- The document of a format in some bytes. -/
def document (format : Format) (content : ByteArray) : Except Fault Value :=
  match format.readBytes content with
  | .ok v => .ok v
  | .error (.invalid fault) => .error fault
  | .error .malformed =>
    .error (Settings.unreadable format.key
      ("Failed to parse " ++ format.name ++ " configuration: ..."))

/-- The content of a file, whose refusal is reported as a fault of the configuration. -/
def content (world : World) (p : PartPath) : Except Fault ByteArray :=
  match LookupFault.lift p.text (world.files.read world.cwd p.text) with
  | .error (.os fault) =>
    .error (Settings.unreadable "file_load"
      ("Failed to load configuration file: " ++ fault.message))
  | result => result

/-- The settings in the file at a path. -/
def settingsIn (world : World) (path : String) : Except Fault Settings := do
  let p := PartPath.ofText path
  if ← LookupFault.lift p.text (world.files.exists? world.cwd p.text) then
    match Format.ofSuffix? p.suffix with
    | some format => Settings.ofDocument (← document format (← content world p))
    | none => throw (Settings.unreadable "file_format"
        ("Unsupported configuration file format: " ++ p.suffix))
  else throw (Settings.unreadable "file_path" ("Configuration file not found: " ++ path))

/-- What loading tells about. -/
def source : String := Log.root ++ ".config.config_loader"

/-- Replaces the settings by those in a file. -/
def file (path : String) : Loader Unit := do
  keep (← ofExcept (settingsIn (← read) path))
  let record : Log.Record := ⟨source, Log.Level.debug.number,
    "Loaded configuration from " ++ (PartPath.ofText path).text⟩
  modify fun loading => { loading with log := loading.log ++ [record] }

/-! ## 2. The environment -/

/-- The variable that switches files of variables off. -/
def switchName : String := "PYTHON_DOTENV_DISABLED"

/-- Whether files of variables are switched off. -/
def switchedOff (env : Entries String) : Bool :=
  match env.get? switchName with
  | some value => upper value ∈ ["1", "TRUE", "T", "YES", "Y"]
  | none => false

/-- The text of a file of variables; what is no regular file has none. -/
def variableText (world : World) (path : String) : Except Fault String :=
  if path = "" then .ok ""
  else match world.files.stat world.cwd path with
    | .error .embeddedNull => .error (.value .embeddedNull)
    | .ok (.file _ _ _) => do
      match ofFile? (← LookupFault.lift path (world.files.read world.cwd path)) with
      | some text => return text
      | none => throw .notUtf8
    | _ => .ok ""

/-- The record about a statement that was passed over. -/
def badStatement (line : Nat) : Log.Record :=
  ⟨"env_file", Log.Level.warning.number,
    "python-dotenv could not parse statement starting at line " ++ toString line⟩

/-- Adds the variables of a file to the environment. -/
def envFile (path : String) : Loader Unit := do
  if switchedOff (← get).env then return ()
  else
    let text ← ofExcept (variableText (← read) path)
    let (env, refusal) := EnvFile.added (← get).env text
    modify fun loading => { loading with
      env := env
      log := loading.log ++ (EnvFile.statements text).2.map badStatement }
    match refusal with
    | none => return ()
    | some .embeddedNull => throw (.value .embeddedNull)
    | some .badName => throw (.value .variableName)

/-- Sets what the environment names. -/
def environment : Loader Unit :=
  modify fun loading =>
    { loading with settings := loading.settings.withEnvironment loading.env }

/-! ## 3. All layers -/

/-- Sets what arguments name. -/
def arguments (entries : Entries Value) : Loader Unit :=
  modify fun loading => { loading with settings := loading.settings.withArguments entries }

/-- Which layers are loaded. -/
structure Request where
  /-- The configuration file; none if empty. -/
  file : Option String
  /-- Whether the environment counts. -/
  useEnv : Bool
  arguments : Entries Value
  /-- The file of variables, in place of the usual one. -/
  envFile : Option String

/-- Loads all layers from the standard settings on and checks the result. -/
def load (request : Request) : Loader Settings := do
  keep .standard
  match request.file with
  | none | some "" => pure ()
  | some path => file path
  if request.useEnv then
    envFile (request.envFile.getD (← read).host.envFile)
    environment
  arguments request.arguments
  let settings := (← get).settings
  ofExcept settings.check
  return settings

end Loader

end LintHost
