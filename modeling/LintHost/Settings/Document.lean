import LintHost.Settings.Basic

/-!
# Settings from configuration documents

A configuration document is a mapping. The settings may stand in it at the top, or under a name
that sets them apart from those of other tools.

* `Settings.ownPart`: the part of a document that holds the settings;
* `Settings.ofDocument`: the settings of a document, or why it holds none.
-/

namespace LintHost.Settings

/-- The name under which tools that share a document have their parts. -/
def toolsName : String := "tool"

/-- The names of the part for this library. -/
def ownNames : List String := ["eslint_bridge", "eslint-bridge"]

/-- What a mapping holds under the first of the names that it has. -/
def firstNamed? (entries : List (Value × Value)) (names : List String) : Option Value :=
  names.findSome? fun name => Value.get? (.text name) entries

/-- What a mapping holds for this library among the tools. -/
def toolPart? (entries : List (Value × Value)) : Option Value :=
  match Value.get? (.text toolsName) entries with
  | some (.map tools) => firstNamed? tools ownNames
  | _ => none

/-- The part of a mapping that holds the settings: the one among the tools, else the one at the
    top, else the whole mapping. -/
def ownPart (entries : List (Value × Value)) : Value :=
  ((toolPart? entries).or (firstNamed? entries ownNames)).getD (.map entries)

/-- A failure to read a configuration file. -/
def unreadable (key problem : String) : Fault := .reported (.configuration key problem [])

/-- The settings of a document. -/
def ofDocument : Value → Except Fault Settings
  | .map entries =>
    match ofMapping (ownPart entries) with
    | .ok settings => .ok settings
    | .error .noSections => .error .missingFeature
    | .error fault =>
      .error (unreadable "file_load" ("Unknown configuration option: " ++ fault.message))
  | _ => .error (unreadable "file_format" "Configuration root must be a mapping")

end LintHost.Settings
