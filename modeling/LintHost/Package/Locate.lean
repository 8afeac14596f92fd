import LintHost.Finder
import LintHost.NodeTools
import LintHost.Npm
import LintHost.Policy

/-!
# Which copy of the linter

A policy asks for the globally installed copy, for a copy in a modules directory of its own, or
for the project's copy. The global copy is used or its absence reported; the other two fall back
to the bundled copy.

* `Origin`, `Installation`: a copy and where it comes from;
* `candidate`: where the policy's mode expects its copy;
* `locate`: the copy to use.
-/

namespace LintHost

/-- Where a copy comes from. -/
inductive Origin
  | global
  | localProject
  | advanced
  | bundled
deriving DecidableEq

/-- An origin in words. -/
def Origin.text : Origin → String
  | .global => "global"
  | .localProject => "local project"
  | .advanced => "advanced specified"
  | .bundled => "bundled fallback"

/-- All origins. -/
def Origin.all : List Origin := [.global, .localProject, .advanced, .bundled]

/-- A copy of the linter. -/
structure Installation where
  path : String
  origin : Origin
deriving DecidableEq

namespace Package

open LintHost.Path (join isAbsolute)

/-- What resolution tells about. -/
def source : String := Log.root ++ ".application.locator"

/-- What is said when the global copy is not there. -/
def globalMissing : String :=
  "ESLint not found, please ensure the global Node path is set correctly."

/-- The global copy under a prefix: there are two layouts, and the first is used if it is there. -/
def globalCandidate (world : World) (under : String) : String :=
  let flat := join (join under "node_modules") "eslint"
  if world.isDirectory flat then flat
  else join (join (join under "lib") "node_modules") "eslint"

/-- Where the policy's mode expects its copy, if it expects one at all. -/
def candidate (modulesDir : Option String) (policy : Policy) (project : Option String) :
    Action (Origin × Option String) := do
  if policy.useGlobal then
    let given ← Action.cleanPath (policy.globalPath.getD "")
    let under ← if given = "" then Npm.nodePrefix else pure given
    return (.global, some (globalCandidate (← read) under))
  else match policy.localModules with
    | none | some "" =>
      match modulesDir with
      | none | some "" => return (.localProject, none)
      | some dir => return (.localProject, some (join dir "eslint"))
    | some dir =>
      let given ← Action.cleanPath dir
      if isAbsolute given then return (.advanced, some (join given "eslint"))
      else return (.advanced, some (join (join (project.getD "") given) "eslint"))

/-- The path, if a directory stands at it. -/
def present? (world : World) : Option String → Option String
  | none | some "" => none
  | some path => if world.isDirectory path then some path else none

/-- The copy to use. -/
def locate (modulesDir : Option String) (policy : Policy) (project : Option String) :
    Action Installation := do
  let (origin, expected) ← candidate modulesDir policy project
  match present? (← read) expected with
  | some path =>
    Action.tell source .debug ("Using " ++ origin.text ++ " ESLint at " ++ path)
    return ⟨path, origin⟩
  | none =>
    if policy.useGlobal then
      throw (.reported (.package (expected.getD "") globalMissing []))
    else
      let path ← NodeTools.bundledPath
      Action.tell source .info ("No " ++ origin.text ++ " ESLint at " ++
        expected.getD "None" ++ ", using bundled copy")
      return ⟨path, .bundled⟩

end Package

end LintHost
