import LintHost.Finder
import LintHost.Policy

/-!
# The engine's working directory

The engine reads ignore patterns relative to its working directory. So it runs where the nearest
ignore file lies, else at the project's root, else in the file's own directory; the choice is
noted in the context.

* `ignoreFile`: the nearest ignore file, unless the policy does without;
* `Workplace.resolve`: the directory, and the file's path seen from there.
-/

namespace LintHost

/-- The name of an ignore file. -/
def ignoreFileName : String := ".eslintignore"

/-- The nearest ignore file at or above a directory, unless the policy does without. -/
def ignoreFile (fileDir : String) (policy : Policy) : Action (Option String) :=
  if policy.disableIgnore then pure none else Finder.find fileDir [ignoreFileName]

/-- A working directory and a file's path seen from there. -/
structure Workplace where
  cwd : String
  relativePath : String
deriving DecidableEq

namespace Workplace

/-- What the choice tells about. -/
def source : String := Log.root ++ ".application.working_context"

/-- The choice, for the ignore file and the project that there may be; an empty project path is
    none. -/
def choose (cwd fileDir filePath : String) (ignore project : Option String) : Workplace :=
  match ignore with
  | some file =>
    let directory := Path.directory file
    ⟨directory, Path.relative cwd filePath directory⟩
  | none => match project with
    | none | some "" => ⟨fileDir, Path.base filePath⟩
    | some directory => ⟨directory, Path.relative cwd filePath directory⟩

/-- Chooses the engine's working directory and notes it. -/
def resolve (fileDir filePath : String) (policy : Policy) (project : Option String) :
    Action Workplace := do
  let ignore ← ignoreFile fileDir policy
  let working := choose (← read).cwd fileDir filePath ignore project
  Action.modifyContext fun context => { context with cwd := some working.cwd }
  Action.tell source .debug ("Engine cwd " ++ working.cwd ++ ", relative path " ++
    working.relativePath)
  return working

end Workplace

end LintHost
