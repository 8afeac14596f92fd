import LintHost.Record

/-!
# Resolution policy

The settings of a user or project that decide which copy of the linter is used and how.
-/

namespace LintHost

/-- Which linter is used and how. -/
structure Policy where
  /-- Use the globally installed copy and no other. -/
  useGlobal : Bool
  /-- The prefix of global packages; the package manager is asked if it is missing or empty. -/
  globalPath : Option String
  /-- A modules directory to use in place of the project's own. -/
  localModules : Option String
  /-- Lint files that an ignore file excludes. -/
  disableIgnore : Bool
  /-- More directories with rules. -/
  rulesDirs : List String
  /-- The configuration file for files that have none nearby. -/
  fallbackConfig : Option String
deriving DecidableEq

namespace Policy

/-- The policy of someone who has set nothing. -/
def standard : Policy := ⟨false, none, none, false, [], none⟩

/-- A policy from names and values. -/
def ofFields (entries : Entries Value) : Checked Policy :=
  Policy.mk <$> Record.field entries "use_global_eslint" false Record.bool
    <*> Record.field entries "global_node_path" none Record.text?
    <*> Record.field entries "advanced_local_node_modules" none Record.text?
    <*> Record.field entries "disable_eslint_ignore" false Record.bool
    <*> Record.field entries "eslint_rules_dirs" [] Record.texts
    <*> Record.field entries "eslintrc_path" none Record.text?

/-- A policy as names and values. -/
def toJson (policy : Policy) : Json := .object [
  ("use_global_eslint", .bool policy.useGlobal),
  ("global_node_path", .ofText? policy.globalPath),
  ("advanced_local_node_modules", .ofText? policy.localModules),
  ("disable_eslint_ignore", .bool policy.disableIgnore),
  ("eslint_rules_dirs", .ofTexts policy.rulesDirs),
  ("eslintrc_path", .ofText? policy.fallbackConfig)]

end Policy

end LintHost
