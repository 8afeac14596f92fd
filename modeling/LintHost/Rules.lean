import LintHost.Json.Basic

/-!
# Rule inventories

An inventory maps the ids of rules to what is known about them.

* `Rules.changed`: whether two inventories have different ids;
* `Rules.sorted`: an inventory in the order of its ids;
* `Rules.ofEngine`: the inventory of an engine object, whichever way it offers it.
-/

namespace LintHost.Rules

/-- Whether an id is in one inventory and not in the other. What is known about a rule does not
    matter. -/
def changed (current new : Entries Json) : Bool :=
  !(current.names.all new.has && new.names.all current.has)

/-- An inventory in the order of its ids, by code points. -/
def sorted (rules : Entries Json) : Entries Json :=
  rules.mergeSort fun a b => a.1 ≤ b.1

/-! ## Engine objects -/

/-- What stands under a name of an engine object. -/
inductive Feature
  | absent
  /-- Something that cannot be called. -/
  | plain
  /-- A function with this result. -/
  | function (result : Json)

/-- An engine object, as far as rules go: its own way to tell them, and that of the linter inside
    it. -/
structure EngineObject where
  own : Feature
  inner : Feature

/-- The inventory of an engine object: from itself, else from the linter inside it, else empty. -/
def ofEngine (engine : EngineObject) : Json :=
  match engine.own, engine.inner with
  | .function rules, _ => rules
  | _, .function rules => rules
  | _, _ => .object []

end LintHost.Rules
