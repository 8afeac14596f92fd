import Mathlib.Data.List.Basic
import Mathlib.Data.List.TakeWhile
import LintHost.EnvFile

/-!
# What a file of variables adds

A file of variables sets names one after the other, and a name that it sets twice keeps its first
place. So what it adds to an environment can be told at once, without following the additions: all
its variables with a value that the environment lacks, in their order.

* `EnvFile.fresh`: these variables;
* `EnvFile.added_spec`: they are added at the end, or the first that no environment can hold is
  refused;
* `EnvFile.added_eq`: those before a refused one are added all the same.
-/

namespace LintHost

namespace EnvFile

/-- A variable that an environment lacks, if it has a value. -/
def lacked? (env : Entries String) : String × Option String → Option (String × String)
  | (name, value) => if env.has name then none else value.map (name, ·)

/-- The variables that a text adds to an environment: those with a value that it lacks. -/
def fresh (env : Entries String) (s : String) : Entries String :=
  (resolve env (statements s).1).filterMap (lacked? env)

/-- Why no environment can hold all of these variables, if none can. -/
def refusedAmong? (entries : Entries String) : Option Refusal :=
  entries.findSome? fun (name, value) => refusal? name value

theorem nodup_resolve (env : Entries String) (settings : List (String × Option String)) :
    (resolve env settings).names.Nodup := by
  unfold resolve
  generalize hstart : ([] : Entries (Option String)) = start
  have hnodup : (Entries.names start).Nodup := hstart ▸ List.nodup_nil
  clear hstart
  induction settings generalizing start with
  | nil => exact hnodup
  | cons setting settings ih => exact ih _ (Entries.nodup_put hnodup)

/-- What is lacked does not change when another variable is added. -/
theorem lacked?_append {env : Entries String} {name value : String}
    {setting : String × Option String} (h : setting.1 ≠ name) :
    lacked? (env ++ [(name, value)]) setting = lacked? env setting := by
  obtain ⟨other, v⟩ := setting
  unfold lacked?
  dsimp only
  rw [Entries.has_append_other (Ne.symm h)]

/-- The variables before the first that no environment can hold. -/
def holdable (entries : Entries String) : Entries String :=
  entries.takeWhile fun (name, value) => (refusal? name value).isNone

theorem holdable_eq_self {entries : Entries String} (h : refusedAmong? entries = none) :
    holdable entries = entries := by
  refine List.takeWhile_eq_self_iff.mpr fun e he => ?_
  exact Option.isNone_iff_eq_none.mpr (List.findSome?_eq_none_iff.mp h e he)

theorem extend_spec : ∀ (settings : Entries (Option String)) (env : Entries String),
    settings.names.Nodup →
    (extend settings env).2 = refusedAmong? (settings.filterMap (lacked? env)) ∧
      (extend settings env).1 = env ++ holdable (settings.filterMap (lacked? env))
  | [], env, _ => by simp [extend, refusedAmong?, holdable]
  | (name, none) :: rest, env, h => by
    have hlacked : lacked? env (name, none) = none := by simp [lacked?]
    rw [extend, List.filterMap_cons_none hlacked]
    exact extend_spec rest env (List.nodup_cons.mp h).2
  | (name, some value) :: rest, env, h => by
    obtain ⟨hname, hrest⟩ := List.nodup_cons.mp h
    unfold extend
    cases hhas : env.has name with
    | true =>
      have hlacked : lacked? env (name, some value) = none := by simp [lacked?, hhas]
      rw [if_pos rfl, List.filterMap_cons_none hlacked]
      exact extend_spec rest env hrest
    | false =>
      have hlacked : lacked? env (name, some value) = some (name, value) := by
        simp [lacked?, hhas]
      -- the names are different, so what is lacked after this addition was lacked before it
      have hothers : rest.filterMap (lacked? (env.put name value)) =
          rest.filterMap (lacked? env) := by
        rw [Entries.put_of_lacks hhas]
        refine List.filterMap_congr fun setting hsetting => lacked?_append fun heq => ?_
        exact hname (List.mem_map.mpr ⟨setting, hsetting, heq⟩)
      rw [if_neg Bool.false_ne_true, List.filterMap_cons_some hlacked]
      cases hrefusal : refusal? name value with
      | some refusal => simp [refusedAmong?, holdable, hrefusal]
      | none =>
        obtain ⟨hrefused, hadded⟩ := extend_spec rest (env.put name value) hrest
        rw [hothers] at hrefused hadded
        refine ⟨by simp [hrefused, refusedAmong?, hrefusal], ?_⟩
        rw [hadded, Entries.put_of_lacks hhas]
        simp [holdable, hrefusal]

/-- **What a text adds**: the variables that the environment lacks, up to the first that no
    environment can hold. -/
theorem added_eq (env : Entries String) (s : String) :
    added env s = (env ++ holdable (fresh env s), refusedAmong? (fresh env s)) := by
  obtain ⟨hrefused, hadded⟩ := extend_spec _ env (nodup_resolve env (statements s).1)
  exact Prod.ext hadded hrefused

/-- **A text adds the variables that the environment lacks**, at its end and in their order, unless
    it holds one that no environment can hold. -/
theorem added_spec (env : Entries String) (s : String) :
    (added env s).2 = refusedAmong? (fresh env s) ∧
      ((added env s).2 = none → (added env s).1 = env ++ fresh env s) := by
  rw [added_eq]
  exact ⟨rfl, fun h => congrArg (env ++ ·) (holdable_eq_self h)⟩

end EnvFile

end LintHost
