import LintHost.Proofs.CheckFaults
import LintHost.Proofs.Layers
import LintHost.Proofs.VariableText

/-!
# Loads that differ in one option

One option may be set in several ways: by a variable, by an argument, in the configuration file. This
file compares two loads that set it in different ways and agree in all else. A variable is seen by
the file of variables too, which may refer to it; that has to be ruled out.

* `Paired`: two computations fail with the same fault, or both come to something;
* `EnvFile.Mentions`, `EnvFile.erase_fresh`: a file that does not refer to a variable adds the same
  others whatever that variable is;
* `Loader.supplied_paired`: environments that differ in one variable, with what a file adds;
* `Settings.SameBut`, `Loader.merged_paired`: settings that differ in one option, and the loads that
  come to such;
* `Settings.Alike`: settings that are checked and used alike.
-/

namespace LintHost

open LintHost.Text

/-! ## 1. Two computations -/

/-- Two computations fail with the same fault, or both come to something, which is so related. -/
inductive Paired {α β : Type} (R : α → β → Prop) : Except Fault α → Except Fault β → Prop
  | ok {a : α} {b : β} (h : R a b) : Paired R (.ok a) (.ok b)
  | error (fault : Fault) : Paired R (.error fault) (.error fault)

section Paired

variable {α β γ δ : Type} {R : α → β → Prop} {S : γ → δ → Prop}

theorem Paired.bind {x : Except Fault α} {y : Except Fault β} {f : α → Except Fault γ}
    {g : β → Except Fault δ} (h : Paired R x y) (hnext : ∀ a b, R a b → Paired S (f a) (g b)) :
    Paired S (x >>= f) (y >>= g) := by
  cases h with
  | ok h => exact hnext _ _ h
  | error fault => exact .error fault

theorem Paired.mono {R' : α → β → Prop} {x : Except Fault α} {y : Except Fault β}
    (h : Paired R x y) (himp : ∀ a b, R a b → R' a b) : Paired R' x y := by
  cases h with
  | ok h => exact .ok (himp _ _ h)
  | error fault => exact .error fault

theorem paired_self {R : α → α → Prop} (h : ∀ a, R a a) (x : Except Fault α) : Paired R x x := by
  cases x with
  | ok a => exact .ok (h a)
  | error fault => exact .error fault

/-- What is related is what the computations come to. -/
theorem Paired.results {x : Except Fault α} {y : Except Fault β} (h : Paired R x y) :
    Paired (fun a b => R a b ∧ x = .ok a ∧ y = .ok b) x y := by
  cases h with
  | ok h => exact .ok ⟨h, rfl, rfl⟩
  | error fault => exact .error fault

theorem paired_iff {x : Except Fault α} {y : Except Fault β} :
    Paired R x y ↔ (∃ a b, x = .ok a ∧ y = .ok b ∧ R a b) ∨
      ∃ fault, x = .error fault ∧ y = .error fault := by
  constructor
  · intro h
    cases h with
    | ok h => exact .inl ⟨_, _, rfl, rfl, h⟩
    | error fault => exact .inr ⟨fault, rfl, rfl⟩
  · rintro (⟨a, b, rfl, rfl, h⟩ | ⟨fault, rfl, rfl⟩)
    · exact .ok h
    · exact .error fault

end Paired

/-! ## 2. Environments -/

namespace Entries

variable {α β : Type} {x name : String}

theorem get?_erase (h : name ≠ x) : ∀ entries : Entries α,
    (erase x entries).get? name = entries.get? name
  | [] => rfl
  | (n, a) :: rest => by
    have ih := get?_erase h rest
    unfold erase at ih ⊢
    by_cases hn : n = x
    · subst hn
      rw [List.filter_cons_of_neg (by simp), ih, get?, if_neg (Ne.symm h)]
    · rw [List.filter_cons_of_pos (by simpa using hn), get?, get?, ih]

theorem get?_of_erase {entries entries' : Entries α} (h : erase x entries = erase x entries')
    (hname : name ≠ x) : entries.get? name = entries'.get? name := by
  rw [← get?_erase hname entries, h, get?_erase hname]

theorem has_of_erase {entries entries' : Entries α} (h : erase x entries = erase x entries')
    (hname : name ≠ x) : entries.has name = entries'.has name := by
  unfold has
  rw [get?_of_erase h hname]

/-- What is looked for among entries is found among the others if the erased ones have none. -/
theorem findSome?_erase {f : String × α → Option β} : ∀ {entries : Entries α},
    (∀ a, (x, a) ∈ entries → f (x, a) = none) →
    (erase x entries).findSome? f = entries.findSome? f
  | [], _ => rfl
  | (n, a) :: rest, h => by
    have ih := findSome?_erase fun a ha => h a (List.mem_cons_of_mem _ ha)
    unfold erase at ih ⊢
    by_cases hn : n = x
    · subst hn
      rw [List.filter_cons_of_neg (by simp), ih, List.findSome?_cons, h a List.mem_cons_self]
    · rw [List.filter_cons_of_pos (by simpa using hn), List.findSome?_cons, List.findSome?_cons, ih]

theorem erase_append (entries entries' : Entries α) :
    erase x (entries ++ entries') = erase x entries ++ erase x entries' := List.filter_append ..

end Entries

/-! ## 3. Files of variables -/

namespace EnvFile

variable {env env' : Entries String} {x : String}

/-- What a reference to a variable begins with. -/
def opening (x : String) : List Char := '$' :: '\x7b' :: x.toList

/-- A value holds a reference to a variable. -/
def Mentions (value x : String) : Prop := opening x <:+: value.toList

instance (value x : String) : Decidable (Mentions value x) :=
  inferInstanceAs (Decidable (opening x <:+: value.toList))

/-- The name of a reference stands at its start. -/
theorem reference?_name {cs : List Char} {name fallback : String} {size : Nat}
    (h : reference? cs = some (name, fallback, size)) : name.toList <+: cs := by
  unfold reference? at h
  dsimp only at h
  split at h
  · cases h
    rw [String.toList_ofList]
    exact List.takeWhile_prefix _
  · split at h
    · cases h
      rw [String.toList_ofList]
      exact List.takeWhile_prefix _
    · cases h
  · cases h

theorem interpolateFrom_congr {look look' : String → Option String}
    (hlook : ∀ name ≠ x, look name = look' name) (skip : Nat) (cs : List Char)
    (h : ¬opening x <:+: cs) :
    interpolateFrom look skip cs = interpolateFrom look' skip cs := by
  have hrest {c : Char} {rest : List Char} (h : ¬opening x <:+: c :: rest) :
      ¬opening x <:+: rest := fun hin => h (hin.trans (List.suffix_cons ..).isInfix)
  fun_induction interpolateFrom look skip cs with
  | case1 => simp only [interpolateFrom]
  | case2 skip c cs ih => rw [interpolateFrom, ih (hrest h)]
  | case3 cs name fallback size href ih =>
    -- the reference is to another variable, as this one is not mentioned
    have hname : name ≠ x := by
      rintro rfl
      exact h ((List.prefix_cons_inj _).mpr
        ((List.prefix_cons_inj _).mpr (reference?_name href))).isInfix
    rw [hlook name hname, ih (hrest h)]
    conv_rhs => rw [interpolateFrom, href]
  | case4 cs href ih =>
    rw [ih (hrest h)]
    conv_rhs => rw [interpolateFrom, href]
  | case5 c cs hother ih =>
    rw [interpolateFrom, ih (hrest h)]
    exact hother

theorem resolve_congr {settings : List (String × Option String)} (henv : env.erase x = env'.erase x)
    (h : ∀ setting ∈ settings, ∀ value ∈ setting.2, ¬Mentions value x) :
    resolve env settings = resolve env' settings := by
  unfold resolve
  refine List.foldl_ext _ _ _ fun earlier setting hsetting => ?_
  obtain ⟨name, value⟩ := setting
  have hlook (other : String) (hother : other ≠ x) :
      lookup env earlier other = lookup env' earlier other := by
    unfold lookup
    rw [Entries.get?_of_erase henv hother]
  cases value with
  | none => rfl
  | some value =>
    have hvalue := interpolateFrom_congr hlook 0 value.toList (h _ hsetting value rfl)
    simp only [Option.map_some, interpolate, hvalue]

/-- **What a file adds besides a variable** that it does not refer to is the same whatever that
    variable is. -/
theorem erase_fresh {text : String} (henv : env.erase x = env'.erase x)
    (h : ∀ setting ∈ (statements text).1, ∀ value ∈ setting.2, ¬Mentions value x) :
    (fresh env text).erase x = (fresh env' text).erase x := by
  unfold fresh Entries.erase
  rw [resolve_congr henv h, List.filter_filterMap, List.filter_filterMap]
  refine List.filterMap_congr fun setting _ => ?_
  obtain ⟨name, value⟩ := setting
  unfold lacked?
  by_cases hname : name = x
  · subst hname
    have hnone (lacks : Bool) : ((if lacks then none else value.map (name, ·)) :
        Option (String × String)).filter (fun entry => decide (entry.1 ≠ name)) = none := by
      cases lacks <;> cases value <;> simp
    rw [hnone, hnone]
  · dsimp only
    rw [Entries.has_of_erase henv hname]

theorem refusedAmong?_erase {entries : Entries String}
    (h : ∀ value, (x, value) ∈ entries → refusal? x value = none) :
    refusedAmong? (entries.erase x) = refusedAmong? entries := Entries.findSome?_erase h

/-- A file has nothing to do with a variable: it does not refer to it, and if it sets it itself, then
    to something that an environment can hold. -/
structure LeavesAside (env : Entries String) (text x : String) : Prop where
  unmentioned : ∀ setting ∈ (statements text).1, ∀ value ∈ setting.2, ¬Mentions value x
  holdable : ∀ value, (x, value) ∈ fresh env text → refusal? x value = none

end EnvFile

namespace Loader

variable {w : World} {env env' : Entries String} {path x : String}

theorem switchedOff_congr (henv : env.erase x = env'.erase x) (hx : x ≠ switchName) :
    switchedOff env = switchedOff env' := by
  unfold switchedOff
  rw [Entries.get?_of_erase henv hx.symm]

/-- **Environments that differ in one variable** still do so after a file has added its own, if the
    file has nothing to do with that variable. -/
theorem supplied_paired (henv : env.erase x = env'.erase x) (hx : x ≠ switchName)
    (hfile : ∀ text, variableText w path = .ok text →
      EnvFile.LeavesAside env text x ∧ EnvFile.LeavesAside env' text x) :
    Paired (fun after after' => after.erase x = after'.erase x)
      (supplied w env path) (supplied w env' path) := by
  unfold supplied
  rw [switchedOff_congr henv hx]
  split
  · exact .ok henv
  · cases htext : variableText w path with
    | error fault => exact .error fault
    | ok text =>
      obtain ⟨haside, haside'⟩ := hfile text htext
      have hfresh := EnvFile.erase_fresh henv haside.unmentioned
      have hrefused : EnvFile.refusedAmong? (EnvFile.fresh env text) =
          EnvFile.refusedAmong? (EnvFile.fresh env' text) := by
        rw [← EnvFile.refusedAmong?_erase haside.holdable, hfresh,
          EnvFile.refusedAmong?_erase haside'.holdable]
      simp only [Except.ok_bind, EnvFile.added_eq, hrefused]
      cases hrefusal : EnvFile.refusedAmong? (EnvFile.fresh env' text) with
      | some refusal => exact .error _
      | none =>
        rw [EnvFile.holdable_eq_self hrefusal, EnvFile.holdable_eq_self (hrefused.trans hrefusal)]
        refine .ok ?_
        rw [Entries.erase_append, Entries.erase_append, henv, hfresh]

end Loader

/-! ## 4. Settings -/

theorem Setting.eq_of_key {o o' : Setting} (h : o.key = o'.key) : o = o' :=
  List.inj_on_of_nodup_map (by decide : (all.map key).Nodup) (mem_all o) (mem_all o') h

theorem Setting.key_ne_routine (o : Setting) (r : Routine) : o.key ≠ r.key :=
  (by decide : ∀ o ∈ all, ∀ r ∈ Routine.all, o.key ≠ r.key) o o.mem_all r r.mem_all

namespace Settings

variable {o : Setting} {x : String} {a b : Settings}

/-- Settings that differ in one option at most. -/
structure SameBut (o : Setting) (a b : Settings) : Prop where
  value : ∀ other ≠ o, a.value other = b.value other
  gone : ∀ r, r ∈ a.gone ↔ r ∈ b.gone

theorem SameBut.refl (o : Setting) (a : Settings) : SameBut o a a := ⟨fun _ _ => rfl, fun _ => .rfl⟩

/-- A variable that names one option says nothing about another. -/
theorem variableGives?_other (hx : variableKey? x = some o.key) {other : Setting}
    (hother : other ≠ o) (v : String) : variableGives? other (x, v) = none := by
  refine if_neg fun h => hother ?_
  exact Setting.eq_of_key (Option.some.inj (h.symm.trans hx))

theorem environmentGives?_erase {env : Entries String} {other : Setting}
    (h : ∀ v, variableGives? other (x, v) = none) :
    environmentGives? (env.erase x) other = environmentGives? env other := by
  unfold environmentGives? Entries.erase
  rw [← List.filter_reverse]
  exact Entries.findSome?_erase fun v _ => h v

theorem SameBut.withEnvironment {env env' : Entries String} (h : SameBut o a b)
    (hx : variableKey? x = some o.key) (henv : env.erase x = env'.erase x) :
    SameBut o (a.withEnvironment env) (b.withEnvironment env') := by
  refine ⟨fun other hother => ?_, fun r => ?_⟩
  · have hgives := variableGives?_other hx hother
    rw [withEnvironment_value, withEnvironment_value, h.value other hother,
      ← environmentGives?_erase hgives, henv, environmentGives?_erase hgives]
  · have hroutine (env : Entries String) : (∃ entry ∈ env, variableKey? entry.1 = some r.key) ↔
        ∃ entry ∈ env.erase x, variableKey? entry.1 = some r.key := by
      refine exists_congr fun entry => and_congr_left fun hkey => ?_
      have hname : entry.1 ≠ x := by
        rintro heq
        rw [heq, hx] at hkey
        exact o.key_ne_routine r (Option.some.inj hkey)
      simp [Entries.erase, hname]
    rw [withEnvironment_gone, withEnvironment_gone, h.gone, hroutine env, henv, ← hroutine env']

theorem SameBut.withArguments {arguments arguments' : Entries Value} (h : SameBut o a b)
    (harguments : ∀ other ≠ o, argumentsGive? arguments other = argumentsGive? arguments' other) :
    SameBut o (a.withArguments arguments) (b.withArguments arguments') := by
  refine ⟨fun other hother => ?_, fun r => ?_⟩
  · rw [withArguments_value, withArguments_value, harguments other hother, h.value other hother]
  · rw [withArguments_gone, withArguments_gone, h.gone]

end Settings

namespace Loader

open LintHost.Settings

variable {w : World} {env env' : Entries String} {x : String} {o : Setting}

theorem ne_switchName (hx : variableKey? x = some o.key) : x ≠ switchName := by
  rintro rfl
  cases hx

/-- **Two loads that differ in one option**, as one variable, the arguments or the files make them,
    fail with the same fault, or come to settings that differ in this option. -/
theorem merged_paired {request request' : Request} (hx : variableKey? x = some o.key)
    (henv : env.erase x = env'.erase x)
    (hfile : ∀ text, variableText w (request.envFile.getD w.host.envFile) = .ok text →
      EnvFile.LeavesAside env text x ∧ EnvFile.LeavesAside env' text x)
    (hbase : Paired (SameBut o) (base w request.file) (base w request'.file))
    (huse : request'.useEnv = request.useEnv) (hvariables : request'.envFile = request.envFile)
    (harguments : ∀ other ≠ o,
      argumentsGive? request.arguments other = argumentsGive? request'.arguments other) :
    Paired (fun a b => SameBut o a b ∧
      merged w env request = .ok a ∧ merged w env' request' = .ok b)
      (merged w env request) (merged w env' request') := by
  refine Paired.results (hbase.bind fun a b hsame => ?_)
  have hasked : Paired (fun asked asked' => asked.erase x = asked'.erase x)
      (asked w env request) (asked w env' request') := by
    unfold asked
    rw [huse, hvariables]
    split
    · exact supplied_paired henv (ne_switchName hx) hfile
    · exact .ok rfl
  exact hasked.bind fun asked asked' herase =>
    .ok ((hsame.withEnvironment hx herase).withArguments harguments)

theorem environmentGives?_append (env env' : Entries String) (o : Setting) :
    environmentGives? (env ++ env') o = (environmentGives? env' o).or (environmentGives? env o) := by
  unfold environmentGives?
  rw [List.reverse_append, List.findSome?_append]

theorem environmentGives?_none {env : Entries String}
    (h : ∀ entry ∈ env, variableKey? entry.1 ≠ some o.key) : environmentGives? env o = none :=
  List.findSome?_eq_none_iff.mpr fun entry hentry => if_neg (h entry (List.mem_reverse.mp hentry))

/-- A variable counts if no variable further on names the same option. -/
theorem environmentGives?_last {earlier later : Entries String} {v : String}
    (hx : variableKey? x = some o.key)
    (hlater : ∀ entry ∈ later, variableKey? entry.1 ≠ some o.key) :
    environmentGives? (earlier ++ (x, v) :: later) o = some (.spelled v) := by
  have hself : environmentGives? [(x, v)] o = some (.spelled v) := by
    simp [environmentGives?, variableGives?, hx]
  rw [List.append_cons, environmentGives?_append, environmentGives?_append,
    environmentGives?_none hlater, hself]
  rfl

/-- What merged settings hold is what the arguments give, or the variables that are asked, or else
    what is below them. -/
theorem merged_value {request : Request} {below settings : Settings}
    (hmerged : merged w env request = .ok settings) (hbelow : base w request.file = .ok below) :
    ∃ asked, Loader.asked w env request = .ok asked ∧ ∀ o, settings.value o =
      ((argumentsGive? request.arguments o).or (environmentGives? asked o)).getD
        (below.value o) := by
  obtain ⟨below', hbelow', h⟩ := Except.bind_eq_ok hmerged
  obtain rfl := Except.ok.inj (hbelow'.symm.trans hbelow)
  obtain ⟨asked, hasked, h⟩ := Except.bind_eq_ok h
  obtain rfl := Except.ok.inj h
  refine ⟨asked, hasked, fun o => ?_⟩
  rw [withArguments_value, withEnvironment_value]
  cases argumentsGive? request.arguments o <;> rfl

/-- What is asked for an option is what the environment says, if all variables of the file that name
    it are there already. -/
theorem environmentGives?_asked {request : Request} {asked : Entries String}
    (huse : request.useEnv = true) (hasked : Loader.asked w env request = .ok asked)
    (hfile : ∀ text, variableText w (request.envFile.getD w.host.envFile) = .ok text →
      ∀ setting ∈ (EnvFile.statements text).1, variableKey? setting.1 = some o.key →
        env.has setting.1 = true) : environmentGives? asked o = environmentGives? env o := by
  rw [Loader.asked, if_pos huse] at hasked
  rw [supplied_gained hasked, environmentGives?_append]
  have hnone : environmentGives? (gainedFrom w env (request.envFile.getD w.host.envFile)) o =
      none := by
    refine environmentGives?_none fun entry hentry hkey => ?_
    obtain ⟨-, text, htext, hfresh⟩ := mem_gainedFrom hentry
    obtain ⟨hlacks, setting, hsetting, hname⟩ := EnvFile.mem_fresh hfresh
    have hhas := hfile text htext setting hsetting (hname ▸ hkey)
    rw [hname, hlacks] at hhas
    cases hhas
  rw [hnone, Option.none_or]

end Loader

/-! ## 5. Settings that are used alike -/

namespace Settings

variable {a b : Settings}

/-- The options for lists, which may also be written with commas. -/
def listOptions : List Setting := [.rulesDirs, .extraPaths]

/-- Settings that no check and no use can tell apart: their lists may be written differently. -/
structure Alike (a b : Settings) : Prop where
  value : ∀ o ∉ listOptions, a.value o = b.value o
  list : ∀ o ∈ listOptions, listOf (a.value o) = listOf (b.value o)
  gone : ∀ r, r ∈ a.gone ↔ r ∈ b.gone

theorem Alike.available (h : Alike a b) (r : Routine) : a.available r = b.available r :=
  if_congr (h.gone r) rfl rfl

theorem Alike.boolProblem (h : Alike a b) {o : Setting} (ho : o ∉ listOptions) :
    a.boolProblem o = b.boolProblem o := by
  unfold Settings.boolProblem
  rw [h.value o ho]

theorem Alike.policyProblems (h : Alike a b) : a.policyProblems = b.policyProblems := by
  have huse := @Alike.boolProblem _ _ h .useGlobal (by decide)
  have hdisable := @Alike.boolProblem _ _ h .disableIgnore (by decide)
  unfold Settings.policyProblems
  rw [h.available, huse, hdisable, h.list .rulesDirs (by decide)]

theorem Alike.engineProblems (h : Alike a b) : a.engineProblems = b.engineProblems := by
  unfold Settings.engineProblems
  rw [h.available, h.value .nodeExecutable (by decide), h.value .timeout (by decide)]

theorem Alike.loggingProblems (h : Alike a b) : a.loggingProblems = b.loggingProblems := by
  unfold Settings.loggingProblems
  rw [h.available, h.value .logLevel (by decide), h.value .logMaxBytes (by decide),
    h.value .logBackups (by decide)]

theorem Alike.check (h : Alike a b) : a.check = b.check := by
  unfold Settings.check Settings.problems
  rw [h.policyProblems, h.engineProblems, h.loggingProblems]

theorem Alike.policy (h : Alike a b) : a.policy = b.policy := by
  unfold Settings.policy
  rw [h.available, h.list .rulesDirs (by decide), h.value .useGlobal (by decide),
    h.value .globalPath (by decide), h.value .localModules (by decide),
    h.value .disableIgnore (by decide), h.value .fallbackConfig (by decide)]

theorem Alike.pathEntries (h : Alike a b) : a.pathEntries = b.pathEntries := by
  unfold Settings.pathEntries
  rw [h.available, h.list .extraPaths (by decide)]

/-- Settings that are alike are accepted alike. -/
theorem Alike.accepted {R : Settings → Settings → Prop} (h : Alike a b)
    (hab : a.check = .ok () → R a b) : Paired R (Loader.accepted a) (Loader.accepted b) := by
  unfold Loader.accepted
  rw [h.check] at hab ⊢
  cases hcheck : b.check with
  | ok done => exact .ok (hab hcheck)
  | error fault => exact .error fault

end Settings

end LintHost
