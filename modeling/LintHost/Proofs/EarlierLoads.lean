import LintHost.Proofs.FileText
import LintHost.Proofs.Layers
import LintHost.Proofs.VariableText
import LintHost.Proofs.Writing

/-!
# Loading after loading

A process loads settings many times, with one loader or several. What the loaders hold is forgotten
each time, but the variables that were read from a file stay in the environment, where every later
load finds them, whatever file it names itself.

* `Process`, `Process.after`: a process, and what calls make of it;
* `gainedBy`: the variables that calls add one after the other;
* `Process.after_env`: nothing else of the environment changes;
* `later_loads`: later calls notice the variables that were added, and nothing else.
-/

namespace LintHost.Loader

open LintHost.Settings LintHost.Text

variable {w : World} {env : Entries String}

theorem has_append {α : Type} (name : String) (entries more : Entries α) :
    Entries.has name (entries ++ more) = (entries.has name || more.has name) := by
  rw [Bool.eq_iff_iff, Bool.or_eq_true, Entries.has_iff, Entries.has_iff, Entries.has_iff]
  simp [Entries.names]

/-! ## 1. Calls -/

/-- A call to load settings: the world it finds, the loader it is made on and what it asks for. -/
structure Call where
  world : World
  loader : Nat
  request : Request

/-- The file of variables that a call names. -/
def Call.variables (c : Call) : String := c.request.envFile.getD c.world.host.envFile

/-- What calls find and leave in a process: the settings that each loader holds, and the
    environment. -/
structure Process where
  held : Nat → Settings
  env : Entries String

/-- A process whose loaders are new. -/
def Process.start (env : Entries String) : Process := ⟨fun _ => .standard, env⟩

namespace Process

/-- What a call comes to, and the process after it. -/
def call (p : Process) (c : Call) : Except Fault Settings × Process :=
  match (load c.request).run c.world ⟨p.held c.loader, p.env, []⟩ with
  | (result, after) =>
    (result, ⟨fun i => if i = c.loader then after.settings else p.held i, after.env⟩)

/-- The process after calls, whatever they came to. -/
def after (p : Process) (calls : List Call) : Process := calls.foldl (fun p c => (p.call c).2) p

/-- A call depends on the environment, and not on what any loader holds. -/
theorem call_result (p : Process) (c : Call) :
    (p.call c).1 = merged c.world p.env c.request >>= accepted := by
  have hload := load_result (w := c.world) c.request ⟨p.held c.loader, p.env, []⟩
  exact hload

/-- A call adds variables to the environment, also where it fails. -/
theorem call_env (p : Process) (c : Call) :
    (p.call c).2.env = p.env ++ gained c.world p.env c.request := by
  obtain ⟨after, hrun, hafter⟩ :=
    load_spec (w := c.world) c.request ⟨p.held c.loader, p.env, []⟩
  unfold call
  rw [hrun]
  exact hafter

end Process

/-! ## 2. What calls add -/

/-- The variables that calls add to an environment one after the other. -/
def gainedBy : Entries String → List Call → Entries String
  | _, [] => []
  | env, c :: calls =>
    gained c.world env c.request ++ gainedBy (env ++ gained c.world env c.request) calls

/-- **The environment after calls** is the one before with what they have added. -/
theorem Process.after_env (p : Process) (calls : List Call) :
    (p.after calls).env = p.env ++ gainedBy p.env calls := by
  induction calls generalizing p with
  | nil => exact (List.append_nil p.env).symm
  | cons c calls ih =>
    have hstep := p.call_env c
    have hlater := ih (p.call c).2
    rw [hstep] at hlater
    rw [gainedBy, ← List.append_assoc]
    exact hlater

/-- A variable that a call adds was lacked, and the file that the call names sets it. -/
structure Comes (env : Entries String) (c : Call) (name : String) : Prop where
  lacked : env.has name = false
  asked : c.request.useEnv = true
  on : switchedOff env = false
  set : ∃ text, variableText c.world c.variables = .ok text ∧
    ∃ value, (name, value) ∈ EnvFile.fresh env text

theorem gained_comes {c : Call} {entry : String × String}
    (h : entry ∈ gained c.world env c.request) : Comes env c entry.1 := by
  unfold gained at h
  split at h
  · split at h
    · rename_i huse
      obtain ⟨hon, text, htext, hfresh⟩ := mem_gainedFrom h
      exact ⟨(EnvFile.mem_fresh hfresh).1, huse, hon, text, htext, entry.2, hfresh⟩
    · cases h
  · cases h

/-- **Where added variables come from**: from the file that one of the calls names, in the
    environment that the calls before it have left. -/
theorem gainedBy_comes {calls : List Call} {env : Entries String} {entry : String × String}
    (h : entry ∈ gainedBy env calls) :
    ∃ c ∈ calls, ∃ before, before <+: gainedBy env calls ∧ Comes (env ++ before) c entry.1 := by
  induction calls generalizing env with
  | nil => cases h
  | cons c calls ih =>
    rw [gainedBy] at h ⊢
    rcases List.mem_append.mp h with hfirst | hlater
    · have hcomes := gained_comes hfirst
      rw [← List.append_nil env] at hcomes
      exact ⟨c, List.mem_cons_self, [], List.nil_prefix, hcomes⟩
    · obtain ⟨later, hmem, before, hbefore, hcomes⟩ := ih hlater
      rw [List.append_assoc] at hcomes
      exact ⟨later, List.mem_cons_of_mem c hmem, _, (List.prefix_append_right_inj _).mpr hbefore,
        hcomes⟩

/-- The first call that adds a variable finds the environment as it was. -/
theorem exists_first {calls : List Call} {env : Entries String} (h : gainedBy env calls ≠ []) :
    ∃ c ∈ calls, ∃ entry ∈ gainedBy env calls, Comes env c entry.1 := by
  induction calls with
  | nil => exact absurd rfl h
  | cons c calls ih =>
    rw [gainedBy] at h ⊢
    cases hgained : gained c.world env c.request with
    | nil =>
      rw [hgained, List.append_nil, List.nil_append] at h
      rw [List.append_nil, List.nil_append]
      obtain ⟨later, hmem, entry, hentry, hcomes⟩ := ih h
      exact ⟨later, List.mem_cons_of_mem c hmem, entry, hentry, hcomes⟩
    | cons entry rest =>
      have hmem : entry ∈ gained c.world env c.request := by
        rw [hgained]
        exact List.mem_cons_self
      exact ⟨c, List.mem_cons_self, entry, List.mem_append_left _ List.mem_cons_self,
        gained_comes hmem⟩

/-! ## 3. A call that notices -/

/-- Arguments that no check accepts: the directories with rules are no list. -/
def unlisted : Entries Value := [
  ("use_global_eslint", .bool true), ("disable_eslint_ignore", .bool true),
  ("eslint_rules_dirs", .bool true)]

theorem accepted_unlisted (settings : Settings) :
    accepted (settings.withArguments unlisted) = .error .wrongType := by
  have hglobal := withArguments_value settings unlisted .useGlobal
  have hignore := withArguments_value settings unlisted .disableIgnore
  have hdirs := withArguments_value settings unlisted .rulesDirs
  have hfound : argumentsGive? unlisted .useGlobal = some (.bool true) ∧
      argumentsGive? unlisted .disableIgnore = some (.bool true) ∧
      argumentsGive? unlisted .rulesDirs = some (.bool true) := ⟨rfl, rfl, rfl⟩
  rw [hfound.1, Option.getD_some] at hglobal
  rw [hfound.2.1, Option.getD_some] at hignore
  rw [hfound.2.2, Option.getD_some] at hdirs
  have hpolicy : (settings.withArguments unlisted).policyProblems = .error .wrongType := by
    unfold policyProblems available boolProblem
    rw [hglobal, hignore, hdirs]
    split
    · rfl
    · rfl
  unfold accepted check problems
  rw [hpolicy]
  rfl

/-- A call that names a file of variables with this text, with arguments that are not accepted. -/
def noticing (text : String) : Call where
  world := { World.bare with files := FileTree.empty.put ["n"] (.file (encode text) true true) }
  loader := 0
  request := ⟨none, true, unlisted, some "n"⟩

theorem variableText_noticing {text : String} (h : '\r' ∉ text.toList) :
    variableText (noticing text).world "n" = .ok text := by
  have hstat : (noticing text).world.files.stat "/" "n" = .ok (.file (encode text) true true) := rfl
  have hread : (noticing text).world.files.read "/" "n" = .ok (encode text) := rfl
  have hcwd : (noticing text).world.cwd = "/" := rfl
  unfold variableText
  rw [if_neg (by decide), hcwd, hstat]
  dsimp only
  rw [hread]
  have htext := ofFile?_encode.mpr h
  simp only [LookupFault.lift, Except.ok_bind, htext]
  rfl

/-- The text of a file of variables has its line ends unified. -/
theorem variableText_unbroken {path text : String} (h : variableText w path = .ok text) :
    '\r' ∉ text.toList := by
  have hnone : '\r' ∉ "".toList := by decide
  unfold variableText at h
  split at h
  · cases h
    exact hnone
  · split at h
    · cases h
    · obtain ⟨content, -, h⟩ := Except.bind_eq_ok h
      split at h
      · rename_i found hfound
        obtain rfl := Except.ok.inj h
        obtain ⟨spelt, -, rfl⟩ := ofFile?_eq_some.mp hfound
        rw [String.toList_ofList]
        exact not_mem_unifyNewlines _
      · cases h
    · cases h
      exact hnone

/-- A variable that a file has set is noticed: where it is lacked, the call ends with the refusal of
    another value, and otherwise with that of its arguments. -/
theorem noticed {c : Call} {name : String} (h : Comes env c name) : ∃ later : Call,
    (∀ held, (Process.call ⟨held, env⟩ later).1 = .error (.value .embeddedNull)) ∧
    ∀ held (env' : Entries String), env'.has name = true →
      (Process.call ⟨held, env'⟩ later).1 = .error .wrongType := by
  obtain ⟨text, htext, value, hfresh⟩ := h.set
  have hreturn := variableText_unbroken htext
  obtain ⟨spoilt, hspoilt, hadded⟩ := EnvFile.exists_spoiling hreturn hfresh
  have hthere := variableText_noticing hspoilt
  refine ⟨noticing spoilt, fun held => ?_, fun held env' hhas => ?_⟩
  · have hrefused : supplied (noticing spoilt).world env "n" = .error (.value .embeddedNull) := by
      unfold supplied
      rw [if_neg (Bool.eq_false_iff.mp h.on), hthere, Except.ok_bind, hadded, h.lacked]
      rfl
    have hmerged : merged (noticing spoilt).world env (noticing spoilt).request =
        .error (.value .embeddedNull) := by
      have hasked : asked (noticing spoilt).world env (noticing spoilt).request =
        supplied (noticing spoilt).world env "n" := rfl
      unfold merged
      rw [hasked, hrefused]
      rfl
    rw [Process.call_result, hmerged]
    rfl
  · have hnothing : supplied (noticing spoilt).world env' "n" = .ok env' := by
      unfold supplied
      split
      · rfl
      · rw [hthere, Except.ok_bind, hadded, hhas]
        rfl
    have hmerged : merged (noticing spoilt).world env' (noticing spoilt).request =
        .ok ((standard.withEnvironment env').withArguments unlisted) := by
      have hasked : asked (noticing spoilt).world env' (noticing spoilt).request =
        supplied (noticing spoilt).world env' "n" := rfl
      unfold merged
      rw [hasked, hnothing]
      rfl
    rw [Process.call_result, hmerged, Except.ok_bind, accepted_unlisted]

/-! ## 4. Later calls -/

/-- **What later calls notice of earlier ones** is the variables that those have added, and nothing
    else: a later call comes to what it would come to as the first call of a process that has these
    variables in its environment. Each was lacked before and was set by the file that one of the
    earlier calls names. A call that does not ask for the environment notices nothing. No call at
    all notices anything exactly if no variable was added. -/
theorem later_loads (p : Process) (calls : List Call) :
    (∀ c, ((p.after calls).call c).1 =
      ((Process.start (p.env ++ gainedBy p.env calls)).call c).1) ∧
    (∀ entry ∈ gainedBy p.env calls, p.env.has entry.1 = false ∧ ∃ c ∈ calls, ∃ before,
      before <+: gainedBy p.env calls ∧ Comes (p.env ++ before) c entry.1) ∧
    (∀ c : Call, c.request.useEnv = false → ((p.after calls).call c).1 = (p.call c).1) ∧
    ((∀ c, ((p.after calls).call c).1 = (p.call c).1) ↔ gainedBy p.env calls = []) := by
  have hafter := p.after_env calls
  refine ⟨fun c => ?_, fun entry hentry => ?_, fun c huse => ?_, fun h => ?_, fun h c => ?_⟩
  · rw [Process.call_result, Process.call_result, hafter]
    rfl
  · obtain ⟨c, hc, before, hbefore, hcomes⟩ := gainedBy_comes hentry
    refine ⟨?_, c, hc, before, hbefore, hcomes⟩
    have hlacked := hcomes.lacked
    rw [has_append, Bool.or_eq_false_iff] at hlacked
    exact hlacked.1
  · have hasked (env : Entries String) : asked c.world env c.request = .ok [] := by
      unfold asked
      rw [huse]
      rfl
    rw [Process.call_result, Process.call_result]
    unfold merged
    rw [hasked, hasked]
  · by_contra hne
    obtain ⟨c, -, entry, hentry, hcomes⟩ := exists_first hne
    obtain ⟨later, hrefused, haccepted⟩ := noticed hcomes
    have hhas : Entries.has entry.1 (p.env ++ gainedBy p.env calls) = true := by
      rw [has_append, Bool.or_eq_true]
      exact .inr (Entries.has_iff.mpr (List.mem_map_of_mem hentry))
    have hsame := h later
    have hfirst := hrefused p.held
    have hlater := haccepted (p.after calls).held _ hhas
    rw [← hafter] at hlater
    rw [hlater, hfirst] at hsame
    cases hsame
  · rw [Process.call_result, Process.call_result, hafter, h, List.append_nil]

/-- A machine with two files of variables, each with a time limit of its own. -/
def twoFiles : World :=
  { World.bare with
    files := (FileTree.empty.add ["a.env"]
      (.file "ESLINT_BRIDGE_ENGINE__TIMEOUT_S=5\n".toUTF8 true true)).add ["b.env"]
      (.file "ESLINT_BRIDGE_ENGINE__TIMEOUT_S=7\n".toUTF8 true true) }

/-- A call there, on a loader of its own, that names one of the files. -/
def naming (loader : Nat) (path : String) : Call :=
  ⟨twoFiles, loader, ⟨none, true, [], some path⟩⟩

/-- The time limit that a call comes to, if it comes to one. -/
def limit? (result : Except Fault Settings) : Option Int :=
  result.toOption.bind fun settings => (settings.value .timeout).intWorth?

/-- **The file of an earlier call decides a later one** that names another: the limit is that of the
    first file, where the call as the first one comes to that of its own. -/
theorem earlier_file_decides :
    limit? (((Process.start []).after [naming 0 "/a.env"]).call (naming 1 "/b.env")).1 = some 5 ∧
      limit? ((Process.start []).call (naming 1 "/b.env")).1 = some 7 := by
  decide +kernel

end LintHost.Loader
