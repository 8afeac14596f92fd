import LintHost.Proofs.Action
import LintHost.Proofs.Variables
import LintHost.Settings.Load

/-!
# What loading settings comes to

The steps of loading change the settings, the environment and the log as they go. What they come to
is a function of the world, of the environment before and of the request:

* `Loader.base`: the settings of the file, or the standard ones;
* `Loader.supplied`: the environment with the variables of a file added;
* `Loader.merged`: all layers one over the other;
* `Loader.gained`: the variables that loading adds to the environment, also where it fails;
* `load_spec`: loading gives the merged layers if they are accepted, whatever was loaded before.
-/

namespace LintHost.Loader

variable {α β : Type} {w : World}

/-! ## 1. Running the parts -/

@[simp] theorem run_pure (a : α) (loading : Loading) : run (pure a) w loading = (.ok a, loading) :=
  rfl

@[simp] theorem run_throw (fault : Fault) (loading : Loading) :
    run (throw fault : Loader α) w loading = (.error fault, loading) := rfl

@[simp] theorem run_keep (settings : Settings) (loading : Loading) :
    run (keep settings) w loading = (.ok ⟨⟩, { loading with settings := settings }) := rfl

@[simp] theorem run_ofExcept (result : Except Fault α) (loading : Loading) :
    run (ofExcept result) w loading = (result, loading) := by
  cases result <;> rfl

theorem run_bind_ok {x : Loader α} {f : α → Loader β} {loading after : Loading} {a : α}
    (h : run x w loading = (.ok a, after)) : run (x >>= f) w loading = run (f a) w after := by
  unfold run at h ⊢
  rw [ReaderT.run_bind, ExceptT.run_bind, StateT.run_bind, h]
  rfl

theorem run_bind_error {x : Loader α} {f : α → Loader β} {loading after : Loading} {fault : Fault}
    (h : run x w loading = (.error fault, after)) :
    run (x >>= f) w loading = (.error fault, after) := by
  unfold run at h ⊢
  rw [ReaderT.run_bind, ExceptT.run_bind, StateT.run_bind, h]
  rfl

theorem run_read_bind {f : World → Loader β} {loading : Loading} :
    run (read >>= f) w loading = run (f w) w loading := rfl

theorem run_get_bind {f : Loading → Loader β} {loading : Loading} :
    run (get >>= f) w loading = run (f loading) w loading := rfl

/-! ## 2. The layers -/

/-- The settings of the file, or the standard ones if there is none. -/
def base (w : World) : Option String → Except Fault Settings
  | none | some "" => .ok .standard
  | some path => settingsIn w path

theorem base_some {path : String} (h : path ≠ "") : base w (some path) = settingsIn w path := by
  unfold base
  split
  · contradiction
  · rename_i heq
    exact absurd (Option.some.inj heq) h
  · rename_i heq
    rw [Option.some.inj heq]

/-- Why a variable of a file was refused, as a fault. -/
def refused : EnvFile.Refusal → Fault
  | .embeddedNull => .value .embeddedNull
  | .badName => .value .variableName

/-- The environment with the variables of a file added. -/
def supplied (w : World) (env : Entries String) (path : String) : Except Fault (Entries String) :=
  if switchedOff env then .ok env
  else variableText w path >>= fun text =>
    match EnvFile.added env text with
    | (env, none) => .ok env
    | (_, some refusal) => .error (refused refusal)

/-- The variables that a file adds to an environment, as far as an environment can hold them. -/
def gainedFrom (w : World) (env : Entries String) (path : String) : Entries String :=
  if switchedOff env then []
  else match variableText w path with
    | .ok text => EnvFile.holdable (EnvFile.fresh env text)
    | .error _ => []

theorem supplied_gained {env env' : Entries String} {path : String}
    (h : supplied w env path = .ok env') : env' = env ++ gainedFrom w env path := by
  unfold supplied at h
  unfold gainedFrom
  split
  · rename_i hoff
    rw [if_pos hoff] at h
    rw [List.append_nil]
    exact (Except.ok.inj h).symm
  · rename_i hon
    rw [if_neg hon] at h
    obtain ⟨text, htext, h⟩ := Except.bind_eq_ok h
    rw [htext]
    rw [EnvFile.added_eq] at h
    split at h
    · rename_i heq
      obtain ⟨rfl, -⟩ := Prod.mk.inj heq
      exact (Except.ok.inj h).symm
    · cases h

/-- What is added to an environment comes from the text of the file. -/
theorem mem_gainedFrom {env : Entries String} {path : String} {entry : String × String}
    (h : entry ∈ gainedFrom w env path) : switchedOff env = false ∧
      ∃ text, variableText w path = .ok text ∧ entry ∈ EnvFile.fresh env text := by
  unfold gainedFrom at h
  split at h
  · cases h
  · rename_i hon
    split at h
    · rename_i text htext
      exact ⟨Bool.eq_false_iff.mpr hon, text, htext, (List.takeWhile_sublist _).subset h⟩
    · cases h

/-- The variables that are asked for settings. -/
def asked (w : World) (env : Entries String) (request : Request) :
    Except Fault (Entries String) :=
  if request.useEnv then supplied w env (request.envFile.getD w.host.envFile) else .ok []

/-- The environment that loading leaves behind. -/
def left (w : World) (env : Entries String) (request : Request) : Except Fault (Entries String) :=
  if request.useEnv then supplied w env (request.envFile.getD w.host.envFile) else .ok env

/-- The variables that loading adds to an environment; it asks for them after the file. -/
def gained (w : World) (env : Entries String) (request : Request) : Entries String :=
  match base w request.file with
  | .ok _ =>
    if request.useEnv then gainedFrom w env (request.envFile.getD w.host.envFile) else []
  | .error _ => []

/-- All layers one over the other, not yet checked. -/
def merged (w : World) (env : Entries String) (request : Request) : Except Fault Settings := do
  let base ← base w request.file
  let asked ← asked w env request
  return (base.withEnvironment asked).withArguments request.arguments

theorem file_run (path : String) (loading : Loading) :
    (∃ fault, settingsIn w path = .error fault ∧
      (file path).run w loading = (.error fault, loading)) ∨
    ∃ settings log, settingsIn w path = .ok settings ∧
      (file path).run w loading = (.ok ⟨⟩, { loading with settings := settings, log := log }) := by
  unfold file
  rw [run_read_bind]
  cases hfile : settingsIn w path with
  | error fault => exact .inl ⟨fault, rfl, run_bind_error (run_ofExcept _ _)⟩
  | ok settings =>
    rw [run_bind_ok (run_ofExcept _ _), run_bind_ok (run_keep _ _)]
    exact .inr ⟨settings, _, rfl, rfl⟩

theorem envFile_run (path : String) (loading : Loading) :
    ∃ result log, (envFile path).run w loading = (result,
        { loading with env := loading.env ++ gainedFrom w loading.env path, log := log }) ∧
      ((∃ fault, supplied w loading.env path = .error fault ∧ result = .error fault) ∨
        supplied w loading.env path = .ok (loading.env ++ gainedFrom w loading.env path) ∧
          result = .ok ⟨⟩) := by
  unfold envFile supplied gainedFrom
  rw [run_get_bind]
  split
  · rw [List.append_nil]
    exact ⟨_, _, rfl, .inr ⟨rfl, rfl⟩⟩
  · rw [run_read_bind]
    cases htext : variableText w path with
    | error fault =>
      dsimp only
      rw [List.append_nil]
      exact ⟨_, _, run_bind_error (run_ofExcept _ _), .inl ⟨fault, rfl, rfl⟩⟩
    | ok text =>
      rw [run_bind_ok (run_ofExcept _ _), run_get_bind, Except.ok_bind, EnvFile.added_eq]
      dsimp only
      cases EnvFile.refusedAmong? (EnvFile.fresh loading.env text) with
      | none => exact ⟨_, _, rfl, .inr ⟨rfl, rfl⟩⟩
      | some refusal => cases refusal <;> exact ⟨_, _, rfl, .inl ⟨_, rfl, rfl⟩⟩

/-! ## 3. Loading -/

/-- The settings, if they are accepted. -/
def accepted (settings : Settings) : Except Fault Settings := settings.check.map fun _ => settings

theorem accepted_eq_ok {settings settings' : Settings} (h : accepted settings = .ok settings') :
    settings.check = .ok () ∧ settings' = settings := by
  unfold accepted at h
  cases hcheck : settings.check with
  | ok done =>
    rw [hcheck] at h
    exact ⟨rfl, (Except.ok.inj h).symm⟩
  | error fault =>
    rw [hcheck] at h
    cases h

/-- The last steps, from the layers below the arguments on. -/
theorem last_run (entries : Entries Value) (loading : Loading) :
    (do
      arguments entries
      let settings := (← get).settings
      ofExcept settings.check
      return settings : Loader Settings).run w loading =
      (accepted (loading.settings.withArguments entries),
        { loading with settings := loading.settings.withArguments entries }) := by
  have harguments : (arguments entries).run w loading =
    (.ok ⟨⟩, { loading with settings := loading.settings.withArguments entries }) := rfl
  rw [run_bind_ok harguments, run_get_bind]
  dsimp only
  unfold accepted
  cases hcheck : (loading.settings.withArguments entries).check with
  | error fault => rw [run_bind_error (run_ofExcept _ _)]; rfl
  | ok done => rw [run_bind_ok (run_ofExcept _ _)]; rfl

/-- The steps after the file. -/
theorem rest_run (request : Request) (loading : Loading) :
    ∃ after, (do
      if request.useEnv then
        envFile (request.envFile.getD (← read).host.envFile)
        environment
      arguments request.arguments
      let settings := (← get).settings
      ofExcept settings.check
      return settings : Loader Settings).run w loading =
      (asked w loading.env request >>= fun asked =>
        accepted ((loading.settings.withEnvironment asked).withArguments request.arguments),
        after) ∧
      after.env = loading.env ++ if request.useEnv then
        gainedFrom w loading.env (request.envFile.getD w.host.envFile) else [] := by
  unfold asked
  dsimp only
  cases huse : request.useEnv with
  | false =>
    simp only [Bool.false_eq_true, if_false, List.append_nil]
    exact ⟨_, last_run _ _, rfl⟩
  | true =>
    simp only [if_true]
    rw [run_read_bind]
    obtain ⟨result, log, hrun, ⟨fault, hsupplied, rfl⟩ | ⟨hsupplied, rfl⟩⟩ :=
      envFile_run (w := w) (request.envFile.getD w.host.envFile) loading
    · rw [run_bind_error hrun, hsupplied]
      exact ⟨_, rfl, rfl⟩
    · rw [hsupplied, run_bind_ok hrun]
      generalize loading.env ++ gainedFrom w loading.env (request.envFile.getD w.host.envFile) = env
      have henvironment : environment.run w { loading with env := env, log := log } =
        (.ok ⟨⟩, ⟨loading.settings.withEnvironment env, env, log⟩) := rfl
      rw [run_bind_ok henvironment, Except.ok_bind, last_run]
      exact ⟨_, rfl, rfl⟩

theorem merged_accepted (env : Entries String) (request : Request) :
    (merged w env request >>= accepted) = base w request.file >>= fun base =>
      asked w env request >>= fun asked =>
        accepted ((base.withEnvironment asked).withArguments request.arguments) := by
  unfold merged
  cases base w request.file with
  | error fault => rfl
  | ok base => cases asked w env request <;> rfl

/-- **Loading gives the merged layers if they are accepted**, whatever was loaded before, and leaves
    the environment with what was added to it. -/
theorem load_spec (request : Request) (loading : Loading) :
    ∃ after, (load request).run w loading = (merged w loading.env request >>= accepted, after) ∧
      after.env = loading.env ++ gained w loading.env request := by
  obtain ⟨afterStandard, hstandard, hleft⟩ :=
    rest_run (w := w) request { loading with settings := .standard }
  dsimp only at hstandard hleft
  rw [merged_accepted]
  unfold load gained
  -- the settings of an earlier load are forgotten here
  rw [run_bind_ok (run_keep _ _)]
  dsimp only
  split
  · rename_i hfile
    rw [hstandard, hfile]
    exact ⟨afterStandard, rfl, hleft⟩
  · rename_i hfile
    rw [hstandard, hfile]
    exact ⟨afterStandard, rfl, hleft⟩
  · rename_i path hne hpath
    rw [hpath, base_some hne]
    rcases file_run (w := w) path { loading with settings := .standard } with
      ⟨fault, hfile, hrun⟩ | ⟨settings, log, hfile, hrun⟩
    · rw [run_bind_error hrun, hfile]
      exact ⟨_, rfl, (List.append_nil _).symm⟩
    · obtain ⟨after, hrest, hleft⟩ :=
        rest_run (w := w) request { loading with settings := settings, log := log }
      dsimp only at hrest
      rw [run_bind_ok hrun, hfile, Except.ok_bind, hrest]
      exact ⟨after, rfl, hleft⟩

/-- Where nothing fails before the environment is asked, it is left as it was asked. -/
theorem load_run (request : Request) (loading : Loading) :
    ∃ after, (load request).run w loading = (merged w loading.env request >>= accepted, after) ∧
      ∀ settings, base w request.file = .ok settings →
        ∀ env, left w loading.env request = .ok env → after.env = env := by
  obtain ⟨after, hrun, hafter⟩ := load_spec (w := w) request loading
  refine ⟨after, hrun, fun settings hbase env hleft => ?_⟩
  unfold gained at hafter
  rw [hbase] at hafter
  dsimp only at hafter
  unfold left at hleft
  split at hleft
  · rename_i huse
    rw [if_pos huse] at hafter
    rw [hafter, supplied_gained hleft]
  · rename_i huse
    rw [if_neg huse, List.append_nil] at hafter
    rw [hafter, Except.ok.inj hleft]

theorem load_result (request : Request) (loading : Loading) :
    ((load request).run w loading).1 = merged w loading.env request >>= accepted := by
  obtain ⟨after, hrun, -⟩ := load_run (w := w) request loading
  rw [hrun]

end LintHost.Loader
