import LintHost.Proofs.Action
import LintHost.Proofs.CommandWords
import LintHost.Proofs.EngineChild
import LintHost.Proofs.Writing

/-!
# How a command runs

All commands begin alike: the words in front decide the settings, these the log, the policy and the
context. Then each reads its own words and performs its task. This file parts the two, so that what
two commands do can be compared from the same point on.

* `Stage`, `stage`: what stands ready when the words after the command are read;
* `Staged`, `staged`: how a run may end before that;
* `runCommand_eq`, `run_reached`: the run of a command from there on;
* `Stage.finish_eq`: the answer of a task is settled in the world that the task has left;
* `Outcome.Shows`, `Stage.shows`: a task that only shows something has it shown;
* `keeps_perform`: what a task keeps, whatever it is;
* `sent_runs_engine`: of the children of a run, only engines are sent something.
-/

namespace LintHost.CommandLine

open LintHost.Action LintHost.Path

variable {m : Machine} {w : World}

/-! ## 1. Before the words after the command -/

/-- What stands ready for a task: the machine, what the settings have decided, and the outcome of a
    run that would end here. -/
structure Stage where
  world : World
  prepared : Prepared
  outcome : Outcome

/-- What comes before the words after the command, or the outcome of a run that ends there. -/
def stage (w : World) (globals : Globals) : Except Outcome Stage :=
  let request : Loader.Request := ⟨globals.config.map (·.text), true, globals.arguments, none⟩
  let (loaded, loading) := (Loader.load request).run w (.start w.env)
  let outcome : Outcome :=
    ⟨.misused, Log.Setup.initial.consoleText loading.log, w.files, [], []⟩
  match loaded with
  | .error fault => .error { outcome with ending := .ofFault fault }
  | .ok settings =>
    match prepare { w with env := loading.env } settings outcome with
    | (.error fault, outcome) => .error { outcome with ending := .ofFault fault }
    | (.ok prepared, outcome) =>
      .ok ⟨{ w with env := loading.env, files := outcome.files }, prepared, outcome⟩

/-- What a run does with the words after the command. -/
def Stage.finish (stage : Stage) (command : Command) (words : List String) (input : String) :
    Outcome :=
  match Task.ofWords stage.world command words with
  | .error ending => { stage.outcome with ending := ending }
  | .ok task => performed stage.world stage.prepared input task stage.outcome

theorem runCommand_eq (globals : Globals) (command : Command) (words : List String)
    (input : String) : runCommand w globals command words input =
      match stage w globals with
      | .error outcome => outcome
      | .ok stage => stage.finish command words input := by
  unfold runCommand stage
  dsimp only
  generalize (Loader.load ⟨globals.config.map (·.text), true, globals.arguments, none⟩).run w
    (.start w.env) = result
  obtain ⟨loaded, loading⟩ := result
  cases loaded with
  | error fault => rfl
  | ok settings =>
    dsimp only
    generalize prepare { w with env := loading.env } settings _ = ready
    obtain ⟨prepared, outcome⟩ := ready
    cases prepared <;> rfl

/-- What is known of the machine and the outcome when the words after the command are read: nothing
    was started, and the host, the working directory and the children's answers are the same. -/
structure Stage.Sound (w : World) (stage : Stage) : Prop where
  host : stage.world.host = w.host
  cwd : stage.world.cwd = w.cwd
  answer : stage.world.answer = w.answer
  files : stage.outcome.files = stage.world.files
  started : stage.outcome.started = []

theorem prepare_started {settings : Settings} {outcome after : Outcome}
    {prepared : Except Fault Prepared} (h : prepare w settings outcome = (prepared, after)) :
    after.started = outcome.started := by
  unfold prepare at h
  split at h
  · cases h
    rfl
  · cases h
    rfl

/-- **How what comes before the words after the command ends**: no settings are loaded, or what they
    decide is not to be had, or everything stands ready. What was logged is all that differs until
    the log is opened. -/
inductive Staged (w : World) : Except Outcome Stage → Prop
  | unsettled (fault : Fault) (logged : String) :
    Staged w (.error ⟨.ofFault fault, logged, w.files, [], []⟩)
  | unprepared {env : Entries String} {settings : Settings} {logged : String} {fault : Fault}
    {outcome : Outcome} (h : prepare { w with env := env } settings
      ⟨.misused, logged, w.files, [], []⟩ = (.error fault, outcome)) :
    Staged w (.error { outcome with ending := .ofFault fault })
  | ready {env : Entries String} {settings : Settings} {logged : String} {prepared : Prepared}
    {outcome : Outcome} (h : prepare { w with env := env } settings
      ⟨.misused, logged, w.files, [], []⟩ = (.ok prepared, outcome)) :
    Staged w (.ok ⟨{ w with env := env, files := outcome.files }, prepared, outcome⟩)

theorem staged (globals : Globals) : Staged w (stage w globals) := by
  unfold stage
  dsimp only
  generalize (Loader.load ⟨globals.config.map (·.text), true, globals.arguments, none⟩).run w
    (.start w.env) = result
  obtain ⟨loaded, loading⟩ := result
  cases loaded with
  | error fault => exact .unsettled fault _
  | ok settings =>
    dsimp only
    split
    · exact .unprepared ‹_›
    · exact .ready ‹_›

theorem stage_sound {globals : Globals} {ready : Stage} (h : stage w globals = .ok ready) :
    ready.Sound w := by
  have hstaged := staged (w := w) globals
  rw [h] at hstaged
  cases hstaged with
  | ready hprepare =>
    have hstarted := prepare_started hprepare
    exact ⟨rfl, rfl, rfl, rfl, hstarted⟩

theorem stage_error {globals : Globals} {outcome : Outcome} (h : stage w globals = .error outcome) :
    outcome.started = [] := by
  have hstaged := staged (w := w) globals
  rw [h] at hstaged
  cases hstaged with
  | unsettled fault logged => rfl
  | unprepared hprepare => exact prepare_started hprepare

/-- The words in front of a command bring a run to this stage. -/
def Reaches (w : World) (leading : List String) (ready : Stage) : Prop :=
  ∃ globals rest, Globals.ofWords w leading = .ok (globals, rest) ∧ stage w globals = .ok ready

theorem Reaches.sound {leading : List String} {ready : Stage} (h : Reaches w leading ready) :
    ready.Sound w := by
  obtain ⟨globals, rest, -, hstage⟩ := h
  exact stage_sound hstage

/-- Words in front of a command bring a run to a stage of which something holds. -/
def reaches? (w : World) (leading : List String) (holds : Stage → Bool) : Bool :=
  match Globals.ofWords w leading with
  | .error _ => false
  | .ok (globals, _) => match stage w globals with
    | .error _ => false
    | .ok ready => holds ready

theorem exists_of_reaches? {leading : List String} {holds : Stage → Bool}
    (h : reaches? w leading holds = true) :
    ∃ ready, Reaches w leading ready ∧ holds ready = true := by
  unfold reaches? at h
  split at h
  · cases h
  · rename_i globals rest hglobals
    split at h
    · cases h
    · rename_i ready hstage
      exact ⟨ready, ⟨globals, rest, hglobals, hstage⟩, h⟩

/-- **From the stage on** the words in front of the command do not matter. -/
theorem run_reached {leading : List String} (hleading : Leading leading) {ready : Stage}
    (h : Reaches w leading ready) (command : Command) (words : List String) (input : String) :
    run w (leading ++ command.name :: words) input = ready.finish command words input := by
  obtain ⟨globals, rest, hglobals, hstage⟩ := h
  rw [run_command hleading, hglobals]
  dsimp only
  rw [runCommand_eq, hstage]

/-! ## 2. Performing a task -/

/-- A run shows a value. -/
def Outcome.Shows (outcome : Outcome) (payload : Json) : Prop :=
  ∃ text, outcome.ending = .shown text ∧ Json.write Json.display payload = .ok text

theorem finish_started (payload : Json) (outcome : Outcome) :
    (settle.finish payload outcome).started = outcome.started := by
  unfold settle.finish
  cases written Json.display payload <;> rfl

theorem finish_files (payload : Json) (outcome : Outcome) :
    (settle.finish payload outcome).files = outcome.files := by
  unfold settle.finish
  cases written Json.display payload <;> rfl

theorem Ending.ofFault_ne_shown (fault : Fault) (text : String) : ofFault fault ≠ .shown text := by
  cases fault <;> exact nofun

theorem settle_started (world : World) (answer : Answer) (outcome : Outcome) :
    (settle world answer outcome).started = outcome.started := by
  unfold settle
  split
  · exact finish_started _ _
  · split
    · rfl
    · exact finish_started _ _

theorem finish_shows {payload : Json} (h : payload.Writable) (outcome : Outcome) :
    (settle.finish payload outcome).Shows payload := by
  unfold settle.finish written
  cases hwrite : Json.write Json.display payload with
  | error fault => exact absurd h ((Json.write_fails _ _).mp ⟨fault, hwrite⟩)
  | ok text => exact ⟨text, rfl, hwrite⟩

namespace Stage

/-- The machine that a task runs on. -/
def machine (ready : Stage) : Machine := ⟨ready.world, ready.prepared.setup⟩

theorem machine_world (ready : Stage) : ready.machine.world = ready.world := rfl

/-- The run of a task. -/
def perform (ready : Stage) (input : String) (task : Task) : Except Fault Answer × Session :=
  (task.perform ready.prepared.policy input).run ready.machine (.start ready.prepared.context)

/-- The world after a task, with the log of all that was told. -/
def left (ready : Stage) (input : String) (task : Task) : World :=
  ready.machine.now (ready.perform input task).2

/-- What a run makes of its task, which comes to an answer or a fault: an answer is settled. -/
def conclude (world : World) (outcome : Outcome) : Except Fault Answer → Outcome
  | .ok answer => settle world answer outcome
  | .error fault => { outcome with ending := .ofFault fault }

theorem conclude_started (world : World) (outcome : Outcome) (result : Except Fault Answer) :
    (conclude world outcome result).started = outcome.started := by
  cases result with
  | ok answer => exact settle_started world answer outcome
  | error fault => rfl

/-- **The run of a task**: what was told is in the log, and the answer is settled after that. -/
theorem finish_eq (ready : Stage) {command : Command} {words : List String} {task : Task}
    (htask : Task.ofWords ready.world command words = .ok task) (input : String) :
    ∃ outcome, outcome.files = (ready.left input task).files ∧
      outcome.started = (ready.perform input task).2.started ∧
      ready.finish command words input =
        conclude (ready.left input task) outcome (ready.perform input task).1 := by
  unfold finish
  rw [htask]
  dsimp only [performed]
  rw [left, show (task.perform ready.prepared.policy input).run
    ⟨ready.world, ready.prepared.setup⟩ (.start ready.prepared.context) =
      ready.perform input task from rfl]
  generalize ready.perform input task = result
  obtain ⟨answer, session⟩ := result
  exact ⟨{ ready.outcome with
    started := session.started
    logged := ready.outcome.logged ++ ready.prepared.setup.consoleText session.log
    files := (ready.machine.now session).files }, rfl, rfl, by cases answer <;> rfl⟩

/-- A task that only shows something has it shown. -/
theorem shows {ready : Stage} {command : Command} {words : List String}
    {input : String} {task : Task} (htask : Task.ofWords ready.world command words = .ok task)
    {payload : Json} (hanswer : (ready.perform input task).1 = .ok (.showing payload))
    (hpayload : payload.Writable) : (ready.finish command words input).Shows payload := by
  obtain ⟨outcome, -, -, hfinish⟩ := ready.finish_eq htask input
  rw [hfinish, hanswer]
  exact finish_shows hpayload outcome

/-- A run that starts children has read its words and performs the task. -/
theorem Sound.of_started {ready : Stage} (h : ready.Sound w) {command : Command}
    {words : List String} {input : String} {r : Child.Request}
    (hr : r ∈ (ready.finish command words input).started) :
    ∃ task, Task.ofWords ready.world command words = .ok task ∧
      r ∈ (ready.perform input task).2.started := by
  cases htask : Task.ofWords ready.world command words with
  | error ending =>
    rw [finish, htask] at hr
    dsimp only at hr
    rw [h.started] at hr
    cases hr
  | ok task =>
    obtain ⟨outcome, -, hstarted, hfinish⟩ := ready.finish_eq htask input
    rw [hfinish, conclude_started, hstarted] at hr
    exact ⟨task, rfl, hr⟩

end Stage

theorem runCommand_started {globals : Globals} {command : Command} {words : List String}
    {input : String} {r : Child.Request}
    (hr : r ∈ (runCommand w globals command words input).started) :
    ∃ ready, stage w globals = .ok ready ∧ r ∈ (ready.finish command words input).started := by
  rw [runCommand_eq] at hr
  cases hstage : stage w globals with
  | error outcome =>
    rw [hstage] at hr
    dsimp only at hr
    rw [stage_error hstage] at hr
    cases hr
  | ok ready =>
    rw [hstage] at hr
    exact ⟨ready, rfl, hr⟩

/-- **A run that starts children** has come to a stage. -/
theorem reaches_of_started {leading : List String} (hleading : Leading leading) {command : Command}
    {words : List String} {input : String} {r : Child.Request}
    (hr : r ∈ (run w (leading ++ command.name :: words) input).started) :
    ∃ ready, Reaches w leading ready ∧ r ∈ (ready.finish command words input).started := by
  rw [run_command hleading] at hr
  split at hr
  · cases hr
  · rename_i globals rest hglobals
    obtain ⟨ready, hstage, hr⟩ := runCommand_started hr
    exact ⟨ready, ⟨globals, rest, hglobals, hstage⟩, hr⟩

/-! ## 3. What tasks keep -/

/-- The directory that is searched for a file. -/
def fileDir (w : World) (file : PartPath) : String := directory (absolute w.cwd file.text)

section FileOf

variable {α : Type} {file : PartPath} {f : String → Action α} {s : Session}

theorem run_directoryOf_bind :
    (directoryOf file >>= f).run m s = (f (fileDir m.world file)).run m s := by
  refine run_bind_ok ?_
  rw [directoryOf, wholePath, run_bind_ok (run_absolute_now _ _)]
  rfl

theorem run_wholePath_bind :
    (wholePath file >>= f).run m s = (f (absolute m.world.cwd file.text)).run m s :=
  run_bind_ok (run_absolute_now _ _)

variable {P E : Session → Prop} {Q : α → Session → Prop}

theorem ends_directoryOf_bind (h : Ends m P (f (fileDir m.world file)) Q E) :
    Ends m P (directoryOf file >>= f) Q E := by
  refine ⟨fun s hs => ?_⟩
  rw [run_directoryOf_bind]
  exact h.outcome s hs

theorem ends_wholePath_bind (h : Ends m P (f (absolute m.world.cwd file.text)) Q E) :
    Ends m P (wholePath file >>= f) Q E := by
  refine ⟨fun s hs => ?_⟩
  rw [run_wholePath_bind]
  exact h.outcome s hs

end FileOf

section Keeping

variable {P : Session → Prop} (hP : Locates m (Same P) (Same P))
  (hrefresh : ∀ s dir log, P s → P { s with context := s.context.pointedAt dir, log := log })
  (hnoted : ∀ s cwd, P s → P (s.notedAt cwd))
  (hstarts : ∀ s r log, P s → r.RunsEngine → P { s with started := s.started ++ [r], log := log })
include hP

theorem keeps_optionsFor (policy : Policy) (file : PartPath) (fix : Bool) :
    Ends m P (optionsFor policy file fix) (fun _ => P) P := by
  unfold optionsFor
  refine ends_directoryOf_bind ((hP.configFile _).keeps.bind fun config => ?_)
  exact (hP.options _ policy [] _ config).keeps

include hrefresh

theorem keeps_forDirectory (dir : String) (policy : Policy) (project : Option String) :
    Ends m P (Package.forDirectory dir policy project) (fun _ => P) P :=
  (alike_forDirectory hP.toSearches hP (alike_refresh hrefresh) dir policy project).keeps

include hnoted hstarts

theorem keeps_job (job : Job) (policy : Policy) : Ends m P (job.run policy) (fun _ => P) P := by
  have hpackage : Ends m P (Package.forDirectory (job.fileDir m.world) policy job.projectPath)
      (fun _ s => P s ∧ True) P :=
    (keeps_forDirectory hP hrefresh _ policy _).mono (fun _ h => h) (fun _ _ h => ⟨h, trivial⟩)
      fun _ h => h
  exact ends_job hP.toSearches hnoted job policy hpackage
    fun _ s r log _ _ hs hr => hstarts s r log hs hr.command

theorem keeps_rulesFor (policy : Policy) (file : PartPath) (project : Option String) :
    Ends m P (rulesFor policy file project) (fun _ => P) P := by
  have hcall (engine : Engine) : Ends m P (engine.call .rules "" none) (fun _ => P) P :=
    ends_call hP.toSearches fun s r log hs hr => hstarts s r log hs hr.command
  have hoptions := keeps_optionsFor hP policy file false
  unfold rulesFor
  refine ends_directoryOf_bind ((keeps_forDirectory hP hrefresh _ policy project).bind
    fun package => ends_wholePath_bind ?_)
  have hworking := ends_workplace hP.toSearches hnoted (fileDir m.world file)
    (absolute m.world.cwd file.text) policy project
  refine Ends.discard_bind hworking fun working => ?_
  refine Ends.bind (hoptions.mono (fun _ h => h.1) (fun _ _ h => h) fun _ h => h) fun options =>
    ⟨fun s hs => ?_⟩
  rw [Adapter.construct, bind_assoc, run_context_bind, pure_bind, Adapter.rules_new,
    map_eq_pure_bind]
  exact ((hcall _).bind fun _ => .pure fun _ h => h).outcome s hs

/-- **What a task keeps**: a property that neither resolving nor starting engines breaks. -/
theorem keeps_perform (policy : Policy) (input : String) (task : Task) :
    Ends m P (task.perform policy input) (fun _ => P) P := by
  have hpackage := keeps_forDirectory hP hrefresh
  have hjob := keeps_job hP hrefresh hnoted hstarts
  have hrules := keeps_rulesFor hP hrefresh hnoted hstarts
  have hresult {α : Type} (result : Except Fault α) :
      Ends m P (Action.ofExcept result) (fun _ => P) P := .ofExcept (fun _ _ _ h => h) fun _ h => h
  have hlint (file : PartPath) (project : Option String) (fix write : Bool) (contents : String) :
      Ends m P (lintText policy file project fix write contents) (fun _ => P) P :=
    (hjob _ policy).bind fun _ => .pure fun _ h => h
  unfold Task.perform
  cases task with
  | locate file project =>
    exact ends_directoryOf_bind ((hpackage _ policy project).bind fun _ => .pure fun _ h => h)
  | findConfig file =>
    exact ends_directoryOf_bind ((hP.configFile _).keeps.bind fun _ => .pure fun _ h => h)
  | context file project =>
    have hworking := ends_workplace hP.toSearches hnoted (fileDir m.world file)
      (absolute m.world.cwd file.text) policy project
    exact ends_directoryOf_bind (ends_wholePath_bind (hworking.bind fun _ =>
      .pure fun _ h => h.1))
  | options file fix =>
    exact (keeps_optionsFor hP policy file fix).bind fun _ => .pure fun _ h => h
  | lint file project fix write stdin =>
    cases stdin with
    | true => exact hlint file project fix write _
    | false =>
      exact .now_bind fun _ => (hresult _).bind fun contents => hlint file project fix write contents
  | rules file project previous save =>
    exact (hrules policy file project).bind fun _ => .now_bind fun _ => hresult _
  | debug file project =>
    exact (hjob _ policy).bind fun _ => (hresult _).bind fun _ => .pure fun _ h => h

end Keeping

/-! ## 4. What children are sent -/

/-- **A child that is sent something runs an engine**, whatever the words and the command. -/
theorem sent_runs_engine {words : List String} {input : String} {r : Child.Request}
    (hr : r ∈ (run w words input).started) (hsent : r.input ≠ none) : r.RunsEngine := by
  unfold run at hr
  dsimp only at hr
  split at hr
  · cases hr
  · obtain ⟨ready, hstage, hr⟩ := runCommand_started hr
    obtain ⟨task, -, hr⟩ := (stage_sound hstage).of_started hr
    have hkeeps := keeps_perform (m := ready.machine) locates_attentive (fun _ _ _ h => h)
      (fun _ _ h => h) (fun _ _ _ hs hengine => hs.add rfl fun _ => hengine) ready.prepared.policy
      input task
    have hstart : Attentive (.start ready.prepared.context) := nofun
    exact hkeeps.session hstart r hr hsent

end LintHost.CommandLine
