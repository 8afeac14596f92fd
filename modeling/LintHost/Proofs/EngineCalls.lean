import LintHost.Proofs.Memo

/-!
# The engine calls of a job

A job resolves what it is run with and then, unless it only asks, calls an engine. This file follows
one run of a job and says which children it starts: whatever resolving starts is no engine, and an
engine that is called gets the request and the working directory that were resolved.

* `Job.Resolved.Fits`: what is resolved fits the job;
* `Job.Calls`: a child that calls the engine resolved for a job;
* `Engine.Starts`: a child that a call of an engine starts;
* `ends_job_settled`: what finding the copy of the linter brings about, and such children keep,
  holds after the job;
* `ends_job`: a property that both keep is kept by the job.
-/

namespace LintHost

open LintHost.Action

variable {m : Machine} {w : World}

/-! ## 1. Properties that operations keep -/

/-- Both sessions are one, and `P` holds of it. -/
def Same (P : Session → Prop) (s t : Session) : Prop := s = t ∧ P s

/-- One session sees one thing. -/
theorem sees_same {P : Session → Prop} (s t : Session) (h : Same P s t) : m.now s = m.now t := by
  rw [h.1]

/-- What one run keeps, two runs from the same session keep. -/
theorem alike_of_keeps {α : Type} {P : Session → Prop} {x : Action α}
    (h : ∀ s, P s → P (x.run m s).2) : Alike m (Same P) (Same P) x fun _ => Same P := by
  refine ⟨fun s t hst => ?_⟩
  obtain ⟨rfl, hs⟩ := hst
  have hafter := h s hs
  rcases hx : x.run m s with ⟨result, s'⟩
  rw [hx] at hafter
  cases result with
  | ok a => exact ⟨rfl, rfl, hafter⟩
  | error fault => exact ⟨rfl, rfl, hafter⟩

/-- What two runs from the same session bring about, one run brings about. -/
theorem Alike.ends {α : Type} {P Q E : Session → Prop} {x : Action α}
    (h : Alike m (Same E) (Same P) x fun _ => Same Q) : Ends m P x (fun _ => Q) E := by
  refine ⟨fun s hs => ?_⟩
  have h' := h.matched s s ⟨rfl, hs⟩
  rcases hx : x.run m s with ⟨result, s'⟩
  rw [hx] at h'
  cases result with
  | ok a => exact h'.2.2
  | error fault => exact h'.2.2

/-- What one session comes to. -/
theorem alike_of_run {α : Type} {P : Session → Prop} {x : Action α} {s : Session}
    (h : P (x.run m s).2) : Alike m (Same P) (Same (· = s)) x fun _ => Same P := by
  refine ⟨fun t t' ht => ?_⟩
  obtain ⟨rfl, rfl⟩ := ht
  rcases hx : x.run m t with ⟨result, t'⟩
  rw [hx] at h
  cases result with
  | ok a => exact ⟨rfl, rfl, h⟩
  | error fault => exact ⟨rfl, rfl, h⟩

/-- Whatever keeps two properties apart keeps both together. -/
theorem Searches.and {P P' : Session → Prop} (h : Searches m (Same P) (Same P))
    (h' : Searches m (Same P') (Same P')) :
    Searches m (Same fun s => P s ∧ P' s) (Same fun s => P s ∧ P' s) where
  fault := fun _ _ hst => hst
  sees := sees_same
  tell := fun source level message => alike_of_keeps fun _ hs =>
    ⟨(h.tell source level message).keeps.session hs.1,
      (h'.tell source level message).keeps.session hs.2⟩
  find := fun start names => alike_of_keeps fun _ hs =>
    ⟨(h.find start names).keeps.session hs.1, (h'.find start names).keeps.session hs.2⟩

theorem Locates.and {P P' : Session → Prop} (h : Locates m (Same P) (Same P))
    (h' : Locates m (Same P') (Same P')) :
    Locates m (Same fun s => P s ∧ P' s) (Same fun s => P s ∧ P' s) where
  toSearches := h.toSearches.and h'.toSearches
  bundled := alike_of_keeps fun _ hs =>
    ⟨h.bundled.keeps.session hs.1, h'.bundled.keeps.session hs.2⟩
  nodePrefix := alike_of_keeps fun _ hs =>
    ⟨h.nodePrefix.keeps.session hs.1, h'.nodePrefix.keeps.session hs.2⟩

/-- A property that does not look at the log and at what looking upwards has found. -/
theorem searches_of_frame {P : Session → Prop}
    (h : ∀ s memo log, P s → P { s with cache := { s.cache with finder := memo }, log := log }) :
    Searches m (Same P) (Same P) where
  fault := fun _ _ hst => hst
  sees := sees_same
  tell := fun _ _ _ => alike_of_keeps fun s hs => h s s.cache.finder _ hs
  find := fun start names => alike_of_keeps fun s hs => by
    obtain ⟨memo, hmemo⟩ := Finder.find_session (m := m) start names s
    rw [hmemo]
    exact h s memo s.log hs

/-- Looking things up changes neither the context nor the children. -/
theorem searches_still (s : Session) :
    Searches m (Same fun t => t.context = s.context ∧ t.started = s.started)
      (Same fun t => t.context = s.context ∧ t.started = s.started) :=
  searches_of_frame fun _ _ _ h => h

/-- A property that is kept where it becomes known where the bundled copy lies. -/
theorem alike_bundledPath {P : Session → Prop}
    (h : ∀ s, s.cache.bundledPath = none → P s → P { s with cache := { s.cache with
      bundledPath := (NodeTools.bundled (m.now s) s.context.nodeToolsDir).toOption } }) :
    Alike m (Same P) (Same P) NodeTools.bundledPath fun _ => Same P := by
  refine alike_of_keeps fun s hs => ?_
  cases hm : s.cache.bundledPath with
  | some path =>
    rw [NodeTools.bundledPath_known hm]
    exact hs
  | none =>
    rw [NodeTools.bundledPath_unknown_now hm]
    exact h s hm hs

/-- A property that is kept where the search path is pointed elsewhere. -/
theorem alike_refresh {P : Session → Prop}
    (h : ∀ s dir log, P s → P { s with context := s.context.pointedAt dir, log := log })
    (dir : Option String) : Alike m (Same P) (Same P) (discard (Package.refreshSearchPath dir))
      fun _ => Same P := by
  refine alike_of_keeps fun s hs => ?_
  obtain ⟨log, hrun⟩ := Package.refresh_run (m := m) dir s
  rw [hrun]
  exact h s dir log hs

/-- A property that is kept where the package manager is asked. -/
theorem alike_nodePrefix {P : Session → Prop}
    (h : ∀ s log, s.cache.nodePrefix = none → P s → P { s with
      cache := { s.cache with nodePrefix := (Npm.told m.world s.started s.context.env).toOption },
      started := s.started ++ Child.launched m.world (Npm.request m.world s.context.env), log := log }) :
    Alike m (Same P) (Same P) Npm.nodePrefix fun _ => Same P := by
  refine alike_of_keeps fun s hs => ?_
  cases hm : s.cache.nodePrefix with
  | some known =>
    rw [Npm.nodePrefix_known hm]
    exact hs
  | none =>
    obtain ⟨log, hrun⟩ := Npm.nodePrefix_unknown_now (m := m) hm
    rw [hrun]
    exact h s log hm hs

/-- A property that is kept where either becomes known. -/
theorem locates_of_frame {P : Session → Prop} (hP : Searches m (Same P) (Same P))
    (hbundled : ∀ s, s.cache.bundledPath = none → P s → P { s with cache := { s.cache with
      bundledPath := (NodeTools.bundled (m.now s) s.context.nodeToolsDir).toOption } })
    (hasked : ∀ s log, s.cache.nodePrefix = none → P s → P { s with
      cache := { s.cache with nodePrefix := (Npm.told m.world s.started s.context.env).toOption },
      started := s.started ++ Child.launched m.world (Npm.request m.world s.context.env), log := log }) :
    Locates m (Same P) (Same P) :=
  { hP with bundled := alike_bundledPath hbundled, nodePrefix := alike_nodePrefix hasked }

/-! ## 2. Resolving -/

/-- The directory of a job's file. -/
def Job.fileDir (w : World) (job : Job) : String :=
  Path.directory (Path.absolute w.cwd job.filePath)

/-- The working directory was chosen for the job, with some ignore file or none. -/
def Job.Resolved.Fits (w : World) (job : Job) (resolved : Job.Resolved) : Prop :=
  ∃ ignore, resolved.working = Workplace.choose w.cwd (job.fileDir w)
    (Path.absolute w.cwd job.filePath) ignore job.projectPath

/-- The session after noting a working directory. -/
def Session.notedAt (s : Session) (cwd : String) : Session :=
  { s with context := { s.context with cwd := some cwd } }

section Resolve

variable {P : Session → Prop} (hP : Searches m (Same P) (Same P))
  (hnoted : ∀ s cwd, P s → P (s.notedAt cwd))
include hP hnoted

theorem ends_workplace (fileDir filePath : String) (policy : Policy) (project : Option String) :
    Ends m P (Workplace.resolve fileDir filePath policy project)
      (fun working s => P s ∧ s.context.cwd = some working.cwd ∧
        ∃ ignore, working = Workplace.choose m.world.cwd fileDir filePath ignore project) P := by
  rw [Workplace.resolve]
  refine (hP.ignoreFile fileDir policy).keeps.bind fun ignore => ⟨fun s hs => ?_⟩
  rw [run_now_bind, m.now_cwd]
  dsimp only
  rw [run_bind_ok (run_modifyContext _ _), run_bind_ok (run_tell _ _ _ _)]
  exact ⟨(hP.tell _ _ _).keeps.session (hnoted s _ hs), rfl, ignore, rfl⟩

/-- **Resolving a job** whose copy of the linter is found as `B` says; from then on `P` holds. -/
theorem ends_resolve {P₀ E : Session → Prop} (hE : ∀ s, P s → E s) {B : Package → Prop} (job : Job)
    (policy : Policy)
    (hpackage : Ends m P₀ (Package.forDirectory (job.fileDir m.world) policy job.projectPath)
      (fun package s => P s ∧ B package) E) :
    Ends m P₀ (job.resolve policy) (fun resolved s => P s ∧
      s.context.cwd = some resolved.working.cwd ∧ B resolved.package ∧ resolved.Fits m.world job) E := by
  have hconfig := (hP.configFile (job.fileDir m.world)).keeps.mono (fun _ h => h) (fun _ _ h => h) hE
  have hworkplace := (ends_workplace hP hnoted (job.fileDir m.world) (Path.absolute m.world.cwd job.filePath)
    policy job.projectPath).mono (fun _ h => h) (fun _ _ h => h) hE
  rw [Job.resolve]
  refine ⟨fun s hs => ?_⟩
  rw [run_bind_ok (run_absolute_now _ _)]
  refine Ends.outcome (hpackage.bind fun package => .assume fun hB => ?_) s hs
  exact hconfig.bind fun config => hworkplace.bind fun working =>
    .pure fun s h => ⟨h.1, h.2.1, hB, h.2.2⟩

end Resolve

/-! ## 3. Calling the engine -/

/-- A child that calls the engine resolved for a job: it runs in the working directory and is sent
    the job's rules, and its text under the path seen from there. -/
structure Job.Calls (w : World) (job : Job) (resolved : Job.Resolved) (r : Child.Request) :
    Prop where
  command : ∃ node, r.command = [node, "-e", Engine.script]
  cwd : r.cwd = Child.directory w (some resolved.working.cwd)
  input : ∃ engine : Engine, engine.package = resolved.package ∧
    engine.options.rules = job.rules ∧ ∃ input, r.input = some input ∧ Json.write Json.wire
      (engine.requestOf .lint job.contents (some resolved.working.relativePath)) = .ok input

theorem Engine.words_script {node : Value} {words : List String}
    (h : Child.words? [node, .text "-e", .text Engine.script] = some words) :
    ∃ program, words = [program, "-e", Engine.script] := by
  cases node <;> simp [Child.words?] at h
  exact ⟨_, h.symm⟩

theorem Adapter.known_remember (adapter : Adapter) (number : Nat) (rules : Entries Json) :
    (adapter.remember number rules).known? number = some rules := by
  simp [remember, known?]

/-- A new adapter asks for the rules. -/
theorem Adapter.rules_new (package : Package) (engine : Engine) :
    (do return (← (Adapter.new package).rules engine).1) =
      (·.rules) <$> engine.call .rules "" none := by
  rw [rules, map_eq_pure_bind]
  exact bind_assoc _ _ _

/-- A child of an engine is started, unless the program is no text or the request is refused. -/
theorem ends_child {P : Session → Prop} (hP : Searches m (Same P) (Same P)) (node timeout : Value)
    (cwd : Option String) (env : Option (Entries String)) (input : String)
    (h : ∀ s program log, P s → P { s with
      started := s.started ++
        [⟨[program, "-e", Engine.script], Child.directory m.world cwd, env, timeout, some input⟩],
      log := log }) :
    Ends m P (Child.run [node, .text "-e", .text Engine.script] cwd env timeout (some input))
      (fun _ => P) P := by
  refine ⟨fun s hs => ?_⟩
  cases hwords : Child.words? [node, .text "-e", .text Engine.script] with
  | none =>
    rw [Child.run_other hwords]
    exact hs
  | some words =>
    obtain ⟨program, rfl⟩ := Engine.words_script hwords
    obtain ⟨message, hrun⟩ := Child.run_words_now (m := m) hwords cwd env timeout (some input) s
    rw [hrun]
    cases hrefusal : Child.refusal? m.world.host _ with
    | some fault =>
      rw [Child.reply_refused hrefusal, Child.launched_refused hrefusal, List.append_nil]
      exact (hP.tell Child.source .debug message).keeps.session hs
    | none =>
      rw [Child.reply_accepted hrefusal, Child.launched_accepted hrefusal]
      have hstarted := h s program (s.log ++ [⟨Child.source, Log.Level.debug.number, message⟩]) hs
      cases Child.ended m.world s.started _ with
      | ok result => exact hstarted
      | error fault => exact hstarted

/-- A child that a call of an engine starts: it gets the engine's working directory and environment
    and is sent the call's request. -/
structure Engine.Starts (w : World) (engine : Engine) (mode : Engine.Mode) (text : String)
    (file : Option String) (r : Child.Request) : Prop where
  command : ∃ node, r.command = [node, "-e", Engine.script]
  cwd : r.cwd = Child.directory w engine.cwd
  env : r.env = some engine.env
  input : ∃ input, r.input = some input ∧
    Json.write Json.wire (engine.requestOf mode text file) = .ok input

/-- **Calling an engine** starts such a child, if any. -/
theorem ends_call {P : Session → Prop} (hP : Searches m (Same P) (Same P)) {engine : Engine}
    {mode : Engine.Mode} {text : String} {file : Option String}
    (hstarts : ∀ s r log, P s → engine.Starts m.world mode text file r →
      P { s with started := s.started ++ [r], log := log }) :
    Ends m P (engine.call mode text file) (fun _ => P) P := by
  rw [Engine.call]
  refine ⟨fun s hs => ?_⟩
  rw [run_context_bind]
  split
  · exact hs
  · rename_i input hinput
    have hchild : Ends m P (Child.run [s.context.nodeExecutable, .text "-e", .text Engine.script]
        engine.cwd (some engine.env) s.context.timeout (some input)) (fun _ => P) P := by
      refine ends_child hP _ _ _ _ _ fun s' program log hs' => hstarts s' _ log hs' ?_
      exact ⟨⟨program, rfl⟩, rfl, rfl, input, rfl, hinput⟩
    exact (hchild.bind fun _ => .bind (.ofExcept (fun _ _ _ h => h) fun _ h => h) fun _ =>
      .bind (hP.tell _ _ _).keeps fun _ => .ofExcept (fun _ _ _ h => h) fun _ h => h).outcome s hs

/-- Putting options together keeps what looking for files keeps, and the options have the rules that
    were asked for. -/
theorem ends_build {P : Session → Prop} (hP : Searches m (Same P) (Same P)) (jobType : String)
    (policy : Policy) (rules : Entries Json) (fileDir : String) (config : Option String) :
    Ends m P (Engine.Options.build jobType policy rules fileDir config)
      (fun options s => P s ∧ options.rules = rules) P := by
  refine ⟨fun s hs => ?_⟩
  have hkeeps := (hP.options jobType policy rules fileDir config).keeps.outcome s hs
  rcases hrun : (Engine.Options.build jobType policy rules fileDir config).run m s with ⟨result, t⟩
  rw [hrun] at hkeeps
  cases result with
  | error fault => exact hkeeps
  | ok options =>
    obtain ⟨_, _, -, hrun⟩ := of_run_bind hrun
    obtain ⟨_, _, -, hrun⟩ := of_run_bind hrun
    obtain ⟨_, _, -, hrun⟩ := of_run_bind hrun
    cases hrun
    exact ⟨hkeeps, rfl⟩

section Lint

variable {P : Session → Prop} (hP : Searches m (Same P) (Same P)) {job : Job}
  {resolved : Job.Resolved} {N : Entries String → Prop}
  (hcalls : ∀ s r log env, P s → Job.Calls m.world job resolved r → r.env = some env → N env →
    P { s with started := s.started ++ [r], log := log })
include hP hcalls

/-- **Linting starts one child**, in the environment of the moment the engine is constructed: the
    rules are those that the lint itself reported. -/
theorem ends_lint (henv : ∀ s, P s → N s.context.env) (policy : Policy) :
    Ends m (fun s => P s ∧ s.context.cwd = some resolved.working.cwd) (job.lint policy resolved)
      (fun reply s => P s ∧ reply.debug = none) P := by
  have hboth := hP.and (searches_of_frame (m := m)
    (P := fun s => s.context.cwd = some resolved.working.cwd) fun _ _ _ h => h)
  rw [Job.lint]
  refine Ends.bind ((ends_build hboth _ _ _ _ _).mono (fun _ h => h) (fun _ _ h => h)
    fun _ h => h.1) fun options => ⟨fun s hs => ?_⟩
  obtain ⟨⟨hs, hcwd⟩, hrules⟩ := hs
  let engine : Engine := ⟨0, resolved.package, options, s.context.cwd, s.context.env⟩
  have hengine : ((Adapter.new resolved.package).construct 0 options).run m s = (.ok engine, s) :=
    run_context_bind _ s
  rw [run_bind_ok hengine]
  have hlint : Ends m P ((Adapter.new resolved.package).lint engine job.contents
      resolved.working.relativePath)
      (fun linted s => P s ∧ linted.2.known? 0 = some linted.1.rules) P := by
    rw [Adapter.lint]
    have hcall : Ends m P (engine.call .lint job.contents (some resolved.working.relativePath))
        (fun _ => P) P := by
      refine ends_call hP fun s' r log hs' hr => ?_
      obtain ⟨input, hinput, hwrite⟩ := hr.input
      have hjob : Job.Calls m.world job resolved r :=
        ⟨hr.command, hr.cwd.trans (congrArg _ hcwd), engine, rfl, hrules, input, hinput, hwrite⟩
      exact hcalls s' r log engine.env hs' hjob hr.env (henv s hs)
    refine hcall.bind fun report => .pure fun s hs => ⟨hs, ?_⟩
    exact Adapter.known_remember _ _ _
  refine (hlint.bind fun linted => ?_).outcome s hs
  obtain ⟨report, adapter⟩ := linted
  refine ⟨fun s hs => ?_⟩
  have hrules : (adapter.rules engine).run m s = (.ok (report.rules, adapter), s) := by
    unfold Adapter.rules
    rw [show adapter.known? engine.number = some report.rules from hs.2]
    rfl
  rw [run_bind_ok hrules]
  dsimp only
  split
  · rw [run_bind_ok (run_tell _ _ _ _)]
    exact ⟨(hP.tell _ _ _).keeps.session hs.1, rfl⟩
  · exact ⟨hs.1, rfl⟩

end Lint

/-! ## 4. The job -/

/-- Describing a resolution leaves the session as it is and shows the copy of the linter. -/
theorem ends_describe {P : Session → Prop} (package : Package) (policy : Policy)
    (config : Option String) (working : Workplace) (project : Option String) :
    Ends m P (Job.describe package policy config working project)
      (fun info s => P s ∧ info.package = package) P := by
  rw [Job.describe]
  refine ⟨fun s hs => ?_⟩
  rw [run_now_bind]
  refine (Ends.bind (Q := fun _ => P) (.ofExcept (fun _ _ _ h => h) fun _ h => h)
    fun shown => ⟨fun s hs => ?_⟩).outcome s hs
  rw [run_context_bind]
  exact ⟨hs, rfl⟩

/-- If the reply describes a resolution, the copy of the linter in it is as `B` says. -/
def Job.Reply.Shows (B : Package → Prop) (reply : Job.Reply) : Prop :=
  ∀ info, reply.debug = some info → B info.package

/-- **What a job makes of a session** of which `P₀` holds. Finding the copy of the linter brings
    about `P`, which neither the rest of resolving nor the engine's children break; `N` holds of the
    environment that they get. -/
theorem ends_job_settled {P₀ P E : Session → Prop} (hP : Searches m (Same P) (Same P))
    (hnoted : ∀ s cwd, P s → P (s.notedAt cwd)) (hE : ∀ s, P s → E s)
    {job : Job} (h₀ : job.type ∉ Job.types → ∀ s, P₀ s → E s)
    {N : Entries String → Prop} (henv : ∀ s, P s → N s.context.env)
    {B : Package → Prop} (policy : Policy)
    (hpackage : Ends m P₀ (Package.forDirectory (job.fileDir m.world) policy job.projectPath)
      (fun package s => P s ∧ B package) E)
    (hcalls : ∀ (resolved : Job.Resolved) s r log env, B resolved.package →
      resolved.Fits m.world job → P s → Job.Calls m.world job resolved r → r.env = some env → N env →
      P { s with started := s.started ++ [r], log := log }) :
    Ends m P₀ (job.run policy) (fun reply s => P s ∧ reply.Shows B) E := by
  unfold Job.run
  split
  · exact .throw (h₀ ‹_›)
  · have hresolve := ends_resolve hP hnoted hE job policy hpackage
    refine hresolve.bind fun resolved => ⟨fun s hs => ?_⟩
    obtain ⟨hs, hcwd, hB, hfits⟩ := hs
    split
    · have hdescribe : Ends m P (Job.describe resolved.package policy resolved.config
          resolved.working job.projectPath)
          (fun info s => P s ∧ info.package = resolved.package) E :=
        (ends_describe _ _ _ _ _).mono (fun _ h => h) (fun _ _ h => h) hE
      refine (hdescribe.bind fun info => .pure fun _ h => ⟨h.1, fun shown hshown => ?_⟩).outcome s hs
      rw [← Option.some.inj hshown, h.2]
      exact hB
    · have hlint := ends_lint hP (fun s r log env => hcalls resolved s r log env hB hfits) henv
        policy
      refine (hlint.mono (fun _ h => h) (fun reply _ h => ⟨h.1, fun info hinfo => ?_⟩) hE).outcome s
        ⟨hs, hcwd⟩
      rw [h.2] at hinfo
      cases hinfo

/-- **What a job keeps**: a property that neither resolving nor the engine's children break. -/
theorem ends_job {P : Session → Prop} (hP : Searches m (Same P) (Same P))
    (hnoted : ∀ s cwd, P s → P (s.notedAt cwd))
    {B : Package → Prop} (job : Job) (policy : Policy)
    (hpackage : Ends m P (Package.forDirectory (job.fileDir m.world) policy job.projectPath)
      (fun package s => P s ∧ B package) P)
    (hcalls : ∀ (resolved : Job.Resolved) s r log, B resolved.package → resolved.Fits m.world job →
      P s → Job.Calls m.world job resolved r → P { s with started := s.started ++ [r], log := log }) :
    Ends m P (job.run policy) (fun _ => P) P :=
  (ends_job_settled (N := fun _ => True) hP hnoted (fun _ h => h) (fun _ _ h => h)
    (fun _ _ => trivial) policy hpackage
    fun resolved s r log _ hB hfits hs hr _ _ => hcalls resolved s r log hB hfits hs hr).mono
      (fun _ h => h) (fun _ _ h => h.1) fun _ h => h

/-! ## 5. A machine with a vendored copy -/

/-- A machine with a copy of the linter in `/vendor`, whose children answer with an empty object. -/
def World.vendored : World where
  host := ⟨"linux", "3.11.2", true, "/tools", "/.env", ⟨"/root", []⟩⟩
  files := (FileTree.empty.add ["vendor", "eslint", "package.json"]
    (.file "\x7b\x7d".toUTF8 true true)).add ["vendor", "eslint", "index.js"] (.file .empty true true)
  env := []
  cwd := "/"
  answer := fun _ _ => .finished 0 "\x7b\x7d" ""
  stamp := fun _ _ => ⟨"", ""⟩

/-- The policy of someone whose modules directory is named relative to the project. -/
def Policy.vendor : Policy := { Policy.standard with localModules := some "vendor" }

/-- A job that lints a file. -/
def Job.check (path : String) : Job := ⟨"lint", "", path, none, [], []⟩

/-- The session after checking `lib/..//src/a.js` with a vendored copy. -/
def Session.vendored : Session :=
  Job.serve .vendored (.start (.ofEnv [])) [(.check "lib/..//src/a.js", .vendor)]

end LintHost
