import LintHost.Job
import LintHost.Proofs.Action

/-!
# What telling does not change

On a machine that keeps its log in a file, what an operation tells stands in a file that it may look
at later. But resolving asks few things of the files: what is found upwards under some names, what
manifests hold, and which copies of the linter are there. As long as all these are answered alike
whatever is told, every operation that resolves something, or calls an engine, runs as it does on a
machine without the log.

* `Policy.Seeks`, `World.AnswersAs`: what is asked; `Settled`: telling changes no answer;
  `settled_of_unlogged`: so it is without a log file;
* `Steady`: an operation runs alike on both machines; one lemma for each way to build one;
* one lemma for each operation, up to `Settled.job`.
-/

namespace LintHost

open LintHost.Action LintHost.Path

variable {m : Machine} {w v : World} {policy : Policy}

/-! ## 1. What is asked -/

/-- The names that are looked for upwards. -/
inductive Policy.Seeks (w : World) (policy : Policy) : List String → Prop
  | config : Seeks w policy ConfigFile.names
  | ignoreFile : Seeks w policy [ignoreFileName]
  | modules : Seeks w policy ["node_modules/eslint"]
  | rules {entry given : String} (hentry : entry ∈ policy.rulesDirs)
    (hclean : clean w.host.homes w.env entry = .ok given) : Seeks w policy [given]

/-- A world answers as another one does what resolving asks of its files: what is found upwards,
    whether a manifest has a configuration section, where the global copy is expected, whether a copy
    is there and how it loads, and where the bundled tools are. -/
structure World.AnswersAs (v w : World) (policy : Policy) : Prop where
  searched : ∀ names, policy.Seeks w names → ∀ directory,
    Finder.search v.files v.cwd names directory = Finder.search w.files w.cwd names directory
  embeds : ∀ path, base path = ConfigFile.manifestName →
    ConfigFile.embeds v path = ConfigFile.embeds w path
  global : ∀ under, Package.globalCandidate v under = Package.globalCandidate w under
  present : ∀ expected, Package.present? v expected = Package.present? w expected
  loads : ∀ found, Package.loadFrom v found = Package.loadFrom w found
  tools : ∀ directory, NodeTools.bundled v directory = NodeTools.bundled w directory

theorem World.answersAs_self (w : World) (policy : Policy) : w.AnswersAs w policy :=
  ⟨fun _ _ _ => rfl, fun _ _ => rfl, fun _ => rfl, fun _ => rfl, fun _ => rfl, fun _ => rfl⟩

/-- **Telling changes no answer** that resolving depends on: the log is kept in none of the files that
    it looks at, and no full one is moved to where it looks. -/
def Settled (policy : Policy) (m : Machine) : Prop :=
  ∀ records, (m.world.after m.setup records).AnswersAs m.world policy

theorem settled_of_unlogged (h : m.setup.file = none) (policy : Policy) : Settled policy m := by
  intro records
  rw [World.after_of_none h]
  exact m.world.answersAs_self policy

theorem Settled.now (h : Settled policy m) (s : Session) : (m.now s).AnswersAs m.world policy :=
  h s.log

/-! ## 2. Operations that run alike -/

/-- An operation runs as it does on the machine without the log. -/
def Steady {α : Type} (m : Machine) (x : Action α) : Prop := ∀ s, x.run m s = x.run m.world s

namespace Steady

variable {α β : Type} {x : Action α}

theorem pure (a : α) : Steady m (Pure.pure a : Action α) := fun _ => rfl

theorem throw (fault : Fault) : Steady m (MonadExcept.throw fault : Action α) := fun _ => rfl

theorem ofExcept (result : Except Fault α) : Steady m (Action.ofExcept result) := fun s => by
  rw [run_ofExcept, run_ofExcept]

theorem modify (change : Session → Session) : Steady m (modify change : Action PUnit) :=
  fun _ => rfl

theorem tell (source : String) (level : Log.Level) (message : String) :
    Steady m (Action.tell source level message) := fun _ => rfl

theorem bind {f : α → Action β} (hx : Steady m x) (hf : ∀ a, Steady m (f a)) :
    Steady m (x >>= f) := by
  intro s
  have hxs := hx s
  rcases hrun : x.run m s with ⟨result, t⟩
  cases result with
  | ok a =>
    rw [run_bind_ok hrun, run_bind_ok (hxs ▸ hrun)]
    exact hf a t
  | error fault => rw [run_bind_error hrun, run_bind_error (hxs ▸ hrun)]

theorem map {f : α → β} (hx : Steady m x) : Steady m (f <$> x) := by
  rw [map_eq_pure_bind]
  exact hx.bind fun _ => pure _

theorem discard (hx : Steady m x) : Steady m (discard x) := hx.map

theorem get_bind {f : Session → Action β} (h : ∀ s, Steady m (f s)) : Steady m (get >>= f) := by
  intro s
  rw [run_get_bind, run_get_bind]
  exact h s s

theorem context_bind {f : Context → Action β} (h : ∀ context, Steady m (f context)) :
    Steady m (context >>= f) := by
  intro s
  rw [run_context_bind, run_context_bind]
  exact h s.context s

/-- What is read may be used where telling does not change what becomes of it. -/
theorem read_bind {f : World → Action β} (hsame : ∀ s, f (m.now s) = f m.world)
    (h : Steady m (f m.world)) : Steady m (read >>= f) := by
  intro s
  rw [run_now_bind, run_read_bind, hsame s]
  exact h s

/-- So it is where the files are not looked at. -/
theorem unfiled_bind {f : World → Action β}
    (hsame : ∀ files, f { m.world with files := files } = f m.world) (h : Steady m (f m.world)) :
    Steady m (read >>= f) := by
  refine read_bind (fun s => ?_) h
  obtain ⟨files, hfiles⟩ := m.world.after_eq m.setup s.log
  rw [Machine.now, hfiles, hsame]

theorem absolute (path : String) : Steady m (Action.absolute path) := fun s => by
  rw [run_absolute_now, run_absolute_now]

theorem cleanPath_bind {path : String} {f : String → Action β}
    (h : ∀ given, clean m.world.host.homes m.world.env path = .ok given → Steady m (f given)) :
    Steady m (cleanPath path >>= f) := by
  intro s
  have hm := run_cleanPath_now (m := m) path s
  have hw := run_cleanPath_now (m := m.world) path s
  cases hclean : clean m.world.host.homes m.world.env path with
  | ok given =>
    rw [hclean] at hm
    rw [run_bind_ok hm, run_bind_ok (hw.trans (by rw [hclean]))]
    exact h given hclean s
  | error fault =>
    rw [hclean] at hm
    rw [run_bind_error hm, run_bind_error (hw.trans (by rw [hclean]))]

end Steady

/-! ## 3. Calling children and changing the context -/

theorem steady_child (command : List Value) (cwd : Option String) (env : Option (Entries String))
    (timeout : Value) (input : Option String) : Steady m (Child.run command cwd env timeout input) := by
  unfold Child.run
  refine .unfiled_bind (fun files => rfl) ?_
  split
  · exact .throw _
  · refine (Steady.tell _ _ _).bind fun _ => ?_
    split
    · exact .throw _
    · exact .get_bind fun s => (Steady.modify _).bind fun _ => .ofExcept _

theorem steady_nodePrefix : Steady m Npm.nodePrefix := by
  unfold Npm.nodePrefix
  refine .get_bind fun s => ?_
  split
  · exact .pure _
  · refine .unfiled_bind (fun files => rfl) (Steady.bind ?_ fun found =>
      (Steady.modify _).bind fun _ => .pure _)
    unfold Npm.askPrefix
    refine (steady_child _ _ _ _ _).bind fun result => ?_
    split
    · exact .throw _
    · exact (Steady.tell _ _ _).bind fun _ => .pure _

theorem steady_call (engine : Engine) (mode : Engine.Mode) (text : String) (file : Option String) :
    Steady m (engine.call mode text file) := by
  unfold Engine.call
  refine .context_bind fun context => ?_
  split
  · exact .throw _
  · exact (steady_child _ _ _ _ _).bind fun _ => (Steady.ofExcept _).bind fun _ =>
      (Steady.tell _ _ _).bind fun _ => .ofExcept _

theorem steady_construct (adapter : Adapter) (number : Nat) (options : Engine.Options) :
    Steady m (adapter.construct number options) := .context_bind fun _ => .pure _

theorem steady_rules (adapter : Adapter) (engine : Engine) : Steady m (adapter.rules engine) := by
  unfold Adapter.rules
  split
  · exact .pure _
  · exact (steady_call _ _ _ _).bind fun _ => .pure _

theorem steady_refresh (modulesDir : Option String) :
    Steady m (Package.refreshSearchPath modulesDir) := by
  unfold Package.refreshSearchPath
  refine .context_bind fun context => ?_
  split
  · exact .pure _
  · exact (Steady.modify _).bind fun _ => (Steady.tell _ _ _).bind fun _ => .pure _

/-! ## 4. Resolving -/

namespace Settled

variable (h : Settled policy m)
include h

theorem find {names : List String} (hnames : policy.Seeks m.world names) (start : String) :
    Steady m (Finder.find start names) := by
  unfold Finder.find
  refine .read_bind (fun s => ?_) (.get_bind fun s => ?_)
  · have hsearch := (h.now s).searched names hnames
    rw [m.now_cwd] at hsearch
    simp only [m.now_cwd, hsearch]
  · split
    · exact .pure _
    · exact (Steady.ofExcept _).bind fun _ => (Steady.modify _).bind fun _ => .pure _

theorem findFrom (start : String) : ∀ fuel directory,
    Steady m (ConfigFile.findFrom start fuel directory)
  | 0, _ => .pure _
  | fuel + 1, directory => by
    rw [ConfigFile.findFrom]
    refine (h.find .config _).bind fun found => ?_
    cases found with
    | none => exact .pure _
    | some file =>
      have goOn (counts : Bool) : Steady m
          (if counts then do
            Action.tell ConfigFile.source .debug ("Config file for " ++ start ++ ": " ++ file)
            return some file
          else if Path.directory (Path.directory file) = Path.directory file then return none
          else ConfigFile.findFrom start fuel (Path.directory (Path.directory file))) := by
        split
        · exact (Steady.tell _ _ _).bind fun _ => .pure _
        · split
          · exact .pure _
          · exact findFrom start fuel _
      by_cases hmanifest : base file = ConfigFile.manifestName
      · simp only [hmanifest, if_true]
        exact .read_bind (fun s => by rw [(h.now s).embeds file hmanifest])
          ((Steady.ofExcept _).bind goOn)
      · simp only [hmanifest, if_false]
        exact goOn true

theorem configFile (start : String) : Steady m (ConfigFile.find start) :=
  (Steady.absolute start).bind fun _ => h.findFrom start _ _

theorem ignoreFile (fileDir : String) : Steady m (LintHost.ignoreFile fileDir policy) := by
  unfold LintHost.ignoreFile
  split
  · exact .pure _
  · exact h.find .ignoreFile _

theorem rulePath (fileDir : String) {entry : String} (hentry : entry ∈ policy.rulesDirs) :
    Steady m (Engine.Options.rulePath fileDir entry) := by
  unfold Engine.Options.rulePath
  refine .cleanPath_bind fun given hclean => ?_
  split
  · exact .pure _
  · split
    · exact .pure _
    · exact h.find (.rules hentry hclean) _

theorem ruleDirectories (fileDir : String) : ∀ entries, (∀ entry ∈ entries,
    entry ∈ policy.rulesDirs) → Steady m (Engine.Options.ruleDirectories fileDir entries)
  | [], _ => .pure _
  | entry :: rest, hall => by
    rw [Engine.Options.ruleDirectories]
    exact (h.rulePath fileDir (hall entry List.mem_cons_self)).bind fun _ =>
      (ruleDirectories fileDir rest fun other hother =>
        hall other (List.mem_cons_of_mem entry hother)).bind fun _ => .pure _

theorem options (jobType : String) (rules : Entries Json) (fileDir : String)
    (config : Option String) :
    Steady m (Engine.Options.build jobType policy rules fileDir config) := by
  have hfallback : Steady m (Engine.Options.fallback policy config) := by
    unfold Engine.Options.fallback
    split
    · split
      · exact .pure _
      · rw [map_eq_pure_bind]
        exact .cleanPath_bind fun _ _ => .pure _
    · exact .pure _
  unfold Engine.Options.build
  exact hfallback.bind fun _ => (h.ignoreFile fileDir).bind fun _ =>
    (h.ruleDirectories fileDir _ fun _ hentry => hentry).bind fun _ => .pure _

theorem bundledPath : Steady m NodeTools.bundledPath := by
  unfold NodeTools.bundledPath
  refine .get_bind fun s => ?_
  split
  · exact .pure _
  · refine .read_bind (fun t => by rw [(h.now t).tools]) ?_
    exact (Steady.ofExcept _).bind fun _ => (Steady.modify _).bind fun _ => .pure _

theorem candidate (modulesDir project : Option String) :
    Steady m (Package.candidate modulesDir policy project) := by
  have hglobal (under : String) : Steady m (do
      return (Origin.global, some (Package.globalCandidate (← read) under))) :=
    .read_bind (fun s => by rw [(h.now s).global]) (.pure _)
  unfold Package.candidate
  split
  · refine .cleanPath_bind fun given _ => ?_
    split
    · exact steady_nodePrefix.bind hglobal
    · exact (Steady.pure given).bind hglobal
  · split
    · split <;> exact .pure _
    · split <;> exact .pure _
    · refine .cleanPath_bind fun given _ => ?_
      split <;> exact .pure _

theorem locate (modulesDir project : Option String) :
    Steady m (Package.locate modulesDir policy project) := by
  unfold Package.locate
  refine (h.candidate modulesDir project).bind fun (origin, expected) =>
    .read_bind (fun s => by simp only [(h.now s).present]) ?_
  split
  · exact (Steady.tell _ _ _).bind fun _ => .pure _
  · split
    · exact .throw _
    · exact h.bundledPath.bind fun _ => (Steady.tell _ _ _).bind fun _ => .pure _

theorem loadBundled : Steady m Package.loadBundled := by
  unfold Package.loadBundled
  refine h.bundledPath.bind fun path => .read_bind (fun s => by rw [(h.now s).loads]) ?_
  refine (Steady.ofExcept _).bind fun loaded => ?_
  cases loaded with
  | ok package => exact .pure _
  | error reason => exact .throw _

theorem load (modulesDir project : Option String) :
    Steady m (Package.load modulesDir policy project) := by
  unfold Package.load
  refine (h.locate modulesDir project).bind fun found =>
    .read_bind (fun s => by rw [(h.now s).loads]) ((Steady.ofExcept _).bind fun loaded => ?_)
  cases loaded with
  | ok package => exact .pure _
  | error reason =>
    dsimp only
    split
    · exact .throw _
    · exact .throw _
    · exact (Steady.tell _ _ _).bind fun _ => h.loadBundled
    · exact (Steady.tell _ _ _).bind fun _ => h.loadBundled

theorem forDirectory (fileDir : String) (project : Option String) :
    Steady m (Package.forDirectory fileDir policy project) :=
  (h.find .modules _).bind fun _ => (steady_refresh _).discard.bind fun _ => h.load _ project

theorem workplace (fileDir filePath : String) (project : Option String) :
    Steady m (Workplace.resolve fileDir filePath policy project) := by
  unfold Workplace.resolve
  exact (h.ignoreFile fileDir).bind fun _ => .unfiled_bind (fun _ => rfl)
    ((Steady.modify _).bind fun _ => (Steady.tell _ _ _).bind fun _ => .pure _)

/-- **A job that lints or fixes** runs as it does without the log. -/
theorem job {job : Job} (hjob : job.type = "lint" ∨ job.type = "fix") :
    Steady m (job.run policy) := by
  have hlint (resolved : Job.Resolved) : Steady m (job.lint policy resolved) := by
    unfold Job.lint
    refine (h.options _ _ _ _).bind fun options => (steady_construct _ _ _).bind fun engine =>
      Steady.bind ((steady_call _ _ _ _).bind fun _ => .pure _) fun (report, adapter) =>
        (steady_rules _ _).bind fun (rules, _) => ?_
    dsimp only
    split
    · exact (Steady.tell _ _ _).bind fun _ => .pure _
    · exact .pure _
  have hresolve : Steady m (job.resolve policy) :=
    (Steady.absolute _).bind fun _ => (h.forDirectory _ _).bind fun _ =>
      (h.configFile _).bind fun _ => (h.workplace _ _ _).bind fun _ => .pure _
  have htypes : job.type ∈ Job.types := by
    rcases hjob with htype | htype <;> rw [htype] <;> decide
  have hdebug : job.type ≠ "debug" := by
    rcases hjob with htype | htype <;> rw [htype] <;> decide
  unfold Job.run
  rw [if_neg (not_not_intro htypes)]
  refine hresolve.bind fun resolved => ?_
  rw [if_neg hdebug]
  exact hlint resolved

end Settled

end LintHost
