import LintHost.Proofs.EngineChild
import LintHost.Proofs.Lookups

/-!
# What a debug job tells

A debug job describes how the linter for a file is resolved; a lint job resolves it and starts an
engine. Both resolve in the same way, but what the one writes down and what the other sends is put
together in different places. This file holds the two against each other.

* `Job.resolve_congr`: jobs on one file of one project resolve alike, on any machine;
* `Job.run_call`: what a job that was resolved makes of the call of its engine;
* `Job.child`, `Job.starts_iff`: the child that a lint job starts, by what was resolved;
* `Job.Findings.Describes`: a description agrees with a child;
* `Job.Unshowable`: a configuration file that has no path to be shown;
* `debug_describes_lint`: a debug job describes the child of the lint job, exactly where the
  configuration file can be shown.
-/

namespace LintHost

open LintHost.Action LintHost.Path

variable {m : Machine} {w : World}

/-! ## 1. Resolving -/

/-- Jobs on one file of one project resolve alike. -/
theorem Job.resolve_congr {job other : Job} (hfile : other.filePath = job.filePath)
    (hproject : other.projectPath = job.projectPath) (policy : Policy) :
    other.resolve policy = job.resolve policy := by
  unfold resolve
  rw [hfile, hproject]

/-- Resolving starts no engine, and notes the working directory. -/
theorem Job.resolve_silent (job : Job) (policy : Policy) (s : Session) :
    Started s.started (fun _ => False) ((job.resolve policy).run m s).2 ∧
      ∀ resolved, ((job.resolve policy).run m s).1 = .ok resolved →
        ((job.resolve policy).run m s).2.context.cwd = some resolved.working.cwd := by
  have hpackage : Ends m (Started s.started fun _ => False)
      (Package.forDirectory (job.fileDir m.world) policy job.projectPath)
      (fun _ t => Started s.started (fun _ => False) t ∧ True) (Started s.started fun _ => False) :=
    (ends_forDirectory _ policy job.projectPath).mono (fun _ h => h) (fun _ _ h => ⟨h, trivial⟩)
      fun _ h => h
  have hresolve := ends_resolve (B := fun _ => True) searches_started (fun _ _ h => h)
    (fun _ h => h) job policy hpackage
  have hout := hresolve.outcome s (started_self _ s)
  rcases hrun : (job.resolve policy).run m s with ⟨result, t⟩
  rw [hrun] at hout
  cases result with
  | error fault => exact ⟨hout, fun _ h => nomatch h⟩
  | ok resolved =>
    refine ⟨hout.1, fun resolved' h => ?_⟩
    cases h
    exact hout.2.1

/-! ## 2. Linting -/

namespace Engine.Options

/-- Putting options together changes neither the context nor the children. -/
theorem build_frame (jobType : String) (policy : Policy) (rules : Entries Json)
    (fileDir : String) (config : Option String) (s : Session) :
    let t := ((build jobType policy rules fileDir config).run m s).2
    t.context = s.context ∧ t.started = s.started :=
  ((searches_still s).options jobType policy rules fileDir config).keeps.session ⟨rfl, rfl⟩

theorem fallback_run (policy : Policy) (config : Option String) (s : Session) :
    (fallback policy config).run m s = (fallbackOf m.world policy config, s) := by
  unfold fallback fallbackOf
  cases config with
  | some path => rfl
  | none =>
    cases policy.fallbackConfig with
    | none => rfl
    | some path =>
      dsimp only
      split
      · rfl
      · rw [run_map, run_cleanPath_now]

/-- Options are put together of what was asked for, the ignore file and the rule directories. -/
theorem build_stages {jobType : String} {policy : Policy} {rules : Entries Json}
    {fileDir : String} {config : Option String} {s t : Session} {options : Engine.Options}
    (h : (build jobType policy rules fileDir config).run m s = (.ok options, t)) :
    ∃ configFile ignorePath paths u, fallbackOf m.world policy config = .ok configFile ∧
      (ignoreFile fileDir policy).run m s = (.ok ignorePath, u) ∧
      (ruleDirectories fileDir policy.rulesDirs).run m u = (.ok paths, t) ∧
      options = ⟨rules, !policy.disableIgnore, jobType = "fix", ignorePath, paths, configFile⟩ := by
  rw [build] at h
  obtain ⟨configFile, s', hconfig, h⟩ := of_run_bind h
  rw [fallback_run] at hconfig
  obtain ⟨hgiven, rfl⟩ := Prod.mk.inj hconfig
  obtain ⟨ignorePath, u, hignore, h⟩ := of_run_bind h
  obtain ⟨paths, u', hpaths, h⟩ := of_run_bind h
  cases h
  exact ⟨configFile, ignorePath, paths, u, hgiven, hignore, hpaths, rfl⟩

/-- Among the options are the rules that were asked for, and as the configuration file the fallback
    where it is allowed. -/
theorem build_given {jobType : String} {policy : Policy} {rules : Entries Json}
    {fileDir : String} {config : Option String} {s : Session} {options : Engine.Options}
    (h : ((build jobType policy rules fileDir config).run m s).1 = .ok options) :
    options.rules = rules ∧ fallbackOf m.world policy config = .ok options.configFile := by
  rcases hrun : (build jobType policy rules fileDir config).run m s with ⟨result, t⟩
  rw [hrun] at h
  obtain rfl : result = .ok options := h
  obtain ⟨configFile, ignorePath, paths, u, hconfig, -, -, rfl⟩ := build_stages hrun
  exact ⟨rfl, hconfig⟩

end Engine.Options

/-- The child of a lint job for what was resolved, or why there is none: the engine has the options
    that were put together, and is sent the job's text. -/
def Job.child (m : Machine) (job : Job) (policy : Policy) (resolved : Job.Resolved) (s : Session) :
    Except Fault Child.Request := do
  let options ←
    ((Engine.Options.build job.type policy job.rules resolved.fileDir resolved.config).run m s).1
  Engine.child m.world s.context ⟨0, resolved.package, options, s.context.cwd, s.context.env⟩ .lint
    job.contents (some resolved.working.relativePath)

theorem Job.of_child {job : Job} {policy : Policy} {resolved : Job.Resolved} {s : Session}
    {r : Child.Request} (h : job.child m policy resolved s = .ok r) :
    ∃ options : Engine.Options,
      ((Engine.Options.build job.type policy job.rules resolved.fileDir resolved.config).run m
        s).1 = .ok options ∧
      Engine.child m.world s.context ⟨0, resolved.package, options, s.context.cwd, s.context.env⟩ .lint
        job.contents (some resolved.working.relativePath) = .ok r :=
  Except.bind_eq_ok h

theorem Job.child_runs_engine {job : Job} {policy : Policy} {resolved : Job.Resolved} {s : Session}
    {r : Child.Request} (h : job.child m policy resolved s = .ok r) : r.RunsEngine := by
  obtain ⟨options, -, hengine⟩ := of_child h
  exact Engine.child_runs_engine hengine

/-- The rules that are asked for right after a lint are those that the lint has reported. -/
theorem Adapter.rules_after_lint {β : Type} (adapter : Adapter) (engine : Engine)
    (text file : String) (f : Report → Entries Json → Action β) :
    (do
      let (report, adapter) ← adapter.lint engine text file
      let (rules, _) ← adapter.rules engine
      f report rules) =
      engine.call .lint text (some file) >>= fun report => f report report.rules := by
  rw [lint, bind_assoc]
  refine congrArg _ (funext fun report => ?_)
  rw [pure_bind]
  dsimp only
  unfold rules
  rw [known_remember]
  rfl

/-- A lint job puts options together, calls an engine and makes a reply of the report. -/
theorem Job.lint_eq (job : Job) (policy : Policy) (resolved : Job.Resolved) :
    job.lint policy resolved = do
      let options ← Engine.Options.build job.type policy job.rules resolved.fileDir resolved.config
      let context ← Action.context
      let report ← Engine.call ⟨0, resolved.package, options, context.cwd, context.env⟩ .lint
        job.contents (some resolved.working.relativePath)
      if Rules.changed job.knownRules report.rules then
        Action.tell source .info
          ("Rule inventory changed: " ++ toString report.rules.length ++ " rules")
      return job.resultOf report report.rules := by
  unfold lint Adapter.construct
  refine congrArg _ (funext fun options => ?_)
  rw [bind_assoc]
  refine congrArg _ (funext fun context => ?_)
  rw [pure_bind]
  exact Adapter.rules_after_lint _ _ _ _ fun report rules => do
    if Rules.changed job.knownRules rules then
      Action.tell source .info ("Rule inventory changed: " ++ toString rules.length ++ " rules")
    return job.resultOf report rules

/-- The engine of a job for what was resolved. -/
def Job.Resolved.engine (resolved : Job.Resolved) (context : Context) (options : Engine.Options) :
    Engine :=
  ⟨0, resolved.package, options, context.cwd, context.env⟩

/-- **Linting after the options are put together**: the engine is called, and its report is made a
    reply of. -/
theorem Job.lint_call {job : Job} {policy : Policy} {resolved : Job.Resolved} {s t : Session}
    {options : Engine.Options}
    (hbuild : (Engine.Options.build job.type policy job.rules resolved.fileDir resolved.config).run
      m s = (.ok options, t)) :
    let call := ((resolved.engine s.context options).call .lint job.contents
      (some resolved.working.relativePath)).run m t
    ((job.lint policy resolved).run m s).1 =
        call.1.map (fun report => job.resultOf report report.rules) ∧
      ((job.lint policy resolved).run m s).2.started = call.2.started := by
  have hcontext := (Engine.Options.build_frame (m := m) job.type policy job.rules resolved.fileDir
    resolved.config s).1
  rw [hbuild] at hcontext
  intro call
  rw [lint_eq, run_bind_ok hbuild, run_context_bind, show t.context = s.context from hcontext]
  rcases hcall : ((resolved.engine s.context options).call .lint job.contents
    (some resolved.working.relativePath)).run m t with ⟨result, last⟩
  rw [show call = (result, last) from hcall]
  unfold Resolved.engine at hcall
  cases result with
  | error fault =>
    rw [run_bind_error hcall]
    exact ⟨rfl, rfl⟩
  | ok report =>
    rw [run_bind_ok hcall]
    split <;> exact ⟨rfl, rfl⟩

/-- **Linting starts that child, if any**: after the lint itself the rules are known. -/
theorem Job.lint_started (job : Job) (policy : Policy) (resolved : Job.Resolved) (s : Session) :
    ((job.lint policy resolved).run m s).2.started =
      s.started ++ (job.child m policy resolved s).toOption.toList := by
  obtain ⟨hcontext, hstarted⟩ := Engine.Options.build_frame (m := m) job.type policy job.rules
    resolved.fileDir resolved.config s
  rcases hbuild : (Engine.Options.build job.type policy job.rules resolved.fileDir
    resolved.config).run m s with ⟨result, t⟩
  rw [hbuild] at hcontext hstarted
  dsimp only at hcontext hstarted
  unfold child
  rw [hbuild]
  cases result with
  | error fault =>
    rw [lint_eq, run_bind_error hbuild, hstarted]
    exact (List.append_nil _).symm
  | ok options =>
    have hcalled := Engine.call_started (m := m) (resolved.engine s.context options) .lint
      job.contents (some resolved.working.relativePath) t
    rw [hcontext, hstarted] at hcalled
    exact (lint_call hbuild).2.trans hcalled

/-- A lint job goes on from what it has resolved. -/
theorem Job.lint_run {job : Job} (htype : job.type = "lint" ∨ job.type = "fix") {policy : Policy} :
    job.run policy = job.resolve policy >>= job.lint policy := by
  have hmem : job.type ∈ types := by
    rcases htype with h | h <;> rw [h] <;> decide
  have hdebug : job.type ≠ "debug" := by
    rcases htype with h | h <;> rw [h] <;> decide
  unfold Job.run
  rw [if_neg (not_not_intro hmem)]
  exact congrArg _ (funext fun resolved => if_neg hdebug)

/-- **A job after its options are put together** calls its engine and makes a reply of the
    report. -/
theorem Job.run_call {job : Job} (htype : job.type = "lint" ∨ job.type = "fix") {policy : Policy}
    {resolved : Job.Resolved} {s t t' : Session} {options : Engine.Options}
    (hresolve : (job.resolve policy).run m s = (.ok resolved, t))
    (hbuild : (Engine.Options.build job.type policy job.rules resolved.fileDir resolved.config).run
      m t = (.ok options, t')) :
    let call := ((resolved.engine t.context options).call .lint job.contents
      (some resolved.working.relativePath)).run m t'
    ((job.run policy).run m s).1 =
        call.1.map (fun report => job.resultOf report report.rules) ∧
      ((job.run policy).run m s).2.started = call.2.started := by
  rw [lint_run htype, run_bind_ok hresolve]
  exact lint_call hbuild

/-- A job that returns was resolved, and its options were put together. -/
theorem Job.stages_of_run {job : Job} (htype : job.type = "lint" ∨ job.type = "fix")
    {policy : Policy} {s t : Session} {reply : Job.Reply}
    (h : (job.run policy).run m s = (.ok reply, t)) :
    ∃ resolved u options u', (job.resolve policy).run m s = (.ok resolved, u) ∧
      (Engine.Options.build job.type policy job.rules resolved.fileDir resolved.config).run m u =
        (.ok options, u') := by
  rw [lint_run htype] at h
  obtain ⟨resolved, u, hresolve, h⟩ := of_run_bind h
  rw [lint_eq] at h
  obtain ⟨options, u', hbuild, -⟩ := of_run_bind h
  exact ⟨resolved, u, options, u', hresolve, hbuild⟩

/-- **Which engine a lint job starts**: the child for what it has resolved. -/
theorem Job.starts_iff {job : Job} (hjob : job.type = "lint" ∨ job.type = "fix") (policy : Policy)
    (s : Session) (r : Child.Request) :
    r ∈ ((job.run policy).run m s).2.started.drop s.started.length ∧ r.RunsEngine ↔
      ∃ resolved t, (job.resolve policy).run m s = (.ok resolved, t) ∧
        job.child m policy resolved t = .ok r := by
  obtain ⟨⟨earlier, hearlier, hsilent⟩, -⟩ := job.resolve_silent (m := m) policy s
  rw [Job.lint_run hjob]
  rcases hresolve : (job.resolve policy).run m s with ⟨result, t⟩
  rw [hresolve] at hearlier
  dsimp only at hearlier
  cases result with
  | error fault =>
    rw [run_bind_error hresolve, hearlier, List.drop_left]
    refine iff_of_false (fun h => hsilent r h.1 h.2) ?_
    rintro ⟨resolved, t', hresolved, -⟩
    cases hresolved
  | ok resolved =>
    rw [run_bind_ok hresolve, Job.lint_started, hearlier, List.append_assoc, List.drop_left]
    constructor
    · rintro ⟨hr, hruns⟩
      rcases List.mem_append.mp hr with hr | hr
      · exact (hsilent r hr hruns).elim
      · exact ⟨resolved, t, rfl, Except.mem_toOption.mp hr⟩
    · rintro ⟨resolved', t', hresolved, hchild⟩
      cases hresolved
      exact ⟨List.mem_append_right _ (Except.mem_toOption.mpr hchild), Job.child_runs_engine hchild⟩

/-! ## 3. Describing -/

namespace Job

/-- The real path of a path. -/
def realPath (w : World) (path : String) : Except RealPath.Fault PartPath :=
  w.files.resolve w.cwd (PartPath.ofText path)

/-- A path has no real path, and not because of a NUL character in it: its links run in a circle, or
    too many lead into one another. -/
def Entangled (w : World) (path : String) : Prop :=
  ∃ fault, realPath w path = .error fault ∧ fault ≠ .embeddedNull

/-- A configuration file cannot be shown as seen from a project: its own path is entangled or, where
    it has a real path, that of the project is. -/
inductive Unshowable (w : World) : Option String → Option String → Prop
  | config {path root : String} (hpath : path ≠ "") (hroot : root ≠ "")
    (hrooted : (PartPath.ofText path).isAbsolute = true) (h : Entangled w path) :
    Unshowable w (some path) (some root)
  | project {path root : String} (hpath : path ≠ "") (hroot : root ≠ "")
    (hrooted : (PartPath.ofText path).isAbsolute = true) {real : PartPath}
    (hreal : realPath w path = .ok real) (h : Entangled w root) :
    Unshowable w (some path) (some root)

theorem shownPath_unrooted {path : String} (h : (PartPath.ofText path).isAbsolute = false)
    (root : String) : shownPath w path root = .ok (PartPath.ofText path).text := by
  unfold shownPath
  dsimp only
  rw [h]
  rfl

theorem shownPath_rooted {path : String} (h : (PartPath.ofText path).isAbsolute = true)
    (root : String) : shownPath w path root =
      match realPath w path with
      | .error .embeddedNull => .ok (PartPath.ofText path).text
      | .error fault => .error (.ofRealPath fault)
      | .ok real =>
        match realPath w root with
        | .error .embeddedNull => .ok (PartPath.ofText path).text
        | .error fault => .error (.ofRealPath fault)
        | .ok realRoot => match real.below? realRoot with
          | some below => .ok below.text
          | none => .ok (PartPath.ofText path).text := by
  unfold shownPath
  dsimp only
  rw [h]
  rfl

theorem shownPath_fails_iff (path root : String) : Fails (shownPath w path root) ↔
    (PartPath.ofText path).isAbsolute = true ∧
      (Entangled w path ∨ (∃ real, realPath w path = .ok real) ∧ Entangled w root) := by
  unfold Entangled
  cases hrooted : (PartPath.ofText path).isAbsolute with
  | false =>
    rw [shownPath_unrooted hrooted]
    exact iff_of_false not_fails_ok fun h => nomatch h.1
  | true =>
    rw [shownPath_rooted hrooted]
    cases hpath : realPath w path with
    | error fault =>
      cases fault with
      | embeddedNull => simp [fails_ok]
      | linkLoop | tooDeep => simp [Fails]
    | ok real =>
      cases hroot : realPath w root with
      | error fault =>
        cases fault with
        | embeddedNull => simp [fails_ok]
        | linkLoop | tooDeep => simp [Fails]
      | ok realRoot =>
        dsimp only
        cases real.below? realRoot <;> simp [fails_ok]

theorem shownConfig_both (path root : String) : shownConfig w (some path) (some root) =
    if path = "" ∨ root = "" then .ok (some path) else (shownPath w path root).map some := rfl

theorem shownConfig_fails_iff (config project : Option String) :
    Fails (shownConfig w config project) ↔ Unshowable w config project := by
  cases config with
  | none => exact iff_of_false not_fails_ok nofun
  | some path =>
    cases project with
    | none => exact iff_of_false not_fails_ok nofun
    | some root =>
      rw [shownConfig_both]
      by_cases hempty : path = "" ∨ root = ""
      · rw [if_pos hempty]
        refine iff_of_false not_fails_ok fun h => ?_
        cases h with
        | config hpath hroot => exact hempty.elim hpath hroot
        | project hpath hroot => exact hempty.elim hpath hroot
      · obtain ⟨hpath, hroot⟩ := not_or.mp hempty
        rw [if_neg hempty, fails_map, shownPath_fails_iff]
        constructor
        · rintro ⟨hrooted, h | ⟨⟨real, hreal⟩, h⟩⟩
          · exact .config hpath hroot hrooted h
          · exact .project hpath hroot hrooted hreal h
        · intro h
          cases h with
          | config _ _ hrooted h => exact ⟨hrooted, .inl h⟩
          | project _ _ hrooted hreal h => exact ⟨hrooted, .inr ⟨⟨_, hreal⟩, h⟩⟩

/-- Something is shown if something was found. -/
theorem shownConfig_none {config project shown : Option String}
    (h : shownConfig w config project = .ok shown) : shown = none ↔ config = none := by
  cases config with
  | none =>
    cases h
    exact Iff.rfl
  | some path =>
    refine iff_of_false (fun hshown => ?_) nofun
    subst hshown
    cases project with
    | none => cases h
    | some root =>
      rw [shownConfig_both] at h
      by_cases hempty : path = "" ∨ root = ""
      · rw [if_pos hempty] at h
        cases h
      · rw [if_neg hempty] at h
        cases hpath : shownPath w path root <;> rw [hpath] at h <;> cases h

/-- What a debug job finds. -/
def findings (w : World) (c : Context) (policy : Policy) (resolved : Resolved)
    (shown : Option String) : Findings :=
  ⟨w.host.runtime, w.host.platform, resolved.package, shown, policy, resolved.working,
    c.nodeExecutable, (c.env.get? "NODE_PATH").getD ""⟩

/-- **A debug job**, once it has resolved what it describes, changes nothing more. -/
theorem debug_run {job : Job} (htype : job.type = "debug") {policy : Policy} {s t : Session}
    {resolved : Resolved} (h : (job.resolve policy).run w s = (.ok resolved, t)) :
    (job.run policy).run w s =
      ((shownConfig w resolved.config job.projectPath).map fun shown =>
        ⟨job.type, [], none, none, some (findings w t.context policy resolved shown)⟩, t) := by
  have hmem : job.type ∈ types := by
    rw [htype]
    decide
  unfold run
  rw [if_neg (not_not_intro hmem), run_bind_ok h, if_pos htype]
  unfold describe
  rw [bind_assoc, run_read_bind, bind_assoc]
  cases hshown : shownConfig w resolved.config job.projectPath with
  | error fault => exact run_bind_error (run_ofExcept _ _)
  | ok shown =>
    rw [run_bind_ok (run_ofExcept _ _), bind_assoc, run_context_bind]
    rfl

end Job

/-! ## 4. The description and the child -/

theorem Engine.Options.optional_eq (name : String) (given : Option String) :
    optional name given = ((given.filter (· ≠ "")).map fun s => (name, Json.text s)).toList := by
  unfold optional
  cases given with
  | none => rfl
  | some s =>
    by_cases hs : s = ""
    · subst hs
      rfl
    · rw [Option.filter_some, if_pos (by simpa using hs)]
      split
      · cases ‹_›
      · exact absurd (Option.some.inj ‹_›) hs
      · cases ‹some _ = _›
        rfl

theorem Engine.Options.request_ignorePath (options : Engine.Options) :
    options.request.get? "ignorePath" = (options.ignorePath.filter (· ≠ "")).map Json.text := by
  rw [request, Json.get?, optional_eq, optional_eq]
  cases options.ignorePath.filter (· ≠ "") <;> cases options.configFile.filter (· ≠ "") <;>
    simp [Entries.get?]

theorem Engine.Options.request_configFile (options : Engine.Options) :
    options.request.get? "configFile" = (options.configFile.filter (· ≠ "")).map Json.text := by
  rw [request, Json.get?, optional_eq, optional_eq]
  cases options.ignorePath.filter (· ≠ "") <;> cases options.configFile.filter (· ≠ "") <;>
    simp [Entries.get?]

theorem Child.directory_eq (hcwd : isAbsolute w.cwd = true) (directory : String) :
    Child.directory w (some directory) = absolute w.cwd directory := by
  by_cases hempty : directory = ""
  · subst hempty
    have hhere : place w.cwd w.cwd = settle w.cwd.toList := by rw [place, if_pos hcwd]
    have hsettle : settle w.cwd.toList =
        ⟨leadingSlashes w.cwd.toList, reduce true (entries w.cwd.toList)⟩ := by
      rw [← settle_names hcwd]
      rfl
    have hempty : place w.cwd "" = settle w.cwd.toList := by
      rw [place_relative hcwd rfl, hsettle]
      exact congrArg _ (descend_nil _)
    show absolute w.cwd w.cwd = _
    rw [absolute_eq, absolute_eq, hhere, hempty]
  · show absolute w.cwd (if directory = "" then w.cwd else directory) = _
    rw [if_neg hempty]

/-- **A description agrees with a child**: the package, the working directory, the file, the program
    and the search path are those of the child, and a configuration file is shown exactly if the
    child may not be sent the policy's. -/
structure Job.Findings.Describes (w : World) (policy : Policy) (info : Job.Findings)
    (r : Child.Request) : Prop where
  cwd : r.cwd = absolute w.cwd info.working.cwd
  command : ∃ node words, r.command = node :: words ∧ info.nodeExecutable = .text node
  env : ∃ env, r.env = some env ∧ info.nodePath = (env.get? "NODE_PATH").getD ""
  request : ∃ request options input, r.input = some input ∧
    Json.write Json.wire request = .ok input ∧
    request.get? "eslintPath" = some (.text info.package.path) ∧
    request.get? "filePath" = some (.text info.working.relativePath) ∧
    request.get? "options" = some options ∧
    match info.configPath with
      | none => ∃ fallback, Engine.Options.fallbackOf w policy none = .ok fallback ∧
        options.get? "configFile" = (fallback.filter (· ≠ "")).map Json.text
      | some _ => options.get? "configFile" = none

/-- The description of what a lint job was resolved to agrees with the job's child. -/
theorem Job.describes_child (hcwd : isAbsolute w.cwd = true) {job : Job} {policy : Policy}
    {resolved : Job.Resolved} {s : Session} {r : Child.Request}
    (h : job.child w policy resolved s = .ok r) (hnoted : s.context.cwd = some resolved.working.cwd)
    {shown : Option String} (hshown : shown = none ↔ resolved.config = none) :
    (findings w s.context policy resolved shown).Describes w policy r := by
  obtain ⟨options, hoptions, hchild⟩ := Job.of_child h
  obtain ⟨node, input, hnode, -, hinput, rfl⟩ := Engine.child_eq_ok.mp hchild
  have hconfig : Engine.Options.fallbackOf w policy resolved.config = .ok options.configFile :=
    (Engine.Options.build_given hoptions).2
  refine ⟨?_, ⟨node, _, rfl, hnode⟩, ⟨_, rfl, rfl⟩, _, _, input, rfl, hinput, rfl, rfl, rfl, ?_⟩
  · show Child.directory w s.context.cwd = _
    rw [hnoted]
    exact Child.directory_eq hcwd resolved.working.cwd
  · have hrequest := options.request_configFile
    cases hfound : resolved.config with
    | none =>
      rw [hfound] at hconfig
      rw [show (findings w s.context policy resolved shown).configPath = none from
        hshown.mpr hfound]
      exact ⟨_, hconfig, hrequest⟩
    | some path =>
      rw [hfound] at hconfig
      obtain ⟨given, hgiven⟩ := Option.ne_none_iff_exists'.mp fun hnone : shown = none =>
        Option.some_ne_none path (hfound.symm.trans (hshown.mp hnone))
      rw [show (findings w s.context policy resolved shown).configPath = some given from hgiven]
      show options.request.get? "configFile" = none
      rw [hrequest, (Except.ok.inj hconfig).symm]
      rfl

/-- **A debug job tells the truth about a lint job.** Where a job that lints or fixes starts an
    engine, a debug job on the same file and project, from the same session, starts none. It replies
    exactly where the configuration file can be shown, and then its description agrees with the
    engine's child. -/
theorem debug_describes_lint (hcwd : isAbsolute w.cwd = true) (s : Session) (policy : Policy)
    {job question : Job} (hjob : job.type = "lint" ∨ job.type = "fix")
    (hquestion : question.type = "debug") (hfile : question.filePath = job.filePath)
    (hproject : question.projectPath = job.projectPath) {r : Child.Request}
    (hr : r ∈ ((job.run policy).run w s).2.started.drop s.started.length)
    (hruns : r.RunsEngine) :
    let asked := (question.run policy).run w s
    (∃ later, asked.2.started = s.started ++ later ∧ ∀ r ∈ later, ¬r.RunsEngine) ∧
    (∃ resolved, ((job.resolve policy).run w s).1 = .ok resolved ∧
      ((∃ reply, asked.1 = .ok reply) ↔
        ¬Job.Unshowable w resolved.config job.projectPath)) ∧
    ∀ reply, asked.1 = .ok reply → ∃ info, reply.debug = some info ∧ info.Describes w policy r := by
  obtain ⟨resolved, t, hresolve, hchild⟩ := (Job.starts_iff hjob policy s r).mp ⟨hr, hruns⟩
  obtain ⟨hsilent, hnoted⟩ := job.resolve_silent (m := w) policy s
  rw [hresolve] at hsilent hnoted
  have hasked := Job.debug_run hquestion
    ((congrArg (run · w s) (Job.resolve_congr hfile hproject policy)).trans hresolve)
  rw [hproject] at hasked
  rw [hasked, hresolve]
  cases hshown : Job.shownConfig w resolved.config job.projectPath with
  | error fault =>
    have hunshowable := (Job.shownConfig_fails_iff _ _).mp ⟨fault, hshown⟩
    refine ⟨hsilent, ⟨resolved, rfl, iff_of_false ?_ (not_not_intro hunshowable)⟩,
      fun reply hreply => ?_⟩
    · rintro ⟨reply, hreply⟩
      cases hreply
    · cases hreply
  | ok shown =>
    have hshowable : ¬Job.Unshowable w resolved.config job.projectPath := by
      rw [← Job.shownConfig_fails_iff, hshown]
      exact not_fails_ok
    refine ⟨hsilent, ⟨resolved, rfl, iff_of_true ⟨_, rfl⟩ hshowable⟩, fun reply hreply => ?_⟩
    cases hreply
    exact ⟨_, rfl, Job.describes_child hcwd hchild (hnoted resolved rfl)
      (Job.shownConfig_none hshown)⟩

/-! ## 5. A configuration file that has become a link -/

/-- A machine with a bundled copy of the linter and this at `/p/.eslintrc.js`. -/
def World.configured (config : Node) : World :=
  let tools := ["tools", "node_modules", "eslint"]
  { World.bare with
    files := ((FileTree.empty.add (tools ++ ["package.json"]) (.file "\x7b\x7d".toUTF8 true true)).add
      (tools ++ ["index.js"]) (.file .empty true true)).add ["p", ".eslintrc.js"] config
    answer := fun _ _ => .finished 0 "\x7b\x7d" "" }

/-- There is a file. -/
def World.plain : World := .configured (.file .empty true true)

/-- There is a link to itself. -/
def World.circular : World := .configured (.link ".eslintrc.js")

/-- A job of some type for a file of the project `/p`. -/
def Job.inProject (type : String) : Job := ⟨type, "", "/p/a.js", some "/p", [], []⟩

/-- The session after the configuration file was looked for while it was a file. -/
def Session.foundConfig : Session := ((ConfigFile.find "/p").run World.plain (.start (.ofEnv []))).2

/-- A job starts an engine: it is resolved, and its child can be put together. -/
def Job.starts? (w : World) (s : Session) (job : Job) : Bool :=
  match (job.resolve .standard).run w s with
  | (.ok resolved, t) => (job.child w .standard resolved t).isOk
  | (.error _, _) => false

theorem Job.exists_of_starts? {s : Session} {job : Job}
    (hjob : job.type = "lint" ∨ job.type = "fix") (h : job.starts? w s = true) :
    ∃ r ∈ ((job.run .standard).run w s).2.started.drop s.started.length, r.RunsEngine := by
  unfold starts? at h
  split at h
  · rename_i resolved t hresolve
    obtain ⟨r, hr⟩ := exists_of_isOk h
    obtain ⟨hmem, hruns⟩ := (Job.starts_iff hjob .standard s r).mpr ⟨resolved, t, hresolve, hr⟩
    exact ⟨r, hmem, hruns⟩
  · cases h

/-- What such a job goes through: its resolution, its options and its child. -/
theorem Job.stages_of_starts? {s : Session} {job : Job} (h : job.starts? w s = true) :
    ∃ resolved t options t' r, (job.resolve .standard).run w s = (.ok resolved, t) ∧
      (Engine.Options.build job.type .standard job.rules resolved.fileDir resolved.config).run w t =
        (.ok options, t') ∧
      Engine.child w t'.context (resolved.engine t.context options) .lint job.contents
        (some resolved.working.relativePath) = .ok r := by
  unfold starts? at h
  split at h
  · rename_i resolved t hresolve
    obtain ⟨r, hr⟩ := exists_of_isOk h
    obtain ⟨options, hoptions, hchild⟩ := Job.of_child hr
    have hframe := Engine.Options.build_frame (m := w) job.type .standard job.rules
      resolved.fileDir resolved.config t
    rcases hbuild : (Engine.Options.build job.type .standard job.rules resolved.fileDir
      resolved.config).run w t with ⟨result, t'⟩
    rw [hbuild] at hoptions hframe
    obtain rfl : result = .ok options := hoptions
    refine ⟨resolved, t, options, t', r, hresolve, hbuild, ?_⟩
    rw [show t'.context = t.context from hframe.1]
    exact hchild
  · cases h

/-- The file has become a link to itself since it was found: a lint job starts its engine, and a
    debug job fails. -/
theorem circular_config_untold :
    (∃ r ∈ (((Job.inProject "lint").run .standard).run World.circular
      .foundConfig).2.started.drop Session.foundConfig.started.length, r.RunsEngine) ∧
    ¬∃ reply, (((Job.inProject "debug").run .standard).run World.circular .foundConfig).1 =
      .ok reply := by
  have hlint : (Job.inProject "lint").starts? .circular .foundConfig = true := by decide +kernel
  have hdebug : (((Job.inProject "debug").run .standard).run World.circular
      .foundConfig).1.isOk = false := by decide +kernel
  refine ⟨Job.exists_of_starts? (.inl rfl) hlint, ?_⟩
  rintro ⟨reply, hreply⟩
  rw [hreply] at hdebug
  cases hdebug

/-- As long as it is a file, a debug job for it shows it and describes the engine. -/
theorem plain_config_told :
    ∃ r ∈ (((Job.inProject "fix").run .standard).run World.plain
      .foundConfig).2.started.drop Session.foundConfig.started.length, r.RunsEngine ∧
    ∃ reply info, (((Job.inProject "debug").run .standard).run World.plain .foundConfig).1 =
        .ok reply ∧
      reply.debug = some info ∧ info.configPath = some ".eslintrc.js" ∧
      info.Describes .plain .standard r := by
  have hfix : (Job.inProject "fix").starts? .plain .foundConfig = true := by decide +kernel
  have hjob : (Job.inProject "fix").type = "lint" ∨ (Job.inProject "fix").type = "fix" := .inr rfl
  have hquestion : (Job.inProject "debug").type = "debug" := rfl
  have hshown : (((Job.inProject "debug").run .standard).run World.plain .foundConfig).1.toOption.map
      (fun reply => reply.debug.bind Job.Findings.configPath) = some (some ".eslintrc.js") := by
    decide +kernel
  obtain ⟨r, hr, hruns⟩ := Job.exists_of_starts? hjob hfix
  obtain ⟨-, -, hdescribes⟩ := debug_describes_lint (w := .plain) (by decide) .foundConfig .standard
    hjob hquestion rfl rfl hr hruns
  obtain ⟨reply, hreply, hpath⟩ := Option.map_eq_some_iff.mp hshown
  have hok := Except.eq_ok_of_toOption hreply
  obtain ⟨info, hinfo, hdescribed⟩ := hdescribes reply hok
  rw [hinfo] at hpath
  exact ⟨r, hr, hruns, reply, info, hok, hinfo, hpath, hdescribed⟩

end LintHost
