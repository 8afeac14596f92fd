import LintHost.Proofs.LogApart
import LintHost.Proofs.RequestText

/-!
# What inspections tell

Whoever wants to know why a file is linted as it is can ask for the copy of the linter, the working
directory, the options or the rules. Each of these commands resolves on its own what it shows, and
none resolves all that a lint does, nor in the same order. They agree all the same: but for the copy
of the linter, nothing that is resolved depends on what was resolved before, and the search path is
pointed elsewhere only while that copy is looked for. But each tells other things to the log; where
the log is kept in a file that is looked at, they may see different machines. A log that stays in a
file of its own is none of these (`Reaches.settled`).

* `Job.of_resolve`: the parts of what a lint resolves, each as it is from a new session;
* `Outlook`: these parts, from a session that lints and inspections have in common;
* `lint_outlook`, `perform_locate`, `perform_context`, `perform_options`, `rules_child`: what each
  command makes of them; `steady_optionsFor` and its like: a log that changes no answer changes
  none of it;
* `SameOptions`: options as they are shown and as an engine is sent them;
* `Agreement`, `inspections_tell_lint`: what is shown agrees with the child of a lint;
* `logged_inspections_differ`: not so where the log is kept in the manifest.
-/

namespace LintHost

open LintHost.Action LintHost.Path LintHost.Text

variable {w : World}

/-! ## 1. Resolving in parts -/

/-- Resolving a working directory notes it in the context, and does nothing else there. -/
theorem Workplace.resolve_still {fileDir filePath : String} {policy : Policy}
    {project : Option String} {s t : Session} {working : Workplace}
    (h : (resolve fileDir filePath policy project).run w s = (.ok working, t)) :
    t.context = { s.context with cwd := some working.cwd } ∧ t.started = s.started := by
  have hstill := ((searches_still (m := w) s).ignoreFile fileDir policy).keeps.session ⟨rfl, rfl⟩
  rw [resolve] at h
  obtain ⟨ignore, s', hrun, h⟩ := of_run_bind h
  rw [hrun] at hstill
  obtain ⟨hcontext, hstarted⟩ := hstill
  dsimp only at hcontext hstarted
  rw [run_read_bind] at h
  rw [← hcontext, ← hstarted]
  cases h
  exact ⟨rfl, rfl⟩

theorem ConfigFile.find_context {start : String} {s t : Session} {config : Option String}
    (h : (find start).run w s = (.ok config, t)) : t.context = s.context := by
  have hstill := ((searches_still (m := w) s).configFile start).keeps.session ⟨rfl, rfl⟩
  rw [h] at hstill
  exact hstill.1

/-- **The parts of a resolution.** Only the copy of the linter depends on more of the session than
    the memo, and only the search path and the working directory are left in the context. -/
theorem Job.of_resolve (hcwd : isAbsolute w.cwd = true) {job : Job} {policy : Policy}
    {s t : Session} {resolved : Job.Resolved} (hs : Recalls w.files s)
    (h : (job.resolve policy).run w s = (.ok resolved, t)) :
    ∃ found, (Package.forDirectory (job.fileDir w) policy job.projectPath).run w s =
        (.ok resolved.package, found) ∧
      ConfigFile.fresh w (job.fileDir w) = .ok resolved.config ∧
      Workplace.fresh w (job.fileDir w) (absolute w.cwd job.filePath) policy job.projectPath =
        .ok resolved.working ∧
      resolved.fileDir = job.fileDir w ∧
      t.context = { found.context with cwd := some resolved.working.cwd } ∧ Recalls w.files t := by
  unfold resolve at h
  rw [run_absolute_bind] at h
  obtain ⟨package, found, hpackage, h⟩ := of_run_bind h
  obtain ⟨config, s', hconfig, h⟩ := of_run_bind h
  obtain ⟨working, t', hworking, h⟩ := of_run_bind h
  obtain ⟨hresolved, rfl⟩ := Prod.mk.inj h
  obtain rfl := Except.ok.inj hresolved
  have hfound := (Package.forDirectory_right hcwd hs (job.fileDir w) policy job.projectPath).2
  rw [fileDir, hpackage] at hfound
  obtain ⟨hconfigures, hs'⟩ := (ConfigFile.computes_find hcwd _).result hfound hconfig
  obtain ⟨hworks, ht⟩ := (Workplace.computes_resolve hcwd _ _ _ _).result hs' hworking
  refine ⟨found, hpackage, hconfigures, hworks, rfl, ?_, ht⟩
  rw [(Workplace.resolve_still hworking).1, ConfigFile.find_context hconfig]

/-- Options for another type of job differ in nothing but whether to fix. -/
theorem Engine.Options.fresh_type (jobType other : String) (policy : Policy) (rules : Entries Json)
    (fileDir : String) (config : Option String) : fresh w jobType policy rules fileDir config =
      (fresh w other policy rules fileDir config).map fun options =>
        { options with fix := jobType = "fix" } := by
  unfold fresh
  cases fallbackOf w policy config with
  | error fault => rfl
  | ok configFile =>
    cases freshIgnoreFile w fileDir policy with
    | error fault => rfl
    | ok ignorePath => cases freshRuleDirectories w fileDir policy.rulesDirs <;> rfl

/-- Options have the rules they were asked for, and fix for a job of that type. -/
theorem Engine.Options.fresh_asked {jobType : String} {policy : Policy} {rules : Entries Json}
    {fileDir : String} {config : Option String} {options : Engine.Options}
    (h : fresh w jobType policy rules fileDir config = .ok options) :
    options.rules = rules ∧ options.fix = decide (jobType = "fix") := by
  obtain ⟨configFile, -, h⟩ := Except.bind_eq_ok h
  obtain ⟨ignorePath, -, h⟩ := Except.bind_eq_ok h
  obtain ⟨paths, -, h⟩ := Except.bind_eq_ok h
  cases h
  exact ⟨rfl, rfl⟩

namespace CommandLine

variable {policy : Policy} {file : PartPath} {project : Option String} {fix : Bool} {s : Session}
  {m : Machine}

/-- What is resolved for a file from a session: the copy of the linter, with the session after it
    was found, the configuration file and the working directory. -/
structure Outlook (w : World) (policy : Policy) (file : PartPath) (project : Option String)
    (s : Session) where
  package : Package
  found : Session
  config : Option String
  working : Workplace
  finds : (Package.forDirectory (fileDir w file) policy project).run w s = (.ok package, found)
  configures : ConfigFile.fresh w (fileDir w file) = .ok config
  works : Workplace.fresh w (fileDir w file) (absolute w.cwd file.text) policy project =
    .ok working

namespace Outlook

/-- The context that an engine is constructed in. -/
def context (o : Outlook w policy file project s) : Context :=
  { o.found.context with cwd := some o.working.cwd }

/-- The engine with these options. -/
def engine (o : Outlook w policy file project s) (options : Engine.Options) : Engine :=
  ⟨0, o.package, options, some o.working.cwd, o.found.context.env⟩

/-- Putting options for linting or fixing together comes to these. -/
def Builds (o : Outlook w policy file project s) (fix : Bool) (options : Engine.Options) : Prop :=
  Engine.Options.fresh w (if fix then "fix" else "lint") policy [] (fileDir w file) o.config =
    .ok options

/-- Where there are options for fixing, there are those for linting. -/
theorem Builds.plain {o : Outlook w policy file project s} {options : Engine.Options}
    (h : o.Builds fix options) :
    ∃ plain, o.Builds false plain ∧ (fix = false → plain = options) := by
  have htype := Engine.Options.fresh_type (w := w) "lint" (if fix then "fix" else "lint") policy []
    (fileDir w file) o.config
  rw [h] at htype
  cases fix with
  | false => exact ⟨options, h, fun _ => rfl⟩
  | true => exact ⟨_, htype, nofun⟩

end Outlook

/-! ## 2. Linting -/

/-- The job of a lint. -/
def lintJob (file : PartPath) (project : Option String) (fix : Bool) (contents : String) : Job :=
  ⟨if fix then "fix" else "lint", contents, file.text, project, [], []⟩

theorem lintJob_type (file : PartPath) (project : Option String) (fix : Bool) (contents : String) :
    (lintJob file project fix contents).type = "lint" ∨
      (lintJob file project fix contents).type = "fix" := by
  cases fix with
  | true => exact .inr rfl
  | false => exact .inl rfl

theorem lintText_started (write : Bool) (contents : String) :
    ((lintText policy file project fix write contents).run m s).2.started =
      (((lintJob file project fix contents).run policy).run m s).2.started := by
  unfold lintText
  rw [← lintJob]
  dsimp only
  rcases hrun : ((lintJob file project fix contents).run policy).run m s with ⟨result, t⟩
  cases result with
  | error fault => rw [run_bind_error hrun]
  | ok reply =>
    rw [run_bind_ok hrun]
    rfl

theorem lintInput_started (write : Bool) (input : String) :
    (((Task.lint file project fix write true).perform policy input).run m s).2.started =
      (((lintJob file project fix (String.ofList (unifyNewlines input.toList))).run policy).run
        m s).2.started := by
  unfold Task.perform
  dsimp only
  rw [if_pos rfl, pure_bind, lintText_started]

/-- A child of a lint is one of a job. -/
theorem lint_started {write stdin : Bool} {input : String} (hs : s.started = [])
    {r : Child.Request} (hr : r ∈
      (((Task.lint file project fix write stdin).perform policy input).run m s).2.started) :
    ∃ contents, r ∈ (((lintJob file project fix contents).run policy).run m s).2.started := by
  cases stdin with
  | true =>
    rw [lintInput_started] at hr
    exact ⟨_, hr⟩
  | false =>
    unfold Task.perform at hr
    dsimp only at hr
    rw [if_neg Bool.false_ne_true, run_now_bind] at hr
    cases htext : textOf (m.now s) file with
    | error fault =>
      rw [htext, run_bind_error (run_ofExcept _ _)] at hr
      rw [hs] at hr
      cases hr
    | ok contents =>
      rw [htext, run_bind_ok (run_ofExcept _ _)] at hr
      rw [lintText_started] at hr
      exact ⟨contents, hr⟩

/-- **The child of a lint** is that of the engine for what is resolved. -/
theorem lint_outlook (hcwd : isAbsolute w.cwd = true) (hs : Recalls w.files s)
    (hstarted : s.started = []) {contents : String} {r : Child.Request}
    (hr : r ∈ (((lintJob file project fix contents).run policy).run w s).2.started)
    (hruns : r.RunsEngine) : ∃ (o : Outlook w policy file project s) (options : Engine.Options),
      o.Builds fix options ∧ (o.engine options).child w o.context .lint contents
        (some o.working.relativePath) = .ok r := by
  have hjob := lintJob_type file project fix contents
  have hdrop : r ∈ (((lintJob file project fix contents).run policy).run w s).2.started.drop
      s.started.length := by
    rw [hstarted]
    exact hr
  obtain ⟨resolved, t, hresolve, hchild⟩ := (Job.starts_iff hjob policy s r).mp ⟨hdrop, hruns⟩
  obtain ⟨found, hpackage, hconfig, hworking, hdirectory, hcontext, ht⟩ :=
    Job.of_resolve hcwd hs hresolve
  let o : Outlook w policy file project s :=
    ⟨resolved.package, found, resolved.config, resolved.working, hpackage, hconfig, hworking⟩
  obtain ⟨options, hoptions, hchild⟩ := Job.of_child hchild
  have hbuild := (Engine.Options.computes_build hcwd (lintJob file project fix contents).type policy
    [] (fileDir w file) resolved.config).run t ht
  rw [hdirectory] at hoptions
  rw [hcontext] at hchild
  exact ⟨o, options, hbuild.1.symm.trans hoptions, hchild⟩

/-! ## 3. Inspecting -/

/-- What is shown of a copy of the linter. -/
def shownPackage (package : Package) : Json := .object [("path", .text package.path),
  ("source_kind", .text package.installation.origin.text), ("version", .ofText? package.version)]

theorem perform_locate (o : Outlook w policy file project s) (input : String) :
    (((Task.locate file project).perform policy input).run w s).1 =
      .ok (.showing (shownPackage o.package)) := by
  unfold Task.perform
  dsimp only
  rw [run_directoryOf_bind, run_bind_ok o.finds]
  rfl

/-- The working directory is resolved from any session with a right memo. -/
theorem Outlook.resolves (o : Outlook w policy file project s) (hcwd : isAbsolute w.cwd = true)
    {t : Session} (ht : Recalls w.files t) : ∃ t',
      (Workplace.resolve (fileDir w file) (absolute w.cwd file.text) policy project).run w t =
        (.ok o.working, t') ∧
      t'.context = { t.context with cwd := some o.working.cwd } ∧ t'.started = t.started ∧
      Recalls w.files t' := by
  have hcomputes := Workplace.computes_resolve hcwd (fileDir w file) (absolute w.cwd file.text)
    policy project
  rw [o.works] at hcomputes
  obtain ⟨t', hrun, ht'⟩ := hcomputes.ends ht
  obtain ⟨hcontext, hstarted⟩ := Workplace.resolve_still hrun
  exact ⟨t', hrun, hcontext, hstarted, ht'⟩

/-- What is shown of a working directory. -/
def shownWorkplace (working : Workplace) : Json := .object [("cwd", .text working.cwd),
  ("relative_path", .text working.relativePath)]

theorem perform_context (hcwd : isAbsolute w.cwd = true) (hs : Recalls w.files s)
    (o : Outlook w policy file project s) (input : String) :
    (((Task.context file project).perform policy input).run w s).1 =
      .ok (.showing (shownWorkplace o.working)) := by
  obtain ⟨t, hrun, -⟩ := o.resolves hcwd hs
  unfold Task.perform
  dsimp only
  rw [run_directoryOf_bind, run_wholePath_bind, run_bind_ok hrun]
  rfl

/-- The options are put together from any session with a right memo. -/
theorem Outlook.Builds.run {o : Outlook w policy file project s} {options : Engine.Options}
    (h : o.Builds fix options) (hcwd : isAbsolute w.cwd = true) {t : Session}
    (ht : Recalls w.files t) : ∃ t', (optionsFor policy file fix).run w t = (.ok options, t') ∧
      t'.context = t.context ∧ t'.started = t.started := by
  have hcomputes := (ConfigFile.computes_find hcwd (fileDir w file)).bind fun config =>
    Engine.Options.computes_build hcwd (if fix then "fix" else "lint") policy [] (fileDir w file)
      config
  have hstill := ((searches_still (m := w) t).configFile (fileDir w file)).bind fun config =>
    (searches_still t).options (if fix then "fix" else "lint") policy [] (fileDir w file) config
  rw [o.configures, Except.ok_bind, h] at hcomputes
  obtain ⟨t', hrun, -⟩ := hcomputes.ends ht
  have hsession := hstill.keeps.session ⟨rfl, rfl⟩
  rw [hrun] at hsession
  refine ⟨t', ?_, hsession⟩
  unfold optionsFor
  rw [run_directoryOf_bind, hrun]

theorem perform_options (hcwd : isAbsolute w.cwd = true) (hs : Recalls w.files s)
    (o : Outlook w policy file project s) {options : Engine.Options} (h : o.Builds fix options)
    (input : String) :
    (((Task.options file fix).perform policy input).run w s).1 =
      .ok (.showing options.toJson) := by
  obtain ⟨t, hrun, -⟩ := h.run hcwd hs
  unfold Task.perform
  dsimp only
  rw [run_bind_ok hrun]
  rfl

/-- An inspection of the rules calls the engine that a lint without fixes calls, in its context. -/
theorem rulesFor_run (hcwd : isAbsolute w.cwd = true) (hs : Recalls w.files s)
    (o : Outlook w policy file project s) {options : Engine.Options} (h : o.Builds false options) :
    ∃ t, t.context = o.context ∧ t.started = o.found.started ∧
      (rulesFor policy file project).run w s =
        ((·.rules) <$> (o.engine options).call .rules "" none).run w t := by
  have hfound := (Package.forDirectory_right hcwd hs (fileDir w file) policy project).2
  rw [o.finds] at hfound
  obtain ⟨t, hworking, hcontext, hstarted, ht⟩ := o.resolves hcwd hfound
  obtain ⟨t', hoptions, hcontext', hstarted'⟩ := h.run hcwd ht
  have hdiscard : (discard (Workplace.resolve (fileDir w file) (absolute w.cwd file.text) policy
      project)).run w o.found = (.ok ⟨⟩, t) := by
    rw [run_discard, hworking]
    rfl
  have hthere : t'.context = o.context := hcontext'.trans hcontext
  refine ⟨t', hthere, hstarted'.trans hstarted, ?_⟩
  unfold rulesFor
  rw [run_directoryOf_bind, run_bind_ok o.finds, run_wholePath_bind, run_bind_ok hdiscard]
  dsimp only
  rw [run_bind_ok hoptions, Adapter.construct, bind_assoc, run_context_bind, pure_bind,
    Adapter.rules_new, hthere]
  rfl

/-- **The child of an inspection of the rules** is that of this engine. -/
theorem rulesFor_started (hcwd : isAbsolute w.cwd = true) (hs : Recalls w.files s)
    (o : Outlook w policy file project s) {options : Engine.Options} (h : o.Builds false options) :
    ((rulesFor policy file project).run w s).2.started = o.found.started ++
      ((o.engine options).child w o.context .rules "" none).toOption.toList := by
  obtain ⟨t, hcontext, hstarted, hrun⟩ := rulesFor_run hcwd hs o h
  rw [hrun, run_map, Engine.call_started, hcontext, hstarted]

/-- Comparing the rules with an earlier inventory starts no child. -/
theorem rules_started (previous : Option PartPath) (save : Bool) (input : String) :
    (((Task.rules file project previous save).perform policy input).run m s).2.started =
      ((rulesFor policy file project).run m s).2.started := by
  unfold Task.perform
  dsimp only
  rcases hrun : (rulesFor policy file project).run m s with ⟨result, t⟩
  cases result with
  | error fault => rw [run_bind_error hrun]
  | ok current => rw [run_bind_ok hrun, run_now_bind, run_ofExcept]

/-- Finding a copy of the linter has started no engine. -/
theorem Outlook.silent (o : Outlook w policy file project s) (hs : s.started = [])
    {r : Child.Request} (hr : r ∈ o.found.started) : ¬r.RunsEngine := by
  have hsilent := (ends_forDirectory (m := w) (Q := fun _ => False) (fileDir w file) policy
    project).outcome s (started_self _ s)
  rw [o.finds] at hsilent
  obtain ⟨later, hlater, hnone⟩ := hsilent
  rw [hlater, hs] at hr
  exact hnone r hr

/-- The engine that tells the rules is the one of a lint without fixes. -/
theorem rules_child (hcwd : isAbsolute w.cwd = true) (hs : Recalls w.files s)
    (hstarted : s.started = []) (o : Outlook w policy file project s) {options : Engine.Options}
    (h : o.Builds false options) {r : Child.Request}
    (hr : r ∈ ((rulesFor policy file project).run w s).2.started) (hruns : r.RunsEngine) :
    (o.engine options).child w o.context .rules "" none = .ok r := by
  rw [rulesFor_started hcwd hs o h] at hr
  rcases List.mem_append.mp hr with hr | hr
  · exact absurd hruns (o.silent hstarted hr)
  · exact Except.mem_toOption.mp hr

/-! ## 4. With a log -/

theorem steady_directoryOf (file : PartPath) : Steady m (directoryOf file) :=
  (Steady.absolute _).bind fun _ => .pure _

section Steadiness

variable (h : Settled policy m)
include h

theorem steady_optionsFor (file : PartPath) (fix : Bool) : Steady m (optionsFor policy file fix) :=
  (steady_directoryOf file).bind fun _ => (h.configFile _).bind fun _ => h.options _ _ _ _

theorem steady_rulesFor (file : PartPath) (project : Option String) :
    Steady m (rulesFor policy file project) :=
  (steady_directoryOf file).bind fun _ => (h.forDirectory _ _).bind fun _ =>
    (Steady.absolute _).bind fun _ => (h.workplace _ _ _).discard.bind fun _ =>
      (steady_optionsFor h file false).bind fun _ => (steady_construct _ _ _).bind fun _ =>
        (steady_rules _ _).bind fun _ => .pure _

theorem steady_locate (file : PartPath) (project : Option String) (input : String) :
    Steady m ((Task.locate file project).perform policy input) :=
  (steady_directoryOf file).bind fun _ => (h.forDirectory _ _).bind fun _ => .pure _

theorem steady_context (file : PartPath) (project : Option String) (input : String) :
    Steady m ((Task.context file project).perform policy input) :=
  (steady_directoryOf file).bind fun _ => (Steady.absolute _).bind fun _ =>
    (h.workplace _ _ _).bind fun _ => .pure _

theorem steady_options (file : PartPath) (fix : Bool) (input : String) :
    Steady m ((Task.options file fix).perform policy input) :=
  (steady_optionsFor h file fix).bind fun _ => .pure _

end Steadiness

/-! ## 5. What is shown can be written -/

theorem writable_shownPackage (package : Package) : (shownPackage package).Writable := by
  refine Json.writable_object ?_
  cases package.version <;> simp [Json.allInts, Json.depth, Json.ofText?]

theorem writable_shownWorkplace (working : Workplace) : (shownWorkplace working).Writable := by
  refine Json.writable_object ?_
  simp [Json.allInts, Json.depth]

theorem writable_options {options : Engine.Options} (h : options.rules = []) :
    options.toJson.Writable := by
  have htexts := Json.allInts_texts Json.shortInt options.rulePaths
  have hdepth := Json.depth_texts options.rulePaths
  refine Json.writable_object ?_
  cases options.ignorePath <;> cases options.configFile <;>
    simp [Json.allInts, Json.allInts.allInEntries, Json.depth, Json.depth.depthEntries,
      Json.ofText?, Json.ofTexts, h, htexts, hdepth]

theorem tidy_no_rules {rules : Entries Json} (h : rules = []) : (Json.object rules).Tidy := by
  rw [h]
  exact .object List.nodup_nil nofun

theorem tidy_toJson {options : Engine.Options} (h : options.rules = []) : options.toJson.Tidy := by
  have hnames : ["rules", "ignore", "fix", "ignore_path", "rule_paths", "config_file"].Nodup := by
    decide
  refine .object hnames ?_
  have hrules := tidy_no_rules h
  have htexts := Json.tidy_texts options.rulePaths
  have htext := Json.tidy_ofText?
  have hbool := Json.Tidy.bool
  simp [hrules, htexts, htext, hbool]

/-! ## 6. The agreement -/

/-- A child reads a request on its input. -/
def IsSent (request : Json) (r : Child.Request) : Prop :=
  ∃ input, r.input = some input ∧ Json.read input = .ok request

theorem IsSent.unique {request other : Json} {r : Child.Request} (h : IsSent request r)
    (hother : IsSent other r) : request = other := by
  obtain ⟨input, hinput, hread⟩ := h
  obtain ⟨input', hinput', hread'⟩ := hother
  obtain rfl := Option.some.inj (hinput.symm.trans hinput')
  exact Except.ok.inj (hread.symm.trans hread')

/-- Options as they are shown, and as an engine is sent them: no rules, the same switches and rule
    directories, and the same files, where one that has no path is not sent. -/
structure SameOptions (fix : Bool) (shown asked : Json) : Prop where
  shownNames : ∃ entries : Entries Json, shown = .object entries ∧ entries.names =
    ["rules", "ignore", "fix", "ignore_path", "rule_paths", "config_file"]
  askedNames : ∃ entries : Entries Json, asked = .object entries ∧ entries.names ⊆
    ["rules", "ignore", "fix", "rulePaths", "ignorePath", "configFile"]
  rules : shown.get? "rules" = some (.object []) ∧ asked.get? "rules" = some (.object [])
  ignore : ∃ ignore, shown.get? "ignore" = some (.bool ignore) ∧
    asked.get? "ignore" = some (.bool ignore)
  fixes : shown.get? "fix" = some (.bool fix) ∧ asked.get? "fix" = some (.bool fix)
  rulePaths : ∃ paths, shown.get? "rule_paths" = some (.ofTexts paths) ∧
    asked.get? "rulePaths" = some (.ofTexts paths)
  ignorePath : ∃ path, shown.get? "ignore_path" = some (.ofText? path) ∧
    asked.get? "ignorePath" = (path.filter (· ≠ "")).map .text
  configFile : ∃ path, shown.get? "config_file" = some (.ofText? path) ∧
    asked.get? "configFile" = (path.filter (· ≠ "")).map .text

theorem sameOptions {options : Engine.Options} (hrules : options.rules = []) :
    SameOptions options.fix options.toJson options.request where
  shownNames := ⟨_, rfl, rfl⟩
  askedNames := by
    refine ⟨_, rfl, ?_⟩
    rw [Engine.Options.optional_eq, Engine.Options.optional_eq]
    cases options.ignorePath.filter (· ≠ "") <;> cases options.configFile.filter (· ≠ "") <;>
      simp [Entries.names]
  rules := ⟨by rw [← hrules]; rfl, by rw [← hrules]; rfl⟩
  ignore := ⟨options.ignore, rfl, rfl⟩
  fixes := ⟨rfl, rfl⟩
  rulePaths := ⟨options.rulePaths, rfl, rfl⟩
  ignorePath := ⟨options.ignorePath, rfl, options.request_ignorePath⟩
  configFile := ⟨options.configFile, rfl, options.request_configFile⟩

/-- **What inspections tell of a file agrees with a child** that was sent a request: with the same
    words in front, the options, the working directory with the path from there and the path of the
    linter are shown as the child has them, and a child that tells the rules loads the same copy
    from the same place, in the same environment and, unless the first one fixes, with the same
    options. -/
structure Agreement (w : World) (leading : List String) (file : String) (project : Option String)
    (fix : Bool) (r : Child.Request) (request : Json) : Prop where
  options : ∀ words input, Command.options.Asks words file none fix →
    ∃ options : Engine.Options,
      (run w (leading ++ Command.options.name :: words) input).Shows options.toJson ∧
      options.rules = [] ∧ request.get? "options" = some options.request ∧
      SameOptions fix options.toJson options.request
  context : ∀ words input, Command.context.Asks words file project false →
    ∃ cwd path, (run w (leading ++ Command.context.name :: words) input).Shows
        (.object [("cwd", .text cwd), ("relative_path", .text path)]) ∧
      r.cwd = absolute w.cwd cwd ∧ request.get? "filePath" = some (.text path)
  locate : ∀ words input, Command.locate.Asks words file project false →
    ∃ shown path, (run w (leading ++ Command.locate.name :: words) input).Shows shown ∧
      shown.get? "path" = some (.text path) ∧ request.get? "eslintPath" = some (.text path)
  rules : ∀ words input, Command.rules.Asks words file project false →
    ∀ other ∈ (run w (leading ++ Command.rules.name :: words) input).started,
      other.RunsEngine → other.cwd = r.cwd ∧ other.env = r.env ∧ ∃ asked, IsSent asked other ∧
        asked.get? "eslintPath" = request.get? "eslintPath" ∧
        (fix = false → asked.get? "options" = request.get? "options")

/-- **Inspections tell the truth about a lint.** If a lint starts an engine, then the inspections of
    the same file agree with that child, where nothing that is told while they run changes what they
    look at. -/
theorem inspections_tell_lint (hcwd : isAbsolute w.cwd = true) {leading words : List String}
    (hleading : Leading leading) {file : String} {project : Option String} {fix : Bool}
    (hasks : Command.lint.Asks words file project fix) {input : String} {r : Child.Request}
    (hr : r ∈ (run w (leading ++ Command.lint.name :: words) input).started)
    (hruns : r.RunsEngine)
    (hsettled : ∀ ready, Reaches w leading ready → Settled ready.prepared.policy ready.machine) :
    ∃ request, IsSent request r ∧ Agreement w leading file project fix r request := by
  obtain ⟨ready, hreaches, hr⟩ := reaches_of_started hleading hr
  have hready := hreaches.sound
  have hsame := hsettled ready hreaches
  obtain ⟨task, htask, hr⟩ := hready.of_started hr
  obtain ⟨hfile, write, stdin, rfl⟩ := Task.of_lintWords hasks htask
  have hthere : isAbsolute ready.world.cwd = true := hready.cwd ▸ hcwd
  have hs : Recalls ready.world.files (.start ready.prepared.context) := FinderMemo.right_nil
  obtain ⟨contents, hr⟩ := lint_started rfl hr
  rw [hsame.job (lintJob_type _ _ _ _), ready.machine_world] at hr
  obtain ⟨o, options, hbuilds, hchild⟩ := lint_outlook hthere hs rfl hr hruns
  obtain ⟨hrules, hfix⟩ := Engine.Options.fresh_asked hbuilds
  obtain ⟨input, hinput, -, hread⟩ := Engine.child_input hchild (tidy_no_rules hrules)
  obtain ⟨node, _, -, -, -, rfl⟩ := Engine.child_eq_ok.mp hchild
  -- all inspections come to the same stage, and from there see what the lint has seen
  refine ⟨_, ⟨input, hinput, hread⟩, ?_, ?_, ?_, ?_⟩
  · intro words input hasks
    have htask := Task.ofWords_options hasks hfile
    have hanswer := steady_options hsame (.ofText file) fix input (.start ready.prepared.context)
    have hfix : options.fix = fix := by
      rw [hfix]
      cases fix <;> rfl
    rw [run_reached hleading hreaches]
    refine ⟨options, ready.shows htask ?_ (writable_options hrules), hrules, rfl,
      hfix ▸ sameOptions hrules⟩
    exact (congrArg Prod.fst hanswer).trans (perform_options hthere hs o hbuilds input)
  · intro words input hasks
    have htask := Task.ofWords_context hasks hfile
    have hanswer := steady_context hsame (.ofText file) project input
      (.start ready.prepared.context)
    have hdirectory := Child.directory_eq hthere o.working.cwd
    rw [run_reached hleading hreaches]
    refine ⟨o.working.cwd, o.working.relativePath,
      ready.shows htask ?_ (writable_shownWorkplace _), ?_, rfl⟩
    · exact (congrArg Prod.fst hanswer).trans (perform_context hthere hs o input)
    · rw [← hready.cwd]
      exact hdirectory
  · intro words input hasks
    have htask := Task.ofWords_locate hasks hfile
    have hanswer := steady_locate hsame (.ofText file) project input (.start ready.prepared.context)
    rw [run_reached hleading hreaches]
    refine ⟨shownPackage o.package, o.package.path,
      ready.shows htask ?_ (writable_shownPackage _), rfl, rfl⟩
    exact (congrArg Prod.fst hanswer).trans (perform_locate o input)
  · intro words input hasks other hother hruns
    rw [run_reached hleading hreaches] at hother
    obtain ⟨task, htask, hother⟩ := hready.of_started hother
    obtain ⟨previous, save, rfl⟩ := Task.of_rulesWords hasks htask
    obtain ⟨plain, hplain, hsameOptions⟩ := hbuilds.plain
    unfold Stage.perform at hother
    rw [rules_started, steady_rulesFor hsame, ready.machine_world] at hother
    have hchild := rules_child hthere hs rfl o hplain hother hruns
    obtain ⟨hrules, -⟩ := Engine.Options.fresh_asked hplain
    obtain ⟨asked, hasked, -, hread⟩ := Engine.child_input hchild (tidy_no_rules hrules)
    obtain ⟨node, _, -, -, -, rfl⟩ := Engine.child_eq_ok.mp hchild
    refine ⟨rfl, rfl, (o.engine plain).requestOf .rules "" none, ⟨asked, hasked, hread⟩, rfl,
      fun hfix => ?_⟩
    rw [← hsameOptions hfix]
    rfl

/-- Words in front of a command that name a program for children. -/
def byNode : List String := ["--node", "nodejs"]

/-- Words after a command that ask for a file of the project `/p`. -/
def ofProject : List String := ["p/a.js", "-p/p"]

/-- A file is fixed: an engine is started, and another one where the rules are asked for. -/
theorem inspections_tell_fix :
    isAbsolute World.plain.cwd = true ∧ Leading byNode ∧
      Command.lint.Asks ("--fix" :: "--stdin" :: ofProject) "p/a.js" (some "/p") true ∧
      (∃ r ∈ (run .plain (byNode ++ Command.lint.name :: "--fix" :: "--stdin" :: ofProject)
        "").started, r.RunsEngine ∧
        ∃ request, IsSent request r ∧ Agreement .plain byNode "p/a.js" (some "/p") true r request) ∧
      Command.rules.Asks ofProject "p/a.js" (some "/p") false ∧
      ∃ other ∈ (run .plain (byNode ++ Command.rules.name :: ofProject) "").started,
        other.RunsEngine := by
  have hcwd : isAbsolute World.plain.cwd = true := by decide
  have hleading : Leading byNode := ⟨[.argument "node_executable" (.text "nodejs")], rfl⟩
  have hasks : Command.lint.Asks ("--fix" :: "--stdin" :: ofProject) "p/a.js" (some "/p") true :=
    ⟨[.fix, .stdin, .project "/p"], by decide +kernel, by decide, by decide, by decide⟩
  have hasked : Command.rules.Asks ofProject "p/a.js" (some "/p") false :=
    ⟨[.project "/p"], by decide +kernel, by decide, by decide, by decide⟩
  have hlint : (run .plain (byNode ++ Command.lint.name :: "--fix" :: "--stdin" :: ofProject)
      "").started.any (·.input.isSome) = true := by
    decide +kernel
  have hrules : (run .plain (byNode ++ Command.rules.name :: ofProject)
      "").started.any (·.input.isSome) = true := by
    decide +kernel
  obtain ⟨r, hr, hsent⟩ := List.any_eq_true.mp hlint
  obtain ⟨other, hother, hsent'⟩ := List.any_eq_true.mp hrules
  have hruns := sent_runs_engine hr (Option.isSome_iff_ne_none.mp hsent)
  have hruns' := sent_runs_engine hother (Option.isSome_iff_ne_none.mp hsent')
  have hno : keepsLog .plain byNode = false := by decide +kernel
  have hagree := inspections_tell_lint hcwd hleading hasks hr hruns fun ready hready =>
    settled_of_unlogged (hready.unlogged hno) _
  exact ⟨hcwd, hleading, hasks, ⟨r, hr, hruns, hagree⟩, hasked, other, hother, hruns'⟩

/-! ## 7. A log in the manifest -/

/-- Where inspections agree with a child, the options show a configuration file that it is sent. -/
theorem Agreement.configFile {leading words : List String} {r : Child.Request} {request : Json}
    {file : String} (h : Agreement w leading file project fix r request)
    (hasks : Command.options.Asks words file none fix) {options : Engine.Options} {input : String}
    (hshows : (run w (leading ++ Command.options.name :: words) input).Shows options.toJson)
    (hrules : options.rules = []) : ∃ asked, request.get? "options" = some asked ∧
      asked.get? "configFile" = (options.configFile.filter (· ≠ "")).map .text := by
  obtain ⟨shown, ⟨text, hending, hwrite⟩, hnone, hrequest, -⟩ := h.options words input hasks
  obtain ⟨text', hending', hwrite'⟩ := hshows
  obtain rfl : text' = text := Ending.shown.inj (hending'.symm.trans hending)
  have hback := Json.read_write hwrite (tidy_toJson hnone)
  have hsame : options.toJson = shown.toJson :=
    Except.ok.inj ((Json.read_write hwrite' (tidy_toJson hrules)).symm.trans hback)
  have hconfig : options.configFile = shown.configFile := by
    have hfields := congrArg (·.get? "config_file") hsame
    exact Json.ofText?_inj (Option.some.inj hfields)
  exact ⟨_, hrequest, hconfig ▸ shown.request_configFile⟩

/-- The options for a file name no configuration file at a stage. -/
def namesNone (file : PartPath) (ready : Stage) : Bool :=
  match (optionsFor ready.prepared.policy file false).run ready.machine
    (.start ready.prepared.context) with
  | (.ok options, _) => options.configFile.isNone
  | (.error _, _) => false

theorem shows_none {file : PartPath} {ready : Stage} (h : namesNone file ready = true)
    {words : List String} (htask : Task.ofWords ready.world .options words = .ok (.options file false))
    (input : String) : ∃ options : Engine.Options, options.rules = [] ∧ options.configFile = none ∧
      (ready.finish .options words input).Shows options.toJson := by
  unfold namesNone at h
  split at h
  · rename_i options t hrun
    have hrules : options.rules = [] := by
      unfold optionsFor at hrun
      rw [run_directoryOf_bind] at hrun
      obtain ⟨config, u, -, hbuild⟩ := of_run_bind hrun
      exact (Engine.Options.build_given (congrArg Prod.fst hbuild)).1
    refine ⟨options, hrules, Option.isNone_iff_eq_none.mp h,
      ready.shows htask ?_ (writable_options hrules)⟩
    exact congrArg Prod.fst (run_bind_ok hrun)
  · cases h

/-- The lint of a text at a stage finds no configuration file and has another one to name. -/
def fallsBack (file : PartPath) (text : String) (ready : Stage) : Bool :=
  let policy := ready.prepared.policy
  let job := lintJob file none false text
  match (job.resolve policy).run ready.machine (.start ready.prepared.context) with
  | (.ok resolved, t) =>
    resolved.config.isNone && (Child.words? [t.context.nodeExecutable]).isSome &&
      ((Engine.Options.build job.type policy [] resolved.fileDir none).run ready.machine
        t).1.toOption.any fun options => options.configFile.any (· ≠ "")
  | (.error _, _) => false

theorem fallsBack_sends {file : PartPath} {text : String} {ready : Stage}
    (hhost : ready.world.host.rehearsed = true) (h : fallsBack file text ready = true) :
    ∃ r ∈ (((lintJob file none false text).run ready.prepared.policy).run ready.machine
      (.start ready.prepared.context)).2.started, r.RunsEngine ∧ ∃ request asked path,
        IsSent request r ∧ request.get? "options" = some asked ∧
        asked.get? "configFile" = some (.text path) := by
  unfold fallsBack at h
  dsimp only at h
  split at h
  · rename_i resolved t hresolve
    simp only [Bool.and_eq_true] at h
    obtain ⟨⟨hnone, hnode⟩, hoptions⟩ := h
    obtain ⟨options, hbuild, hpath⟩ := (Option.any_eq_true _ _).mp hoptions
    obtain ⟨path, hconfig, hsent⟩ := (Option.any_eq_true _ _).mp hpath
    have hbuild := Except.eq_ok_of_toOption hbuild
    obtain ⟨hrules, -⟩ := Engine.Options.build_given hbuild
    let engine := resolved.engine t.context options
    have hsendable : engine.Sendable ready.world t.context := by
      obtain ⟨node, hnode⟩ : ∃ node, t.context.nodeExecutable = .text node := by
        cases hprogram : t.context.nodeExecutable with
        | text node => exact ⟨node, rfl⟩
        | _ => simp [hprogram, Child.words?] at hnode
      refine ⟨⟨node, hnode, Engine.fits_rehearsed hhost node engine⟩, ?_, ?_⟩
      · rw [show engine.options.rules = [] from hrules]
        rfl
      · rw [show engine.options.rules = [] from hrules]
        decide
    obtain ⟨r, hengine⟩ := Engine.child_isOk_iff.mpr hsendable
    have hchild : (lintJob file none false text).child ready.machine ready.prepared.policy resolved
        t = .ok r := by
      rw [← Option.isNone_iff_eq_none.mp hnone] at hbuild
      exact (congrArg (· >>= _) hbuild).trans hengine
    obtain ⟨hr, hruns⟩ := (Job.starts_iff (lintJob_type file none false text) _ _ r).mpr
      ⟨resolved, t, hresolve, hchild⟩
    obtain ⟨input, hinput, -, hread⟩ := Engine.child_input hengine (tidy_no_rules hrules)
    refine ⟨r, List.mem_of_mem_drop hr, hruns, _, options.request, path, ⟨input, hinput, hread⟩,
      rfl, ?_⟩
    rw [options.request_configFile, hconfig]
    exact congrArg (Option.map Json.text) (Option.filter_some_pos hsent)
  · cases h

/-- A machine with a project whose manifest configures the linter, and where the log is kept in that
    manifest. -/
def logged : World :=
  { World.plain with
    files := World.plain.files.add ["q", "package.json"]
      (.file (encode "\x7b\"eslintConfig\": \x7b\x7d\x7d\n") true true)
    env := [("ESLINT_BRIDGE_LOGGING__FILE", "/q/package.json"),
      ("ESLINT_BRIDGE_LOGGING__LEVEL", "INFO")] }

/-- Words in front of a command that name a configuration file for where none is found. -/
def byFallback : List String := ["--eslintrc", "x"]

/-- **Not so if the log is kept in the manifest.** What an inspection of the options tells before it
    looks at the manifest is nothing; but a lint tells first which copy of the linter it takes. By
    then the manifest holds that too and configures nothing any more, so that the engine is sent the
    other file. -/
theorem logged_inspections_differ : isAbsolute logged.cwd = true ∧ Leading byFallback ∧
    Command.lint.Asks ["q/a.js", "--stdin"] "q/a.js" none false ∧
    ∃ r ∈ (run logged (byFallback ++ Command.lint.name :: ["q/a.js", "--stdin"]) "").started,
      r.RunsEngine ∧
      ¬∃ request, IsSent request r ∧ Agreement logged byFallback "q/a.js" none false r request := by
  have hleading : Leading byFallback := ⟨[.argument "eslintrc_path" (.text "x")], rfl⟩
  have hgiven : given? (CommandOption.table .lint) true ["q/a.js", "--stdin"] =
      some ([.stdin], ["q/a.js"]) := by
    decide +kernel
  have hasks : Command.options.Asks ["q/a.js"] "q/a.js" none false :=
    ⟨[], by decide +kernel, by decide, by decide, by decide⟩
  obtain ⟨ready, hreaches, hholds⟩ : ∃ ready, Reaches logged byFallback ready ∧
      ((pathIn ready.world "q/a.js").isOk && namesNone (.ofText "q/a.js") ready &&
        fallsBack (.ofText "q/a.js") "" ready) = true :=
    exists_of_reaches? (by decide +kernel)
  simp only [Bool.and_eq_true] at hholds
  obtain ⟨⟨hopen, hnames⟩, hfalls⟩ := hholds
  obtain ⟨p, hp⟩ := exists_of_isOk hopen
  obtain rfl := pathIn_eq_ok hp
  have htask : Task.ofWords ready.world .lint ["q/a.js", "--stdin"] =
      .ok (.lint (.ofText "q/a.js") none false false true) :=
    Task.ofWords_given (by decide) hgiven (by decide) hp
  have hhost : ready.world.host.rehearsed = true := by rw [hreaches.sound.host]; rfl
  obtain ⟨r, hr, hruns, request, asked, path, hsent, hoptions, hconfig⟩ := fallsBack_sends hhost hfalls
  refine ⟨by decide, hleading, ⟨[.stdin], hgiven, by decide, by decide, by decide⟩, r, ?_, hruns, ?_⟩
  · obtain ⟨outcome, -, hstarted, hfinish⟩ := ready.finish_eq htask ""
    rw [run_reached hleading hreaches, hfinish, Stage.conclude_started, hstarted, Stage.perform,
      lintInput_started, show String.ofList (unifyNewlines "".toList) = "" from rfl]
    exact hr
  · rintro ⟨request', hsent', hagree⟩
    obtain ⟨options, hrules, hnone, hshows⟩ := shows_none hnames (Task.ofWords_options hasks hp) ""
    rw [← run_reached hleading hreaches] at hshows
    obtain ⟨asked', hoptions', hconfig'⟩ := hagree.configFile hasks hshows hrules
    obtain rfl := hsent'.unique hsent
    obtain rfl := Option.some.inj (hoptions'.symm.trans hoptions)
    rw [hconfig, hnone] at hconfig'
    cases hconfig'

end CommandLine

end LintHost
