import LintHost.Proofs.FileLint
import LintHost.Proofs.Inventory
import LintHost.Proofs.NodePrefix

/-!
# From a job to its request and back

A job that lints or fixes is resolved, starts one child, and makes its reply of what that child
reports. What the child is asked for is spread over the job, the policy and what was found near the
file. This file follows one job the whole way: which request its child gets, when there is a child
at all, and what becomes of the report.

* `Job.resolve_stages`, `Job.resolve_context`: what resolving looks up, and what it leaves alone;
* `Job.Sendable`: the request of a job can be sent;
* `Job.Asks`: what the request asks for; `Engine.requestOf_asks`: that is what an engine is sent;
* `Job.Reply.MadeOf`: a reply is made of a report;
* `Job.run_built`, `Job.child_asks`: the child of a job whose options are put together;
* `job_sends_one_request`: the whole way.
-/

namespace LintHost

open LintHost.Action LintHost.Path

variable {w : World}

/-! ## 1. Resolving -/

namespace Job

variable {job : Job} {policy : Policy} {s t : Session} {resolved : Resolved}

/-- Resolving finds the copy, then the configuration file, then the working directory. -/
theorem resolve_stages (h : (job.resolve policy).run w s = (.ok resolved, t)) :
    resolved.fileDir = job.fileDir w ∧ ∃ found searched,
      (Package.forDirectory (job.fileDir w) policy job.projectPath).run w s =
        (.ok resolved.package, found) ∧
      (ConfigFile.find (job.fileDir w)).run w found = (.ok resolved.config, searched) ∧
      (Workplace.resolve (job.fileDir w) (absolute w.cwd job.filePath) policy
        job.projectPath).run w searched = (.ok resolved.working, t) := by
  unfold resolve at h
  rw [run_absolute_bind] at h
  obtain ⟨package, found, hpackage, h⟩ := of_run_bind h
  obtain ⟨config, searched, hconfig, h⟩ := of_run_bind h
  obtain ⟨working, placed, hworking, h⟩ := of_run_bind h
  rw [run_pure] at h
  obtain ⟨hresolved, rfl⟩ := Prod.mk.inj h
  rw [← Except.ok.inj hresolved]
  exact ⟨rfl, found, searched, hpackage, hconfig, hworking⟩

/-- Resolving notes the working directory in the context and leaves the children's program alone. -/
theorem resolve_context (h : (job.resolve policy).run w s = (.ok resolved, t)) :
    t.context.nodeExecutable = s.context.nodeExecutable ∧
      t.context.cwd = some resolved.working.cwd := by
  let P (t : Session) : Prop := t.context.nodeExecutable = s.context.nodeExecutable
  have hsearches : Searches w (Same P) (Same P) := searches_of_frame fun _ _ _ h => h
  have hlocates : Locates w (Same P) (Same P) :=
    locates_of_frame hsearches (fun _ _ h => h) fun _ _ _ h => h
  have hrefresh := alike_refresh (m := w) (P := P) fun t dir _ h => by
    have hpointed : (t.context.pointedAt dir).nodeExecutable = t.context.nodeExecutable := by
      unfold Context.pointedAt
      split <;> rfl
    exact hpointed.trans h
  have hpackage : Ends w P (Package.forDirectory (job.fileDir w) policy job.projectPath)
      (fun _ t => P t ∧ True) P :=
    (alike_forDirectory hsearches hlocates hrefresh _ policy job.projectPath).keeps.mono
      (fun _ h => h) (fun _ _ h => ⟨h, trivial⟩) fun _ h => h
  have hout := (ends_resolve hsearches (fun _ _ h => h) (fun _ h => h) job policy
    hpackage).outcome s rfl
  rw [h] at hout
  exact ⟨hout.1, hout.2.1⟩

/-! ## 2. The request -/

/-- The request of a job can be sent from a context: the program is a text, a process can be given
    it with the context's working directory and environment, and the job's rules can be written, two
    containers below the request. -/
structure Sendable (w : World) (job : Job) (context : Context) : Prop where
  program : ∃ node, context.nodeExecutable = .text node ∧ Child.refusal? w.host
    ⟨[node, "-e", Engine.script], Child.directory w context.cwd, some context.env, .null, none⟩ = none
  integers : (Json.object job.rules).allInts Json.shortInt = true
  nesting : (Json.object job.rules).depth + 2 ≤ Json.depthLimit

/-- What the request of a job asks for, where this configuration file was found or none. -/
structure Asks (w : World) (job : Job) (policy : Policy) (config : Option String)
    (request : Entries Json) : Prop where
  mode : request.get? "mode" = some (.text "lint")
  text : request.get? "text" = some (.text job.contents)
  options : ∃ options, request.get? "options" = some (.object options) ∧
    Entries.get? "rules" options = some (.object job.rules) ∧
    Entries.get? "fix" options = some (.bool (job.type = "fix")) ∧
    Entries.get? "ignore" options = some (.bool (!policy.disableIgnore)) ∧
    ∀ j, Entries.get? "configFile" options = some j ↔ config = none ∧
      ∃ path cleaned, policy.fallbackConfig = some path ∧ path ≠ "" ∧
        clean w.host.homes w.env path = .ok cleaned ∧ j = .text cleaned

end Job

/-- The fallback is named where no configuration file was found and the policy has one that can be
    cleaned; its path does not vanish then. -/
theorem Engine.Options.fallbackOf_eq_some {policy : Policy} {config : Option String}
    {path : String} : fallbackOf w policy config = .ok (some path) ↔ config = none ∧
      ∃ given, policy.fallbackConfig = some given ∧ given ≠ "" ∧
        clean w.host.homes w.env given = .ok path := by
  unfold fallbackOf
  cases config with
  | some found => simp
  | none =>
    cases policy.fallbackConfig with
    | none => simp
    | some given =>
      by_cases hgiven : given = ""
      · simp [hgiven]
      · cases hclean : clean w.host.homes w.env given <;> simp [hgiven, hclean, Except.map]

/-- **What an engine is sent for a job** is what the job asks for. -/
theorem Engine.requestOf_asks {job : Job} {policy : Policy} {config : Option String}
    {engine : Engine} {ignorePath configFile : Option String} {paths : List String}
    (hfallback : Options.fallbackOf w policy config = .ok configFile)
    (h : engine.options = ⟨job.rules, !policy.disableIgnore, job.type = "fix", ignorePath, paths,
      configFile⟩) (file : Option String) :
    ∃ request, engine.requestOf .lint job.contents file = .object request ∧
      job.Asks w policy config request := by
  refine ⟨_, rfl, rfl, rfl, _, rfl, ?_, ?_, ?_, fun j => ?_⟩
  · rw [h]
    rfl
  · rw [h]
    rfl
  · rw [h]
    rfl
  · have hconfig : Entries.get? "configFile" _ = _ := Options.request_configFile engine.options
    have hgiven : engine.options.configFile = configFile := by rw [h]
    rw [hconfig, hgiven, Option.map_eq_some_iff]
    constructor
    · rintro ⟨path, hpath, rfl⟩
      rw [(Option.filter_eq_some_iff.mp hpath).1] at hfallback
      obtain ⟨hnone, given, hgiven, hne, hclean⟩ := Options.fallbackOf_eq_some.mp hfallback
      exact ⟨hnone, given, path, hgiven, hne, hclean, rfl⟩
    · rintro ⟨hnone, given, path, hgiven, hne, hclean, rfl⟩
      have hsome := Options.fallbackOf_eq_some.mpr ⟨hnone, given, hgiven, hne, hclean⟩
      obtain rfl := Except.ok.inj (hfallback.symm.trans hsome)
      -- Cleaning has left something, so the member is not left out.
      refine ⟨path, Option.filter_eq_some_iff.mpr ⟨rfl, decide_eq_true fun hempty => ?_⟩, rfl⟩
      rw [hempty] at hclean
      exact hne (clean_eq_empty_iff.mp hclean)

/-! ## 3. The reply -/

/-- A reply is made of a report: its messages are the report's, it has an output only if the job
    fixes, and it brings the report's rules, sorted, if the job does not know the same ids. -/
structure Job.Reply.MadeOf (job : Job) (report : Report) (reply : Job.Reply) : Prop where
  type : reply.type = job.type
  messages : reply.messages = report.messages
  linted : job.type = "lint" → reply.output = none
  fixed : job.type = "fix" → reply.output = some (report.output.getD job.contents)
  unchanged : reply.updatedRules = none ↔ Rules.SameIds job.knownRules report.rules
  changed : ∀ rules, reply.updatedRules = some rules → rules = Rules.sorted report.rules
  debug : reply.debug = none

theorem Job.resultOf_madeOf (job : Job) (report : Report) :
    (job.resultOf report report.rules).MadeOf job report where
  type := rfl
  messages := rfl
  linted := fun h => if_neg (by rw [h]; decide)
  fixed := fun h => if_pos h
  unchanged := by
    rw [← Rules.changed_eq_false_iff]
    unfold resultOf
    cases Rules.changed job.knownRules report.rules <;> simp
  changed := by
    intro rules h
    unfold resultOf at h
    dsimp only at h
    split at h
    · exact (Option.some.inj h).symm
    · cases h
  debug := rfl

/-! ## 4. The whole way -/

namespace Job

variable {job : Job} {policy : Policy} {resolved : Resolved} {s t t' : Session}
  {options : Engine.Options}

/-- The engine of a job can be called exactly if the job's request can be sent. -/
theorem engine_sendable_iff (hrules : options.rules = job.rules) {context : Context} :
    (resolved.engine context options).Sendable w context ↔ job.Sendable w context := by
  constructor
  · rintro ⟨hnode, hints, hdepth⟩
    exact ⟨hnode, hrules ▸ hints, hrules ▸ hdepth⟩
  · rintro ⟨hnode, hints, hdepth⟩
    exact ⟨hnode, hrules ▸ hints, hrules ▸ hdepth⟩

/-- Where the options of a job cannot be put together, no child is started. -/
theorem run_unbuilt (htype : job.type = "lint" ∨ job.type = "fix")
    (hresolve : (job.resolve policy).run w s = (.ok resolved, t)) {fault : Fault}
    (hbuild : ((Engine.Options.build job.type policy job.rules resolved.fileDir
      resolved.config).run w t).1 = .error fault) :
    ((job.run policy).run w s).1 = .error fault ∧
      ((job.run policy).run w s).2.started = t.started := by
  obtain ⟨-, hstarted⟩ := Engine.Options.build_frame (m := w) job.type policy job.rules
    resolved.fileDir resolved.config t
  rcases hrun : (Engine.Options.build job.type policy job.rules resolved.fileDir
    resolved.config).run w t with ⟨result, t'⟩
  rw [hrun] at hbuild hstarted
  obtain rfl : result = .error fault := hbuild
  rw [lint_run htype, run_bind_ok hresolve, lint_eq, run_bind_error hrun]
  exact ⟨rfl, hstarted⟩

/-- **A job whose options are put together**: if its request can be sent, it starts one child for it
    and makes its reply of what is read from the end of that child; if not, it starts none. -/
theorem run_built (htype : job.type = "lint" ∨ job.type = "fix")
    (hresolve : (job.resolve policy).run w s = (.ok resolved, t))
    (hbuild : (Engine.Options.build job.type policy job.rules resolved.fileDir resolved.config).run
      w t = (.ok options, t')) :
    let engine := resolved.engine t.context options
    let ended := (job.run policy).run w s
    (job.Sendable w t.context → ∃ r,
      engine.child w t.context .lint job.contents (some resolved.working.relativePath) = .ok r ∧
      ended.2.started = t.started ++ [r] ∧
      ended.1 = (Engine.reading w t.context .lint t.started r).map fun report =>
        job.resultOf report report.rules) ∧
    (¬job.Sendable w t.context → ended.2.started = t.started ∧ Fails ended.1) := by
  intro engine ended
  obtain ⟨hcontext, hstarted⟩ := Engine.Options.build_frame (m := w) job.type policy job.rules
    resolved.fileDir resolved.config t
  rw [hbuild] at hcontext hstarted
  dsimp only at hcontext hstarted
  have hrules : options.rules = job.rules := by
    obtain ⟨_, _, _, _, -, -, -, rfl⟩ := Engine.Options.build_stages hbuild
    rfl
  have hsendable : engine.Sendable w t.context ↔ job.Sendable w t.context :=
    engine_sendable_iff hrules
  obtain ⟨hresult, hchildren⟩ := run_call htype hresolve hbuild
  rw [← hsendable]
  constructor
  · intro hsend
    obtain ⟨r, hr⟩ := Engine.child_isOk_iff.mpr hsend
    rw [← hcontext] at hr
    obtain ⟨log, hcall⟩ := Engine.call_sent (m := w) hr
    rw [hcall] at hresult hchildren
    rw [hcontext] at hr hresult
    rw [hstarted] at hresult hchildren
    exact ⟨r, hr, hchildren, hresult⟩
  · intro hunsent
    cases hchild : engine.child w t.context .lint job.contents
      (some resolved.working.relativePath) with
    | ok r => exact absurd (Engine.child_isOk_iff.mp ⟨r, hchild⟩) hunsent
    | error fault =>
      rw [← hcontext] at hchild
      obtain ⟨log, hcall⟩ := Engine.call_refused (m := w) hchild
      rw [hcall] at hresult hchildren
      exact ⟨hchildren.trans hstarted, fault, hresult⟩

/-- **The child of a job** gets the request that the job asks for. It reads it back from its input,
    unless some object in the rules has a name twice. -/
theorem child_asks {context : Context} {file : Option String} {r : Child.Request}
    (hbuild : (Engine.Options.build job.type policy job.rules resolved.fileDir resolved.config).run
      w t = (.ok options, t'))
    (hchild : (resolved.engine t.context options).child w context .lint job.contents file =
      .ok r) :
    ∃ input request, r.RunsEngine ∧ r.input = some input ∧
      Json.write Json.wire (.object request) = .ok input ∧
      ((Json.object job.rules).Tidy → Json.read input = .ok (.object request)) ∧
      job.Asks w policy resolved.config request := by
  let engine := resolved.engine t.context options
  obtain ⟨configFile, ignorePath, paths, -, hfallback, -, -, hoptions⟩ :=
    Engine.Options.build_stages hbuild
  have hrules : engine.options.rules = job.rules := congrArg Engine.Options.rules hoptions
  have hengine : engine.options = ⟨job.rules, !policy.disableIgnore, job.type = "fix",
    ignorePath, paths, configFile⟩ := hoptions
  obtain ⟨request, hrequest, hasks⟩ := Engine.requestOf_asks hfallback hengine file
  obtain ⟨node, input, -, -, hinput, hr⟩ := Engine.child_eq_ok.mp hchild
  have hread : (Json.object job.rules).Tidy → Json.read input = .ok (.object request) := by
    rw [← hrules, ← hrequest]
    exact fun htidy => Json.read_write hinput (Engine.requestOf_tidy htidy)
  rw [hrequest] at hinput
  exact ⟨input, request, Engine.child_runs_engine hchild, by rw [hr], hinput, hread, hasks⟩

end Job

/-- **From a job to its request and back.** For every job that lints or fixes and is resolved, in
    every session and world: the configuration file was looked for where the copy was found, no engine
    was started so far, and the context has the program it had and the working directory that was
    found. If the options can be put together and the request can be sent,

    * exactly one child is started, and its input is the request that the job asks for (it is read
      back from the input, if no object in the rules has a name twice);
    * the job returns exactly if that child is waited for and its end holds a report, and the reply
      is made of it.

    If not, no child is started and the job fails. -/
theorem job_sends_one_request (w : World) (s : Session) {job : Job}
    (htype : job.type = "lint" ∨ job.type = "fix") (policy : Policy) {resolved : Job.Resolved}
    {t : Session} (hresolve : (job.resolve policy).run w s = (.ok resolved, t)) :
    let built := (Engine.Options.build job.type policy job.rules resolved.fileDir
      resolved.config).run w t
    let ended := (job.run policy).run w s
    (∃ found, (Package.forDirectory (job.fileDir w) policy job.projectPath).run w s =
        (.ok resolved.package, found) ∧
      ((ConfigFile.find (job.fileDir w)).run w found).1 = .ok resolved.config) ∧
    Started s.started (fun _ => False) t ∧
    (t.context.nodeExecutable = s.context.nodeExecutable ∧
      t.context.cwd = some resolved.working.cwd) ∧
    (¬Fails built.1 → job.Sendable w t.context →
      ∃ r input request, ended.2.started = t.started ++ [r] ∧ r.RunsEngine ∧
        r.input = some input ∧ Json.write Json.wire (.object request) = .ok input ∧
        ((Json.object job.rules).Tidy → Json.read input = .ok (.object request)) ∧
        job.Asks w policy resolved.config request ∧
        (∀ reply, ended.1 = .ok reply → ∃ report, w.Reports t.started r report) ∧
        ∀ report, w.Reports t.started r report →
          ∃ reply, ended.1 = .ok reply ∧ reply.MadeOf job report) ∧
    (Fails built.1 ∨ ¬job.Sendable w t.context → ended.2.started = t.started ∧ Fails ended.1) := by
  intro built ended
  obtain ⟨-, found, searched, hpackage, hconfig, -⟩ := Job.resolve_stages hresolve
  have hsilent := (job.resolve_silent (m := w) policy s).1
  rw [hresolve] at hsilent
  refine ⟨⟨found, hpackage, by rw [hconfig]⟩, hsilent, Job.resolve_context hresolve,
    fun hbuilt hsend => ?_, fun hfails => ?_⟩
  · rcases hbuild : (Engine.Options.build job.type policy job.rules resolved.fileDir
      resolved.config).run w t with ⟨result, t'⟩
    cases result with
    | error fault => exact absurd ⟨fault, congrArg Prod.fst hbuild⟩ hbuilt
    | ok options =>
      obtain ⟨r, hchild, hstarted, hended⟩ := (Job.run_built htype hresolve hbuild).1 hsend
      obtain ⟨input, request, hruns, hinput, hwritten, hread, hasks⟩ :=
        Job.child_asks hbuild hchild
      refine ⟨r, input, request, hstarted, hruns, hinput, hwritten, hread, hasks,
        fun reply hreply => ?_, fun report hreports => ?_⟩
      · obtain ⟨report, hreading, -⟩ := Except.map_eq_ok (hended.symm.trans hreply)
        exact ⟨report, Engine.reading_iff.mp hreading⟩
      · rw [Engine.reading_iff.mpr hreports] at hended
        exact ⟨_, hended, job.resultOf_madeOf report⟩
  · rcases hbuild : (Engine.Options.build job.type policy job.rules resolved.fileDir
      resolved.config).run w t with ⟨result, t'⟩
    cases result with
    | error fault =>
      obtain ⟨hended, hstarted⟩ := Job.run_unbuilt htype hresolve (congrArg Prod.fst hbuild)
      exact ⟨hstarted, fault, hended⟩
    | ok options =>
      have hbuilt : ¬Fails built.1 := by
        rw [show built = (.ok options, t') from hbuild]
        exact not_fails_ok
      exact (Job.run_built htype hresolve hbuild).2 (hfails.resolve_left hbuilt)

/-- A job to fix the text `a`. -/
def Job.fixA : Job := { Job.inProject "fix" with contents := "a" }

/-- A child that has nothing to say: the text is given back as it is. -/
theorem silent_fix_keeps_text : ∃ r input request config reply,
    r ∈ ((Job.fixA.run .standard).run World.plain (.start (.ofEnv []))).2.started ∧
    r.input = some input ∧ Json.read input = .ok (.object request) ∧
    Job.fixA.Asks .plain .standard config request ∧
    ((Job.fixA.run .standard).run World.plain (.start (.ofEnv []))).1 = .ok reply ∧
    reply.output = some "a" := by
  have hstarts : Job.fixA.starts? .plain (.start (.ofEnv [])) = true := by decide +kernel
  obtain ⟨resolved, t, options, t', r, hresolve, hbuild, -⟩ := Job.stages_of_starts? hstarts
  obtain ⟨-, -, ⟨hnode, -⟩, hsent, -⟩ :=
    job_sends_one_request .plain (.start (.ofEnv [])) (.inr rfl) .standard hresolve
  rw [hbuild] at hsent
  obtain ⟨r, input, request, hstarted, -, hinput, -, hread, hasks, -, hreplied⟩ :=
    hsent not_fails_ok ⟨⟨"node", hnode, if_pos rfl⟩, rfl, by decide⟩
  obtain ⟨reply, hreply, hmade⟩ := hreplied ⟨[], none, []⟩
    ⟨_, Child.awaited_rehearsed rfl _ _, "\x7b\x7d", "", [], rfl, rfl, rfl⟩
  refine ⟨r, input, request, resolved.config, reply, ?_, hinput,
    hread (.object List.nodup_nil nofun), hasks, hreply, hmade.fixed rfl⟩
  rw [hstarted]
  exact List.mem_append_right _ (List.mem_singleton_self r)

/-- No engine is started for a job whose rules no request can hold. -/
theorem Job.starts_none {job : Job} (htype : job.type = "lint" ∨ job.type = "fix")
    (hlong : (Json.object job.rules).allInts Json.shortInt = false) (policy : Policy) {s : Session}
    (hs : s.started = []) : ∀ r ∈ ((job.run policy).run w s).2.started, ¬r.RunsEngine := by
  intro r hr hruns
  have hdrop : r ∈ ((job.run policy).run w s).2.started.drop s.started.length := by
    rw [hs]
    exact hr
  obtain ⟨resolved, t, -, hchild⟩ := (starts_iff htype policy s r).mp ⟨hdrop, hruns⟩
  obtain ⟨options, hbuild, hengine⟩ := of_child hchild
  have hints : (Json.object options.rules).allInts Json.shortInt = true :=
    (Engine.child_isOk_iff.mp ⟨r, hengine⟩).integers
  rw [(Engine.Options.build_given hbuild).1, hlong] at hints
  cases hints

/-- A job whose rules no request can hold. -/
def Job.unwritable : Job :=
  { Job.inProject "lint" with rules := [("a", .int (Number.tenTo Number.digitLimit))] }

/-- Such a job is resolved, and no engine is started for it. -/
theorem unwritable_rules_start_no_engine :
    (∃ resolved t, (Job.unwritable.resolve .standard).run World.plain (.start (.ofEnv [])) =
      (.ok resolved, t)) ∧
    ∀ r ∈ ((Job.unwritable.run .standard).run World.plain (.start (.ofEnv []))).2.started,
      ¬r.RunsEngine := by
  have hstarts : (Job.inProject "lint").starts? .plain (.start (.ofEnv [])) = true := by
    decide +kernel
  have hsame : Job.unwritable.resolve .standard = (Job.inProject "lint").resolve .standard :=
    Job.resolve_congr rfl rfl .standard
  have hlong : (Json.object Job.unwritable.rules).allInts Json.shortInt = false := by
    rw [Job.unwritable]
    exact Json.allInts_single (Json.shortInt_limit rfl) "a"
  refine ⟨?_, Job.starts_none (.inl rfl) hlong .standard rfl⟩
  obtain ⟨resolved, t, -, -, -, hresolve, -⟩ := Job.stages_of_starts? hstarts
  rw [hsame]
  exact ⟨resolved, t, hresolve⟩

end LintHost
