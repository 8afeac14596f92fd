import LintHost.Proofs.CleanPath
import LintHost.Proofs.EngineFile
import LintHost.Proofs.Fallback
import LintHost.Proofs.SharedCache

/-!
# The package manager's prefix

Only the package manager knows under which prefix global packages lie. Nobody asks it who does not
need the prefix; an operation that needs it asks first of all, before it starts any other child, and
then goes on with what it is told. This file follows single operations.

* `Npm.Succeeds`, `Npm.Unreadable`: how asking may end (`told_cases`);
* `Npm.Quiet`: nothing is asked of the package manager, and what it told is kept;
* `Npm.Consults`: the prefix is looked up once, before any child, and then used;
* `Operation.Needs`, `Operation.Uses`: which operations need the prefix, and what they make of it;
* `consults_of_needs`, `quiet_of_spares`: every operation consults or is quiet.
-/

namespace LintHost

open LintHost.Action LintHost.Path

variable {w : World}

/-! ## 1. How asking ends -/

namespace Npm

/-- The package manager has told a prefix: it has ended well and its output is not blank. -/
def Succeeds (outcome : Child.Outcome) (found : String) : Prop :=
  ∃ stdout stderr, outcome = .finished 0 stdout stderr ∧ Text.trim stdout = found ∧ found ≠ ""

/-- Its output is JSON that is nested too deep. -/
def Overflows (outcome : Child.Outcome) : Prop :=
  ∃ code stdout stderr, outcome = .finished code stdout stderr ∧
    Child.sniff stdout = .error .tooDeep

/-- Its output is no text, or JSON that is nested too deep. -/
def Unreadable (outcome : Child.Outcome) : Prop := outcome = .garbled ∨ Overflows outcome

/-- The failure that says that the package manager has told none. -/
def Refusal (w : World) (fault : Fault) : Prop :=
  ∃ reason more, fault = .reported (.npmPrefix (command w.host.platform) reason more)

theorem reading_failed (names : List String) {result : Except OsFault Child.Result}
    (h : ∀ r, result = .ok r → r.code ≠ 0 ∨ Text.trim r.stdout = "") : ∃ reason more,
    reading names result = .error (.reported (.npmPrefix names reason more)) := by
  unfold reading prefixOf
  cases result with
  | error fault => exact ⟨_, _, rfl⟩
  | ok r =>
    dsimp only
    by_cases hcode : r.code ≠ 0
    · rw [if_pos hcode]
      exact ⟨_, _, rfl⟩
    · have hblank : Text.trim r.stdout = "" := (h r rfl).resolve_left hcode
      rw [if_neg hcode, if_pos hblank]
      exact ⟨_, _, rfl⟩

theorem reading_succeeded {names : List String} {r : Child.Result} (hcode : r.code = 0)
    (hfound : Text.trim r.stdout ≠ "") : reading names (.ok r) = .ok (Text.trim r.stdout) := by
  have hended : ¬r.code ≠ 0 := fun h => h hcode
  unfold reading prefixOf
  dsimp only
  rw [if_neg hended, if_neg hfound]

section Told

variable {earlier : List Child.Request} {env : Entries String}
  (hsent : Child.refusal? w.host (request w env) = none)
include hsent

/-- Whatever makes no prefix is reported, in words that do not matter here. -/
theorem refusal_of_result {result : Except OsFault Child.Result}
    (hresult : Child.Result.ofOutcome (request w env) (w.answer earlier (request w env)) =
      .ok result)
    (hfails : ∀ r, result = .ok r → r.code ≠ 0 ∨ Text.trim r.stdout = "") :
    ∃ fault, Refusal w fault ∧ told w earlier env = .error fault := by
  obtain ⟨reason, more, hreading⟩ := reading_failed (command w.host.platform) hfails
  refine ⟨_, ⟨reason, more, rfl⟩, ?_⟩
  rw [told_sent hsent, hresult, Except.ok_bind, hreading]

/-- A child that has ended, with output that is not nested too deep, tells a prefix or none. -/
theorem told_finished {code : Int} {stdout stderr : String} {parsed : Option Json}
    (houtcome : w.answer earlier (request w env) = .finished code stdout stderr)
    (hsniff : Child.sniff stdout = .ok parsed) :
    (∃ found, Succeeds (.finished code stdout stderr) found ∧ told w earlier env = .ok found) ∨
    (∀ found, ¬Succeeds (.finished code stdout stderr) found) ∧
      ∃ fault, Refusal w fault ∧ told w earlier env = .error fault := by
  let r : Child.Result :=
    ⟨(request w env).command, (request w env).cwd, code, stdout, stderr, parsed⟩
  have hresult : Child.Result.ofOutcome (request w env) (w.answer earlier (request w env)) =
      .ok (.ok r) := by
    rw [houtcome, Child.Result.ofOutcome, hsniff]
    rfl
  by_cases hended : code = 0 ∧ Text.trim stdout ≠ ""
  · obtain ⟨rfl, hfound⟩ := hended
    refine .inl ⟨_, ⟨stdout, stderr, rfl, rfl, hfound⟩, ?_⟩
    rw [told_sent hsent, hresult, Except.ok_bind]
    exact reading_succeeded (r := r) rfl hfound
  · have hfails : code ≠ 0 ∨ Text.trim stdout = "" := by
      by_cases hcode : code = 0
      · exact .inr (not_ne_iff.mp fun hfound => hended ⟨hcode, hfound⟩)
      · exact .inl hcode
    refine .inr ⟨?_, refusal_of_result hsent hresult fun r' h => ?_⟩
    · rintro found ⟨_, _, h, rfl, hfound⟩
      cases h
      exact hended ⟨rfl, hfound⟩
    · rw [← Except.ok.inj h]
      exact hfails

variable (earlier)

/-- **Asking ends in one of three ways**, if it starts a child: the output cannot be read; or it can,
    and a prefix is told; or none is, and that is reported. -/
theorem told_cases :
    let outcome := w.answer earlier (request w env)
    (Unreadable outcome ∧ ∃ fault, ¬fault.Reported ∧ told w earlier env = .error fault) ∨
    (¬Unreadable outcome ∧ ∃ found, Succeeds outcome found ∧ told w earlier env = .ok found) ∨
    ¬Unreadable outcome ∧ (∀ found, ¬Succeeds outcome found) ∧
      ∃ fault, Refusal w fault ∧ told w earlier env = .error fault := by
  intro outcome
  have unforeseen {fault : Fault} (h : Unforeseen w earlier env fault) :
      ∃ fault, ¬fault.Reported ∧ told w earlier env = .error fault :=
    ⟨fault, h.not_reported, told_of_unforeseen h⟩
  cases houtcome : outcome with
  | garbled => exact .inl ⟨.inl rfl, unforeseen (.garbled hsent houtcome)⟩
  | unstartable code =>
    have hreadable : ¬Unreadable (.unstartable code) := fun h =>
      h.elim nofun fun ⟨_, _, _, h, _⟩ => nomatch h
    have hnone (found : String) : ¬Succeeds (.unstartable code) found :=
      fun ⟨_, _, h, _⟩ => nomatch h
    have hresult : Child.Result.ofOutcome (request w env) (w.answer earlier (request w env)) =
        .ok (.error ⟨code, (request w env).command.headD ""⟩) :=
      congrArg (Child.Result.ofOutcome (request w env)) houtcome
    exact .inr (.inr ⟨hreadable, hnone, refusal_of_result hsent hresult fun r h => nomatch h⟩)
  | timedOut stdout stderr =>
    have hreadable : ¬Unreadable (.timedOut stdout stderr) := fun h =>
      h.elim nofun fun ⟨_, _, _, h, _⟩ => nomatch h
    have hnone (found : String) : ¬Succeeds (.timedOut stdout stderr) found :=
      fun ⟨_, _, h, _⟩ => nomatch h
    refine .inr (.inr ⟨hreadable, hnone, refusal_of_result hsent
      (congrArg (Child.Result.ofOutcome (request w env)) houtcome) fun r h => .inl ?_⟩)
    rw [← Except.ok.inj h]
    show Child.timeoutCode ≠ 0
    decide
  | finished code stdout stderr =>
    cases hsniff : Child.sniff stdout with
    | error fault =>
      obtain rfl := Child.sniff_fault hsniff
      exact .inl ⟨.inr ⟨code, stdout, stderr, rfl, hsniff⟩,
        unforeseen (.nesting hsent houtcome hsniff)⟩
    | ok parsed =>
      have hreadable : ¬Unreadable (.finished code stdout stderr) := by
        rintro (h | ⟨_, _, _, h, hdeep⟩)
        · cases h
        · cases h
          rw [hsniff] at hdeep
          cases hdeep
      rcases told_finished hsent houtcome hsniff with htold | hrefused
      · exact .inr (.inl ⟨hreadable, htold⟩)
      · exact .inr (.inr ⟨hreadable, hrefused⟩)

end Told

end Npm

/-! ## 2. Quiet stretches -/

/-- A child that asks the package manager for the prefix. -/
def Child.Request.AsksPrefix (r : Child.Request) : Prop :=
  ∃ platform, r.command = Npm.command platform

theorem Npm.request_asks (env : Entries String) : (Npm.request w env).AsksPrefix :=
  ⟨w.host.platform, rfl⟩

/-- A child that runs an engine asks the package manager nothing. -/
theorem Child.Request.RunsEngine.silent {r : Child.Request} (h : r.RunsEngine) :
    ¬r.AsksPrefix := by
  obtain ⟨node, hnode⟩ := h
  rintro ⟨platform, hplatform⟩
  rw [hnode] at hplatform
  simp [Npm.command] at hplatform

namespace Npm

/-- From one session to another the package manager was asked nothing, and what it told is kept. -/
structure Quiet (s t : Session) : Prop where
  nodePrefix : t.cache.nodePrefix = s.cache.nodePrefix
  started : ∃ later, t.started = s.started ++ later ∧ ∀ r ∈ later, ¬r.AsksPrefix

theorem Quiet.of_eq {s t : Session} (hknown : t.cache.nodePrefix = s.cache.nodePrefix)
    (hstarted : t.started = s.started) : Quiet s t := by
  refine ⟨hknown, [], ?_, fun _ hr => nomatch hr⟩
  rw [hstarted, List.append_nil]

theorem Quiet.refl (s : Session) : Quiet s s := .of_eq rfl rfl

theorem Quiet.trans {s t u : Session} (h : Quiet s t) (h' : Quiet t u) : Quiet s u := by
  obtain ⟨later, hlater, hsilent⟩ := h.started
  obtain ⟨later', hlater', hsilent'⟩ := h'.started
  refine ⟨h'.nodePrefix.trans h.nodePrefix, later ++ later', ?_, fun r hr => ?_⟩
  · rw [hlater', hlater, List.append_assoc]
  · rcases List.mem_append.mp hr with hr | hr
    · exact hsilent r hr
    · exact hsilent' r hr

/-- A child that asks nothing does not break the quiet. -/
theorem Quiet.add {s t : Session} (h : Quiet s t) {r : Child.Request} (hr : ¬r.AsksPrefix)
    (log : List Log.Record) : Quiet s { t with started := t.started ++ [r], log := log } := by
  refine h.trans ⟨rfl, [r], rfl, fun r' hr' => ?_⟩
  rw [List.mem_singleton.mp hr']
  exact hr

section Quiet

variable {s₀ : Session}

theorem quiet_searches : Searches w (Same (Quiet s₀)) (Same (Quiet s₀)) :=
  searches_of_frame fun _ _ _ h => ⟨h.nodePrefix, h.started⟩

theorem quiet_bundledPath :
    Alike w (Same (Quiet s₀)) (Same (Quiet s₀)) NodeTools.bundledPath fun _ => Same (Quiet s₀) :=
  alike_bundledPath fun _ _ h => ⟨h.nodePrefix, h.started⟩

theorem quiet_note (cwd : String) :
    Alike w (Same (Quiet s₀)) (Same (Quiet s₀)) (modifyContext fun c => { c with cwd := some cwd })
      fun _ => Same (Quiet s₀) :=
  alike_of_keeps fun _ h => ⟨h.nodePrefix, h.started⟩

theorem quiet_calls : Calls w (Same (Quiet s₀)) (Same (Quiet s₀)) where
  toSearches := quiet_searches
  context := alike_of_keeps fun _ h => h
  child := fun node cwd env timeout input => alike_of_keeps fun s hs => by
    refine (ends_child quiet_searches node timeout cwd (some env) input
      fun t program log ht => ?_).session hs
    exact ht.add (Child.Request.RunsEngine.silent ⟨program, rfl⟩) log

/-- What keeps the quiet of every stretch is quiet. -/
theorem quiet_of_alike {α : Type} {x : Action α} {s : Session}
    (h : Alike w (Same (Quiet s)) (Same (Quiet s)) x fun _ => Same (Quiet s)) :
    Quiet s (x.run w s).2 :=
  h.keeps.session (Quiet.refl s)

end Quiet

end Npm

/-! ## 3. What needs the prefix -/

/-- The policy asks for the global copy and gives no prefix for it. -/
def Policy.NeedsPrefix (policy : Policy) : Prop :=
  policy.useGlobal = true ∧ policy.globalPath.getD "" = ""

namespace Package

variable {policy : Policy}

theorem candidate_needing (h : policy.NeedsPrefix) (modulesDir project : Option String)
    (s : Session) : (candidate modulesDir policy project).run w s =
      ((Npm.nodePrefix.run w s).1.map fun under => (.global, some (globalCandidate w under)),
        (Npm.nodePrefix.run w s).2) :=
  candidate_asking h.1 modulesDir project s (clean_eq_empty_iff.mpr h.2)

theorem globalPrefix_needing (h : policy.NeedsPrefix) (s : Session) :
    globalPrefix w s policy = (Npm.nodePrefix.run w s).1 := by
  have hnone : clean w.host.homes w.env (policy.globalPath.getD "") = .ok "" :=
    clean_eq_empty_iff.mpr h.2
  rw [Npm.nodePrefix_result, globalPrefix, hnone, Except.ok_bind, if_pos rfl]

/-- Who does not need the prefix leaves the session as it is. -/
theorem candidate_sparing (h : ¬policy.NeedsPrefix) (modulesDir project : Option String)
    (s : Session) : ((candidate modulesDir policy project).run w s).2 = s := by
  by_cases hglobal : policy.useGlobal = true
  · cases hgiven : clean w.host.homes w.env (policy.globalPath.getD "") with
    | error fault => rw [candidate_nobody hglobal modulesDir project s hgiven]
    | ok given =>
      have hsome : given ≠ "" := by
        rintro rfl
        exact h ⟨hglobal, clean_eq_empty_iff.mp hgiven⟩
      rw [candidate_given hglobal modulesDir project s hgiven hsome]
  · rw [candidate_local (Bool.eq_false_iff.mpr hglobal)]

/-! ## 4. Finding a copy -/

open Npm (Quiet)

variable {s s₀ : Session} {modulesDir project : Option String}

section Quiet

variable (hcandidate : Quiet s₀ ((candidate modulesDir policy project).run w s).2)
include hcandidate

/-- Locating is quiet once it is known where a copy is expected. -/
theorem quiet_locate : Quiet s₀ ((locate modulesDir policy project).run w s).2 := by
  have hlocate := Npm.quiet_searches.locate_after (fun _ => Npm.quiet_bundledPath)
    (alike_of_run hcandidate)
  have hsame := (hlocate.matched s s ⟨rfl, rfl⟩).sessions fun _ _ _ h => h.1
  exact hsame.2

/-- So is loading. -/
theorem quiet_load : Quiet s₀ ((load modulesDir policy project).run w s).2 := by
  have hload := Npm.quiet_searches.load_after (fun _ => Npm.quiet_bundledPath)
    (alike_of_run hcandidate)
  exact (Alike.ends hload).session rfl

end Quiet

end Package

namespace Npm

/-- The prefix is looked up once, at a session with the children and the knowledge of the first one.
    A failure is the operation's failure; after an answer nothing is asked any more, and what the
    operation ends with is as `uses` says. -/
structure Consults {α : Type} (w : World) (s s₁ : Session) (x : Action α)
    (uses : String → Except Fault α × Session → Prop) : Prop where
  known : s₁.cache.nodePrefix = s.cache.nodePrefix
  started : s₁.started = s.started
  refused : ∀ fault s₂, nodePrefix.run w s₁ = (.error fault, s₂) → x.run w s = (.error fault, s₂)
  answered : ∀ under s₂, nodePrefix.run w s₁ = (.ok under, s₂) →
    Quiet s₂ (x.run w s).2 ∧ uses under (x.run w s)

section Consults

variable {α : Type} {s s₁ : Session} {x : Action α} {uses : String → Except Fault α × Session → Prop}

/-- The operation goes on like another one from a session that knows no more. -/
theorem Consults.of_run {s' : Session} {y : Action α} (h : Consults w s' s₁ y uses)
    (hrun : x.run w s = y.run w s') (hknown : s'.cache.nodePrefix = s.cache.nodePrefix)
    (hstarted : s'.started = s.started) : Consults w s s₁ x uses where
  known := h.known.trans hknown
  started := h.started.trans hstarted
  refused := by
    rw [hrun]
    exact h.refused
  answered := by
    rw [hrun]
    exact h.answered

theorem Consults.map {β : Type} {f : α → β} {uses' : String → Except Fault β × Session → Prop}
    (h : Consults w s s₁ x uses)
    (huses : ∀ under result t, uses under (result, t) → uses' under (result.map f, t)) :
    Consults w s s₁ (f <$> x) uses' where
  known := h.known
  started := h.started
  refused := fun fault s₂ hrun => by
    rw [run_map, h.refused fault s₂ hrun]
    rfl
  answered := fun under s₂ hrun => by
    obtain ⟨hquiet, hused⟩ := h.answered under s₂ hrun
    rw [run_map]
    exact ⟨hquiet, huses under _ _ hused⟩

end Consults

theorem consults_nodePrefix (s : Session) :
    Consults w s s nodePrefix fun under p => p.1 = .ok under where
  known := rfl
  started := rfl
  refused := fun _ _ hrun => hrun
  answered := fun under s₂ hrun => by
    rw [hrun]
    exact ⟨Quiet.refl s₂, rfl⟩

end Npm

namespace Package

open Npm (Consults)

/-- The modules directory that a session finds near the files of a directory. -/
def nearby (w : World) (s : Session) (fileDir : String) : Option String :=
  match ((Finder.find fileDir ["node_modules/eslint"]).run w s).1 with
  | .ok found => found.map directory
  | .error _ => none

variable {policy : Policy} (h : policy.NeedsPrefix) (modulesDir project : Option String)
include h

/-- **Locating the global copy** takes the prefix and looks under it. -/
theorem consults_locate (s : Session) :
    Consults w s s (locate modulesDir policy project) fun under p =>
      p.1 = globalInstallation w under where
  known := rfl
  started := rfl
  refused := fun fault s₂ hrun => by
    refine locate_unexpected ?_
    rw [candidate_needing h, hrun]
    rfl
  answered := fun under s₂ hrun => by
    have hcandidate : ((candidate modulesDir policy project).run w s).2 = s₂ := by
      rw [candidate_needing h, hrun]
    refine ⟨quiet_locate (hcandidate ▸ Npm.Quiet.refl s₂), ?_⟩
    rw [locate_global h.1, globalPrefix_needing h, hrun, Except.ok_bind]

/-- **Loading it** takes the prefix and loads what is under it. -/
theorem consults_load (s : Session) :
    Consults w s s (load modulesDir policy project) fun under p =>
      p.1 = globalCopyUnder w under where
  known := rfl
  started := rfl
  refused := fun fault s₂ hrun =>
    load_unlocated ((consults_locate h modulesDir project s).refused fault s₂ hrun)
  answered := fun under s₂ hrun => by
    have hcandidate : ((candidate modulesDir policy project).run w s).2 = s₂ := by
      rw [candidate_needing h, hrun]
    refine ⟨quiet_load (hcandidate ▸ Npm.Quiet.refl s₂), ?_⟩
    rw [load_global h.1, globalCopy, globalPrefix_needing h, hrun, Except.ok_bind]

omit modulesDir in
/-- So does loading it for a directory, once that has been searched and children are pointed at what
    was found there. -/
theorem consults_forDirectory {fileDir : String} {s : Session}
    (hfind : ∃ found, ((Finder.find fileDir ["node_modules/eslint"]).run w s).1 = .ok found) :
    ∃ s₁, s₁.context = s.context.pointedAt (nearby w s fileDir) ∧
      Consults w s s₁ (forDirectory fileDir policy project) fun under p =>
        p.1 = globalCopyUnder w under := by
  obtain ⟨found, hfound⟩ := hfind
  obtain ⟨memo, ⟨fault, hfault, -⟩ | ⟨found', log, hfound', hrun⟩⟩ :=
    forDirectory_run (w := w) fileDir policy project s
  · rw [hfound] at hfault
    cases hfault
  · refine ⟨_, ?_, (consults_load h (found'.map directory) project _).of_run hrun rfl rfl⟩
    simp only [nearby, hfound']

omit h modulesDir in
/-- A directory that cannot be searched, or for which the prefix is not needed. -/
theorem quiet_forDirectory {fileDir : String} {s : Session}
    (hspares : ¬(policy.NeedsPrefix ∧
      ∃ found, ((Finder.find fileDir ["node_modules/eslint"]).run w s).1 = .ok found)) :
    Npm.Quiet s ((forDirectory fileDir policy project).run w s).2 := by
  obtain ⟨memo, ⟨fault, -, hrun⟩ | ⟨found, log, hfound, hrun⟩⟩ :=
    forDirectory_run (w := w) fileDir policy project s
  · rw [hrun]
    exact .of_eq rfl rfl
  · have hpolicy : ¬policy.NeedsPrefix := fun hneeds => hspares ⟨hneeds, found, hfound⟩
    rw [hrun]
    refine quiet_load ?_
    rw [candidate_sparing hpolicy]
    exact .of_eq rfl rfl

end Package

/-! ## 5. Jobs -/

/-- A child that is told to load a copy of the linter. -/
def Child.Request.Loads (package : Package) (r : Child.Request) : Prop :=
  ∃ request input, r.input = some input ∧ Json.write Json.wire request = .ok input ∧
    request.get? "eslintPath" = some (.text package.path)

theorem Job.Calls.loads {job : Job} {resolved : Job.Resolved} {r : Child.Request}
    (h : job.Calls w resolved r) : r.Loads resolved.package := by
  obtain ⟨engine, hengine, -, input, hinput, hwrite⟩ := h.input
  refine ⟨_, input, hinput, hwrite, ?_⟩
  rw [← hengine]
  rfl

namespace Job

open Npm (Quiet Consults)

variable {job : Job} {policy : Policy} {s s₀ : Session}

/-- A job of a type that there is fails where no copy is found. -/
theorem run_unpackaged (htype : job.type ∈ types) {fault : Fault} {s' : Session}
    (hpackage : (Package.forDirectory (job.fileDir w) policy job.projectPath).run w s =
      (.error fault, s')) : (job.run policy).run w s = (.error fault, s') := by
  have hresolve : (job.resolve policy).run w s = (.error fault, s') := by
    rw [resolve, run_absolute_bind]
    exact run_bind_error hpackage
  unfold run
  rw [if_neg (not_not_intro htype)]
  exact run_bind_error hresolve

/-- A job is quiet once its copy is found. -/
theorem quiet_run (htype : job.type ∈ types)
    (hpackage : Quiet s₀
      ((Package.forDirectory (job.fileDir w) policy job.projectPath).run w s).2) :
    Quiet s₀ ((job.run policy).run w s).2 := by
  have hjob := alike_job_of_package Npm.quiet_searches Npm.quiet_calls Npm.quiet_note job policy
    (fun h => absurd htype h) (alike_of_run hpackage)
  exact (Alike.ends hjob).session rfl

/-- What a job makes of the copy under a prefix: without one it fails alike; the engines that it
    starts load it, and a description shows it. -/
structure Uses (w : World) (s : Session) (under : String) (p : Except Fault Job.Reply × Session) :
    Prop where
  missing : ∀ fault, Package.globalCopyUnder w under = .error fault → p.1 = .error fault
  loaded : ∀ package, Package.globalCopyUnder w under = .ok package →
    Started s.started (Child.Request.Loads package) p.2
  shown : ∀ package reply, Package.globalCopyUnder w under = .ok package → p.1 = .ok reply →
    reply.Shows (· = package)

/-- **The copy that a job found is used**: by the engines and in the description. -/
theorem ends_run_of_package (htype : job.type ∈ types) {package : Package}
    (hpackage : ((Package.forDirectory (job.fileDir w) policy job.projectPath).run w s).1 =
      .ok package) :
    Ends w (· = s) (job.run policy)
      (fun reply t => Started s.started (Child.Request.Loads package) t ∧
        reply.Shows (· = package))
      (Started s.started (Child.Request.Loads package)) := by
  have hstarts : ∀ t, t = s → Started s.started (Child.Request.Loads package) t := by
    intro t ht
    rw [ht]
    exact started_self _ s
  have hfound := ((ends_forDirectory (m := w) (job.fileDir w) policy job.projectPath).mono
    hstarts (fun _ _ h => h) fun _ h => h).result (B := (· = package)) fun t found ht hresult => by
      rw [ht, hpackage] at hresult
      exact (Except.ok.inj hresult).symm
  refine ends_job_settled (N := fun _ => True) searches_started (fun _ _ h => h) (fun _ h => h)
    (fun h => absurd htype h) (fun _ _ => trivial) policy hfound ?_
  intro resolved t r log env hresolved _ ht hr _ _
  exact ht.add rfl fun _ => hresolved ▸ hr.loads

theorem uses_of_package (htype : job.type ∈ types) {under : String}
    (hpackage : ((Package.forDirectory (job.fileDir w) policy job.projectPath).run w s).1 =
      Package.globalCopyUnder w under) : Uses w s under ((job.run policy).run w s) := by
  refine ⟨fun fault hcopy => ?_, fun package hcopy => ?_, fun package reply hcopy hreply => ?_⟩
  · rcases hrun : (Package.forDirectory (job.fileDir w) policy job.projectPath).run w s
      with ⟨result, s'⟩
    rw [hrun, hcopy] at hpackage
    obtain rfl : result = .error fault := hpackage
    rw [run_unpackaged htype hrun]
  · have hends := ends_run_of_package htype (hpackage.trans hcopy)
    exact (hends.mono (fun _ h => h) (fun _ _ h => h.1) fun _ h => h).session rfl
  · have houtcome := (ends_run_of_package htype (hpackage.trans hcopy)).outcome s rfl
    rcases hrun : (job.run policy).run w s with ⟨result, s'⟩
    rw [hrun] at houtcome hreply
    obtain rfl : result = .ok reply := hreply
    exact houtcome.2

/-- **A job whose copy is found with the prefix** looks it up once. -/
theorem consults_run (htype : job.type ∈ types) (hneeds : policy.NeedsPrefix)
    (hfind : ∃ found,
      ((Finder.find (job.fileDir w) ["node_modules/eslint"]).run w s).1 = .ok found) :
    ∃ s₁, s₁.context = s.context.pointedAt (Package.nearby w s (job.fileDir w)) ∧
      Consults w s s₁ (job.run policy) (Uses w s) := by
  obtain ⟨s₁, hcontext, h⟩ := Package.consults_forDirectory hneeds job.projectPath hfind
  refine ⟨s₁, hcontext, h.known, h.started, fun fault s₂ hrun => ?_, fun under s₂ hrun => ?_⟩
  · have hpackage := h.refused fault s₂ hrun
    exact run_unpackaged htype hpackage
  · obtain ⟨hquiet, hpackage⟩ := h.answered under s₂ hrun
    exact ⟨quiet_run htype hquiet, uses_of_package htype hpackage⟩

end Job

/-! ## 6. Operations -/

namespace Operation

open Npm (Quiet Consults)

/-- The operation comes to where the prefix is needed: it asks for the prefix, or its policy needs
    one, it is a job of a type that there is, and the directory of its file can be searched. -/
def Needs (w : World) (s : Session) : Operation → Prop
  | .nodePrefix => True
  | .locate _ policy _ | .load _ policy _ => policy.NeedsPrefix
  | .forDirectory fileDir policy _ => policy.NeedsPrefix ∧
    ∃ found, ((Finder.find fileDir ["node_modules/eslint"]).run w s).1 = .ok found
  | .job task policy => task.type ∈ Job.types ∧ policy.NeedsPrefix ∧
    ∃ found, ((Finder.find (task.fileDir w) ["node_modules/eslint"]).run w s).1 = .ok found
  | .bundledPath | .configFile _ | .workplace .. | .options .. => False

/-- What the operations that need a prefix make of it: it is their answer, or what lies under it
    is. -/
def Uses (w : World) (s : Session) (under : String)
    (p : Except Fault Operation.Answer × Session) : Operation → Prop
  | .nodePrefix => p.1 = .ok (.path under)
  | .locate .. => p.1 = (Package.globalInstallation w under).map .installation
  | .load .. | .forDirectory .. => p.1 = (Package.globalCopyUnder w under).map .package
  | .job .. => ∃ result, p.1 = Except.map .reply result ∧ Job.Uses w s under (result, p.2)
  | .bundledPath | .configFile _ | .workplace .. | .options .. => True

/-- The environment that an operation asks for the prefix in: who loads a copy for a directory has
    pointed children at what is near before. -/
def asksIn (w : World) (s : Session) : Operation → Entries String
  | .forDirectory fileDir _ _ => (s.context.pointedAt (Package.nearby w s fileDir)).env
  | .job task _ => (s.context.pointedAt (Package.nearby w s (task.fileDir w))).env
  | _ => s.context.env

variable {s : Session} {operation : Operation}

/-- **An operation that needs the prefix** looks it up once and uses it. -/
theorem consults_of_needs (h : operation.Needs w s) :
    ∃ s₁, s₁.context.env = operation.asksIn w s ∧
      Consults w s s₁ operation.perform fun under p => operation.Uses w s under p := by
  cases operation with
  | bundledPath => exact h.elim
  | nodePrefix =>
    refine ⟨s, rfl, (Npm.consults_nodePrefix s).map fun under result t hresult => ?_⟩
    exact congrArg (Except.map Answer.path) hresult
  | locate modulesDir policy project =>
    refine ⟨s, rfl, (Package.consults_locate h modulesDir project s).map fun under result t hresult => ?_⟩
    exact congrArg (Except.map Answer.installation) hresult
  | load modulesDir policy project =>
    refine ⟨s, rfl, (Package.consults_load h modulesDir project s).map fun under result t hresult => ?_⟩
    exact congrArg (Except.map Answer.package) hresult
  | forDirectory fileDir policy project =>
    obtain ⟨s₁, hcontext, hconsults⟩ := Package.consults_forDirectory h.1 project h.2
    refine ⟨s₁, congrArg Context.env hcontext, hconsults.map fun under result t hresult => ?_⟩
    exact congrArg (Except.map Answer.package) hresult
  | configFile start => exact h.elim
  | workplace fileDir filePath policy project => exact h.elim
  | options jobType policy rules fileDir config => exact h.elim
  | job task policy =>
    obtain ⟨htype, hneeds, hfind⟩ := h
    obtain ⟨s₁, hcontext, hconsults⟩ := Job.consults_run htype hneeds hfind
    exact ⟨s₁, congrArg Context.env hcontext, hconsults.map fun under result t huses => ⟨result, rfl, huses⟩⟩

/-- **An operation that does not need it** asks nobody and forgets nothing. -/
theorem quiet_of_spares (h : ¬operation.Needs w s) : Quiet s (operation.perform.run w s).2 := by
  cases operation with
  | bundledPath =>
    rw [perform, run_map]
    exact Npm.quiet_of_alike Npm.quiet_bundledPath
  | nodePrefix => exact absurd trivial h
  | locate modulesDir policy project =>
    rw [perform, run_map]
    refine Package.quiet_locate ?_
    rw [Package.candidate_sparing h]
    exact .refl s
  | load modulesDir policy project =>
    rw [perform, run_map]
    refine Package.quiet_load ?_
    rw [Package.candidate_sparing h]
    exact .refl s
  | forDirectory fileDir policy project =>
    rw [perform, run_map]
    exact Package.quiet_forDirectory project h
  | configFile start =>
    rw [perform, run_map]
    exact Npm.quiet_of_alike (Npm.quiet_searches.configFile start)
  | workplace fileDir filePath policy project =>
    rw [perform, run_map]
    exact Npm.quiet_of_alike (alike_workplace Npm.quiet_searches Npm.quiet_searches Npm.quiet_note
      fileDir filePath policy project)
  | options jobType policy rules fileDir config =>
    rw [perform, run_map]
    exact Npm.quiet_of_alike (Npm.quiet_searches.options jobType policy rules fileDir config)
  | job task policy =>
    rw [perform, run_map]
    by_cases htype : task.type ∈ Job.types
    · have hpackage : ¬(policy.NeedsPrefix ∧ ∃ found,
          ((Finder.find (task.fileDir w) ["node_modules/eslint"]).run w s).1 = .ok found) :=
        fun hneeds => h ⟨htype, hneeds⟩
      exact Job.quiet_run htype (Package.quiet_forDirectory task.projectPath hpackage)
    · unfold Job.run
      rw [if_pos htype]
      exact .refl s

end Operation

end LintHost
