import LintHost.Job
import LintHost.Proofs.Action

/-!
# Two runs of every operation

The operations reach the session through few primitives: they look upwards (`Finder.find`), ask for
the bundled copy and for the package manager's prefix, read and change the context, start children
and tell about their work. So whatever relation of sessions these primitives respect is respected
by every operation built from them. This file is that induction over the operations; the
relations come later, each with proofs about the primitives only.

* `Searches`, `Locates`, `Calls`: the relation respects what a layer of operations uses;
* one theorem for each operation, up to `alike_job`. A job passes two points where sessions may
  become more alike than they were: the search path is refreshed (`R` to `R'`) and the working
  directory noted (`R'` to `R''`).
-/

namespace LintHost

open LintHost.Action

variable {m : Machine} {E R R' R'' : Session → Session → Prop}

/-! ## 1. What a relation respects -/

/-- The relation respects telling and looking upwards; what it relates sees the same. -/
structure Searches (m : Machine) (E R : Session → Session → Prop) : Prop where
  fault : ∀ s t, R s t → E s t
  sees : ∀ s t, R s t → m.now s = m.now t
  tell : ∀ source level message, Alike m E R (Action.tell source level message) fun _ => R
  find : ∀ start names, Alike m E R (Finder.find start names) fun _ => R

/-- The relation respects what finding a copy of the linter uses besides. -/
structure Locates (m : Machine) (E R : Session → Session → Prop) : Prop extends Searches m E R where
  bundled : Alike m E R NodeTools.bundledPath fun _ => R
  nodePrefix : Alike m E R Npm.nodePrefix fun _ => R

/-- The relation respects what calling an engine uses besides. -/
structure Calls (m : Machine) (E R : Session → Session → Prop) : Prop extends Searches m E R where
  context : Alike m E R Action.context fun _ => R
  child : ∀ node cwd env timeout input,
    Alike m E R (Child.run [node, .text "-e", .text Engine.script] cwd (some env) timeout
      (some input)) fun _ => R

/-! ## 2. Looking things up -/

section Searches

variable (hR : Searches m E R)
include hR

theorem Searches.ofExcept {α : Type} (result : Except Fault α) :
    Alike m E R (Action.ofExcept result) fun _ => R :=
  .ofExcept (fun _ _ _ _ h => h) hR.fault

theorem Searches.findFrom (start : String) :
    ∀ fuel directory, Alike m E R (ConfigFile.findFrom start fuel directory) fun _ => R
  | 0, _ => .pure fun _ _ h => h
  | fuel + 1, directory => by
    rw [ConfigFile.findFrom]
    refine (hR.find _ _).bind fun found => ?_
    cases found with
    | none => exact .pure fun _ _ h => h
    | some file =>
      have goOn (counts : Bool) : Alike m E R
          (if counts then do
            Action.tell ConfigFile.source .debug ("Config file for " ++ start ++ ": " ++ file)
            return some file
          else if Path.directory (Path.directory file) = Path.directory file then return none
          else ConfigFile.findFrom start fuel (Path.directory (Path.directory file)))
          fun _ => R := by
        split
        · exact (hR.tell _ _ _).bind fun _ => .pure fun _ _ h => h
        · split
          · exact .pure fun _ _ h => h
          · exact findFrom start fuel _
      by_cases hm : Path.base file = ConfigFile.manifestName
      · simp only [hm, if_true]
        exact .read_bind hR.sees fun _ => (hR.ofExcept _).bind goOn
      · simp only [hm, if_false]
        exact goOn true

theorem Searches.configFile (start : String) :
    Alike m E R (ConfigFile.find start) fun _ => R := by
  rw [ConfigFile.find]
  exact .absolute_bind (hR.findFrom start _ _)

theorem Searches.ignoreFile (fileDir : String) (policy : Policy) :
    Alike m E R (LintHost.ignoreFile fileDir policy) fun _ => R := by
  unfold LintHost.ignoreFile
  split
  · exact .pure fun _ _ h => h
  · exact hR.find _ _

theorem Searches.rulePath (fileDir entry : String) :
    Alike m E R (Engine.Options.rulePath fileDir entry) fun _ => R := by
  rw [Engine.Options.rulePath]
  refine .cleanPath_bind (fun given _ => ?_) hR.fault
  split
  · exact .pure fun _ _ h => h
  · split
    · exact .pure fun _ _ h => h
    · exact hR.find _ _

theorem Searches.ruleDirectories (fileDir : String) : ∀ entries,
    Alike m E R (Engine.Options.ruleDirectories fileDir entries) fun _ => R
  | [] => .pure fun _ _ h => h
  | entry :: rest => by
    rw [Engine.Options.ruleDirectories]
    exact (hR.rulePath fileDir entry).bind fun _ =>
      (ruleDirectories fileDir rest).bind fun _ => .pure fun _ _ h => h

theorem Searches.fallback (policy : Policy) (config : Option String) :
    Alike m E R (Engine.Options.fallback policy config) fun _ => R := by
  unfold Engine.Options.fallback
  split
  · split
    · exact .pure fun _ _ h => h
    · rw [map_eq_pure_bind]
      exact .cleanPath_bind (fun _ _ => .pure fun _ _ h => h) hR.fault
  · exact .pure fun _ _ h => h

theorem Searches.options (jobType : String) (policy : Policy) (rules : Entries Json)
    (fileDir : String) (config : Option String) :
    Alike m E R (Engine.Options.build jobType policy rules fileDir config) fun _ => R := by
  rw [Engine.Options.build]
  exact (hR.fallback policy config).bind fun _ => (hR.ignoreFile fileDir policy).bind fun _ =>
    (hR.ruleDirectories fileDir policy.rulesDirs).bind fun _ => .pure fun _ _ h => h

end Searches

/-! ## 3. Finding a copy of the linter -/

/-- Where a copy is expected takes the package manager's prefix at most. -/
theorem alike_candidate (hR : Searches m E R) (hnpm : Alike m E R Npm.nodePrefix fun _ => R)
    (modulesDir : Option String) (policy : Policy) (project : Option String) :
    Alike m E R (Package.candidate modulesDir policy project) fun _ => R := by
  unfold Package.candidate
  split
  · have goOn (under : String) : Alike m E R
        (do return (Origin.global, some (Package.globalCandidate (← read) under)))
        fun _ => R := .read_bind hR.sees fun _ => .pure fun _ _ h => h
    refine .cleanPath_bind (fun given _ => ?_) hR.fault
    split
    · exact hnpm.bind goOn
    · rw [pure_bind]
      exact goOn given
  · split
    · split <;> exact .pure fun _ _ h => h
    · split <;> exact .pure fun _ _ h => h
    · refine .cleanPath_bind (fun given _ => ?_) hR.fault
      split <;> exact .pure fun _ _ h => h

/-- With the global mode the global copy is expected. -/
theorem Package.candidate_origin {modulesDir project : Option String} {policy : Policy}
    {s : Session} {expected : Origin × Option String}
    (h : ((candidate modulesDir policy project).run m s).1 = .ok expected)
    (hglobal : policy.useGlobal = true) : expected.1 = .global := by
  rcases hrun : (candidate modulesDir policy project).run m s with ⟨result, t⟩
  rw [hrun] at h
  obtain rfl : result = .ok expected := h
  unfold candidate at hrun
  rw [if_pos hglobal] at hrun
  obtain ⟨given, s', -, hrun⟩ := of_run_bind hrun
  split at hrun
  · obtain ⟨under, s'', -, hrun⟩ := of_run_bind hrun
    cases hrun
    rfl
  · cases hrun
    rfl

section FallBack

variable (hR : Searches m E R)
include hR

theorem Searches.loadBundled (hbundled : Alike m E R NodeTools.bundledPath fun _ => R) :
    Alike m E R Package.loadBundled fun _ => R := by
  rw [Package.loadBundled]
  refine hbundled.bind fun path => .read_bind hR.sees fun world =>
    (hR.ofExcept _).bind fun loaded => ?_
  cases loaded with
  | ok package => exact .pure fun _ _ h => h
  | error reason => exact .throw hR.fault

-- The bundled copy is asked for without the global mode only.
variable {modulesDir project : Option String} {policy : Policy}
  (hbundled : policy.useGlobal = false → Alike m E R NodeTools.bundledPath fun _ => R)
  (hcandidate : Alike m E R' (Package.candidate modulesDir policy project) fun _ => R)
include hbundled hcandidate

/-- Locating a copy once it is known where one is expected. -/
theorem Searches.locate_after :
    Alike m E R' (Package.locate modulesDir policy project) fun found s t =>
      R s t ∧ (policy.useGlobal = true → found.origin = .global) := by
  rw [Package.locate]
  refine (hcandidate.result fun _ _ h => Package.candidate_origin h).bind fun ⟨origin, expected⟩ =>
    .assume fun horigin => .read_bind hR.sees fun world => ?_
  split
  · exact (hR.tell _ _ _).bind fun _ => .pure fun _ _ h => ⟨h, horigin⟩
  · split
    · exact .throw hR.fault
    · rename_i hlocal
      have hlocal : policy.useGlobal = false := Bool.eq_false_iff.mpr hlocal
      exact (hbundled hlocal).bind fun _ => (hR.tell _ _ _).bind fun _ =>
        .pure fun _ _ h => ⟨h, fun hglobal => absurd hglobal (by rw [hlocal]; decide)⟩

/-- Loading a copy once it is known where one is expected. -/
theorem Searches.load_after :
    Alike m E R' (Package.load modulesDir policy project) fun _ => R := by
  rw [Package.load]
  refine (hR.locate_after hbundled hcandidate).bind fun found => .assume fun horigin =>
    .read_bind hR.sees fun world => (hR.ofExcept _).bind fun loaded => ?_
  cases loaded with
  | ok package => exact .pure fun _ _ h => h
  | error reason =>
    obtain ⟨path, origin⟩ := found
    have again (hlocal : policy.useGlobal ≠ true) (message : String) : Alike m E R (do
        Action.tell Package.source .warning message
        Package.loadBundled) fun _ => R :=
      (hR.tell _ _ _).bind fun _ => hR.loadBundled (hbundled (Bool.eq_false_iff.mpr hlocal))
    cases origin with
    | global => exact .throw hR.fault
    | bundled => exact .throw hR.fault
    | localProject => exact again (fun hglobal => nomatch horigin hglobal) _
    | advanced => exact again (fun hglobal => nomatch horigin hglobal) _

end FallBack

section Locates

variable (hR : Locates m E R)
include hR

theorem Locates.candidate (modulesDir : Option String) (policy : Policy)
    (project : Option String) :
    Alike m E R (Package.candidate modulesDir policy project) fun _ => R :=
  alike_candidate hR.toSearches hR.nodePrefix modulesDir policy project

theorem Locates.locate (modulesDir : Option String) (policy : Policy) (project : Option String) :
    Alike m E R (Package.locate modulesDir policy project) fun found s t =>
      R s t ∧ (policy.useGlobal = true → found.origin = .global) :=
  hR.toSearches.locate_after (fun _ => hR.bundled) (hR.candidate modulesDir policy project)

theorem Locates.load (modulesDir : Option String) (policy : Policy) (project : Option String) :
    Alike m E R (Package.load modulesDir policy project) fun _ => R :=
  hR.toSearches.load_after (fun _ => hR.bundled) (hR.candidate modulesDir policy project)

end Locates

/-- The copy for a directory: the search path is refreshed on the way. -/
theorem alike_forDirectory_of_load (hR : Searches m E R)
    (refresh : ∀ dir, Alike m E R (discard (Package.refreshSearchPath dir)) fun _ => R')
    {policy : Policy} {project : Option String}
    (load : ∀ dir, Alike m E R' (Package.load dir policy project) fun _ => R'')
    (fileDir : String) :
    Alike m E R (Package.forDirectory fileDir policy project) fun _ => R'' := by
  rw [Package.forDirectory]
  exact (hR.find _ _).bind fun _ => (refresh _).bind fun _ => load _

theorem alike_forDirectory (hR : Searches m E R) (hR' : Locates m E R')
    (refresh : ∀ dir, Alike m E R (discard (Package.refreshSearchPath dir)) fun _ => R')
    (fileDir : String) (policy : Policy) (project : Option String) :
    Alike m E R (Package.forDirectory fileDir policy project) fun _ => R' :=
  alike_forDirectory_of_load hR refresh (fun dir => hR'.load dir policy project) fileDir

/-! ## 4. The working directory -/

/-- The choice of the working directory: it is noted on the way. -/
theorem alike_workplace (hR : Searches m E R) (hR' : Searches m E R')
    (note : ∀ cwd, Alike m E R (modifyContext fun c => { c with cwd := some cwd }) fun _ => R')
    (fileDir filePath : String) (policy : Policy) (project : Option String) :
    Alike m E R (Workplace.resolve fileDir filePath policy project) fun _ => R' := by
  rw [Workplace.resolve]
  exact (hR.ignoreFile fileDir policy).bind fun _ => .read_bind hR.sees fun _ =>
    (note _).bind fun _ => (hR'.tell _ _ _).bind fun _ => .pure fun _ _ h => h

/-! ## 5. Calling an engine -/

section Calls

variable (hR : Calls m E R)
include hR

theorem Calls.call (engine : Engine) (mode : Engine.Mode) (text : String) (file : Option String) :
    Alike m E R (engine.call mode text file) fun _ => R := by
  rw [Engine.call]
  refine hR.context.bind fun context => ?_
  split
  · exact .throw hR.fault
  · exact (hR.child _ _ _ _ _).bind fun _ => (hR.ofExcept _).bind fun _ =>
      (hR.tell _ _ _).bind fun _ => hR.ofExcept _

theorem Calls.construct (adapter : Adapter) (number : Nat) (options : Engine.Options) :
    Alike m E R (adapter.construct number options) fun _ => R := by
  rw [Adapter.construct]
  exact hR.context.bind fun _ => .pure fun _ _ h => h

theorem Calls.lint (adapter : Adapter) (engine : Engine) (text file : String) :
    Alike m E R (adapter.lint engine text file) fun _ => R := by
  rw [Adapter.lint]
  exact (hR.call _ _ _ _).bind fun _ => .pure fun _ _ h => h

theorem Calls.rules (adapter : Adapter) (engine : Engine) :
    Alike m E R (adapter.rules engine) fun _ => R := by
  unfold Adapter.rules
  split
  · exact .pure fun _ _ h => h
  · exact (hR.call _ _ _ _).bind fun _ => .pure fun _ _ h => h

theorem Calls.describe (package : Package) (policy : Policy) (config : Option String)
    (working : Workplace) (project : Option String) :
    Alike m E R (Job.describe package policy config working project) fun _ => R := by
  rw [Job.describe]
  exact .read_bind hR.sees fun _ => (hR.ofExcept _).bind fun _ => hR.context.bind fun _ =>
    .pure fun _ _ h => h

end Calls

/-! ## 6. Jobs -/

/-- Resolving a job once the copy of the linter is found. -/
theorem alike_resolve_of_package (hR' : Searches m E R') (hR'' : Searches m E R'')
    (note : ∀ cwd, Alike m E R' (modifyContext fun c => { c with cwd := some cwd }) fun _ => R'')
    (job : Job) (policy : Policy)
    (package : Alike m E R
      (Package.forDirectory (Path.directory (Path.absolute m.world.cwd job.filePath)) policy
        job.projectPath) fun _ => R') :
    Alike m E R (job.resolve policy) fun _ => R'' := by
  rw [Job.resolve]
  exact .absolute_bind (package.bind fun _ => (hR'.configFile _).bind fun _ =>
    (alike_workplace hR' hR'' note _ _ _ _).bind fun _ => .pure fun _ _ h => h)

theorem Calls.lintJob (hR : Calls m E R) (job : Job) (policy : Policy) (resolved : Job.Resolved) :
    Alike m E R (job.lint policy resolved) fun _ => R := by
  have reply (report : Report) (rules : Entries Json) :
      Alike m E R (pure (job.resultOf report rules)) fun _ => R := .pure fun _ _ h => h
  rw [Job.lint]
  refine (hR.options _ _ _ _ _).bind fun options => (hR.construct _ _ _).bind fun engine =>
    (hR.lint _ _ _ _).bind fun ⟨report, adapter⟩ => (hR.rules _ _).bind fun ⟨rules, _⟩ => ?_
  dsimp only
  split
  · exact (hR.tell _ _ _).bind fun _ => reply report rules
  · exact reply report rules

/-- A job ends alike once the copy of the linter is found. -/
theorem alike_job_of_package (hR' : Searches m E R') (hR'' : Calls m E R'')
    (note : ∀ cwd, Alike m E R' (modifyContext fun c => { c with cwd := some cwd }) fun _ => R'')
    (job : Job) (policy : Policy) (fault : job.type ∉ Job.types → ∀ s t, R s t → E s t)
    (package : Alike m E R
      (Package.forDirectory (Path.directory (Path.absolute m.world.cwd job.filePath)) policy
        job.projectPath) fun _ => R') :
    Alike m E R (job.run policy) fun _ => R'' := by
  unfold Job.run
  split
  · exact .throw (fault ‹_›)
  · refine (alike_resolve_of_package hR' hR''.toSearches note job policy package).bind
      fun resolved => ?_
    split
    · exact (hR''.describe _ _ _ _ _).bind fun _ => .pure fun _ _ h => h
    · exact hR''.lintJob job policy resolved

/-- **A job ends alike** from sessions that its primitives leave related. -/
theorem alike_job (hR : Searches m E R) (hR' : Locates m E R') (hR'' : Calls m E R'')
    (refresh : ∀ dir, Alike m E R (discard (Package.refreshSearchPath dir)) fun _ => R')
    (note : ∀ cwd, Alike m E R' (modifyContext fun c => { c with cwd := some cwd }) fun _ => R'')
    (job : Job) (policy : Policy) : Alike m E R (job.run policy) fun _ => R'' :=
  alike_job_of_package hR'.toSearches hR'' note job policy (fun _ => hR.fault)
    (alike_forDirectory hR hR' refresh _ policy job.projectPath)

/-- The session after serving jobs, of which each may have failed. -/
def Job.serve (w : World) (s : Session) (jobs : List (Job × Policy)) : Session :=
  jobs.foldl (fun s (job, policy) => ((job.run policy).run w s).2) s

theorem Job.serve_single (s : Session) (job : Job) (policy : Policy) :
    serve w s [(job, policy)] = ((job.run policy).run w s).2 := rfl

end LintHost
