import LintHost.Proofs.EngineCalls
import LintHost.Proofs.Place

/-!
# The file that an engine is pointed at

An engine is told which file it lints by a path seen from its working directory. Both are chosen
together, in three ways, and each way leads to the file that the job names.

* `Child.Request.RunsEngine`, `Started`: the children of a session that run an engine;
* `Attentive`, `attentive_job`: of the children of a job, only engines are sent something;
* `choose_leads`: from the working directory chosen for a file the path seen from there leads to it;
* `engine_call_names_file`: so it is for every engine that a job starts.
-/

namespace LintHost

open LintHost.Action LintHost.Path

variable {m : Machine} {w : World}

/-! ## 1. Where a child is -/

/-- A child runs at a place with the names of the directory that it was given. -/
theorem Child.directory_place (hcwd : isAbsolute w.cwd = true) (directory : String) :
    ∃ p : PartPath, p.Settled ∧ Child.directory w (some directory) = p.text ∧
      p.names = (place w.cwd directory).names := by
  by_cases hempty : directory = ""
  · subst hempty
    refine ⟨place w.cwd w.cwd, settled_place hcwd _, absolute_eq _ _, ?_⟩
    have hhere : (place w.cwd w.cwd).names = reduce true (entries w.cwd.toList) := by
      rw [place, if_pos hcwd, settle_names hcwd]
    rw [hhere, place_relative hcwd rfl]
    exact (descend_nil _).symm
  · refine ⟨place w.cwd directory, settled_place hcwd _, ?_, rfl⟩
    rw [Child.directory, Option.getD_some, if_neg hempty, absolute_eq]

/-- **The working directory chosen for a file**: the path seen from there leads to the file, whether
    the directory is that of an ignore file, the project's or the file's own. -/
theorem choose_leads (hcwd : isAbsolute w.cwd = true) {file : PartPath} (hfile : file.Settled)
    (ignore project : Option String) :
    let working := Workplace.choose w.cwd (directory file.text) file.text ignore project
    ∃ p : PartPath, p.Settled ∧ Child.directory w (some working.cwd) = p.text ∧
      descend p.names (entries working.relativePath.toList) = file.names := by
  intro working
  have seen (d : String) (hworking : working = ⟨d, relative w.cwd file.text d⟩) :
      ∃ p : PartPath, p.Settled ∧ Child.directory w (some working.cwd) = p.text ∧
        descend p.names (entries working.relativePath.toList) = file.names := by
    obtain ⟨p, hp, htext, hnames⟩ := Child.directory_place hcwd d
    refine ⟨p, hp, by rw [hworking]; exact htext, ?_⟩
    rw [hworking, hnames, descend_relative hcwd, place_text hfile]
  have own (hworking : working = ⟨directory file.text, base file.text⟩) :
      ∃ p : PartPath, p.Settled ∧ Child.directory w (some working.cwd) = p.text ∧
        descend p.names (entries working.relativePath.toList) = file.names := by
    obtain ⟨p, hp, htext, hnames⟩ := Child.directory_place hcwd (directory file.text)
    refine ⟨p, hp, by rw [hworking]; exact htext, ?_⟩
    rw [hworking, hnames, directory_text hfile, place_text hfile.parent, descend_base hfile]
  cases ignore with
  | some found => exact seen _ rfl
  | none => cases project with
    | none => exact own rfl
    | some d =>
      by_cases hempty : d = ""
      · subst hempty
        exact own rfl
      · refine seen d ?_
        show Workplace.choose _ _ _ none (some d) = _
        unfold Workplace.choose
        simp

/-! ## 2. The engines that a session has started -/

/-- A child that runs an engine. -/
def Child.Request.RunsEngine (r : Child.Request) : Prop :=
  ∃ node, r.command = [node, "-e", Engine.script]

/-- Of the children started after `before`, those that run an engine are as `Q` says. -/
def Started (before : List Child.Request) (Q : Child.Request → Prop) (s : Session) : Prop :=
  ∃ later, s.started = before ++ later ∧ ∀ r ∈ later, r.RunsEngine → Q r

section Started

variable {before : List Child.Request} {Q : Child.Request → Prop}

theorem started_self (Q : Child.Request → Prop) (s : Session) : Started s.started Q s :=
  ⟨[], (List.append_nil _).symm, fun _ hr => nomatch hr⟩

theorem Started.append {s t : Session} (h : Started before Q s) {more : List Child.Request}
    (ht : t.started = s.started ++ more) (hmore : ∀ r ∈ more, r.RunsEngine → Q r) :
    Started before Q t := by
  obtain ⟨later, hlater, hall⟩ := h
  refine ⟨later ++ more, by rw [ht, hlater, List.append_assoc], fun r hr => ?_⟩
  exact (List.mem_append.mp hr).elim (hall r) (hmore r)

theorem Started.add {s t : Session} (h : Started before Q s) {r : Child.Request}
    (ht : t.started = s.started ++ [r]) (hr : r.RunsEngine → Q r) : Started before Q t :=
  h.append ht fun _ hr' => List.mem_singleton.mp hr' ▸ hr

theorem Npm.request_not_engine (env : Entries String) : ¬(Npm.request w env).RunsEngine := by
  rintro ⟨node, hnode⟩
  simp [request, command] at hnode

theorem searches_started : Searches m (Same (Started before Q)) (Same (Started before Q)) :=
  searches_of_frame fun _ _ _ h => h

theorem locates_started : Locates m (Same (Started before Q)) (Same (Started before Q)) :=
  locates_of_frame searches_started (fun _ _ hs => hs) fun _ _ _ hs => hs.append rfl fun _ hr h =>
    absurd (Child.mem_launched hr ▸ h) (Npm.request_not_engine _)

/-- Finding a copy of the linter starts no engine. -/
theorem ends_forDirectory (fileDir : String) (policy : Policy) (project : Option String) :
    Ends m (Started before Q) (Package.forDirectory fileDir policy project)
      (fun _ => Started before Q) (Started before Q) :=
  (alike_forDirectory searches_started locates_started (alike_refresh fun _ _ _ hs => hs) fileDir
    policy project).keeps

end Started

/-! ## 3. What children are sent -/

/-- Only engines are sent something. -/
def Attentive (s : Session) : Prop := ∀ r ∈ s.started, r.input ≠ none → r.RunsEngine

theorem Attentive.append {s t : Session} (h : Attentive s) {more : List Child.Request}
    (ht : t.started = s.started ++ more) (hmore : ∀ r ∈ more, r.input ≠ none → r.RunsEngine) :
    Attentive t := by
  intro r hr
  rw [ht] at hr
  exact (List.mem_append.mp hr).elim (h r) (hmore r)

theorem Attentive.add {s t : Session} (h : Attentive s) {r : Child.Request}
    (ht : t.started = s.started ++ [r]) (hr : r.input ≠ none → r.RunsEngine) : Attentive t :=
  h.append ht fun _ hr' => List.mem_singleton.mp hr' ▸ hr

theorem locates_attentive : Locates m (Same Attentive) (Same Attentive) :=
  locates_of_frame (searches_of_frame fun _ _ _ h => h) (fun _ _ h => h) fun _ _ _ hs =>
    hs.append rfl fun _ hr h => absurd (congrArg (·.input) (Child.mem_launched hr)) h

/-- **Of the children of a job** only engines are sent something. -/
theorem attentive_job (job : Job) (policy : Policy) :
    Ends m Attentive (job.run policy) (fun _ => Attentive) Attentive :=
  ends_job (B := fun _ => True) locates_attentive.toSearches (fun _ _ h => h) job policy
    ((alike_forDirectory locates_attentive.toSearches locates_attentive
      (alike_refresh fun _ _ _ h => h) _ policy job.projectPath).keeps.mono (fun _ h => h)
      (fun _ _ h => ⟨h, trivial⟩) fun _ h => h)
    fun _ _ _ _ _ _ hs hr => hs.add rfl fun _ => hr.command

theorem vendored_runs_engine : ∃ r ∈ Session.vendored.started, r.RunsEngine := by
  have hattentive : Attentive Session.vendored := by
    rw [Session.vendored, Job.serve_single]
    exact (attentive_job (m := World.vendored) _ _).session nofun
  have hsent : Session.vendored.started.any (·.input.isSome) = true := by decide +kernel
  obtain ⟨r, hr, hinput⟩ := List.any_eq_true.mp hsent
  exact ⟨r, hr, hattentive r hr (Option.isSome_iff_ne_none.mp hinput)⟩

/-! ## 4. The file of a job -/

/-- **An engine is pointed at the file that the job names.** Whatever the session, the job and the
    policy are: the path that an engine is sent leads from the directory it runs in to the file. -/
theorem engine_call_names_file (hcwd : isAbsolute w.cwd = true) (s : Session) (job : Job)
    (policy : Policy) :
    ∃ later, ((job.run policy).run w s).2.started = s.started ++ later ∧
      ∀ r ∈ later, r.RunsEngine → ∃ request input file,
        r.input = some input ∧ Json.write Json.wire request = .ok input ∧
        request.get? "filePath" = some (.text file) ∧
        SamePlace (Path.normalize (r.cwd ++ "/" ++ file)) (absolute w.cwd job.filePath) := by
  refine (ends_job (B := fun _ => True) searches_started (fun _ _ h => h) job policy
    ((ends_forDirectory _ policy job.projectPath).mono (fun _ h => h)
      (fun _ _ h => ⟨h, trivial⟩) fun _ h => h)
    (fun resolved s' r log _ hfits hs' hr => hs'.add rfl fun _ => ?_)).session (started_self _ s)
  obtain ⟨engine, -, -, input, hinput, hwrite⟩ := hr.input
  obtain ⟨ignore, hworking⟩ := hfits
  have hfile := settled_place hcwd job.filePath
  rw [Job.fileDir, absolute_eq] at hworking
  rw [absolute_eq]
  obtain ⟨p, hp, htext, hleads⟩ := choose_leads hcwd hfile ignore job.projectPath
  rw [← hworking] at htext hleads
  refine ⟨_, input, resolved.working.relativePath, hinput, hwrite, rfl, ?_⟩
  rw [hr.cwd, htext]
  obtain ⟨hsettled, hnames⟩ := settle_behind hp resolved.working.relativePath.toList
  have hnormal : Path.normalize (p.text ++ "/" ++ resolved.working.relativePath) =
      (settle (p.chars ++ '/' :: resolved.working.relativePath.toList)).text := by
    rw [Path.normalize, normalizeChars_eq, PartPath.text, PartPath.text, String.toList_append,
      String.toList_append, String.toList_ofList]
    simp
  rw [hnormal]
  exact samePlace_text hsettled hfile (hnames.trans hleads)

/-- On a machine with a vendored copy an engine is started for `lib/..//src/a.js`, and it is pointed
    at `/src/a.js`. -/
theorem vendored_call_names_file :
    isAbsolute World.vendored.cwd = true ∧ ∃ r ∈ Session.vendored.started, r.RunsEngine ∧
      ∃ request input file, r.input = some input ∧ Json.write Json.wire request = .ok input ∧
        request.get? "filePath" = some (.text file) ∧
        SamePlace (Path.normalize (r.cwd ++ "/" ++ file)) "/src/a.js" := by
  have hgoal : absolute World.vendored.cwd "lib/..//src/a.js" = "/src/a.js" := by decide +kernel
  obtain ⟨later, hlater, hcalls⟩ := engine_call_names_file (w := .vendored) (by decide)
    (Session.start (.ofEnv [])) (Job.check "lib/..//src/a.js") .vendor
  have hstarted : Session.vendored.started = later := by
    rw [Session.vendored, Job.serve_single, hlater]
    rfl
  obtain ⟨r, hr, hruns⟩ := vendored_runs_engine
  have hcall := hcalls r (hstarted ▸ hr) hruns
  rw [show (Job.check "lib/..//src/a.js").filePath = "lib/..//src/a.js" from rfl, hgoal] at hcall
  exact ⟨by decide, r, hr, hruns, hcall⟩

end LintHost
