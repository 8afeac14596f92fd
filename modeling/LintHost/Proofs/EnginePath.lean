import LintHost.Proofs.EngineFile
import LintHost.Proofs.Provenance

/-!
# The copy that an engine loads

An engine is told by a path which copy of the linter to load. The path was examined from one
directory, the host's, and is read from another, the engine's. This file says when both see one
place.

* `sound_serve`: sessions that serve jobs stay sound;
* `engine_call_loads_copy`: an engine loads the copy that was found exactly if the directory is
  absolute that the copy's path is built from, or if both agree as far above as the path goes up;
* `vendored_copy_missed`: a copy named relative to the host that an engine looks for elsewhere.
-/

namespace LintHost

open LintHost.Action LintHost.Path

variable {w : World} {tools : Value}

/-! ## 1. Sound sessions serve jobs -/

theorem Sound.pointedAt {s : Session} (h : Sound w tools s) (dir : Option String)
    (log : List Log.Record) :
    Sound w tools { s with context := s.context.pointedAt dir, log := log } := by
  refine { h with nodeToolsDir := ?_ }
  show (s.context.pointedAt dir).nodeToolsDir = tools
  unfold Context.pointedAt
  split <;> exact h.nodeToolsDir

theorem ends_sound (job : Job) (policy : Policy) :
    Ends w (Sound w tools) (job.run policy) (fun _ => Sound w tools) (Sound w tools) :=
  ends_job searches_sound (fun _ _ h => { h with }) job policy
    (ends_package locates_sound (fun _ h => h) (fun _ dir log h => h.pointedAt dir log) _ policy _)
    fun _ _ _ _ _ _ h _ => { h with }

/-- **Sessions that serve jobs stay sound**, whatever the jobs are and however they end. -/
theorem sound_serve {s : Session} (h : Sound w tools s) (history : List (Job × Policy)) :
    Sound w tools (Job.serve w s history) := by
  induction history generalizing s with
  | nil => exact h
  | cons served history ih => exact ih ((ends_sound served.1 served.2).session h)

/-! ## 2. The copy of a job -/

/-- The engines that a job starts on a sound session are as `Q` says, if all are that load a copy
    built from a directory. -/
theorem started_job {Q : Child.Request → Prop} {s : Session} (hs : Sound w tools s) (job : Job)
    (policy : Policy)
    (hQ : ∀ (resolved : Job.Resolved) base r, Package.BuiltFrom w tools (job.fileDir w) policy
      job.projectPath base resolved.package.installation → Job.Calls w job resolved r → Q r) :
    Started s.started Q ((job.run policy).run w s).2 := by
  have hboth : Locates w (Same fun s' => Started s.started Q s' ∧ Sound w tools s')
      (Same fun s' => Started s.started Q s' ∧ Sound w tools s') :=
    locates_started.and locates_sound
  have hpackage := ends_package hboth (fun _ h => h.2)
    (fun _ dir log h => ⟨h.1, h.2.pointedAt dir log⟩) (job.fileDir w) policy job.projectPath
  have hjob := ends_job hboth.toSearches (fun _ _ h => ⟨h.1, { h.2 with }⟩) job policy hpackage
    fun resolved s' r log hbuilt _ hs' hr => by
      obtain ⟨base, hbuilt⟩ := hbuilt
      exact ⟨hs'.1.add rfl fun _ => hQ resolved base r hbuilt hr, { hs'.2 with }⟩
  exact (hjob.session ⟨started_self _ s, hs⟩).1

/-- **The copy that an engine loads.** On a session with a history, every engine that a job starts
    is sent the path of a copy that was built from a directory, and it reads the path as the host
    does exactly if that directory is absolute, or if the two working directories agree as far
    above as the path goes up. For a copy that was found near the file the directory is. -/
theorem engine_call_loads_copy (hcwd : isAbsolute w.cwd = true) (origin : Context)
    (history : List (Job × Policy)) (job : Job) (policy : Policy) :
    let s := Job.serve w (Session.start origin) history
    ∃ later, ((job.run policy).run w s).2.started = s.started ++ later ∧
      ∀ r ∈ later, r.RunsEngine → ∃ request input base copy,
        r.input = some input ∧ Json.write Json.wire request = .ok input ∧
        request.get? "eslintPath" = some (.text copy.path) ∧
        Package.BuiltFrom w origin.nodeToolsDir (job.fileDir w) policy job.projectPath base copy ∧
        (absolute r.cwd copy.path = absolute w.cwd copy.path ↔ isAbsolute base = true ∨
          (settle r.cwd.toList).up (ascents copy.path) =
            (settle w.cwd.toList).up (ascents copy.path)) ∧
        (copy.origin = .localProject → isAbsolute base = true) := by
  intro s
  refine started_job (sound_serve (sound_start origin) history) job policy
    fun resolved base r hbuilt hr => ?_
  obtain ⟨engine, hengine, -, input, hinput, hwrite⟩ := hr.input
  obtain ⟨p, hp, htext, -⟩ := Child.directory_place hcwd resolved.working.cwd
  have hchild : isAbsolute r.cwd = true := by
    rw [hr.cwd, htext]
    exact isAbsolute_text hp.rooted
  refine ⟨_, input, base, resolved.package.installation, hinput, hwrite, ?_, hbuilt, ?_,
    hbuilt.isAbsolute_near hcwd⟩
  · rw [← hengine]
    rfl
  · rw [absolute_agree_iff hchild hcwd, hbuilt.isAbsolute]

/-! ## 3. A vendored copy -/

/-- The request that is sent to the engine on a machine with a vendored copy. -/
def World.vendoredRequest : Json :=
  .object [
    ("eslintPath", .text "vendor/eslint"), ("mode", .text "lint"),
    ("options", .object [("rules", .object []), ("ignore", .bool true), ("fix", .bool false),
      ("rulePaths", .list [])]),
    ("text", .text ""), ("filePath", .text "a.js")]

theorem vendored_sent : Session.vendored.started.map (fun r => (r.cwd, r.input)) =
    [("/src", (Json.write Json.wire World.vendoredRequest).toOption)] := by
  decide +kernel

/-- The copy in `/vendor` is found from `/`, and from `/src` the engine looks for it elsewhere,
    where none is. -/
theorem vendored_copy_missed :
    isAbsolute World.vendored.cwd = true ∧ ∃ r ∈ Session.vendored.started, r.RunsEngine ∧
      ∃ request input path, r.input = some input ∧ Json.write Json.wire request = .ok input ∧
        request.get? "eslintPath" = some (.text path) ∧
        absolute World.vendored.cwd path = "/vendor/eslint" ∧
        World.vendored.isDirectory "/vendor/eslint" = true ∧
        absolute r.cwd path = "/src/vendor/eslint" ∧
        World.vendored.isDirectory "/src/vendor/eslint" = false := by
  obtain ⟨r, hr, hruns⟩ := vendored_runs_engine
  have hsent : (r.cwd, r.input) ∈ Session.vendored.started.map (fun r => (r.cwd, r.input)) :=
    List.mem_map_of_mem hr
  rw [vendored_sent, List.mem_singleton] at hsent
  obtain ⟨hcwd, hinput⟩ := Prod.mk.inj hsent
  cases hwrite : Json.write Json.wire World.vendoredRequest with
  | error fault =>
    have hwritten : (Json.write Json.wire World.vendoredRequest).isOk = true := by decide +kernel
    rw [hwrite] at hwritten
    cases hwritten
  | ok input =>
    rw [hwrite] at hinput
    refine ⟨by decide, r, hr, hruns, _, input, "vendor/eslint", hinput, hwrite, rfl, ?_, ?_, ?_, ?_⟩
    · decide +kernel
    · decide +kernel
    · rw [hcwd]
      decide +kernel
    · decide +kernel

theorem vendored_call_loads_copy :
    isAbsolute World.vendored.cwd = true ∧ ∃ r ∈ Session.vendored.started, r.RunsEngine ∧
      ∃ request input base copy, r.input = some input ∧
        Json.write Json.wire request = .ok input ∧
        request.get? "eslintPath" = some (.text copy.path) ∧
        Package.BuiltFrom .vendored .null "/src" .vendor none base copy ∧
        (absolute r.cwd copy.path = absolute "/" copy.path ↔ isAbsolute base = true ∨
          (settle r.cwd.toList).up (ascents copy.path) =
            (settle "/".toList).up (ascents copy.path)) ∧
        (copy.origin = .localProject → isAbsolute base = true) := by
  have hdir : (Job.check "lib/..//src/a.js").fileDir .vendored = "/src" := by decide +kernel
  obtain ⟨later, hlater, hcalls⟩ := engine_call_loads_copy (w := .vendored) (by decide)
    (.ofEnv []) [] (Job.check "lib/..//src/a.js") .vendor
  have hstarted : Session.vendored.started = later := by
    rw [show Job.serve .vendored (Session.start (.ofEnv [])) [] = .start (.ofEnv []) from rfl]
      at hlater
    rw [Session.vendored, Job.serve_single, hlater]
    rfl
  obtain ⟨r, hr, hruns⟩ := vendored_runs_engine
  have hcall := hcalls r (hstarted ▸ hr) hruns
  rw [hdir] at hcall
  exact ⟨by decide, r, hr, hruns, hcall⟩

end LintHost
