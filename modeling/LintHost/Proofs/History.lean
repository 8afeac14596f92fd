import LintHost.Proofs.Memo

/-!
# Jobs do not notice the jobs before them

A context serves one job after the other, and each leaves something behind: the search path of
children, the engine's working directory, what was remembered. This file shows what a further job
notices of that: the remembered prefix, and nothing else.

* `Context.After`: what jobs make of a context, whatever they were and however they ended;
* `kept_serve`: what holds of every session that has served jobs;
* `job_after_history`: a job ends on a session with a history as on one without.
-/

namespace LintHost

open LintHost.Action

variable {w : World}

/-! ## 1. What jobs make of a context -/

/-- What jobs can make of a context: they point its search path elsewhere and note a working
    directory. -/
structure Context.After (origin c : Context) : Prop where
  nodeToolsDir : c.nodeToolsDir = origin.nodeToolsDir
  nodeExecutable : c.nodeExecutable = origin.nodeExecutable
  timeout : c.timeout = origin.timeout
  env : c.env = c.searchPath.env origin.env

theorem Context.After.refl {origin : Context} (h : origin.searchPath = .unset) :
    origin.After origin :=
  ⟨rfl, rfl, rfl, by rw [h]; rfl⟩

theorem Context.After.pointedAt {origin c : Context} (h : origin.After c)
    (modulesDir : Option String) :
    c.pointedAt modulesDir = { c with
      searchPath := .to modulesDir, env := (SearchPath.to modulesDir).env origin.env } :=
  Context.pointedAt_eq h.env modulesDir

/-! ## 2. One job on two sessions -/

/-- Both contexts come from one by serving jobs. -/
def BothAfter (origin c d : Context) : Prop := origin.After c ∧ origin.After d

/-- Both besides point their search path at one place, so that only the working directory may
    differ. -/
def BothPointed (origin c d : Context) : Prop :=
  origin.After c ∧ (∃ dir, c.searchPath = .to dir) ∧ d = { c with cwd := d.cwd }

/-- The contexts are equal. -/
def BothReady (origin c d : Context) : Prop :=
  origin.After c ∧ (∃ dir, c.searchPath = .to dir) ∧ c = d

theorem BothReady.pointed {origin c d : Context} (h : BothReady origin c d) :
    BothPointed origin c d := by
  obtain ⟨hc, hdir, rfl⟩ := h
  exact ⟨hc, hdir, rfl⟩

theorem BothPointed.after {origin c d : Context} (h : BothPointed origin c d) :
    BothAfter origin c d := by
  obtain ⟨hc, -, hd⟩ := h
  refine ⟨hc, ?_⟩
  rw [hd]
  exact ⟨hc.nodeToolsDir, hc.nodeExecutable, hc.timeout, hc.env⟩

theorem BothPointed.env {origin c d : Context} (h : BothPointed origin c d) :
    c.env = d.env ∧ ∃ dir, d.env = (SearchPath.to dir).env origin.env := by
  obtain ⟨hc, ⟨dir, hdir⟩, hd⟩ := h
  have he : d.env = c.env := by rw [hd]
  refine ⟨he.symm, dir, ?_⟩
  rw [he, hc.env, hdir]

section Job

variable {k : Comparison} {origin : Context}

theorem tied_refresh (modulesDir : Option String) :
    Alike w (Tied w k (BothAfter origin)) (Tied w k (BothAfter origin))
      (discard (Package.refreshSearchPath modulesDir)) fun _ => Tied w k (BothPointed origin) := by
  refine ⟨fun s t h => ?_⟩
  obtain ⟨hs, ht⟩ := h.contexts
  obtain ⟨log, hrun⟩ := Package.refresh_run (m := w) modulesDir s
  obtain ⟨log', hrun'⟩ := Package.refresh_run (m := w) modulesDir t
  rw [hs.pointedAt] at hrun
  rw [ht.pointedAt] at hrun'
  rw [hrun, hrun']
  refine ⟨rfl, { h with contexts := ⟨?_, ⟨modulesDir, rfl⟩, ?_⟩ }⟩
  · exact ⟨hs.nodeToolsDir, hs.nodeExecutable, hs.timeout, rfl⟩
  · simp only [hs.nodeToolsDir, hs.nodeExecutable, hs.timeout, ht.nodeToolsDir,
      ht.nodeExecutable, ht.timeout]

theorem tied_note (cwd : String) :
    Alike w (Tied w k (BothAfter origin)) (Tied w k (BothPointed origin))
      (modifyContext fun c => { c with cwd := some cwd }) fun _ => Tied w k (BothReady origin) := by
  refine .modifyContext fun s t h => { h with contexts := ?_ }
  obtain ⟨hc, hdir, hd⟩ := h.contexts
  refine ⟨⟨hc.nodeToolsDir, hc.nodeExecutable, hc.timeout, hc.env⟩, hdir, ?_⟩
  dsimp only
  rw [hd]

/-- **One job on two sessions** that serve one origin, where the package manager answers, wherever
    the search path points, what only the first session remembers. -/
theorem tied_job (hw : w.Memoryless) (htools : origin.nodeToolsDir = k.tools)
    (hasked : ∀ dir found,
      Npm.asked w ((SearchPath.to dir).env origin.env) = .ok found → k.prefixes found)
    (hahead : ∀ dir known, k.ahead = some known →
      Npm.asked w ((SearchPath.to dir).env origin.env) = .ok known)
    (job : Job) (policy : Policy) :
    Alike w (Tied w k (BothAfter origin)) (Tied w k (BothAfter origin)) (job.run policy)
      fun _ => Tied w k (BothReady origin) := by
  have hlocates : Locates w (Tied w k (BothAfter origin)) (Tied w k (BothPointed origin)) := by
    refine tied_locates (fun _ _ h => h.after) hw (fun _ _ h => ?_) (fun _ _ h => h.env.1)
      (fun _ _ found h => ?_) (fun _ _ known h => ?_)
    · exact ⟨h.after.1.nodeToolsDir.trans htools, h.after.2.nodeToolsDir.trans htools⟩
    · obtain ⟨-, dir, hd⟩ := h.env
      rw [hd]
      exact hasked dir found
    · obtain ⟨-, dir, hd⟩ := h.env
      rw [hd]
      exact hahead dir known
  exact alike_job (tied_searches fun _ _ h => h) hlocates
    (tied_calls (fun _ _ h => h.pointed.after) hw fun _ _ h => h.2.2) tied_refresh tied_note job
    policy

end Job

/-! ## 3. Histories -/

/-- A prefix that the package manager answers while it is asked for a context's jobs. -/
def Npm.Answered (w : World) (origin : Context) (found : String) : Prop :=
  ∃ dir, asked w ((SearchPath.to dir).env origin.env) = .ok found

/-- What the package manager answers does not depend on the search path of children. -/
def Npm.Steady (w : World) (base : Entries String) : Prop :=
  ∀ dir dir' found, asked w (base.put "NODE_PATH" dir) = .ok found →
    asked w (base.put "NODE_PATH" dir') = .ok found

/-- **What holds of every session** that has served jobs: its context is the original one but for
    search path and working directory, and it remembers nothing wrong. -/
structure Kept (w : World) (origin : Context) (s : Session) : Prop where
  context : origin.After s.context
  cache : s.cache.Coherent w origin.nodeToolsDir
  nodePrefix : ∀ known, s.cache.nodePrefix = some known → Npm.Answered w origin known

theorem kept_start {origin : Context} (h : origin.searchPath = .unset) :
    Kept w origin (Session.start origin) :=
  ⟨.refl h, Cache.coherent_empty _, fun _ h => nomatch h⟩

/-- A job on two kept sessions, of which the first may remember a prefix that the second would be
    told. -/
theorem Kept.together {origin : Context} {s t : Session} (hw : w.Memoryless)
    (hs : Kept w origin s) (ht : Kept w origin t) {ahead : Option String}
    (h : s.cache.nodePrefix = t.cache.nodePrefix.or ahead)
    (hahead : ∀ dir known, ahead = some known →
      Npm.asked w ((SearchPath.to dir).env origin.env) = .ok known)
    (job : Job) (policy : Policy) :
    ((job.run policy).run w s).1 = ((job.run policy).run w t).1 ∧
      Tied w ⟨origin.nodeToolsDir, Npm.Answered w origin, ahead, s.started, t.started⟩
        (BothAfter origin) ((job.run policy).run w s).2 ((job.run policy).run w t).2 := by
  let k : Comparison :=
    ⟨origin.nodeToolsDir, Npm.Answered w origin, ahead, s.started, t.started⟩
  have htied : Tied w k (BothAfter origin) s t := {
    contexts := ⟨hs.context, ht.context⟩
    left := hs.cache
    right := ht.cache
    ahead := h
    prefixes := ht.nodePrefix
    started := ⟨[], (List.append_nil _).symm, by rw [Npm.spared_nil, List.append_nil]⟩ }
  have hasked (dir : Option String) (found : String)
      (hfound : Npm.asked w ((SearchPath.to dir).env origin.env) = .ok found) :
      k.prefixes found := ⟨dir, hfound⟩
  have hmatched := (tied_job hw rfl hasked hahead job policy).matched s t htied
  exact ⟨hmatched.result, hmatched.sessions fun _ _ _ h => h.mono fun hc => hc.pointed.after⟩

/-- A job keeps what holds, however it ends: it is compared with itself. -/
theorem Kept.job {origin : Context} {s : Session} (hw : w.Memoryless) (h : Kept w origin s)
    (job : Job) (policy : Policy) : Kept w origin ((job.run policy).run w s).2 := by
  obtain ⟨-, hafter⟩ := h.together hw h (Option.or_none ..).symm (fun _ _ e => nomatch e) job policy
  exact ⟨hafter.contexts.1, hafter.left, hafter.prefixes⟩

theorem kept_serve {origin : Context} (hw : w.Memoryless) : ∀ (jobs : List (Job × Policy))
    {s : Session}, Kept w origin s → Kept w origin (Job.serve w s jobs)
  | [], _, h => h
  | (job, policy) :: jobs, _, h => kept_serve hw jobs (h.job hw job policy)

/-- The same, where the second session has started nothing yet. -/
theorem Kept.compared {origin : Context} {s t : Session} (hw : w.Memoryless)
    (hs : Kept w origin s) (ht : Kept w origin t) (hnew : t.started = []) {ahead : Option String}
    (h : s.cache.nodePrefix = t.cache.nodePrefix.or ahead)
    (hahead : ∀ dir known, ahead = some known →
      Npm.asked w ((SearchPath.to dir).env origin.env) = .ok known)
    (job : Job) (policy : Policy) :
    ((job.run policy).run w s).1 = ((job.run policy).run w t).1 ∧
      ((job.run policy).run w s).2.started =
        s.started ++ Npm.spared w ahead ((job.run policy).run w t).2.started := by
  obtain ⟨hresult, hafter⟩ := hs.together hw ht h hahead job policy
  obtain ⟨later, hright, hleft⟩ := hafter.started
  have hlater : ((job.run policy).run w t).2.started = later := by
    rw [hright, hnew, List.nil_append]
  refine ⟨hresult, ?_⟩
  rw [hlater]
  exact hleft

/-- **A job after any history.** A session that has served jobs and a new one that remembers the
    same prefix end a job alike and start the same children for it. Where the package manager's
    answer does not depend on the search path of children, a new session that remembers nothing
    does so too, only that it may still have to ask for the prefix. -/
theorem job_after_history {origin : Context} (hw : w.Memoryless)
    (hunset : origin.searchPath = .unset) (history : List (Job × Policy)) (job : Job)
    (policy : Policy) :
    let used := Job.serve w (Session.start origin) history
    let known := used.cache.nodePrefix
    let here := (job.run policy).run w used
    let primed := (job.run policy).run w
      { Session.start origin with cache := { Cache.empty with nodePrefix := known } }
    let anew := (job.run policy).run w (Session.start origin)
    (here.1 = primed.1 ∧ here.2.started = used.started ++ primed.2.started) ∧
      (Npm.Steady w origin.env →
        here.1 = anew.1 ∧ here.2.started = used.started ++ Npm.spared w known anew.2.started) := by
  intro used known here primed anew
  have hstart := kept_start (w := w) hunset
  have hused : Kept w origin used := kept_serve hw history hstart
  constructor
  · have hprimed : Kept w origin
        { Session.start origin with cache := { Cache.empty with nodePrefix := known } } :=
      ⟨hstart.context, hstart.cache.withPrefix known, hused.nodePrefix⟩
    exact hused.compared hw hprimed rfl (Option.or_none ..).symm (fun _ _ e => nomatch e) job policy
  · intro hsteady
    have hahead (dir : Option String) (known' : String) (hknown : known = some known') :
        Npm.asked w ((SearchPath.to dir).env origin.env) = .ok known' := by
      obtain ⟨dir', hanswered⟩ := hused.nodePrefix known' hknown
      exact hsteady _ _ known' hanswered
    exact hused.compared hw hstart rfl (Option.none_or ..).symm hahead job policy

/-! ## 4. The remembered prefix is noticed -/

/-- A machine with a linter in the modules directory of `/a` only. Its package manager answers with
    a prefix that may depend on the search path of children. -/
def Npm.machine (under : Option String → String) : World where
  host := ⟨"linux", "3.11.2", true, "/tools", "/.env", ⟨"/root", []⟩⟩
  files := FileTree.empty.add ["a", "node_modules", "eslint"] (.directory true)
  env := []
  cwd := "/"
  answer := fun _ request => .finished 0 (under (request.env.bind (Entries.get? "NODE_PATH"))) ""
  stamp := fun _ _ => ⟨"", ""⟩

/-- The package manager answers `/p` or `/q`: is there a modules directory on the search path? -/
def Npm.wavering : World := machine fun path => if path = some "" then "/q" else "/p"

/-- The package manager always answers `/p`. -/
def Npm.constant : World := machine fun _ => "/p"

/-- A job that asks how the linter for a file is resolved. -/
def Job.question (path : String) : Job := ⟨"debug", "", path, none, [], []⟩

/-- The policy of someone who wants the global copy. -/
def Policy.global : Policy := { Policy.standard with useGlobal := true }

/-- Where a package was missed. -/
def missed? {α : Type} : Except Fault α → Option String
  | .error (.reported (.package path _ _)) => some path
  | _ => none

/-- Where the answer depends on the search path, the prefix remembered from a job in `/a` is used
    for a job in `/b`, though a new session would be told another one. -/
theorem wavering_prefix_noticed :
    let origin := Context.ofEnv []
    let used := Job.serve Npm.wavering (Session.start origin) [(.question "/a/x.js", .global)]
    let job := (Job.question "/b/x.js").run .global
    Npm.wavering.Memoryless ∧ origin.searchPath = .unset ∧
      (job.run Npm.wavering used).1 ≠ (job.run Npm.wavering (Session.start origin)).1 := by
  intro origin used job
  refine ⟨fun _ _ => rfl, rfl, fun h => ?_⟩
  have hused : missed? (job.run Npm.wavering used).1 = some "/p/lib/node_modules/eslint" := by
    decide +kernel
  have hanew : missed? (job.run Npm.wavering (Session.start origin)).1 =
      some "/q/lib/node_modules/eslint" := by
    decide +kernel
  rw [h, hanew] at hused
  exact absurd hused (by decide)

theorem Npm.asked_constant (env : Entries String) : asked constant env = .ok "/p" := by
  have hreply : Child.reply constant [] (request constant env) =
      Child.Result.ofOutcome (request constant env) (.finished 0 "/p" "") :=
    Child.reply_rehearsed rfl [] _
  have hsniff : Child.sniff "/p" = .ok none := rfl
  have htrim : Text.trim "/p" = "/p" := by decide +kernel
  rw [asked, told, hreply, Child.Result.ofOutcome, hsniff]
  simp [bind, Except.bind, pure, Except.pure, reading, prefixOf, htrim]

/-- Where the answer is always the same, a job in `/b` ends after one in `/a` as it would have
    ended first, without asking again. -/
theorem job_after_history_constant :
    let origin := Context.ofEnv []
    let used := Job.serve Npm.constant (Session.start origin) [(.question "/a/x.js", .global)]
    let here := ((Job.question "/b/x.js").run .global).run Npm.constant used
    let anew := ((Job.question "/b/x.js").run .global).run Npm.constant (Session.start origin)
    Npm.constant.Memoryless ∧ origin.searchPath = .unset ∧ Npm.Steady Npm.constant origin.env ∧
      here.1 = anew.1 ∧
      here.2.started =
        used.started ++ Npm.spared Npm.constant used.cache.nodePrefix anew.2.started := by
  have hsteady : Npm.Steady Npm.constant [] := by
    intro dir dir' found h
    rw [Npm.asked_constant] at h ⊢
    exact h
  exact ⟨fun _ _ => rfl, rfl, hsteady, (job_after_history (fun _ _ => rfl) rfl
    [(.question "/a/x.js", .global)] (.question "/b/x.js") .global).2 hsteady⟩

end LintHost
