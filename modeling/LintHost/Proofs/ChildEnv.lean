import LintHost.Proofs.EngineFile
import LintHost.Proofs.Lookups
import LintHost.Proofs.Nearest
import LintHost.Proofs.SharedCache
import LintHost.Settings.Check

/-!
# The environment of children

Children get the environment that the context was made with, except for the variable that tells
them where to look for modules. That one follows the context's search path, which is set whenever a
copy of the linter is looked for. This file shows that the two never part, whatever is done with the
context and however it ends.

* `Equipped`: a session whose environment follows its search path, as do those of its children;
* `Finder.Nearest`: the nearest of a name, read off the files;
* `ends_job_equipped`: a job's engine is given the modules directory nearest to the job's file;
* `Bench`: a context with the engines that were constructed from it, and all that can be done with
  them;
* `childEnv_entries`: the environment that settings describe;
* `child_environment`: what children get, after every sequence of calls.
-/

namespace LintHost

open LintHost.Action LintHost.Path

variable {w : World}

/-! ## 1. What is nearest -/

namespace Finder

/-- Asking one after the other comes to nothing if every answer is nothing. -/
theorem firstSome_eq_none {ε α β : Type} {ask : α → Except ε (Option β)} : ∀ {as : List α},
    firstSome ask as = .ok none → ∀ a ∈ as, ask a = .ok none
  | [], _, a, ha => by cases ha
  | b :: rest, h, a, ha => by
    rw [firstSome] at h
    split at h
    · rename_i hb
      rcases List.mem_cons.mp ha with rfl | ha
      · exact hb
      · exact firstSome_eq_none h a ha
    · rename_i hb
      exact absurd h hb

/-- It comes to something if that is the first answer that is not nothing. -/
theorem firstSome_eq_some {ε α β : Type} {ask : α → Except ε (Option β)} {b : β} {as : List α}
    (h : firstSome ask as = .ok (some b)) :
    ∃ before a after, as = before ++ a :: after ∧ (∀ c ∈ before, ask c = .ok none) ∧
      ask a = .ok (some b) := by
  induction as with
  | nil => cases h
  | cons a rest ih =>
    rw [firstSome] at h
    split at h
    · rename_i ha
      obtain ⟨before, c, after, hrest, hbefore, hc⟩ := ih h
      refine ⟨a :: before, c, after, by rw [hrest]; rfl, fun d hd => ?_, hc⟩
      rcases List.mem_cons.mp hd with rfl | hd
      · exact ha
      · exact hbefore d hd
    · exact ⟨[], a, rest, rfl, fun c hc => absurd hc List.not_mem_nil, h⟩

/-- The nearest of a name at a directory or above: it stands there, and none stands nearer. Or there
    is none at all. -/
def Nearest (w : World) (start name : String) : Option String → Prop
  | some path => ∃ nearer p farther, (place w.cwd start).ancestors = nearer ++ p :: farther ∧
      path = (p.entry name).text ∧ w.files.exists? w.cwd path = .ok true ∧
      ∀ q ∈ nearer, w.files.exists? w.cwd (q.entry name).text = .ok false
  | none => ∀ q ∈ (place w.cwd start).ancestors,
      w.files.exists? w.cwd (q.entry name).text = .ok false

/-- A directory shows a name if that stands in it. -/
theorem shows_single {files : FileTree} {cwd name path : String} {d : PartPath}
    (h : Shows files cwd [name] d (.ok (some path))) :
    path = (d.entry name).text ∧ files.exists? cwd (d.entry name).text = .ok true := by
  cases h with
  | @present before after other hnames _ h =>
    have hother : other ∈ [name] := by rw [hnames]; simp
    rw [← List.mem_singleton.mp hother]
    exact ⟨rfl, h⟩

/-- **What a search for one name finds is the nearest.** -/
theorem nearest_of_fresh (hcwd : isAbsolute w.cwd = true) {start name : String}
    {found : Option String} (h : fresh w start [name] = .ok found) : Nearest w start name found := by
  have hlacks {q : PartPath} (hq : inDirectory w.files w.cwd [name] q = .ok none) :
      w.files.exists? w.cwd (q.entry name).text = .ok false :=
    shows_none.mp (inDirectory_eq_iff.mp hq) name (List.mem_singleton_self name)
  rw [fresh_eq hcwd, search] at h
  cases found with
  | none => exact fun q hq => hlacks (firstSome_eq_none h q hq)
  | some path =>
    obtain ⟨nearer, p, farther, hall, hnearer, hp⟩ := firstSome_eq_some h
    obtain ⟨hpath, hexists⟩ := shows_single (inDirectory_eq_iff.mp hp)
    exact ⟨nearer, p, farther, hall, hpath, hpath ▸ hexists, fun q hq => hlacks (hnearer q hq)⟩

end Finder

/-! ## 2. Equipped sessions -/

/-- The child gets the base environment with the search path pointed somewhere. -/
def Child.Request.Gets (base : Entries String) (r : Child.Request) : Prop :=
  ∃ path : SearchPath, r.env = some (path.env base)

/-- What looking upwards has found is remembered rightly, the environment is the base environment
    with the search path pointed where the context says, and all children got such an environment. -/
structure Equipped (files : FileTree) (base : Entries String) (s : Session) : Prop where
  recalls : Recalls files s
  env : s.context.env = s.context.searchPath.env base
  children : ∀ r ∈ s.started, r.Gets base

section Equipped

variable {base : Entries String}

/-- Other children with such an environment may be started. -/
theorem Equipped.append {files : FileTree} {s : Session} (h : Equipped files base s)
    {children : List Child.Request} (hchildren : ∀ r ∈ children, r.Gets base)
    (log : List Log.Record) :
    Equipped files base { s with started := s.started ++ children, log := log } := by
  refine ⟨h.recalls, h.env, fun r' hr' => ?_⟩
  rcases List.mem_append.mp hr' with hr' | hr'
  · exact h.children r' hr'
  · exact hchildren r' hr'

theorem Equipped.add {files : FileTree} {s : Session} (h : Equipped files base s)
    {r : Child.Request} (hr : r.Gets base) (log : List Log.Record) :
    Equipped files base { s with started := s.started ++ [r], log := log } :=
  h.append (fun _ hr' => List.mem_singleton.mp hr' ▸ hr) log

theorem Equipped.pointedAt {files : FileTree} {s : Session} (h : Equipped files base s)
    (modulesDir : Option String) (log : List Log.Record) :
    Equipped files base { s with context := s.context.pointedAt modulesDir, log := log } := by
  rw [Context.pointedAt_eq h.env]
  exact ⟨h.recalls, rfl, h.children⟩

theorem searches_equipped (hcwd : isAbsolute w.cwd = true) :
    Searches w (Same (Equipped w.files base)) (Same (Equipped w.files base)) where
  fault := fun _ _ h => h
  sees := sees_same
  tell := fun _ _ _ => alike_of_keeps fun _ h => { h with }
  find := fun start names => alike_of_keeps fun s h => by
    obtain ⟨memo, hmemo⟩ := Finder.find_session (m := w) start names s
    have hright := (Finder.find_right hcwd h.recalls start names).2
    rw [hmemo] at hright ⊢
    exact { h with recalls := hright }

theorem locates_equipped (hcwd : isAbsolute w.cwd = true) :
    Locates w (Same (Equipped w.files base)) (Same (Equipped w.files base)) :=
  locates_of_frame (searches_equipped hcwd) (fun _ _ h => { h with }) fun s log _ h => by
    have hgets : ∀ r ∈ Child.launched w (Npm.request w s.context.env), r.Gets base := by
      intro r hr
      rw [Child.mem_launched hr]
      exact ⟨s.context.searchPath, congrArg some h.env⟩
    exact { h.append hgets log with }

theorem equipped_refresh (dir : Option String) :
    Alike w (Same (Equipped w.files base)) (Same (Equipped w.files base))
      (discard (Package.refreshSearchPath dir)) fun _ => Same (Equipped w.files base) :=
  alike_refresh (fun _ dir log h => h.pointedAt dir log) dir

theorem equipped_note (cwd : String) :
    Alike w (Same (Equipped w.files base)) (Same (Equipped w.files base))
      (modifyContext fun c => { c with cwd := some cwd }) fun _ => Same (Equipped w.files base) :=
  alike_of_keeps fun _ h => { h with }

/-! ## 3. The engine of a job -/

/-- The environment's modules directory is the one nearest to the files of a directory. -/
def NearModules (w : World) (fileDir : String) (env : Entries String) : Prop :=
  ∃ found, Finder.Nearest w fileDir "node_modules/eslint" found ∧
    env.get? "NODE_PATH" = some ((found.map directory).getD "")

/-- The child's modules directory is. -/
def Child.Request.FindsModules (w : World) (fileDir : String) (r : Child.Request) : Prop :=
  ∃ env, r.env = some env ∧ NearModules w fileDir env

/-- The session's search path points at the modules directory nearest to the files of a
    directory. -/
def PointsNear (w : World) (fileDir : String) (s : Session) : Prop :=
  ∃ found, Finder.Nearest w fileDir "node_modules/eslint" found ∧
    s.context.searchPath = .to (found.map directory)

/-- The session is equipped, and of the children started after `before` those that run an engine
    are as `Q` says. -/
def Attended (w : World) (base : Entries String) (before : List Child.Request)
    (Q : Child.Request → Prop) (s : Session) : Prop :=
  Equipped w.files base s ∧ Started before Q s

variable {before : List Child.Request} {Q : Child.Request → Prop}

theorem locates_attended (hcwd : isAbsolute w.cwd = true) :
    Locates w (Same (Attended w base before Q)) (Same (Attended w base before Q)) :=
  (locates_equipped hcwd).and locates_started

theorem locates_pointsNear (fileDir : String) :
    Locates w (Same (PointsNear w fileDir)) (Same (PointsNear w fileDir)) :=
  locates_of_frame (searches_of_frame fun _ _ _ h => h) (fun _ _ h => h) fun _ _ _ h => h

/-- **Looking for a copy** points the search path at the modules directory that is nearest. -/
theorem ends_forDirectory_near (hcwd : isAbsolute w.cwd = true) (fileDir : String)
    (policy : Policy) (project : Option String) :
    Ends w (Attended w base before Q) (Package.forDirectory fileDir policy project)
      (fun _ s => Attended w base before Q s ∧ PointsNear w fileDir s)
      (Attended w base before Q) := by
  have hattended : Locates w (Same (Attended w base before Q)) (Same (Attended w base before Q)) :=
    locates_attended hcwd
  have hfind : Ends w (Attended w base before Q) (Finder.find fileDir ["node_modules/eslint"])
      (fun found s => Attended w base before Q s ∧
        Finder.Nearest w fileDir "node_modules/eslint" found) (Attended w base before Q) := by
    refine (hattended.find _ _).keeps.result fun s found hs hrun => ?_
    rw [(Finder.find_right hcwd hs.1.recalls fileDir _).1] at hrun
    exact Finder.nearest_of_fresh hcwd hrun
  have hload (dir : Option String) :=
    ((hattended.and (locates_pointsNear fileDir)).load dir policy project).keeps.mono
      (fun _ h => h) (fun _ _ h => h) fun _ h => h.1
  rw [Package.forDirectory]
  refine hfind.bind fun found => .assume fun hfound => ⟨fun s hs => ?_⟩
  obtain ⟨log, hrefresh⟩ := Package.refresh_run (m := w) (found.map directory) s
  rw [run_bind_ok hrefresh]
  have hpath : (s.context.pointedAt (found.map directory)).searchPath =
      .to (found.map directory) := by
    rw [Context.pointedAt_eq hs.1.env]
  exact (hload _).outcome _ ⟨⟨hs.1.pointedAt _ log, hs.2⟩, found, hfound, hpath⟩

/-- **A job's engine finds its modules near the job's file**, and the session stays equipped. -/
theorem ends_job_equipped (hcwd : isAbsolute w.cwd = true) (job : Job) (policy : Policy) :
    Ends w (Attended w base before (Child.Request.FindsModules w (job.fileDir w)))
      (job.run policy)
      (fun _ => Attended w base before (Child.Request.FindsModules w (job.fileDir w)))
      (Attended w base before (Child.Request.FindsModules w (job.fileDir w))) := by
  -- What is true of the environment once the search path points at the nearest modules directory.
  let N (env : Entries String) : Prop :=
    (∃ path : SearchPath, env = path.env base) ∧ NearModules w (job.fileDir w) env
  let P (s : Session) : Prop :=
    Attended w base before (Child.Request.FindsModules w (job.fileDir w)) s ∧
      PointsNear w (job.fileDir w) s
  have hsearches : Searches w (Same P) (Same P) :=
    ((locates_attended hcwd).and (locates_pointsNear _)).toSearches
  refine (ends_job_settled (B := fun _ => True) (N := N) hsearches
    (fun s cwd h => ⟨⟨{ h.1.1 with }, h.1.2⟩, h.2⟩) (fun s h => h.1) (fun _ s h => h) (fun s h => ?_)
    policy ((ends_forDirectory_near hcwd _ policy job.projectPath).mono (fun _ h => h)
      (fun _ _ h => ⟨h, trivial⟩) fun _ h => h)
    fun resolved s r log env _ _ h hr henv hN => ?_).mono (fun _ h => h) (fun _ _ h => h.1.1)
      fun _ h => h
  · obtain ⟨⟨hequipped, -⟩, found, hfound, hpath⟩ := h
    refine ⟨⟨_, hequipped.env⟩, found, hfound, ?_⟩
    rw [hequipped.env, hpath]
    exact SearchPath.env_nodePath base _
  · obtain ⟨⟨path, hpath⟩, hnear⟩ := hN
    have hgets : r.Gets base := ⟨path, by rw [henv, hpath]⟩
    exact ⟨⟨h.1.1.add hgets log, h.1.2.add rfl fun _ => ⟨env, henv, hnear⟩⟩, h.2⟩

end Equipped

/-! ## 4. All that can be done with a context -/

/-- A context's session and the engines that were constructed in it. -/
structure Bench where
  session : Session
  engines : List Engine

/-- What can be done with a context and the engines that were constructed in it, which are named by
    their places. -/
inductive Bench.Call
  | operation (operation : Operation)
  | query (query : Query)
  | refresh (modulesDir : Option String)
  | construct (adapter : Adapter) (number : Nat) (options : Engine.Options)
  | lint (place : Nat) (adapter : Adapter) (text file : String)
  | rules (place : Nat) (adapter : Adapter)

namespace Bench

/-- A context with which nothing has been done, and what its cache knows of other things than
    looking upwards. -/
def start (origin : Context) (cache : Cache) : Bench :=
  ⟨⟨origin, { cache with finder := [] }, [], []⟩, []⟩

/-- What an action leaves. -/
def leave {α : Type} (bench : Bench) (w : World) (x : Action α) : Bench :=
  { bench with session := (x.run w bench.session).2 }

/-- What a call leaves, in the world of the moment. -/
def after (bench : Bench) : World × Call → Bench
  | (w, .operation operation) => bench.leave w operation.perform
  | (w, .query query) => bench.leave w query.perform
  | (w, .refresh modulesDir) => bench.leave w (discard (Package.refreshSearchPath modulesDir))
  | (w, .construct adapter number options) =>
    match (adapter.construct number options).run w bench.session with
    | (.ok engine, s) => ⟨s, bench.engines ++ [engine]⟩
    | (.error _, s) => { bench with session := s }
  | (w, .lint place adapter text file) =>
    match bench.engines[place]? with
    | some engine => bench.leave w (adapter.lint engine text file)
    | none => bench
  | (w, .rules place adapter) =>
    match bench.engines[place]? with
    | some engine => bench.leave w (adapter.rules engine)
    | none => bench

/-- What calls leave, of which each may have failed. -/
def run (bench : Bench) (steps : List (World × Call)) : Bench := steps.foldl after bench

/-- The session is equipped, and the engines have the base environment with the search path pointed
    somewhere. -/
structure Sound (files : FileTree) (base : Entries String) (bench : Bench) : Prop where
  session : Equipped files base bench.session
  engines : ∀ engine ∈ bench.engines, ∃ path : SearchPath, engine.env = path.env base

variable {files : FileTree} {base : Entries String}

theorem sound_start {origin : Context} (h : origin.searchPath = .unset) (cache : Cache) :
    Sound files origin.env (start origin cache) where
  session := by
    refine ⟨FinderMemo.right_nil, ?_, fun r hr => (nomatch hr)⟩
    show origin.env = origin.searchPath.env origin.env
    rw [h]
    rfl
  engines := fun _ h => nomatch h

theorem Sound.leave {α : Type} {bench : Bench} (h : bench.Sound w.files base) {x : Action α}
    (hx : Ends w (Equipped w.files base) x (fun _ => Equipped w.files base)
      (Equipped w.files base)) : (bench.leave w x).Sound w.files base :=
  ⟨hx.session h.session, h.engines⟩

/-- **Calling an engine** keeps the session equipped. -/
theorem ends_engine (hcwd : isAbsolute w.cwd = true) {engine : Engine}
    (hengine : ∃ path : SearchPath, engine.env = path.env base) (mode : Engine.Mode)
    (text : String) (file : Option String) :
    Ends w (Equipped w.files base) (engine.call mode text file)
      (fun _ => Equipped w.files base) (Equipped w.files base) := by
  obtain ⟨path, hpath⟩ := hengine
  refine ends_call (searches_equipped hcwd) fun s r log hs hr => hs.add ⟨path, ?_⟩ log
  rw [hr.env, hpath]

/-- **One call** leaves a sound bench. -/
theorem Sound.after {bench : Bench} (hcwd : isAbsolute w.cwd = true)
    (h : bench.Sound w.files base) (call : Call) :
    (bench.after (w, call)).Sound w.files base := by
  have hlocates : Locates w (Same (Equipped w.files base)) (Same (Equipped w.files base)) :=
    locates_equipped hcwd
  cases call with
  | operation operation =>
    have hjob (task : Job) (policy : Policy) : Alike w (Same (Equipped w.files base))
        (Same (Equipped w.files base)) (task.run policy) fun _ => Same (Equipped w.files base) :=
      alike_of_keeps fun s hs =>
        ((ends_job_equipped hcwd task policy).session ⟨hs, started_self _ s⟩).1
    exact h.leave (alike_perform_of_job hlocates hjob equipped_refresh equipped_note
      operation).keeps
  | query query => exact h.leave (alike_query hlocates equipped_refresh equipped_note query).keeps
  | refresh modulesDir => exact h.leave (equipped_refresh modulesDir).keeps
  | construct adapter number options =>
    refine ⟨h.session, fun engine hengine => ?_⟩
    rcases List.mem_append.mp hengine with hengine | hengine
    · exact h.engines engine hengine
    · rw [List.mem_singleton.mp hengine]
      exact ⟨bench.session.context.searchPath, h.session.env⟩
  | lint place adapter text file =>
    rw [Bench.after]
    split
    · rename_i engine hplace
      have hengine := h.engines engine (List.mem_of_getElem? hplace)
      refine h.leave ?_
      rw [Adapter.lint]
      exact (ends_engine hcwd hengine _ _ _).bind fun _ => .pure fun _ hs => hs
    · exact h
  | rules place adapter =>
    rw [Bench.after]
    split
    · rename_i engine hplace
      have hengine := h.engines engine (List.mem_of_getElem? hplace)
      refine h.leave ?_
      unfold Adapter.rules
      split
      · exact .pure fun _ hs => hs
      · exact (ends_engine hcwd hengine _ _ _).bind fun _ => .pure fun _ hs => hs
    · exact h

/-- **All calls** do. -/
theorem Sound.run {bench : Bench} (h : bench.Sound files base) (steps : List (World × Call))
    (hsteps : ∀ step ∈ steps, step.1.files = files ∧ isAbsolute step.1.cwd = true) :
    (bench.run steps).Sound files base := by
  induction steps generalizing bench with
  | nil => exact h
  | cons step rest ih =>
    obtain ⟨hfiles, hcwd⟩ := hsteps step List.mem_cons_self
    have hafter : (bench.after step).Sound files base := by
      rw [← hfiles] at h ⊢
      exact h.after hcwd step.2
    exact ih hafter fun step' hstep' => hsteps step' (List.mem_cons_of_mem _ hstep')

end Bench

/-! ## 5. The environment that settings describe -/

/-- Directories in front of a search path. -/
def NodeTools.extended (entries : List String) (old : String) : String :=
  if old = "" then Text.join ":" entries else Text.join ":" entries ++ ":" ++ old

/-- Without a modules directory, children get the environment with the directories in front of its
    search path, if there are any. -/
theorem NodeTools.childEnv_entries (env : Entries String) (entries : List String) :
    (∀ name, name ≠ "PATH" → (childEnv env none entries).get? name = env.get? name) ∧
    (childEnv env none entries).get? "PATH" =
      if entries = [] then env.get? "PATH"
      else some (extended entries ((env.get? "PATH").getD "")) := by
  unfold childEnv
  cases entries with
  | nil => exact ⟨fun _ _ => rfl, rfl⟩
  | cons entry rest =>
    constructor
    · intro name hname
      exact Entries.get?_put_ne hname _ env
    · rw [if_neg (List.cons_ne_nil entry rest)]
      exact Entries.get?_put_self "PATH" _ env

theorem Settings.context_eq_ok {settings : Settings} {environ : Entries String} {origin : Context}
    (h : settings.context environ = .ok origin) : ∃ entries,
      settings.pathEntries = .ok entries ∧
      origin.env = NodeTools.childEnv environ none entries ∧ origin.searchPath = .unset := by
  obtain ⟨entries, hentries, h⟩ := Except.bind_eq_ok h
  obtain rfl := Except.ok.inj h
  exact ⟨entries, hentries, rfl, rfl⟩

/-! ## 6. What children get -/

/-- **The environment of children.** A context is made from settings, or in some other way that
    leaves its search path unset, and anything may be done with it, while the files stay the same.
    Then, however that ended,
    * its environment names the modules directory that its search path was set to last;
    * every child got the context's first environment, but for the modules directory;
    * a further job's engines get the modules directory that is nearest to the job's file, or an
      empty one if there is none;
    * and for settings the first environment is that of the process, with the settings' directories
      in front of its search path, if there are any. -/
theorem child_environment (files : FileTree) (origin : Context)
    (horigin : (∃ settings environ, Settings.context settings environ = .ok origin) ∨
      origin.searchPath = .unset)
    (cache : Cache) (steps : List (World × Bench.Call))
    (hsteps : ∀ step ∈ steps, step.1.files = files ∧ isAbsolute step.1.cwd = true) :
    let s := ((Bench.start origin cache).run steps).session
    (∀ dir, s.context.searchPath = .to dir →
      s.context.env.get? "NODE_PATH" = some (dir.getD "")) ∧
    (∀ r ∈ s.started, ∃ env, r.env = some env ∧
      ∀ name, name ≠ "NODE_PATH" → env.get? name = origin.env.get? name) ∧
    (∀ (w : World) (job : Job) policy, w.files = files → isAbsolute w.cwd = true →
      ∃ later, ((job.run policy).run w s).2.started = s.started ++ later ∧
        ∀ r ∈ later, r.RunsEngine → ∃ env found, r.env = some env ∧
          Finder.Nearest w (job.fileDir w) "node_modules/eslint" found ∧
          env.get? "NODE_PATH" = some ((found.map directory).getD "")) ∧
    (∀ settings environ, Settings.context settings environ = .ok origin →
      ∃ entries, settings.pathEntries = .ok entries ∧
        (∀ name, name ≠ "PATH" → origin.env.get? name = environ.get? name) ∧
        origin.env.get? "PATH" = if entries = [] then environ.get? "PATH"
          else some (NodeTools.extended entries ((environ.get? "PATH").getD ""))) := by
  intro s
  have hunset : origin.searchPath = .unset := by
    rcases horigin with ⟨settings, environ, h⟩ | h
    · obtain ⟨entries, -, -, hunset⟩ := Settings.context_eq_ok h
      exact hunset
    · exact h
  have hstart : (Bench.start origin cache).Sound files origin.env := Bench.sound_start hunset cache
  have hsound := hstart.run steps hsteps
  refine ⟨fun dir hdir => ?_, fun r hr => ?_, fun w job policy hfiles hcwd => ?_,
    fun settings environ h => ?_⟩
  · have henv : s.context.env = (SearchPath.to dir).env origin.env := hdir ▸ hsound.session.env
    rw [henv]
    exact SearchPath.env_nodePath origin.env dir
  · obtain ⟨path, hpath⟩ := hsound.session.children r hr
    exact ⟨_, hpath, fun name hname => SearchPath.env_other origin.env hname path⟩
  · have hequipped : Equipped w.files origin.env s := hfiles ▸ hsound.session
    obtain ⟨later, hlater, hall⟩ :=
      ((ends_job_equipped hcwd job policy).session ⟨hequipped, started_self _ s⟩).2
    refine ⟨later, hlater, fun r hr hruns => ?_⟩
    obtain ⟨env, henv, found, hfound, hnode⟩ := hall r hr hruns
    exact ⟨env, found, henv, hfound, hnode⟩
  · obtain ⟨entries, hentries, henv, -⟩ := Settings.context_eq_ok h
    rw [henv]
    exact ⟨entries, hentries, NodeTools.childEnv_entries environ entries⟩

/-- A machine with a copy of the linter in the project `/p` and one among the bundled tools, whose
    children answer with an empty object. -/
def World.twoProjects : World :=
  let withCopy (files : FileTree) (directory : Location) : FileTree :=
    (files.add (directory ++ ["package.json"]) (.file "\x7b\x7d".toUTF8 true true)).add
      (directory ++ ["index.js"]) (.file .empty true true)
  { World.bare with
    files := withCopy (withCopy .empty ["p", "node_modules", "eslint"])
      ["tools", "node_modules", "eslint"]
    env := [("PATH", "/usr/bin")]
    answer := fun _ _ => .finished 0 "\x7b\x7d" "" }

/-- The settings of someone whose program lies in `/opt/node/bin`. -/
def Settings.withNode : Settings := Settings.standard.put .extraPaths (.text "/opt/node/bin")

/-- The context that they describe on that machine. -/
def Context.withNode : Context :=
  { Context.ofEnv [("PATH", "/opt/node/bin:/usr/bin")] with timeout := .int 60 }

/-- On that machine, the package manager is asked for its prefix and then the copy for `/p` is
    looked for. -/
def Bench.firstProject : List (World × Bench.Call) :=
  [(.twoProjects, .operation .nodePrefix),
    (.twoProjects, .operation (.forDirectory "/p" .standard none))]

/-- The session after that. -/
def Session.afterFirst : Session :=
  ((Bench.start .withNode .empty).run Bench.firstProject).session

/-- The modules directory that a child was given. -/
def Child.Request.nodePath? (r : Child.Request) : Option String := r.env.bind (·.get? "NODE_PATH")

/-- After `/p`, a job in `/q` that uses the bundled copy does not get the modules directory of
    `/p`. -/
theorem two_projects_environment :
    Settings.withNode.context World.twoProjects.env = .ok .withNode ∧
    (∀ step ∈ Bench.firstProject, step.1.files = World.twoProjects.files ∧
      isAbsolute step.1.cwd = true) ∧
    Session.afterFirst.context.env.get? "NODE_PATH" = some "/p/node_modules" ∧
    Session.afterFirst.started.length = 1 ∧
    (∀ r ∈ Session.afterFirst.started, ∃ env, r.env = some env ∧
      env.get? "PATH" = some "/opt/node/bin:/usr/bin") ∧
    ∃ later, (((Job.check "/q/b.js").run .standard).run World.twoProjects .afterFirst).2.started =
        Session.afterFirst.started ++ later ∧
      later.map Child.Request.nodePath? = [some ""] ∧
      ∀ r ∈ later, r.RunsEngine → ∃ env found, r.env = some env ∧
        Finder.Nearest .twoProjects ((Job.check "/q/b.js").fileDir .twoProjects)
          "node_modules/eslint" found ∧
        env.get? "NODE_PATH" = some ((found.map directory).getD "") := by
  have hsettings : Settings.withNode.context World.twoProjects.env = .ok .withNode := rfl
  have hsteps : ∀ step ∈ Bench.firstProject, step.1.files = World.twoProjects.files ∧
      isAbsolute step.1.cwd = true := by
    intro step hstep
    rcases List.mem_cons.mp hstep with rfl | hstep
    · exact ⟨rfl, by decide⟩
    · rw [List.mem_singleton.mp hstep]
      exact ⟨rfl, by decide⟩
  obtain ⟨hpath, hchildren, hjob, -⟩ := child_environment World.twoProjects.files .withNode
    (.inl ⟨_, _, hsettings⟩) .empty Bench.firstProject hsteps
  have hnode := hpath (some "/p/node_modules")
  have hnext := hjob .twoProjects (.check "/q/b.js") .standard rfl (by decide)
  rw [← Session.afterFirst] at hnode hchildren hnext
  have hafter : (Session.afterFirst.context.searchPath, Session.afterFirst.started.length) =
      (.to (some "/p/node_modules"), 1) := by decide +kernel
  obtain ⟨hfirst, hone⟩ := Prod.mk.inj hafter
  refine ⟨hsettings, hsteps, hnode hfirst, hone, fun r hr => ?_, ?_⟩
  · obtain ⟨env, henv, hsame⟩ := hchildren r hr
    exact ⟨env, henv, (hsame "PATH" (by decide)).trans rfl⟩
  · obtain ⟨later, hlater, hall⟩ := hnext
    refine ⟨later, hlater, ?_, hall⟩
    have hlast : ((((Job.check "/q/b.js").run .standard).run World.twoProjects
        .afterFirst).2.started.drop 1).map Child.Request.nodePath? = [some ""] := by decide +kernel
    have hdrop : (Session.afterFirst.started ++ later).drop 1 = later := by
      rw [← hone]
      exact List.drop_left
    rw [hlater, hdrop] at hlast
    exact hlast

end LintHost
