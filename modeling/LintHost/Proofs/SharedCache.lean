import LintHost.Proofs.Memo
import Mathlib.Logic.Function.Basic

/-!
# Contexts that share a cache

Several contexts may share one cache, and then should not notice each other. Of the three things
that are remembered, two never betray another context: what looking upwards finds depends on the
files alone, and the prefix is the same for all if the package manager says so. The third, where
the bundled copy lies, depends on the tools that a context names, which no key in the cache tells
apart.

* `Operation`: what can be asked of a context, in any order;
* `Fleet`: contexts with their caches; `Fleet.outcomes`: what a sequence of operations gives;
* `shared_cache_transparent_iff`: contexts that share a cache get what they would get with caches of
  their own exactly if there is one bundled copy for all of them.
-/

namespace LintHost

open LintHost.Action

variable {w : World}

/-! ## 1. Operations on a context -/

/-- What can be asked of a context. -/
inductive Operation
  | bundledPath
  | nodePrefix
  | locate (modulesDir : Option String) (policy : Policy) (project : Option String)
  | load (modulesDir : Option String) (policy : Policy) (project : Option String)
  | forDirectory (fileDir : String) (policy : Policy) (project : Option String)
  | configFile (start : String)
  | workplace (fileDir filePath : String) (policy : Policy) (project : Option String)
  | options (jobType : String) (policy : Policy) (rules : Entries Json) (fileDir : String)
      (config : Option String)
  | job (task : Job) (policy : Policy)

/-- What comes back. -/
inductive Operation.Answer
  | path (path : String)
  | found (path : Option String)
  | installation (found : Installation)
  | package (package : Package)
  | workplace (working : Workplace)
  | options (options : Engine.Options)
  | reply (reply : Job.Reply)

/-- Carries an operation out. -/
def Operation.perform : Operation → Action Operation.Answer
  | .bundledPath => .path <$> NodeTools.bundledPath
  | .nodePrefix => .path <$> Npm.nodePrefix
  | .locate modulesDir policy project => .installation <$> Package.locate modulesDir policy project
  | .load modulesDir policy project => .package <$> Package.load modulesDir policy project
  | .forDirectory fileDir policy project => .package <$> Package.forDirectory fileDir policy project
  | .configFile start => .found <$> ConfigFile.find start
  | .workplace fileDir filePath policy project =>
    .workplace <$> Workplace.resolve fileDir filePath policy project
  | .options jobType policy rules fileDir config =>
    .options <$> Engine.Options.build jobType policy rules fileDir config
  | .job task policy => .reply <$> task.run policy

/-- Every operation ends alike from sessions that its primitives leave related, if jobs do. -/
theorem alike_perform_of_job {R : Session → Session → Prop} (hR : Locates w R R)
    (hjob : ∀ (task : Job) policy, Alike w R R (task.run policy) fun _ => R)
    (refresh : ∀ dir, Alike w R R (discard (Package.refreshSearchPath dir)) fun _ => R)
    (note : ∀ cwd, Alike w R R (modifyContext fun c => { c with cwd := some cwd }) fun _ => R)
    (operation : Operation) : Alike w R R operation.perform fun _ => R := by
  have keep {α : Type} (x : Action α) (f : α → Operation.Answer)
      (hx : Alike w R R x fun _ => R) : Alike w R R (f <$> x) fun _ => R :=
    hx.map fun _ _ _ h => h
  cases operation with
  | bundledPath => exact keep _ _ hR.bundled
  | nodePrefix => exact keep _ _ hR.nodePrefix
  | locate modulesDir policy project =>
    exact (hR.locate modulesDir policy project).map fun _ _ _ h => h.1
  | load modulesDir policy project => exact keep _ _ (hR.load modulesDir policy project)
  | forDirectory fileDir policy project =>
    exact keep _ _ (alike_forDirectory hR.toSearches hR refresh fileDir policy project)
  | configFile start => exact keep _ _ (hR.configFile start)
  | workplace fileDir filePath policy project =>
    exact keep _ _
      (alike_workplace hR.toSearches hR.toSearches note fileDir filePath policy project)
  | options jobType policy rules fileDir config =>
    exact keep _ _ (hR.options jobType policy rules fileDir config)
  | job task policy => exact keep _ _ (hjob task policy)

/-- Every operation ends alike from sessions that its primitives leave related. -/
theorem alike_perform {R : Session → Session → Prop} (hR : Locates w R R) (hcalls : Calls w R R)
    (refresh : ∀ dir, Alike w R R (discard (Package.refreshSearchPath dir)) fun _ => R)
    (note : ∀ cwd, Alike w R R (modifyContext fun c => { c with cwd := some cwd }) fun _ => R)
    (operation : Operation) : Alike w R R operation.perform fun _ => R :=
  alike_perform_of_job hR (alike_job hR.toSearches hR hcalls refresh note) refresh note operation

theorem Operation.bundledPath_known {s : Session} {path : String}
    (h : s.cache.bundledPath = some path) :
    bundledPath.perform.run w s = (.ok (.path path), s) := by
  rw [perform, run_map, NodeTools.bundledPath_known h]
  rfl

theorem Operation.bundledPath_unknown {s : Session} (h : s.cache.bundledPath = none) :
    bundledPath.perform.run w s =
      ((NodeTools.bundled w s.context.nodeToolsDir).map .path, { s with cache := { s.cache with
        bundledPath := (NodeTools.bundled w s.context.nodeToolsDir).toOption } }) := by
  rw [perform, run_map, NodeTools.bundledPath_unknown h]

/-! ## 2. Fleets -/

/-- Contexts, named by `ι`, and their caches, named by `κ`. -/
structure Fleet (ι κ : Type) where
  contexts : ι → Context
  caches : κ → Cache
  started : List Child.Request
  log : List Log.Record

namespace Fleet

variable {ι κ : Type} [DecidableEq ι] [DecidableEq κ]

/-- Contexts whose caches are empty. -/
def start (contexts : ι → Context) : Fleet ι κ := ⟨contexts, fun _ => .empty, [], []⟩

/-- The session of one context, whose cache has the name `key`. -/
def session (fleet : Fleet ι κ) (key : κ) (i : ι) : Session :=
  ⟨fleet.contexts i, fleet.caches key, fleet.started, fleet.log⟩

/-- The fleet after an operation has left a session of one context. -/
def after (fleet : Fleet ι κ) (key : κ) (i : ι) (s : Session) : Fleet ι κ :=
  ⟨Function.update fleet.contexts i s.context, Function.update fleet.caches key s.cache,
    s.started, s.log⟩

@[simp] theorem after_caches_self (fleet : Fleet ι κ) (key : κ) (i : ι) (s : Session) :
    (fleet.after key i s).caches key = s.cache := Function.update_self ..

/-- An operation on one context leaves the caches of others as they are. -/
theorem after_caches_of_ne (fleet : Fleet ι κ) {key other : κ} (h : other ≠ key) (i : ι)
    (s : Session) : (fleet.after key i s).caches other = fleet.caches other :=
  Function.update_of_ne h ..

theorem after_contexts_of_ne (fleet : Fleet ι κ) (key : κ) {i j : ι} (h : j ≠ i) (s : Session) :
    (fleet.after key i s).contexts j = fleet.contexts j := Function.update_of_ne h ..

/-- What operations give, one after the other, each on one of the contexts; `key` tells which cache
    a context uses. A failing operation does not keep the others from being carried out. -/
def outcomes (w : World) (key : ι → κ) :
    Fleet ι κ → List (ι × Operation) → List (Except Fault Operation.Answer)
  | _, [] => []
  | fleet, (i, operation) :: rest =>
    let (result, s) := operation.perform.run w (fleet.session (key i) i)
    result :: outcomes w key (fleet.after (key i) i s) rest

theorem outcomes_cons {w : World} (key : ι → κ) (fleet : Fleet ι κ) {i : ι}
    {operation : Operation} {result : Except Fault Operation.Answer} {s : Session}
    (h : operation.perform.run w (fleet.session (key i) i) = (result, s))
    (rest : List (ι × Operation)) :
    fleet.outcomes w key ((i, operation) :: rest) =
      result :: (fleet.after (key i) i s).outcomes w key rest := by
  rw [outcomes, h]

theorem outcomes_single (w : World) (key : ι → κ) (fleet : Fleet ι κ) (i : ι)
    (operation : Operation) : fleet.outcomes w key [(i, operation)] =
      [(operation.perform.run w (fleet.session (key i) i)).1] := rfl

end Fleet

/-! ## 3. One step of two fleets -/

/-- A context whose tools are those of the origin and whose environment differs from the origin's
    in the search path only. -/
structure Context.Serves (origin c : Context) : Prop where
  nodeToolsDir : c.nodeToolsDir = origin.nodeToolsDir
  env : ∃ path : SearchPath, c.env = path.env origin.env

theorem Context.Serves.pointedAt {origin c : Context} (h : origin.Serves c)
    (modulesDir : Option String) : origin.Serves (c.pointedAt modulesDir) := by
  unfold Context.pointedAt
  split
  · exact h
  · obtain ⟨path, hpath⟩ := h.env
    refine ⟨h.nodeToolsDir, .to modulesDir, ?_⟩
    rw [hpath, SearchPath.put_env]

/-- The same context, and one that serves the origin. -/
def SameServing (origin c d : Context) : Prop := c = d ∧ origin.Serves c

section Fleet

variable {ι : Type} (contexts : ι → Context)

/-- The package manager answers all contexts alike, wherever their search paths point. -/
def Npm.OnePrefix (w : World) : Prop :=
  ∀ i j (path path' : SearchPath) found, asked w (path.env (contexts i).env) = .ok found →
    asked w (path'.env (contexts j).env) = .ok found

/-- A prefix that some context is answered. -/
def Npm.Given (w : World) (found : String) : Prop :=
  ∃ i, ∃ path : SearchPath, asked w (path.env (contexts i).env) = .ok found

variable {contexts}

theorem Npm.OnePrefix.asked (h : OnePrefix contexts w) {found : String}
    (hfound : Given contexts w found) (i : ι) (path : SearchPath) :
    Npm.asked w (path.env (contexts i).env) = .ok found := by
  obtain ⟨j, path', hj⟩ := hfound
  exact h j i path' path found hj

theorem Npm.OnePrefix.unique (h : OnePrefix contexts w) {found other : String}
    (hfound : Given contexts w found) (hother : Given contexts w other) : found = other := by
  obtain ⟨i, path, hi⟩ := hother
  have hasked := h.asked hfound i path
  rw [hi] at hasked
  exact (Except.ok.inj hasked).symm

theorem tied_serving (hw : w.Memoryless) (hnpm : Npm.OnePrefix contexts w) (i : ι)
    {k : Comparison} (htools : (contexts i).nodeToolsDir = k.tools)
    (hprefixes : k.prefixes = Npm.Given contexts w)
    (hahead : ∀ known, k.ahead = some known → Npm.Given contexts w known) (operation : Operation) :
    Alike w (Tied w k (SameServing (contexts i))) (Tied w k (SameServing (contexts i)))
      operation.perform fun _ => Tied w k (SameServing (contexts i)) := by
  refine alike_perform (tied_locates (fun _ _ h => h) hw ?_ ?_ ?_ ?_)
    (tied_calls (fun _ _ h => h) hw fun _ _ h => h.1) (fun dir => ⟨fun s t h => ?_⟩)
    (fun cwd => .modifyContext fun s t h => { h with contexts := ?_ }) operation
  · rintro c _ ⟨rfl, hc⟩
    exact ⟨hc.nodeToolsDir.trans htools, hc.nodeToolsDir.trans htools⟩
  · rintro c _ ⟨rfl, -⟩
    rfl
  · rintro c _ found ⟨rfl, hc⟩ hfound
    obtain ⟨path, hpath⟩ := hc.env
    rw [hpath] at hfound
    rw [hprefixes]
    exact ⟨i, path, hfound⟩
  · rintro c _ known ⟨rfl, hc⟩ hknown
    obtain ⟨path, hpath⟩ := hc.env
    rw [hpath]
    exact hnpm.asked (hahead known hknown) i path
  · obtain ⟨log, hrun⟩ := Package.refresh_run (m := w) dir s
    obtain ⟨log', hrun'⟩ := Package.refresh_run (m := w) dir t
    rw [hrun, hrun']
    obtain ⟨hsame, hserves⟩ := h.contexts
    exact ⟨rfl, { h with contexts := ⟨congrArg (·.pointedAt dir) hsame, hserves.pointedAt dir⟩ }⟩
  · obtain ⟨hsame, hserves⟩ := h.contexts
    exact ⟨by dsimp only; rw [hsame], ⟨hserves.nodeToolsDir, hserves.env⟩⟩

/-- There is one bundled copy for all contexts: what can be computed for one of them is right for
    every other. -/
def NodeTools.OneBundled (contexts : ι → Context) (w : World) : Prop :=
  ∀ i j path, bundled w (contexts i).nodeToolsDir = .ok path →
    bundled w (contexts j).nodeToolsDir = .ok path

/-- One fleet shares a cache, the other does not, and neither remembers anything wrong. -/
structure Together (w : World) (contexts : ι → Context) (F : Fleet ι Unit) (G : Fleet ι ι) :
    Prop where
  same : F.contexts = G.contexts
  serves : ∀ i, (contexts i).Serves (F.contexts i)
  shared : ∀ i, (F.caches ()).Coherent w (contexts i).nodeToolsDir
  own : ∀ i, (G.caches i).Coherent w (contexts i).nodeToolsDir
  given : ∀ known, (F.caches ()).nodePrefix = some known → Npm.Given contexts w known
  ahead : ∀ i known, (G.caches i).nodePrefix = some known →
    (F.caches ()).nodePrefix = some known

/-- To one context a fleet that shares a cache is a session that may know the prefix already. -/
theorem Together.tied {F : Fleet ι Unit} {G : Fleet ι ι} (h : Together w contexts F G) (i : ι) :
    Tied w ⟨(contexts i).nodeToolsDir, Npm.Given contexts w, (F.caches ()).nodePrefix, F.started,
      G.started⟩ (SameServing (contexts i)) (F.session () i) (G.session i i) where
  contexts := ⟨congrFun h.same i, h.serves i⟩
  left := h.shared i
  right := h.own i
  ahead := by
    show (F.caches ()).nodePrefix = (G.caches i).nodePrefix.or (F.caches ()).nodePrefix
    cases hown : (G.caches i).nodePrefix with
    | none => rfl
    | some known => exact h.ahead i known hown
  prefixes := fun known hknown => h.given known (h.ahead i known hknown)
  started := ⟨[], (List.append_nil _).symm, by
    rw [Npm.spared_nil, List.append_nil]
    rfl⟩

variable [DecidableEq ι]

/-- **One step**: if the two sessions of a context end alike, the fleets stay together. -/
theorem Together.after {F : Fleet ι Unit} {G : Fleet ι ι} (h : Together w contexts F G)
    (hnpm : Npm.OnePrefix contexts w) (hbundled : NodeTools.OneBundled contexts w) (i : ι)
    {s t : Session}
    (hst : Tied w ⟨(contexts i).nodeToolsDir, Npm.Given contexts w, (F.caches ()).nodePrefix,
      F.started, G.started⟩ (SameServing (contexts i)) s t) :
    Together w contexts (F.after () i s) (G.after i i t) := by
  obtain ⟨hsame, hserves⟩ := hst.contexts
  have hkept (known : String) (hknown : (F.caches ()).nodePrefix = some known) :
      s.cache.nodePrefix = some known :=
    hst.knows_ahead hnpm.unique hknown (h.given known hknown)
  have hserved : ∀ j, (contexts j).Serves (Function.update F.contexts i s.context j) :=
    (Function.forall_update_iff F.contexts fun j c => (contexts j).Serves c).mpr
      ⟨hserves, fun j _ => h.serves j⟩
  have hown : ∀ j, (Function.update G.caches i t.cache j).Coherent w (contexts j).nodeToolsDir :=
    (Function.forall_update_iff G.caches fun j cache =>
      cache.Coherent w (contexts j).nodeToolsDir).mpr ⟨hst.right, fun j _ => h.own j⟩
  have hahead : ∀ j known, (Function.update G.caches i t.cache j).nodePrefix = some known →
      s.cache.nodePrefix = some known := by
    refine (Function.forall_update_iff G.caches fun _ cache => ∀ known,
      cache.nodePrefix = some known → s.cache.nodePrefix = some known).mpr ⟨?_, ?_⟩
    · intro known hknown
      rw [hst.ahead, hknown, Option.some_or]
    · exact fun j _ known hknown => hkept known (h.ahead j known hknown)
  refine ⟨?_, hserved, fun j => ?_, hown, ?_, ?_⟩
  · show Function.update F.contexts i s.context = Function.update G.contexts i t.context
    rw [h.same, hsame]
  · rw [Fleet.after_caches_self]
    exact ⟨hst.left.finder, fun path hpath => hbundled i j path (hst.left.bundledPath path hpath)⟩
  · rw [Fleet.after_caches_self]
    exact fun known hknown => hst.given_left h.given hknown
  · rw [Fleet.after_caches_self]
    exact hahead

/-! ## 4. Runs of two fleets -/

/-- **Fleets that are together** give the same for every sequence of operations. -/
theorem Together.outcomes (hw : w.Memoryless) (hnpm : Npm.OnePrefix contexts w)
    (hbundled : NodeTools.OneBundled contexts w) :
    ∀ (calls : List (ι × Operation)) {F : Fleet ι Unit} {G : Fleet ι ι},
      Together w contexts F G → F.outcomes w (fun _ => ()) calls = G.outcomes w id calls
  | [], _, _, _ => rfl
  | (i, operation) :: rest, F, G, h => by
    have hmatched := (tied_serving hw hnpm i rfl rfl (fun known hknown => h.given known hknown)
      operation).matched _ _ (h.tied i)
    have hafter := h.after hnpm hbundled i (hmatched.sessions fun _ _ _ hst => hst)
    rw [Fleet.outcomes, Fleet.outcomes]
    exact congrArg₂ List.cons hmatched.result (Together.outcomes hw hnpm hbundled rest hafter)

omit [DecidableEq ι] in
theorem together_start (contexts : ι → Context) :
    Together w contexts (Fleet.start contexts) (Fleet.start contexts) where
  same := rfl
  serves := fun _ => ⟨rfl, .unset, rfl⟩
  shared := fun _ => Cache.coherent_empty _
  own := fun _ => Cache.coherent_empty _
  given := fun _ h => nomatch h
  ahead := fun _ _ h => nomatch h

/-- Asking two contexts for the bundled copy is enough to tell the fleets apart. -/
theorem oneBundled_of_outcomes (h : ∀ calls : List (ι × Operation),
    (Fleet.start contexts).outcomes w (fun _ => ()) calls =
      (Fleet.start contexts).outcomes w id calls) : NodeTools.OneBundled contexts w := by
  intro i j path hi
  by_cases hij : j = i
  · rw [hij]
    exact hi
  · let s : Session :=
      { Session.start (contexts i) with cache := { Cache.empty with bundledPath := some path } }
    have hfirst : Operation.bundledPath.perform.run w (Session.start (contexts i)) =
        (.ok (.path path), s) := by
      rw [Operation.bundledPath_unknown rfl]
      show ((NodeTools.bundled w (contexts i).nodeToolsDir).map _,
        { Session.start (contexts i) with cache := { Cache.empty with
          bundledPath := (NodeTools.bundled w (contexts i).nodeToolsDir).toOption } }) = _
      rw [hi]
      rfl
    -- With a shared cache the second context is told what the first one was.
    have hknown : (((Fleet.start contexts).after () i s).session () j).cache.bundledPath =
        some path :=
      congrArg Cache.bundledPath (Fleet.after_caches_self (Fleet.start contexts) () i s)
    -- With a cache of its own it is told what its tools say.
    have hunknown : (((Fleet.start contexts).after i i s).session j j).cache.bundledPath =
        none :=
      congrArg Cache.bundledPath (Fleet.after_caches_of_ne (Fleet.start contexts) hij i s)
    have hcontext : (((Fleet.start contexts).after i i s).session j j).context = contexts j :=
      Fleet.after_contexts_of_ne (Fleet.start contexts) i hij s
    have hcalls := h [(i, .bundledPath), (j, .bundledPath)]
    rw [Fleet.outcomes_cons (fun _ => ()) (Fleet.start contexts) hfirst,
      Fleet.outcomes_cons id (Fleet.start contexts) hfirst,
      Fleet.outcomes_single, Fleet.outcomes_single] at hcalls
    have hsecond := (List.cons.inj (List.cons.inj hcalls).2).1
    rw [Operation.bundledPath_known hknown, id_eq, id_eq, Operation.bundledPath_unknown hunknown,
      hcontext] at hsecond
    cases hj : NodeTools.bundled w (contexts j).nodeToolsDir with
    | error fault =>
      rw [hj] at hsecond
      cases hsecond
    | ok other =>
      rw [hj] at hsecond
      injection hsecond with hanswer
      injection hanswer with hpath
      rw [hpath]

/-- **Sharing a cache is transparent exactly if there is one bundled copy.** Contexts with one cache
    get for every sequence of operations what they would get with caches of their own, if and only
    if the bundled copy of each is the bundled copy of all. -/
theorem shared_cache_transparent_iff (contexts : ι → Context) (hw : w.Memoryless)
    (hnpm : Npm.OnePrefix contexts w) :
    (∀ calls : List (ι × Operation),
      (Fleet.start contexts).outcomes w (fun _ => ()) calls =
        (Fleet.start contexts).outcomes w id calls) ↔ NodeTools.OneBundled contexts w :=
  ⟨oneBundled_of_outcomes,
    fun hbundled calls => Together.outcomes hw hnpm hbundled calls (together_start contexts)⟩

end Fleet

/-! ## 5. Two contexts with tools of their own -/

theorem Npm.onePrefix_bare {ι : Type} (contexts : ι → Context) : OnePrefix contexts .bare := by
  intro i j path path' found h
  cases h

/-- Contexts whose tools lie in the directories that `tools` says. -/
def Context.withTools (tools : Bool → String) (i : Bool) : Context :=
  { Context.ofEnv [] with nodeToolsDir := .text (tools i) }

/-- Where a copy was located. -/
def Operation.Answer.place? : Except Fault Operation.Answer → Option String
  | .ok (.installation copy) => some copy.path
  | _ => none

/-- Of two contexts with tools in `/a` and `/b` that share a cache, the second is sent to the
    bundled copy of the first. -/
theorem second_context_misled :
    let contexts := Context.withTools fun i => if i then "/b" else "/a"
    let calls :=
      [(false, Operation.locate none .standard none), (true, .locate none .standard none)]
    World.bare.Memoryless ∧ Npm.OnePrefix contexts .bare ∧
      (Fleet.start contexts).outcomes .bare (fun _ => ()) calls ≠
        (Fleet.start contexts).outcomes .bare id calls := by
  intro contexts calls
  refine ⟨fun _ _ => rfl, Npm.onePrefix_bare contexts, fun h => ?_⟩
  have hshared : ((Fleet.start contexts).outcomes .bare (fun _ => ()) calls).map
      Operation.Answer.place? =
        [some "/a/node_modules/eslint", some "/a/node_modules/eslint"] := by decide +kernel
  have hown : ((Fleet.start contexts).outcomes .bare id calls).map Operation.Answer.place? =
      [some "/a/node_modules/eslint", some "/b/node_modules/eslint"] := by decide +kernel
  rw [h, hown] at hshared
  exact absurd hshared (by decide)

/-- Two contexts with the same tools may share a cache. -/
theorem shared_cache_transparent_same_tools :
    let contexts := Context.withTools fun _ => "/a"
    World.bare.Memoryless ∧ Npm.OnePrefix contexts .bare ∧
      NodeTools.OneBundled contexts .bare ∧ ∀ calls,
        (Fleet.start contexts).outcomes .bare (fun _ => ()) calls =
          (Fleet.start contexts).outcomes .bare id calls := by
  intro contexts
  have hmemoryless : World.bare.Memoryless := fun _ _ => rfl
  have hnpm : Npm.OnePrefix contexts .bare := Npm.onePrefix_bare contexts
  have hbundled : NodeTools.OneBundled contexts .bare := fun _ _ _ h => h
  exact ⟨hmemoryless, hnpm, hbundled,
    (shared_cache_transparent_iff contexts hmemoryless hnpm).mpr hbundled⟩

end LintHost
