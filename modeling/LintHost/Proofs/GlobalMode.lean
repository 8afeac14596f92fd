import LintHost.Proofs.Fallback
import LintHost.Proofs.Provenance

/-!
# The global mode stands alone

Who asks for the global copy gets that one or none: no project's copy, no modules directory of the
policy and no bundled copy has a part in it. This file says so in two ways: the operations neither
read nor change where the bundled copy is remembered to be, and two calls that agree on the prefix
and on the few files under it that are looked at end alike, whatever else differs.

* `Package.AlikeUnder`: two machines answer alike what is asked about a prefix;
* `globalCopyUnder_congr`: then the global copy under it is one and the same;
* `Action.SparesBundled`: an operation that leaves the memo of the bundled copy alone;
* `global_mode_isolated`: the mode as a whole.
-/

namespace LintHost

open LintHost.Action LintHost.Path

variable {w w' : World}

namespace Package

/-! ## 1. What is asked about a copy -/

/-- Where the manifest of a copy is. -/
def manifestAt (path : String) : PartPath := (PartPath.ofText path).entry manifestName

/-- Two machines answer alike about an entry point: whether it is a file, and whether it is one
    with `.js` added. -/
structure AlikeEntry (w w' : World) (entry : PartPath) : Prop where
  itself : isFile w entry = isFile w' entry
  sibling : ∀ sibling, entry.extendName? ".js".toList = some sibling →
    isFile w sibling = isFile w' sibling

/-- Two machines answer alike about a copy at a path: whether a directory stands there, what its
    manifest says, and whether the entry point that the manifest names is there. -/
structure AlikeAt (w w' : World) (path : String) : Prop where
  directory : w.isDirectory path = w'.isDirectory path
  manifest : w.loadJson (manifestAt path) = w'.loadJson (manifestAt path)
  entry : ∀ manifest entry, w.loadJson (manifestAt path) = .ok (some (.object manifest)) →
    entryPoint (PartPath.ofText path) manifest = .ok entry → AlikeEntry w w' entry

/-- The two layouts of global packages under a prefix. -/
def layouts (under : String) : List String :=
  [join (join under "node_modules") "eslint",
    join (join (join under "lib") "node_modules") "eslint"]

/-- Two machines answer alike about both layouts under a prefix. -/
def AlikeUnder (w w' : World) (under : String) : Prop :=
  ∀ path ∈ layouts under, AlikeAt w w' path

theorem globalCandidate_mem (w : World) (under : String) :
    globalCandidate w under ∈ layouts under := by
  unfold globalCandidate layouts
  dsimp only
  split
  · exact List.mem_cons_self
  · exact List.mem_cons_of_mem _ (List.mem_singleton_self _)

theorem globalCandidate_congr {under : String} (h : AlikeUnder w w' under) :
    globalCandidate w under = globalCandidate w' under := by
  have hflat : AlikeAt w w' (join (join under "node_modules") "eslint") :=
    h _ List.mem_cons_self
  unfold globalCandidate
  dsimp only
  rw [hflat.directory]

theorem present_congr {path : String} (h : w.isDirectory path = w'.isDirectory path) :
    present? w (some path) = present? w' (some path) := by
  unfold present?
  split
  · rfl
  · rfl
  · rename_i other hother
    obtain rfl := Option.some.inj hother
    rw [h]

theorem entryExists_congr {entry : PartPath} (h : AlikeEntry w w' entry) :
    entryExists w entry = entryExists w' entry := by
  unfold entryExists
  rw [h.itself]
  cases isFile w' entry with
  | error fault => rw [Except.error_bind, Except.error_bind]
  | ok there =>
    rw [Except.ok_bind, Except.ok_bind]
    by_cases hthere : there = true
    · rw [if_pos hthere, if_pos hthere]
    · rw [if_neg hthere, if_neg hthere]
      cases hsibling : entry.extendName? ".js".toList with
      | none => rfl
      | some sibling => exact h.sibling sibling hsibling

/-- A copy is read alike where all that is asked about it is answered alike. -/
theorem loadFrom_congr (found : Installation) (h : AlikeAt w w' found.path) :
    loadFrom w found = loadFrom w' found := by
  have hentry := h.entry
  have hmanifest := h.manifest
  unfold manifestAt at hentry hmanifest
  unfold loadFrom
  dsimp only
  rw [← hmanifest]
  cases hread : w.loadJson ((PartPath.ofText found.path).entry manifestName) with
  | error fault => rw [Except.error_bind, Except.error_bind]
  | ok manifest? =>
    rw [Except.ok_bind, Except.ok_bind]
    split
    · rename_i manifest
      cases hpoint : entryPoint (PartPath.ofText found.path) manifest with
      | error fault => rw [Except.error_bind, Except.error_bind]
      | ok entry =>
        rw [Except.ok_bind, Except.ok_bind, entryExists_congr (hentry manifest entry hread hpoint)]
    · rfl

/-- **The global copy under a prefix depends on nothing else.** -/
theorem globalCopyUnder_congr {under : String} (h : AlikeUnder w w' under) :
    globalCopyUnder w under = globalCopyUnder w' under := by
  have hat : AlikeAt w w' (globalCandidate w under) := h _ (globalCandidate_mem w under)
  unfold globalCopyUnder
  rw [← globalCandidate_congr h]
  generalize globalCandidate w under = candidate at hat
  rw [← present_congr hat.directory]
  cases hpresent : present? w (some candidate) with
  | none => rfl
  | some path =>
    obtain rfl := Option.some.inj (present_eq_some.mp hpresent).1
    dsimp only
    rw [loadFrom_congr ⟨candidate, .global⟩ hat]

theorem globalCopyUnder_origin {under : String} {package : Package}
    (h : globalCopyUnder w under = .ok package) : package.installation.origin = .global := by
  rw [globalCopyUnder_eq] at h
  obtain ⟨copy, hcopy, h⟩ := Except.bind_eq_ok h
  have hload : loadFrom w copy = .ok (.ok package) := by
    cases hread : loadFrom w copy with
    | error fault =>
      rw [hread] at h
      cases h
    | ok loaded =>
      rw [hread] at h
      cases loaded with
      | error reason => cases h
      | ok other => rw [Except.ok.inj h]
  rw [installation_of_load hload]
  exact globalInstallation_origin hcopy

end Package

/-! ## 2. The memo of the bundled copy -/

/-- The session with another memo of where the bundled copy is. -/
def Session.bundledAt (s : Session) (memo : Option String) : Session :=
  { s with cache := { s.cache with bundledPath := memo } }

/-- An operation that leaves the memo of the bundled copy alone: it does the same whatever the memo
    is, and does not change it. -/
structure Action.SparesBundled {α : Type} (x : Action α) : Prop where
  unread : ∀ (w : World) s memo, x.run w (s.bundledAt memo) =
    ((x.run w s).1, (x.run w s).2.bundledAt memo)
  kept : ∀ (w : World) s, (x.run w s).2.cache.bundledPath = s.cache.bundledPath

/-- The second session is the first one with this memo. -/
def Apart (memo : Option String) (s t : Session) : Prop := t = s.bundledAt memo

/-- An operation that ends alike from sessions that differ in the memo leaves it alone. -/
theorem Action.SparesBundled.of_alike {α : Type} {x : Action α}
    (h : ∀ (w : World) memo, Alike w (Apart memo) (Apart memo) x fun _ => Apart memo) :
    x.SparesBundled := by
  have unread (w : World) (s : Session) (memo : Option String) :
      x.run w (s.bundledAt memo) = ((x.run w s).1, (x.run w s).2.bundledAt memo) := by
    have hmatched := (h w memo).matched s (s.bundledAt memo) rfl
    have hsession : (x.run w (s.bundledAt memo)).2 = (x.run w s).2.bundledAt memo :=
      hmatched.sessions fun _ _ _ ht => ht
    exact Prod.ext hmatched.result.symm hsession
  refine ⟨unread, fun w s => ?_⟩
  have hself : s.bundledAt s.cache.bundledPath = s := rfl
  have hrun := unread w s s.cache.bundledPath
  rw [hself] at hrun
  exact congrArg (fun p => p.2.cache.bundledPath) hrun

section Apart

variable {memo : Option String}

theorem apart_tell (source : String) (level : Log.Level) (message : String) :
    Alike w (Apart memo) (Apart memo) (tell source level message) fun _ => Apart memo := by
  refine ⟨fun s t h => ?_⟩
  obtain rfl := h
  exact ⟨rfl, rfl⟩

theorem apart_find (start : String) (names : List String) :
    Alike w (Apart memo) (Apart memo) (Finder.find start names) fun _ => Apart memo := by
  refine ⟨fun s t h => ?_⟩
  obtain rfl := h
  cases hm : s.cache.finder.lookup (Finder.key w start names) with
  | some found =>
    have hm' : (s.bundledAt memo).cache.finder.lookup (Finder.key w start names) = some found := hm
    rw [Finder.find_known hm, Finder.find_known hm']
    exact ⟨rfl, rfl⟩
  | none =>
    have hm' : (s.bundledAt memo).cache.finder.lookup (Finder.key w start names) = none := hm
    rw [Finder.find_unknown hm, Finder.find_unknown hm']
    generalize Finder.fresh w start names = result
    cases result with
    | ok found => exact ⟨rfl, rfl⟩
    | error fault => exact ⟨rfl, rfl⟩

theorem apart_searches : Searches w (Apart memo) (Apart memo) where
  fault := fun _ _ h => h
  sees := fun _ _ _ => rfl
  tell := apart_tell
  find := apart_find

/-- Children are started, and end, alike. -/
theorem apart_child (command : List Value) (cwd : Option String) (env : Option (Entries String))
    (timeout : Value) (input : Option String) :
    Alike w (Apart memo) (Apart memo) (Child.run command cwd env timeout input)
      fun _ => Apart memo := by
  unfold Child.run
  refine .read_bind (fun _ _ _ => rfl) fun world => ?_
  split
  · exact .throw fun _ _ h => h
  · refine (apart_tell _ _ _).bind fun _ => ?_
    split
    · exact .throw fun _ _ h => h
    · refine ⟨fun s t h => ?_⟩
      obtain rfl := h
      rw [run_get_bind, run_get_bind, run_bind_ok (run_modify _ _), run_bind_ok (run_modify _ _)]
      exact (Alike.ofExcept (fun _ _ _ _ h => h) fun _ _ h => h).matched _ _ rfl

theorem apart_askPrefix (env : Entries String) (platform : String) :
    Alike w (Apart memo) (Apart memo) (Npm.askPrefix env platform) fun _ => Apart memo := by
  unfold Npm.askPrefix
  refine (apart_child _ _ _ _ _).bind fun result => ?_
  split
  · exact .throw fun _ _ h => h
  · exact (apart_tell _ _ _).bind fun _ => .pure fun _ _ h => h

theorem apart_nodePrefix :
    Alike w (Apart memo) (Apart memo) Npm.nodePrefix fun _ => Apart memo := by
  refine ⟨fun s t h => ?_⟩
  obtain rfl := h
  cases hknown : s.cache.nodePrefix with
  | some known =>
    have hknown' : (s.bundledAt memo).cache.nodePrefix = some known := hknown
    rw [Npm.nodePrefix_known hknown, Npm.nodePrefix_known hknown']
    exact ⟨rfl, rfl⟩
  | none =>
    have remember (found : String) : Alike w (Apart memo) (Apart memo) (do
        modifyCache fun cache => { cache with nodePrefix := some found }
        return found) fun _ => Apart memo := by
      refine ⟨fun s t h => ?_⟩
      obtain rfl := h
      exact ⟨rfl, rfl⟩
    have hknown' : (s.bundledAt memo).cache.nodePrefix = none := hknown
    unfold Npm.nodePrefix
    rw [run_get_bind, run_get_bind, hknown, hknown']
    exact (Alike.read_bind (fun _ _ _ => rfl) fun _ =>
      (apart_askPrefix s.context.env _).bind remember).matched _ _ rfl

theorem apart_refresh (modulesDir : Option String) :
    Alike w (Apart memo) (Apart memo) (discard (Package.refreshSearchPath modulesDir))
      fun _ => Apart memo := by
  have hrefresh : Alike w (Apart memo) (Apart memo) (Package.refreshSearchPath modulesDir)
      fun _ => Apart memo := by
    refine ⟨fun s t h => ?_⟩
    obtain rfl := h
    unfold Package.refreshSearchPath
    rw [run_context_bind, run_context_bind]
    by_cases hsame : s.context.searchPath = .to modulesDir
    · have hsame' : (s.bundledAt memo).context.searchPath = .to modulesDir := hsame
      rw [if_pos hsame, if_pos hsame']
      exact ⟨rfl, rfl⟩
    · have hsame' : (s.bundledAt memo).context.searchPath ≠ .to modulesDir := hsame
      rw [if_neg hsame, if_neg hsame']
      exact ⟨rfl, rfl⟩
  exact hrefresh.map fun _ _ _ h => h

end Apart

/-! ## 3. The mode as a whole -/

namespace Package

variable {policy : Policy} (hglobal : policy.useGlobal = true)
include hglobal

theorem apart_load {memo : Option String} (modulesDir project : Option String) :
    Alike w (Apart memo) (Apart memo) (load modulesDir policy project) fun _ => Apart memo := by
  have hlocal : ¬policy.useGlobal = false := by simp [hglobal]
  exact apart_searches.load_after (fun h => absurd h hlocal)
    (alike_candidate apart_searches apart_nodePrefix modulesDir policy project)

theorem sparesBundled_load (modulesDir project : Option String) :
    SparesBundled (load modulesDir policy project) :=
  .of_alike fun _ _ => apart_load hglobal modulesDir project

theorem sparesBundled_forDirectory (fileDir : String) (project : Option String) :
    SparesBundled (forDirectory fileDir policy project) :=
  .of_alike fun _ _ => alike_forDirectory_of_load apart_searches apart_refresh
    (fun dir => apart_load hglobal dir project) fileDir

theorem load_origin {s : Session} {modulesDir project : Option String} {package : Package}
    (h : ((load modulesDir policy project).run w s).1 = .ok package) :
    package.installation.origin = .global := by
  rw [load_global hglobal, globalCopy] at h
  obtain ⟨under, -, hcopy⟩ := Except.bind_eq_ok h
  exact globalCopyUnder_origin hcopy

theorem forDirectory_origin {s : Session} {fileDir : String} {project : Option String}
    {package : Package} (h : ((forDirectory fileDir policy project).run w s).1 = .ok package) :
    package.installation.origin = .global := by
  rw [forDirectory_global hglobal] at h
  obtain ⟨found, -, hcopy⟩ := Except.bind_eq_ok h
  obtain ⟨under, -, hcopy⟩ := Except.bind_eq_ok hcopy
  exact globalCopyUnder_origin hcopy

/-- **The global mode stands alone.** Whatever is loaded, for a directory or not, is the global copy,
    and the memo of the bundled copy is left alone. Two calls with the global mode, of whatever
    policies, on whatever machines and sessions, for whatever modules directories and projects, that
    take one prefix load the same copy or fail alike, if the machines answer alike about that
    prefix. -/
theorem global_mode_isolated :
    (∀ modulesDir project, SparesBundled (load modulesDir policy project) ∧
      ∀ (w : World) s package, ((load modulesDir policy project).run w s).1 = .ok package →
        package.installation.origin = .global) ∧
    (∀ fileDir project, SparesBundled (forDirectory fileDir policy project) ∧
      ∀ (w : World) s package, ((forDirectory fileDir policy project).run w s).1 = .ok package →
        package.installation.origin = .global) ∧
    ∀ policy' : Policy, policy'.useGlobal = true →
      ∀ w w' s s' modulesDir modulesDir' project project',
        globalPrefix w s policy = globalPrefix w' s' policy' →
        (∀ under, globalPrefix w s policy = .ok under → AlikeUnder w w' under) →
        ((load modulesDir policy project).run w s).1 =
          ((load modulesDir' policy' project').run w' s').1 := by
  refine ⟨fun modulesDir project => ?_, fun fileDir project => ?_, ?_⟩
  · exact ⟨sparesBundled_load hglobal modulesDir project, fun w s package => load_origin hglobal⟩
  · exact ⟨sparesBundled_forDirectory hglobal fileDir project,
      fun w s package => forDirectory_origin hglobal⟩
  · intro policy' hglobal' w w' s s' modulesDir modulesDir' project project' hprefix halike
    rw [load_global hglobal, load_global hglobal', globalCopy, globalCopy, ← hprefix]
    cases hunder : globalPrefix w s policy with
    | error fault => rw [Except.error_bind, Except.error_bind]
    | ok under => rw [Except.ok_bind, Except.ok_bind, globalCopyUnder_congr (halike under hunder)]

/-! ## 4. Two machines with one global copy -/

omit hglobal

/-- The machine with a global copy under `/g` besides. -/
def withGlobal (w : World) : World := { w with
  files := (w.files.add ["g", "node_modules", "eslint", "package.json"]
    (.file "\x7b\x7d".toUTF8 true true)).add ["g", "node_modules", "eslint", "index.js"]
    (.file .empty true true) }

/-- The policy of someone who wants the global copy under `/g`. -/
def underG : Policy := { Policy.standard with useGlobal := true, globalPath := some "/g" }

theorem loadJson_congr {p : PartPath}
    (h : w.files.read w.cwd p.text = w'.files.read w'.cwd p.text) :
    w.loadJson p = w'.loadJson p := by
  unfold World.loadJson
  rw [h]

theorem isFile_congr {p : PartPath}
    (h : w.files.isFile? w.cwd p.text = w'.files.isFile? w'.cwd p.text) :
    isFile w p = isFile w' p := by
  unfold isFile
  rw [h]

/-- What is read is an object without members. -/
def readsEmpty : Except Fault (Option Json) → Bool
  | .ok (some (.object [])) => true
  | _ => false

theorem eq_of_readsEmpty {read : Except Fault (Option Json)} (h : readsEmpty read = true) :
    read = .ok (some (.object [])) := by
  unfold readsEmpty at h
  split at h
  · rfl
  · cases h

theorem alikeUnder_g :
    AlikeUnder (withGlobal .bare) (withGlobal (brokenMachine "[]".toUTF8)) "/g" := by
  intro path hpath
  rcases List.mem_cons.mp hpath with rfl | hpath
  · have hread : (withGlobal .bare).loadJson (manifestAt (join (join "/g" "node_modules") "eslint")) =
        .ok (some (.object [])) := eq_of_readsEmpty (by decide +kernel)
    refine ⟨by decide +kernel, loadJson_congr (by decide +kernel), fun manifest entry h hentry => ?_⟩
    rw [hread] at h
    cases h
    obtain rfl : _ = entry := Except.ok.inj hentry
    refine ⟨isFile_congr (by decide +kernel), fun sibling hsibling => isFile_congr ?_⟩
    have hname : ((PartPath.ofText (join (join "/g" "node_modules") "eslint")).entry
        "index.js").extendName? ".js".toList =
          some (PartPath.ofText "/g/node_modules/eslint/index.js.js") := by decide +kernel
    obtain rfl := Option.some.inj (hname.symm.trans hsibling)
    decide +kernel
  · rw [List.mem_singleton.mp hpath]
    have hread : (withGlobal .bare).files.read (withGlobal .bare).cwd
        (manifestAt (join (join (join "/g" "lib") "node_modules") "eslint")).text =
          .error .noEntry := by decide +kernel
    refine ⟨by decide +kernel, loadJson_congr (by decide +kernel), fun manifest entry h _ => ?_⟩
    unfold World.loadJson at h
    rw [hread] at h
    cases h

/-- A project's copy, a modules directory and a bundled copy make no difference. -/
theorem crowded_machine_isolated :
    underG.useGlobal = true ∧
    ((load none underG none).run (withGlobal .bare) (.start (.ofEnv []))).1 =
      ((load (some "/p/node_modules") { underG with localModules := some "/p/node_modules" }
        (some "/p")).run (withGlobal (brokenMachine "[]".toUTF8)) (.start (.ofEnv []))).1 ∧
    ∃ package, ((load none underG none).run (withGlobal .bare) (.start (.ofEnv []))).1 =
      .ok package := by
  have halike (under : String)
      (hunder : globalPrefix (withGlobal .bare) (.start (.ofEnv [])) underG = .ok under) :
      AlikeUnder (withGlobal .bare) (withGlobal (brokenMachine "[]".toUTF8)) under := by
    have hg : globalPrefix (withGlobal .bare) (.start (.ofEnv [])) underG = .ok "/g" := rfl
    obtain rfl := Except.ok.inj (hg.symm.trans hunder)
    exact alikeUnder_g
  exact ⟨rfl, (global_mode_isolated rfl).2.2 _ rfl _ _ _ _ _ _ _ _ rfl halike,
    exists_of_isOk (by decide +kernel)⟩

end Package

end LintHost
