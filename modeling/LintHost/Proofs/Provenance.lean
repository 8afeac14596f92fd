import LintHost.Proofs.EngineCalls
import LintHost.Proofs.Place
import LintHost.Proofs.RealPath
import LintHost.Proofs.Records

/-!
# Where the path of a copy comes from

The path of a copy of the linter is built from one directory that somebody names: the policy, the
project, the package manager, the context, or the files themselves. This file follows the search
for a copy and says which directory that is.

* `Sound`: what is remembered was found, and the context names the tools it always did;
* `Package.BuiltFrom`: the directory that a copy's path is built from;
* `BuiltFrom.isAbsolute`: the path is absolute exactly if that directory is, as it is for a copy
  found near the files (`BuiltFrom.isAbsolute_near`);
* `ends_package`: the copy for the files of a directory is built from such a directory.
-/

namespace LintHost

open LintHost.Action LintHost.Path

variable {w : World}

/-! ## 1. Sound sessions -/

/-- The package manager says this in some environment, whatever was started before. -/
def Npm.Tells (w : World) (found : String) : Prop :=
  ∃ earlier env, told w earlier env = .ok found

/-- What is remembered was found or told, and the context names these tools. -/
structure Sound (w : World) (tools : Value) (s : Session) : Prop where
  nodeToolsDir : s.context.nodeToolsDir = tools
  cache : s.cache.Coherent w tools
  nodePrefix : ∀ known, s.cache.nodePrefix = some known → Npm.Tells w known

theorem sound_start (context : Context) :
    Sound w context.nodeToolsDir (Session.start context) :=
  ⟨rfl, Cache.coherent_empty _, fun _ h => nomatch h⟩

section Sound

variable {tools : Value}

theorem searches_sound : Searches w (Same (Sound w tools)) (Same (Sound w tools)) where
  fault := fun _ _ h => h
  sees := sees_same
  tell := fun _ _ _ => alike_of_keeps fun _ hs => { hs with }
  find := fun start names => alike_of_keeps fun s hs => by
    obtain ⟨memo, hmemo, hrun⟩ := Finder.find_run hs.cache.finder start names
    rw [hrun]
    exact { hs with cache := { hs.cache with finder := hmemo } }

theorem locates_sound : Locates w (Same (Sound w tools)) (Same (Sound w tools)) := by
  refine locates_of_frame searches_sound (fun s _ hs => ?_) fun s log _ hs => ?_
  · have hbundled : ∀ path, (NodeTools.bundled w s.context.nodeToolsDir).toOption = some path →
        NodeTools.bundled w tools = .ok path := by
      intro path hpath
      rw [← hs.nodeToolsDir]
      exact Except.eq_ok_of_toOption hpath
    exact { hs with cache := { hs.cache with bundledPath := hbundled } }
  · have htold : ∀ known, (Npm.told w s.started s.context.env).toOption = some known →
        Npm.Tells w known :=
      fun known hknown => ⟨s.started, s.context.env, Except.eq_ok_of_toOption hknown⟩
    exact ⟨hs.nodeToolsDir, hs.cache.withPrefix _, htold⟩

end Sound

/-! ## 2. The directory that a copy's path is built from -/

/-- A modules directory in which a copy is found from a directory upwards. -/
def Finder.Modules (w : World) (fileDir modulesDir : String) : Prop :=
  ∃ found, fresh w fileDir ["node_modules/eslint"] = .ok (some found) ∧
    directory found = modulesDir

/-- The directory that the path of a copy for files in `fileDir` is built from, by whom it was
    named. -/
inductive Package.BuiltFrom (w : World) (tools : Value) (fileDir : String) (policy : Policy)
    (project : Option String) : String → Installation → Prop
  /-- The policy names the prefix of the global copy. -/
  | given (hglobal : policy.useGlobal = true) {under : String}
      (hunder : clean w.host.homes w.env (policy.globalPath.getD "") = .ok under)
      (h : under ≠ "") :
      BuiltFrom w tools fileDir policy project under ⟨globalCandidate w under, .global⟩
  /-- The package manager does. -/
  | told (hglobal : policy.useGlobal = true)
      (h : clean w.host.homes w.env (policy.globalPath.getD "") = .ok "") {under : String}
      (hunder : Npm.Tells w under) :
      BuiltFrom w tools fileDir policy project under ⟨globalCandidate w under, .global⟩
  /-- A modules directory was found near the files. -/
  | found (hlocal : policy.useGlobal = false) {modulesDir : String}
      (h : Finder.Modules w fileDir modulesDir) :
      BuiltFrom w tools fileDir policy project modulesDir ⟨join modulesDir "eslint", .localProject⟩
  /-- The policy names a modules directory by its whole path. -/
  | named (hlocal : policy.useGlobal = false) {entry dir : String}
      (hentry : policy.localModules = some entry)
      (hdir : clean w.host.homes w.env entry = .ok dir) (h : isAbsolute dir = true) :
      BuiltFrom w tools fileDir policy project dir ⟨join dir "eslint", .advanced⟩
  /-- The policy names a modules directory of the project. -/
  | inProject (hlocal : policy.useGlobal = false) {entry dir : String}
      (hentry : policy.localModules = some entry)
      (hdir : clean w.host.homes w.env entry = .ok dir) (h : isAbsolute dir = false) :
      BuiltFrom w tools fileDir policy project (project.getD "")
        ⟨join (join (project.getD "") dir) "eslint", .advanced⟩
  /-- The context or the environment names the directory of the bundled tools. -/
  | bundled (hlocal : policy.useGlobal = false) {base : PartPath}
      (h : NodeTools.directory w tools = .ok base) :
      BuiltFrom w tools fileDir policy project base.text
        ⟨Path.normalize ((base.entry "node_modules").entry "eslint").text, .bundled⟩

theorem isAbsolute_eslint : isAbsolute "eslint" = false := by decide

theorem isAbsolute_modules : isAbsolute "node_modules" = false := by decide

/-- If a copy is expected at all, its path is built from such a directory. -/
def Package.Expected (w : World) (tools : Value) (fileDir : String) (policy : Policy)
    (project : Option String) (expected : Origin × Option String) : Prop :=
  ∀ path, expected.2 = some path →
    ∃ base, BuiltFrom w tools fileDir policy project base ⟨path, expected.1⟩

theorem Package.isAbsolute_globalCandidate (under : String) :
    isAbsolute (globalCandidate w under) = isAbsolute under := by
  have hlib : isAbsolute "lib" = false := by decide
  unfold globalCandidate
  dsimp only
  split
  · rw [isAbsolute_join _ isAbsolute_eslint, isAbsolute_join _ isAbsolute_modules]
  · rw [isAbsolute_join _ isAbsolute_eslint, isAbsolute_join _ isAbsolute_modules,
      isAbsolute_join _ hlib]

theorem PartPath.Plain.child {p q : PartPath} (hp : p.Plain) (hq : q.Plain) :
    (p.child q).Plain := by
  unfold PartPath.child
  split
  · exact hq
  · refine ⟨hp.slashes, fun n hn => ?_⟩
    rcases List.mem_append.mp hn with hn | hn
    · exact hp.names n hn
    · exact hq.names n hn

/-- What a text names that is not absolute has the root of what it is seen from. -/
theorem PartPath.slashes_entry (p : PartPath) {name : String} (h : Path.isAbsolute name = false) :
    (p.entry name).slashes = p.slashes := by
  have hzero : leadingSlashes name.toList = 0 := by
    refine Classical.byContradiction fun hne => ?_
    rw [Path.isAbsolute, leadingSlashes_ne_zero.mp hne] at h
    cases h
  have hname : (ofText name).isAbsolute = false := decide_eq_false (not_not_intro hzero)
  rw [entry, PartPath.child, if_neg (by rw [hname]; decide)]

theorem PartPath.Plain.expandHome {p q : PartPath} (hp : p.Plain) {homes : Path.Homes}
    {env : Entries String} (h : p.expandHome homes env = .ok q) : q.Plain := by
  unfold PartPath.expandHome at h
  split at h
  · rename_i user rest _ hnames
    obtain ⟨home, -, h⟩ := Except.bind_eq_ok h
    split at h
    · cases h
    · cases h
      refine (plain_ofChars _).child ⟨Nat.zero_le _, fun n hn => hp.names n ?_⟩
      rw [hnames]
      exact List.mem_cons_of_mem _ hn
  · cases h
    exact hp

/-- The directory of the bundled tools is the root and entries of some text. -/
theorem NodeTools.plain_directory {tools : Value} {base : PartPath}
    (h : directory w tools = .ok base) : base.Plain := by
  unfold directory at h
  split at h
  · split at h
    · exact (PartPath.plain_ofText _).expandHome h
    · cases h
  · unfold standard at h
    split at h
    · cases h
      exact PartPath.plain_ofText _
    · cases h
      exact PartPath.plain_ofText _
    · obtain ⟨p, hp, h⟩ := Except.bind_eq_ok h
      split at h
      · rename_i real hreal
        cases h
        exact FileTree.plain_resolve hreal
      · cases h

/-- **A copy's path is absolute** exactly if the directory is that it is built from. -/
theorem Package.BuiltFrom.isAbsolute {tools : Value} {fileDir base : String} {policy : Policy}
    {project : Option String} {copy : Installation}
    (h : BuiltFrom w tools fileDir policy project base copy) :
    Path.isAbsolute copy.path = Path.isAbsolute base := by
  cases h with
  | given => dsimp only; rw [isAbsolute_globalCandidate]
  | told => dsimp only; rw [isAbsolute_globalCandidate]
  | found => dsimp only; rw [isAbsolute_join _ isAbsolute_eslint]
  | named => dsimp only; rw [isAbsolute_join _ isAbsolute_eslint]
  | inProject _ _ _ h => dsimp only; rw [isAbsolute_join _ isAbsolute_eslint, isAbsolute_join _ h]
  | @bundled _ base h =>
    have hplain := NodeTools.plain_directory h
    have hcopy : ((base.entry "node_modules").entry "eslint").Plain :=
      (hplain.child (PartPath.plain_ofText _)).child (PartPath.plain_ofText _)
    dsimp only
    rw [isAbsolute_normalize, isAbsolute_text_eq hcopy, isAbsolute_text_eq hplain,
      PartPath.isAbsolute, PartPath.isAbsolute, PartPath.slashes_entry _ isAbsolute_eslint,
      PartPath.slashes_entry _ isAbsolute_modules]

/-! ## 3. Modules directories near a file -/

/-- What asking one after the other comes to was asked of one of them. -/
theorem Finder.firstSome_mem {ε α β : Type} {ask : α → Except ε (Option β)}
    {answer : Except ε (Option β)} :
    ∀ {as : List α}, firstSome ask as = answer → answer ≠ .ok none → ∃ a ∈ as, ask a = answer
  | [], h, hanswer => absurd h.symm hanswer
  | a :: rest, h, hanswer => by
    rw [firstSome] at h
    split at h
    · obtain ⟨b, hb, hask⟩ := firstSome_mem h hanswer
      exact ⟨b, List.mem_cons_of_mem _ hb, hask⟩
    · exact ⟨a, List.mem_cons_self, h⟩

/-- What a search finds is an entry of the directory or of one above it. -/
theorem Finder.search_entry {files : FileTree} {cwd found : String} {names : List String}
    {p : PartPath} (h : search files cwd names p = .ok (some found)) :
    ∃ q ∈ p.ancestors, ∃ name ∈ names, found = (q.entry name).text := by
  obtain ⟨q, hq, hfound⟩ := firstSome_mem h nofun
  obtain ⟨name, hname, hprobe⟩ := firstSome_mem hfound nofun
  refine ⟨q, hq, name, hname, ?_⟩
  unfold probe at hprobe
  split at hprobe
  · exact (Option.some.inj (Except.ok.inj hprobe)).symm
  · cases Except.ok.inj hprobe
  · cases hprobe

theorem PartPath.Settled.ancestor {p q : PartPath} (h : p.Settled) (hq : q ∈ p.ancestors) :
    q.Settled := by
  obtain ⟨names, hnames, rfl⟩ := List.mem_map.mp hq
  obtain ⟨k, -, rfl⟩ := List.mem_map.mp hnames
  exact ⟨h.rooted, h.slashes, fun n hn => h.names n (List.mem_of_mem_take hn)⟩

/-- **A modules directory found near a file** is absolute. -/
theorem Finder.Modules.isAbsolute (hcwd : isAbsolute w.cwd = true) {fileDir modulesDir : String}
    (h : Modules w fileDir modulesDir) : Path.isAbsolute modulesDir = true := by
  obtain ⟨found, h, rfl⟩ := h
  rw [fresh, absolute_eq] at h
  have hplace := settled_place hcwd fileDir
  rw [PartPath.ofText_text hplace.plain] at h
  obtain ⟨q, hq, name, hname, rfl⟩ := search_entry h
  have hq := hplace.ancestor hq
  rw [List.mem_singleton.mp hname]
  have hentry : q.entry "node_modules/eslint" =
      ⟨q.slashes, q.names ++ ["node_modules".toList, "eslint".toList]⟩ := by
    have hparts : PartPath.ofText "node_modules/eslint" =
        ⟨0, ["node_modules".toList, "eslint".toList]⟩ := by decide
    rw [PartPath.entry, hparts]
    rfl
  have hsettled : (q.entry "node_modules/eslint").Settled := by
    rw [hentry]
    refine ⟨hq.rooted, hq.slashes, fun n hn => ?_⟩
    rcases List.mem_append.mp hn with hn | hn
    · exact hq.names n hn
    · rcases List.mem_cons.mp hn with rfl | hn
      · exact ⟨⟨by decide, by decide, by decide⟩, by decide⟩
      · rw [List.mem_singleton.mp hn]
        exact ⟨⟨by decide, by decide, by decide⟩, by decide⟩
  rw [directory_text hsettled]
  exact isAbsolute_text hsettled.parent.rooted

/-- A copy found near the files is built from an absolute directory. -/
theorem Package.BuiltFrom.isAbsolute_near (hcwd : Path.isAbsolute w.cwd = true) {tools : Value}
    {fileDir base : String} {policy : Policy} {project : Option String} {copy : Installation}
    (h : BuiltFrom w tools fileDir policy project base copy)
    (horigin : copy.origin = .localProject) : Path.isAbsolute base = true := by
  cases h with
  | found _ hmodules => exact hmodules.isAbsolute hcwd
  | given => cases horigin
  | told => cases horigin
  | named => cases horigin
  | inProject => cases horigin
  | bundled => cases horigin

/-! ## 4. Finding a copy -/

/-- What the fields of a manifest make is the copy that it says. -/
theorem Package.ofManifest_eq_ok {found : Installation} {manifest : Entries Json} {entry : PartPath}
    {package : Package} : (ofManifest found manifest entry).toExcept = .ok package ↔
      package.installation = found ∧ package.main = entry.text ∧
        nameOr manifest "name" "eslint" = .text package.name ∧
        (manifest.get? "version").getD .null = .ofText? package.version := by
  rw [Checked.toExcept_eq_ok, ofManifest, Checked.seq_eq_ok]
  constructor
  · rintro ⟨_, version, hmade, hversion, rfl⟩
    obtain ⟨name, hname, rfl⟩ := Checked.map_eq_ok.mp hmade
    exact ⟨rfl, rfl, Record.text_json.mp (Checked.inside_eq_ok.mp hname),
      Record.field_text?.mp hversion⟩
  · obtain ⟨installation, name, version, main⟩ := package
    rintro ⟨rfl, rfl, hname, hversion⟩
    exact ⟨_, version, Checked.map_eq_ok.mpr
      ⟨name, Checked.inside_eq_ok.mpr (Record.text_json.mpr hname), rfl⟩,
      Record.field_text?.mpr hversion, rfl⟩

/-- The copy that is loaded is the one that was found. -/
theorem Package.installation_of_load {found : Installation} {package : Package}
    (h : loadFrom w found = .ok (.ok package)) : package.installation = found := by
  unfold loadFrom at h
  obtain ⟨manifest?, -, h⟩ := Except.bind_eq_ok h
  split at h
  · obtain ⟨entry, -, h⟩ := Except.bind_eq_ok h
    obtain ⟨present, -, h⟩ := Except.bind_eq_ok h
    split at h
    · obtain ⟨loaded, hloaded, h⟩ := Except.bind_eq_ok h
      cases h
      exact (ofManifest_eq_ok.mp hloaded).1
    · cases h
  · cases h

section Package

variable {P : Session → Prop} {tools : Value} (hP : Locates w (Same P) (Same P))
  (hsound : ∀ s, P s → Sound w tools s)
include hP hsound

theorem ends_nodePrefix :
    Ends w P Npm.nodePrefix (fun under s => P s ∧ Npm.Tells w under) P := by
  refine hP.nodePrefix.keeps.result fun s under hs hrun => ?_
  cases hm : s.cache.nodePrefix with
  | some known =>
    rw [Npm.nodePrefix_known hm] at hrun
    rw [← Except.ok.inj hrun]
    exact (hsound s hs).nodePrefix known hm
  | none =>
    obtain ⟨log, hunknown⟩ := Npm.nodePrefix_unknown (w := w) hm
    rw [hunknown] at hrun
    exact ⟨s.started, s.context.env, hrun⟩

theorem ends_bundledPath : Ends w P NodeTools.bundledPath
    (fun path s => P s ∧ NodeTools.bundled w tools = .ok path) P := by
  refine hP.bundled.keeps.result fun s path hs hrun => ?_
  have hs := hsound s hs
  obtain ⟨memo, -, hbundled⟩ :=
    NodeTools.bundledPath_run (hs.nodeToolsDir.symm ▸ hs.cache.bundledPath)
  rw [hbundled, hs.nodeToolsDir] at hrun
  exact hrun

omit hP hsound in
theorem Package.builtFrom_bundled {fileDir path : String} {policy : Policy}
    {project : Option String} (hlocal : policy.useGlobal = false)
    (h : NodeTools.bundled w tools = .ok path) :
    ∃ base, BuiltFrom w tools fileDir policy project base ⟨path, .bundled⟩ := by
  obtain ⟨base, hbase, h⟩ := Except.bind_eq_ok h
  rw [← Except.ok.inj h]
  exact ⟨base.text, .bundled hlocal hbase⟩

omit hP hsound in
theorem Package.expected_some {fileDir path base : String} {policy : Policy}
    {project : Option String} {origin : Origin}
    (h : BuiltFrom w tools fileDir policy project base ⟨path, origin⟩) :
    Expected w tools fileDir policy project (origin, some path) := by
  intro path' hpath
  obtain rfl : path = path' := Option.some.inj hpath
  exact ⟨base, h⟩

/-- Where a policy's mode expects its copy is built from such a directory. -/
theorem ends_candidate {fileDir : String} {modulesDir : Option String}
    (hdir : ∀ dir, modulesDir = some dir → Finder.Modules w fileDir dir) (policy : Policy)
    (project : Option String) : Ends w P (Package.candidate modulesDir policy project)
      (fun expected s => P s ∧ Package.Expected w tools fileDir policy project expected) P := by
  have nothing (origin : Origin) : Package.Expected w tools fileDir policy project (origin, none) :=
    fun _ h => nomatch h
  unfold Package.candidate
  split
  · rename_i hglobal
    refine .cleanPath_bind (fun given hgiven => ?_) fun _ hs => hs
    split
    · rename_i hempty
      subst hempty
      exact (ends_nodePrefix hP hsound).bind fun under => .assume fun hunder => .read_bind
        (.pure fun s hs => ⟨hs, Package.expected_some (.told hglobal hgiven hunder)⟩)
    · rename_i hsome
      exact Ends.bind (Q := fun under s => P s ∧ given = under) (.pure fun s hs => ⟨hs, rfl⟩)
        fun under => .read_bind (.pure fun s hs =>
          ⟨hs.1, hs.2 ▸ Package.expected_some (.given hglobal hgiven hsome)⟩)
  · rename_i hlocal
    have hlocal : policy.useGlobal = false := by simpa using hlocal
    split
    · split
      · exact .pure fun s hs => ⟨hs, nothing _⟩
      · exact .pure fun s hs => ⟨hs, nothing _⟩
      · exact .pure fun s hs => ⟨hs, Package.expected_some (.found hlocal (hdir _ rfl))⟩
    · split
      · exact .pure fun s hs => ⟨hs, nothing _⟩
      · exact .pure fun s hs => ⟨hs, nothing _⟩
      · exact .pure fun s hs => ⟨hs, Package.expected_some (.found hlocal (hdir _ rfl))⟩
    · rename_i entry _ hentry
      refine .cleanPath_bind (fun dir hdir => ?_) fun _ hs => hs
      split
      · rename_i habsolute
        exact .pure fun s hs => ⟨hs, Package.expected_some (.named hlocal hentry hdir habsolute)⟩
      · rename_i hrelative
        exact .pure fun s hs => ⟨hs, Package.expected_some
          (.inProject hlocal hentry hdir (by simpa using hrelative))⟩

omit hP hsound in
/-- What is located is a directory that was expected. -/
theorem Package.present_eq_some {expected : Option String} {path : String} :
    present? w expected = some path ↔
      expected = some path ∧ path ≠ "" ∧ w.isDirectory path = true := by
  unfold present?
  split
  · exact iff_of_false nofun nofun
  · refine iff_of_false nofun fun h => ?_
    exact h.2.1 (Option.some.inj h.1).symm
  · rename_i other hother
    split
    · rename_i hthere
      constructor
      · intro h
        obtain rfl := Option.some.inj h
        exact ⟨rfl, fun e => hother (e ▸ rfl), hthere⟩
      · exact fun h => h.1
    · rename_i hthere
      refine iff_of_false nofun fun h => hthere ?_
      rw [Option.some.inj h.1]
      exact h.2.2

omit hP hsound in
theorem Package.BuiltFrom.not_global {fileDir base : String} {policy : Policy}
    {project : Option String} {copy : Installation}
    (h : BuiltFrom w tools fileDir policy project base copy)
    (horigin : copy.origin ≠ .global) : policy.useGlobal = false := by
  cases h with
  | given => exact absurd rfl horigin
  | told => exact absurd rfl horigin
  | found hlocal => exact hlocal
  | named hlocal => exact hlocal
  | inProject hlocal => exact hlocal
  | bundled hlocal => exact hlocal

theorem ends_locate {fileDir : String} {modulesDir : Option String}
    (hdir : ∀ dir, modulesDir = some dir → Finder.Modules w fileDir dir) (policy : Policy)
    (project : Option String) : Ends w P (Package.locate modulesDir policy project)
      (fun copy s => P s ∧
        ∃ base, Package.BuiltFrom w tools fileDir policy project base copy) P := by
  rw [Package.locate]
  refine (ends_candidate hP hsound hdir policy project).bind fun candidate =>
    .assume fun hexpected => ?_
  obtain ⟨origin, expected⟩ := candidate
  refine .read_bind ?_
  split
  · rename_i path hpresent
    exact (hP.tell _ _ _).keeps.bind fun _ => .pure fun s hs =>
      ⟨hs, hexpected path (Package.present_eq_some.mp hpresent).1⟩
  · split
    · exact .throw fun _ h => h
    · rename_i hlocal
      exact (ends_bundledPath hP hsound).bind fun path => .assume fun hpath =>
        (hP.tell _ _ _).keeps.bind fun _ => .pure fun s hs =>
          ⟨hs, Package.builtFrom_bundled (by simpa using hlocal) hpath⟩

omit hP hsound in
theorem ends_loadFrom (found : Installation) : Ends w P (Action.ofExcept (Package.loadFrom w found))
    (fun loaded s => P s ∧ Package.loadFrom w found = .ok loaded) P :=
  .ofExcept (fun _ h _ hs => ⟨hs, h⟩) fun _ h => h

theorem ends_loadBundled (fileDir : String) {policy : Policy} (hlocal : policy.useGlobal = false)
    (project : Option String) : Ends w P Package.loadBundled (fun package s => P s ∧
      ∃ base, Package.BuiltFrom w tools fileDir policy project base package.installation) P := by
  rw [Package.loadBundled]
  refine (ends_bundledPath hP hsound).bind fun path => .assume fun hpath => .read_bind ?_
  refine (ends_loadFrom (w := w) (P := P) _).bind fun loaded => .assume fun hload => ?_
  cases loaded with
  | error reason => exact .throw fun _ h => h
  | ok package =>
    refine .pure fun s hs => ⟨hs, ?_⟩
    rw [Package.installation_of_load hload]
    exact Package.builtFrom_bundled hlocal hpath

theorem ends_load {fileDir : String} {modulesDir : Option String}
    (hdir : ∀ dir, modulesDir = some dir → Finder.Modules w fileDir dir) (policy : Policy)
    (project : Option String) : Ends w P (Package.load modulesDir policy project)
      (fun package s => P s ∧
        ∃ base, Package.BuiltFrom w tools fileDir policy project base package.installation) P := by
  rw [Package.load]
  refine (ends_locate hP hsound hdir policy project).bind fun copy => .assume fun hlocated =>
    .read_bind ?_
  obtain ⟨base, hbuilt⟩ := hlocated
  refine (ends_loadFrom (w := w) (P := P) _).bind fun loaded => .assume fun hload => ?_
  cases loaded with
  | ok package =>
    refine .pure fun s hs => ⟨hs, base, ?_⟩
    rw [Package.installation_of_load hload]
    exact hbuilt
  | error reason =>
    obtain ⟨path, origin⟩ := copy
    have again (horigin : origin ≠ .global) := (hP.tell Package.source .warning
      ("Could not load ESLint from " ++ path ++ " (" ++ reason ++
        "), using bundled copy")).keeps.bind fun _ =>
          ends_loadBundled hP hsound fileDir (hbuilt.not_global horigin) project
    cases origin with
    | global => exact .throw fun _ h => h
    | bundled => exact .throw fun _ h => h
    | localProject => exact again (by decide)
    | advanced => exact again (by decide)

/-- **The copy for the files of a directory** is built from a directory that was named. -/
theorem ends_package
    (hpointed : ∀ s dir log, P s → P { s with context := s.context.pointedAt dir, log := log })
    (fileDir : String) (policy : Policy) (project : Option String) :
    Ends w P (Package.forDirectory fileDir policy project) (fun package s => P s ∧
      ∃ base, Package.BuiltFrom w tools fileDir policy project base package.installation) P := by
  rw [Package.forDirectory]
  have hfind : Ends w P (Finder.find fileDir ["node_modules/eslint"]) (fun found s => P s ∧
      ∀ dir, found.map directory = some dir → Finder.Modules w fileDir dir) P := by
    refine (hP.find _ _).keeps.result fun s found hs hrun dir hdir => ?_
    obtain ⟨memo, -, hfresh⟩ :=
      Finder.find_run (hsound s hs).cache.finder fileDir ["node_modules/eslint"]
    obtain ⟨path, rfl, rfl⟩ := Option.map_eq_some_iff.mp hdir
    rw [hfresh] at hrun
    dsimp only at hrun
    exact ⟨path, hrun, rfl⟩
  refine hfind.bind fun found => .assume fun hdir => ⟨fun s hs => ?_⟩
  obtain ⟨log, hrefresh⟩ := Package.refresh_run (m := w) (found.map directory) s
  rw [run_bind_ok hrefresh]
  exact (ends_load hP hsound hdir policy project).outcome _ (hpointed s _ log hs)

end Package

end LintHost
