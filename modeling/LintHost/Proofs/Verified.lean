import LintHost.Proofs.Locating

/-!
# A loaded copy was verified

Before a copy of the linter is handed on, its manifest is read and its entry point is looked for. So
whoever gets a copy knows what its files say, and which copy it is: the one that was located if that
can be verified, and else the bundled one.

* `Package.Enterable`: the entry point is there, or its sibling with `.js` added;
* `Package.Verified`: a copy is what its manifest says, and its entry point is there;
* `loadFrom_eq_ok_iff`: what is read at a location is the copy there that is verified;
* `load_eq`: loading goes on from what was located;
* `loaded_copy_verified`: what is loaded was verified, and where it was found.
-/

namespace LintHost

open LintHost.Action

namespace Package

variable {w : World}

/-! ## 1. Verified copies -/

/-- A regular file stands at a path, or else at the path with `.js` added to its name. -/
def Enterable (w : World) (entry : PartPath) : Prop :=
  isFile w entry = .ok true ∨
    ∃ sibling, entry.extendName? ".js".toList = some sibling ∧ isFile w sibling = .ok true

/-- A copy is what its manifest says: the main file, seen from the copy's directory, the name and the
    version, where a manifest without a main file or a name stands for the usual ones. -/
structure Says (manifest : Entries Json) (package : Package) : Prop where
  main : ∃ main, nameOr manifest "main" "index.js" = .text main ∧
    package.main = ((PartPath.ofText package.path).entry main).text
  name : nameOr manifest "name" "eslint" = .text package.name
  version : (manifest.get? "version").getD .null = .ofText? package.version

/-- **A copy is verified**: the manifest in its directory is a JSON object that says of it what it
    says itself, and its main file is there. -/
def Verified (w : World) (package : Package) : Prop :=
  ∃ manifest, w.loadJson ((PartPath.ofText package.path).entry manifestName) =
      .ok (some (.object manifest)) ∧
    Says manifest package ∧ Enterable w (PartPath.ofText package.main)

/-- There is a verified copy at a location. -/
def Verifiable (w : World) (found : Installation) : Prop :=
  ∃ package : Package, package.installation = found ∧ package.Verified w

theorem plain_entry (path name : String) : ((PartPath.ofText path).entry name).Plain :=
  (PartPath.plain_ofText path).child (PartPath.plain_ofText name)

/-- The manifest by which a verified copy is entered. -/
theorem Verified.enters {package : Package} (h : package.Verified w) : ∃ manifest entry,
    Enters w (PartPath.ofText package.path) manifest entry ∧ Enterable w entry := by
  obtain ⟨manifest, hheld, hsays, henterable⟩ := h
  obtain ⟨main, hmain, hentry⟩ := hsays.main
  rw [hentry, PartPath.ofText_text (plain_entry _ _)] at henterable
  exact ⟨manifest, _, ⟨hheld, main, hmain, rfl⟩, henterable⟩

/-- The files at a location say all about the copy there. -/
theorem Verified.unique {package other : Package} (h : package.Verified w)
    (hother : other.Verified w) (hsame : package.installation = other.installation) :
    package = other := by
  obtain ⟨manifest, hheld, ⟨⟨main, hmain, hentry⟩, hname, hversion⟩, -⟩ := h
  obtain ⟨manifest', hheld', ⟨⟨main', hmain', hentry'⟩, hname', hversion'⟩, -⟩ := hother
  obtain ⟨installation, name, version, entry⟩ := package
  obtain ⟨installation', name', version', entry'⟩ := other
  obtain rfl : installation = installation' := hsame
  obtain rfl : manifest = manifest' := by
    have hboth := hheld.symm.trans hheld'
    simpa using hboth
  obtain rfl : main = main' := Json.text.inj (hmain.symm.trans hmain')
  obtain rfl : name = name' := Json.text.inj (hname.symm.trans hname')
  obtain rfl : version = version' := Json.ofText?_inj (hversion.symm.trans hversion')
  obtain rfl : entry = entry' := hentry.trans hentry'.symm
  rfl

/-! ## 2. Reading a copy -/

/-- The entry point is found if there is one of the two files, and only then. -/
theorem enterable_of_exists {entry : PartPath} {there : Bool}
    (h : entryExists w entry = .ok there) : there = true ↔ Enterable w entry := by
  obtain ⟨itself, hitself, h⟩ := Except.bind_eq_ok h
  unfold Enterable
  cases itself with
  | true =>
    cases h
    exact iff_of_true rfl (.inl hitself)
  | false =>
    rw [hitself]
    cases hsibling : entry.extendName? ".js".toList with
    | none =>
      simp only [hsibling] at h
      cases h
    | some sibling =>
      simp only [hsibling] at h
      have hsame : isFile w sibling = .ok there := h
      simp [hsame]

/-- What is read at a location whose manifest names an entry point. -/
theorem loadFrom_entered {found : Installation} {manifest : Entries Json} {entry : PartPath}
    (henters : Enters w (PartPath.ofText found.path) manifest entry)
    {loaded : Except String Package} (h : loadFrom w found = .ok loaded) :
    (∃ reason, loaded = .error reason ∧ ¬Enterable w entry) ∨
      ∃ package, loaded = .ok package ∧ Enterable w entry ∧
        (ofManifest found manifest entry).toExcept = .ok package := by
  rw [loadFrom_of_enters henters] at h
  obtain ⟨there, hexists, h⟩ := Except.bind_eq_ok h
  have hthere := enterable_of_exists hexists
  cases there with
  | false =>
    cases h
    exact .inl ⟨_, rfl, mt hthere.mpr Bool.false_ne_true⟩
  | true =>
    cases hmade : (ofManifest found manifest entry).toExcept with
    | error fault =>
      rw [hmade] at h
      cases h
    | ok package =>
      rw [hmade] at h
      cases h
      exact .inr ⟨package, rfl, hthere.mp rfl, rfl⟩

/-- Where a copy is read, its manifest names an entry point. -/
theorem enters_of_loadFrom {found : Installation} {package : Package}
    (h : loadFrom w found = .ok (.ok package)) :
    ∃ manifest entry, Enters w (PartPath.ofText found.path) manifest entry := by
  unfold loadFrom at h
  obtain ⟨value, hheld, h⟩ := Except.bind_eq_ok h
  split at h
  · rename_i manifest
    obtain ⟨entry, hentry, -⟩ := Except.bind_eq_ok h
    unfold entryPoint at hentry
    split at hentry
    · rename_i main hmain
      exact ⟨manifest, entry, hheld, main, hmain, (Except.ok.inj hentry).symm⟩
    · cases hentry
  · cases h

theorem verified_of_loadFrom {found : Installation} {package : Package}
    (h : loadFrom w found = .ok (.ok package)) :
    package.installation = found ∧ package.Verified w := by
  obtain ⟨manifest, entry, henters⟩ := enters_of_loadFrom h
  obtain ⟨reason, hreason, -⟩ | ⟨made, hmade, henterable, hfields⟩ := loadFrom_entered henters h
  · cases hreason
  · cases hmade
    obtain ⟨rfl, hmain, hname, hversion⟩ := ofManifest_eq_ok.mp hfields
    obtain ⟨hheld, main, hnamed, rfl⟩ := henters
    refine ⟨rfl, manifest, hheld, ⟨⟨main, hnamed, hmain⟩, hname, hversion⟩, ?_⟩
    rw [hmain, PartPath.ofText_text (plain_entry _ _)]
    exact henterable

/-- A copy that is told to be unusable cannot be verified. -/
theorem not_verifiable_of_loadFrom {found : Installation} {reason : String}
    (h : loadFrom w found = .ok (.error reason)) : ¬Verifiable w found := by
  rintro ⟨package, rfl, hverified⟩
  obtain ⟨manifest, entry, henters, henterable⟩ := hverified.enters
  have hloaded := @loadFrom_entered w package.installation manifest entry henters _ h
  obtain ⟨_, -, hnot⟩ | ⟨made, hmade, -⟩ := hloaded
  · exact hnot henterable
  · cases hmade

/-- **What is read at a location** is the copy there that is verified, where its files are no
    fault. -/
theorem loadFrom_eq_ok_iff {found : Installation} {package : Package} :
    loadFrom w found = .ok (.ok package) ↔
      package.installation = found ∧ package.Verified w ∧
        ∀ fault, ¬Unforeseen w found.path fault := by
  constructor
  · intro h
    obtain ⟨hfound, hverified⟩ := verified_of_loadFrom h
    refine ⟨hfound, hverified, fun fault hfault => ?_⟩
    rw [loadFrom_eq_error_iff.mpr hfault] at h
    cases h
  · rintro ⟨hfound, hverified, hreadable⟩
    cases hload : loadFrom w found with
    | error fault => exact absurd (.of_loadFrom hload) (hreadable fault)
    | ok loaded =>
      cases loaded with
      | error reason => exact absurd ⟨package, hfound, hverified⟩ (not_verifiable_of_loadFrom hload)
      | ok other =>
        obtain ⟨hother, hverified'⟩ := verified_of_loadFrom hload
        rw [hverified'.unique hverified (hother.trans hfound.symm)]

/-! ## 3. Loading -/

/-- What takes the place of an unusable copy: the bundled one for those of a project or a policy, and
    nothing for the others. -/
def replacement (w : World) (s : Session) (found : Installation) (reason : String) :
    Except Fault Package :=
  match found.origin with
  | .global => .error (unusable found.path globalUnloadable reason)
  | .bundled => .error (unusable found.path bundledDamaged reason)
  | .localProject | .advanced => bundledCopy w s

variable {s : Session} {modulesDir project : Option String} {policy : Policy}

/-- **Loading goes on from what was located**: that is read, and replaced if it is unusable. -/
theorem load_eq (w : World) (s : Session) (modulesDir : Option String) (policy : Policy)
    (project : Option String) : ((load modulesDir policy project).run w s).1 =
      ((locate modulesDir policy project).run w s).1 >>= fun found =>
        orElse (loadFrom w found) (replacement w s found) := by
  cases hmode : policy.useGlobal with
  | true =>
    rw [load_global hmode, locate_global hmode, globalCopy]
    cases globalPrefix w s policy with
    | error fault => rfl
    | ok under =>
      rw [Except.ok_bind, Except.ok_bind, globalCopyUnder_eq]
      cases hfound : globalInstallation w under with
      | error fault => rw [Except.error_bind, Except.error_bind]
      | ok found =>
        rw [Except.ok_bind, Except.ok_bind]
        unfold replacement
        rw [globalInstallation_origin hfound]
  | false =>
    rw [load_local hmode, locate_local hmode, localCopy]
    cases hcandidate : localCandidate w modulesDir policy project with
    | error fault => rfl
    | ok candidate =>
      have horigin := localCandidate_origin hcandidate
      obtain ⟨origin, expected⟩ := candidate
      rw [Except.ok_bind, Except.ok_bind]
      dsimp only at horigin ⊢
      cases present? w expected with
      | some path =>
        rw [Except.ok_bind]
        unfold replacement
        rcases horigin with rfl | rfl <;> rfl
      | none =>
        rw [bundledCopy]
        cases NodeTools.recalled w s with
        | error fault => rfl
        | ok path => rfl

/-- A copy that comes about after a replacement was read in one place or the other. -/
theorem orElse_eq_ok {loaded : Except Fault (Except String Package)}
    {replace : String → Except Fault Package} {package : Package} :
    orElse loaded replace = .ok package ↔ loaded = .ok (.ok package) ∨
      ∃ reason, loaded = .ok (.error reason) ∧ replace reason = .ok package := by
  unfold orElse
  split <;> simp

theorem bundledCopy_eq_ok {package : Package} (h : bundledCopy w s = .ok package) :
    ∃ path, NodeTools.recalled w s = .ok path ∧ loadFrom w ⟨path, .bundled⟩ = .ok (.ok package) := by
  obtain ⟨path, hpath, h⟩ := Except.bind_eq_ok h
  rcases orElse_eq_ok.mp h with h | ⟨reason, -, h⟩
  · exact ⟨path, hpath, h⟩
  · cases h

theorem replacement_eq_ok {found : Installation} {reason : String} {package : Package}
    (h : replacement w s found reason = .ok package) :
    (found.origin = .localProject ∨ found.origin = .advanced) ∧
      bundledCopy w s = .ok package := by
  unfold replacement at h
  split at h
  · cases h
  · cases h
  · exact ⟨.inl ‹_›, h⟩
  · exact ⟨.inr ‹_›, h⟩

/-- **A loaded copy was verified**: the manifest in its directory is a JSON object that says what
    the copy says of itself, and its main file is there. If there is such a copy where one was
    located, it is that one; and else it is the bundled one, which takes the place of a project's or
    a policy's copy only. A located copy that can be verified is loaded, unless its files are a
    fault. -/
theorem loaded_copy_verified (w : World) (s : Session) (modulesDir : Option String)
    (policy : Policy) (project : Option String) :
    (∀ package, ((load modulesDir policy project).run w s).1 = .ok package →
      package.Verified w ∧ ∃ found, ((locate modulesDir policy project).run w s).1 = .ok found ∧
        (Verifiable w found → package.installation = found) ∧
        (¬Verifiable w found → (found.origin = .localProject ∨ found.origin = .advanced) ∧
          ∃ path, (NodeTools.bundledPath.run w s).1 = .ok path ∧
            package.installation = ⟨path, .bundled⟩)) ∧
    ∀ found package, ((locate modulesDir policy project).run w s).1 = .ok found →
      package.installation = found → package.Verified w →
      (∀ fault, ¬Unforeseen w found.path fault) →
      ((load modulesDir policy project).run w s).1 = .ok package := by
  rw [load_eq]
  constructor
  · intro package h
    obtain ⟨found, hfound, h⟩ := Except.bind_eq_ok h
    rcases orElse_eq_ok.mp h with hload | ⟨reason, hunusable, hreplaced⟩
    · obtain ⟨hplace, hverified⟩ := verified_of_loadFrom hload
      exact ⟨hverified, found, hfound, fun _ => hplace,
        fun hnone => absurd ⟨package, hplace, hverified⟩ hnone⟩
    · obtain ⟨horigin, hcopy⟩ := replacement_eq_ok hreplaced
      obtain ⟨path, hpath, hload⟩ := bundledCopy_eq_ok hcopy
      obtain ⟨hplace, hverified⟩ := verified_of_loadFrom hload
      rw [NodeTools.bundledPath_result]
      exact ⟨hverified, found, hfound,
        fun hverifiable => absurd hverifiable (not_verifiable_of_loadFrom hunusable),
        fun _ => ⟨horigin, path, hpath, hplace⟩⟩
  · intro found package hfound hplace hverified hreadable
    rw [hfound, Except.ok_bind, loadFrom_eq_ok_iff.mpr ⟨hplace, hverified, hreadable⟩]
    rfl

end Package

/-! ## 4. A copy without its main file -/

/-- A machine with a copy in `/p` whose main file is missing, and with a bundled one whose manifest
    names the main file without its suffix. -/
def World.halfCopied : World :=
  { World.bare with
    files := ((FileTree.empty.add ["p", "node_modules", "eslint", "package.json"]
      (.file "\x7b\"main\": \"api\"\x7d".toUTF8 true true)).add
      ["tools", "node_modules", "eslint", "package.json"]
      (.file "\x7b\"main\": \"lib/api/\", \"name\": \"\"\x7d".toUTF8 true true)).add
      ["tools", "node_modules", "eslint", "lib", "api.js"] (.file .empty true true) }

/-- The bundled copy of that machine. -/
def Package.ofTools : Package :=
  ⟨⟨"/tools/node_modules/eslint", .bundled⟩, "eslint", none, "/tools/node_modules/eslint/lib/api"⟩

/-- It takes the place of the copy in `/p`, and is loaded as well where none is expected. -/
theorem Package.half_copied_verified :
    ((load (some "/p/node_modules") .standard none).run World.halfCopied (.start (.ofEnv []))).1 =
      .ok ofTools ∧ ofTools.Verified .halfCopied ∧
    ¬Verifiable .halfCopied ⟨"/p/node_modules/eslint", .localProject⟩ ∧
    ((load none .standard none).run World.halfCopied (.start (.ofEnv []))).1 = .ok ofTools := by
  have hload : ((load (some "/p/node_modules") .standard none).run World.halfCopied
      (.start (.ofEnv []))).1 = .ok ofTools := Except.eq_ok_of_toOption (by decide +kernel)
  have hlocate : ((locate (some "/p/node_modules") .standard none).run World.halfCopied
      (.start (.ofEnv []))).1 = .ok ⟨"/p/node_modules/eslint", .localProject⟩ :=
    Except.eq_ok_of_toOption (by decide +kernel)
  have htools : ((locate none .standard none).run World.halfCopied (.start (.ofEnv []))).1 =
      .ok ofTools.installation := Except.eq_ok_of_toOption (by decide +kernel)
  obtain ⟨hverified, found, hfound, hown, -⟩ := (loaded_copy_verified .halfCopied
    (.start (.ofEnv [])) (some "/p/node_modules") .standard none).1 ofTools hload
  obtain rfl := Except.ok.inj (hlocate.symm.trans hfound)
  refine ⟨hload, hverified, fun h => ?_, ?_⟩
  · exact absurd (hown h) (by decide +kernel)
  · refine (loaded_copy_verified .halfCopied (.start (.ofEnv [])) none .standard none).2 _ ofTools
      htools rfl hverified fun fault => ?_
    exact readable_of_isOk (by decide +kernel) _ rfl fault

end LintHost
