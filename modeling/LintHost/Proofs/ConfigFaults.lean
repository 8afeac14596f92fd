import LintHost.Proofs.ConfigSearch
import LintHost.Proofs.CopyFaults
import LintHost.Proofs.FileText

/-!
# What breaks the search for the configuration file

A manifest that cannot be read, or whose text is no JSON, counts as one without a section. This file
says what can break the search all the same where the directories may be searched: a manifest whose
bytes are no text or whose nesting is too deep, a link to what is closed, and a path that is too
long.

* `World.HoldsJson`, `loadJson_eq_none_iff`: which files count as holding no value;
* `ConfigFile.Spoiled`, `ConfigFile.Stumbles`: what breaks the search in a directory;
* `stumbles_iff`: in a searchable directory nothing else does;
* `config_search_breaks_iff`: so the search ends well exactly if it comes to no such directory.
-/

namespace LintHost

open LintHost.Action LintHost.Path

variable {w : World}

/-! ## 1. Files without a JSON value -/

/-- The file can be read, its bytes are text, and the text is that of a JSON value. -/
def World.HoldsJson (w : World) (p : PartPath) : Prop :=
  ∃ content text j, w.files.read w.cwd p.text = .ok content ∧ Text.ofFile? content = some text ∧
    Json.read text = .ok j

/-- A file counts as holding no value if it holds none and is no fault. -/
theorem World.loadJson_eq_none_iff {p : PartPath} :
    w.loadJson p = .ok none ↔ ¬w.HoldsJson p ∧ ∀ fault, ¬w.Garbled p fault := by
  constructor
  · intro h
    refine ⟨fun ⟨content, text, j, hheld⟩ => ?_, fun fault hfault => ?_⟩
    · rw [loadJson_eq_some.mpr ⟨content, text, hheld⟩] at h
      cases h
    · rw [loadJson_eq_error_iff.mpr hfault] at h
      cases h
  · rintro ⟨hheld, hgarbled⟩
    cases h : w.loadJson p with
    | error fault => exact absurd (loadJson_eq_error_iff.mp h) (hgarbled fault)
    | ok value? =>
      cases value? with
      | none => rfl
      | some j =>
        obtain ⟨content, text, hj⟩ := loadJson_eq_some.mp h
        exact absurd ⟨content, text, j, hj⟩ hheld

/-- Whatever is to be taken for a file without a value is taken exactly if the file is no fault. -/
theorem World.loadJson_getD_iff {p : PartPath} (h : ¬w.HoldsJson p) :
    (∀ fallback, (w.loadJson p).map (·.getD fallback) = .ok fallback) ↔
      ∀ fault, ¬w.Garbled p fault := by
  constructor
  · intro hall fault hfault
    have hnull := hall .null
    rw [loadJson_eq_error_iff.mpr hfault] at hnull
    cases hnull
  · intro hgarbled fallback
    rw [loadJson_eq_none_iff.mpr ⟨h, hgarbled⟩]
    rfl

namespace ConfigFile

variable {d : PartPath}

/-! ## 2. Where the search breaks -/

/-- What breaks the search in a directory under a name. -/
inductive Spoiled (w : World) (d : PartPath) : String → Prop
  /-- The path, or one on the way to which links lead, is too long. -/
  | long {name : String} (h : w.files.exists? w.cwd (d.entry name).text = .error .nameTooLong) :
    Spoiled w d name
  /-- What stands there is a link to what is closed. -/
  | astray {name target : String}
    (hlink : w.files.lstat w.cwd (d.entry name).text = .ok (.link target))
    (h : w.files.exists? w.cwd (d.entry name).text = .error .denied) : Spoiled w d name
  /-- The manifest's bytes are no text, or its nesting is too deep. -/
  | garbled {fault : Fault} (hthere : w.files.exists? w.cwd (d.entry manifestName).text = .ok true)
    (h : w.Garbled (d.entry manifestName) fault) : Spoiled w d manifestName

/-- The first name that is not plainly absent in the directory breaks the search. -/
def Stumbles (w : World) (d : PartPath) : Prop :=
  ∃ before name after, names = before ++ name :: after ∧
    Finder.Lacks w.files w.cwd before d ∧ Spoiled w d name

theorem embeds_eq_error {fault : Fault} (hd : d.Settled) :
    embeds w (d.entry manifestName).text = .error fault ↔
      w.Garbled (d.entry manifestName) fault := by
  rw [embeds, PartPath.ofText_text (hd.entry isName_manifestName).plain,
    ← World.loadJson_eq_error_iff]
  cases w.loadJson (d.entry manifestName) with
  | error other => rw [Except.error_bind, Except.error.injEq, Except.error.injEq]
  | ok value? =>
    refine iff_of_false (fun h => ?_) nofun
    rw [Except.ok_bind] at h
    split at h <;> cases h

theorem embeds_of_none (hd : d.Settled) (h : w.loadJson (d.entry manifestName) = .ok none) :
    embeds w (d.entry manifestName).text = .ok false := by
  rw [embeds, PartPath.ofText_text (hd.entry isName_manifestName).plain, h]
  rfl

/-- A name is one of those that count by themselves, or it is the manifest's and the last. -/
theorem names_split {before after : List String} {name : String}
    (h : names = before ++ name :: after) :
    (∃ rest, ownNames = before ++ name :: rest) ∨ before = ownNames ∧ name = manifestName := by
  rw [names_eq] at h
  rcases List.eq_nil_or_concat' after with rfl | ⟨init, last, rfl⟩
  · obtain ⟨hbefore, hname⟩ := List.append_inj' h rfl
    exact .inr ⟨hbefore.symm, (List.singleton_inj.mp hname).symm⟩
  · rw [← List.cons_append, ← List.append_assoc] at h
    exact .inl ⟨init, (List.append_inj' h rfl).1⟩

/-- **In a searchable directory** the search breaks in these ways only. -/
theorem stumbles_iff (hd : d.Settled) (hopen : w.files.searchable w.cwd d.text = true) :
    Stumbles w d ↔ ∃ fault, Yields w d (.error fault) := by
  -- a probe that fails is for a link, or for a path that is too long
  have hspoiled {name : String} (hname : name ∈ names) {cause : LookupFault}
      (h : w.files.exists? w.cwd (d.entry name).text = .error cause) : Spoiled w d name := by
    rcases FileTree.exists?_fault h with rfl | rfl
    · obtain ⟨target, hlink⟩ := FileTree.link_of_denied hd (isName_of_mem hname) hopen h
      exact .astray hlink h
    · exact .long h
  constructor
  · rintro ⟨before, name, after, hnames, hbefore, hname⟩
    have hfails {cause : LookupFault}
        (h : w.files.exists? w.cwd (d.entry name).text = .error cause) :
        ∃ fault, Yields w d (.error fault) := by
      rcases names_split hnames with ⟨rest, hown⟩ | ⟨rfl, rfl⟩
      · exact ⟨_, .own (.unknown hown hbefore h) nofun⟩
      · exact ⟨_, .unknown hbefore h⟩
    cases hname with
    | long h => exact hfails h
    | astray _ h => exact hfails h
    | garbled hthere h =>
      rcases names_split hnames with ⟨rest, hown⟩ | ⟨rfl, -⟩
      · have hmem : manifestName ∈ ownNames := by rw [hown]; simp
        exact absurd hmem (by decide)
      · exact ⟨_, .garbled hbefore hthere ((embeds_eq_error hd).mpr h)⟩
  · rintro ⟨fault, h⟩
    cases h with
    | own h _ =>
      cases h with
      | @unknown before after name cause hnames hbefore h =>
        have hsplit : names = before ++ name :: (after ++ [manifestName]) := by
          rw [names_eq, hnames, List.append_assoc, List.cons_append]
        exact ⟨before, name, _, hsplit, hbefore, hspoiled (by rw [hsplit]; simp) h⟩
    | unknown hown h => exact ⟨ownNames, manifestName, [], rfl, hown, hspoiled (by decide) h⟩
    | garbled hown h hsection =>
      exact ⟨ownNames, manifestName, [], rfl, hown, .garbled h ((embeds_eq_error hd).mp hsection)⟩

/-! ## 3. The whole search -/

variable {visits : List Visit} {s : Session} {start : String}

/-- The search ends well exactly if no directory that it comes to yields a fault. -/
theorem find_ends_well_iff (hcwd : isAbsolute w.cwd = true)
    (hvisits : ∀ v ∈ visits, v.Sees w.files) (hs : s.cache.finder = FinderMemo.after visits) :
    (∃ found, ((find start).run w s).1 = .ok found) ↔
      ¬∃ k ≤ (Finder.origin w start).names.length,
        (∀ j < k, Yields w ((Finder.origin w start).up j) (.ok none)) ∧
        ∃ fault, Yields w ((Finder.origin w start).up k) (.error fault) := by
  have hfails (fault : Fault) : ((find start).run w s).1 = .error fault ↔ _ :=
    (find_after hcwd hvisits hs start).trans (PartPath.climbs_decided nofun)
  constructor
  · rintro ⟨found, hfound⟩ ⟨k, hk, hnearer, fault, h⟩
    rw [(hfails fault).mpr ⟨k, hk, hnearer, h⟩] at hfound
    cases hfound
  · intro hnone
    cases h : ((find start).run w s).1 with
    | ok found => exact ⟨found, rfl⟩
    | error fault =>
      obtain ⟨k, hk, hnearer, hfault⟩ := (hfails fault).mp h
      exact absurd ⟨k, hk, hnearer, fault, hfault⟩ hnone

theorem settled_origin_up (hcwd : isAbsolute w.cwd = true) (start : String) (k : Nat) :
    ((Finder.origin w start).up k).Settled := by
  rw [origin_eq_place hcwd]
  exact (settled_place hcwd start).up k

/-- Where the nearest directories yield nothing, the search may as well begin above them. -/
theorem find_above (hcwd : isAbsolute w.cwd = true) (hvisits : ∀ v ∈ visits, v.Sees w.files)
    (hs : s.cache.finder = FinderMemo.after visits) {k : Nat}
    (hk : k ≤ (Finder.origin w start).names.length)
    (h : ∀ j < k, Yields w ((Finder.origin w start).up j) (.ok none)) :
    ((find start).run w s).1 = ((find ((Finder.origin w start).up k).text).run w s).1 := by
  have habove : Finder.origin w ((Finder.origin w start).up k).text =
      (Finder.origin w start).up k := by
    rw [origin_eq_place hcwd, place_text (settled_origin_up hcwd start k)]
  rw [find_after hcwd hvisits hs, ← fresh_eq_iff hcwd, eq_comm, find_after hcwd hvisits hs,
    ← fresh_eq_iff hcwd, fresh_eq hcwd, fresh_eq hcwd, habove]
  exact (Finder.firstSome_up hk fun j hj => inDirectory_eq_iff.mpr (h j hj)).symm

/-- **What breaks the search.** Where the directories from the start to the root are searchable, the
    search ends well exactly if the directories that it comes to do not make it stumble. A manifest
    that holds no JSON value and is no fault counts as one without a section, and the search goes
    on above its directory; and so a file without a value counts as none wherever JSON is loaded. -/
theorem config_search_breaks_iff (hcwd : isAbsolute w.cwd = true)
    (hvisits : ∀ v ∈ visits, v.Sees w.files) (hs : s.cache.finder = FinderMemo.after visits)
    (start : String) (hopen : ∀ k ≤ (Finder.origin w start).names.length,
      w.files.searchable w.cwd ((Finder.origin w start).up k).text = true) :
    ((∃ found, ((find start).run w s).1 = .ok found) ↔
      ¬∃ k ≤ (Finder.origin w start).names.length,
        (∀ j < k, Yields w ((Finder.origin w start).up j) (.ok none)) ∧
        Stumbles w ((Finder.origin w start).up k)) ∧
    (∀ k < (Finder.origin w start).names.length,
      (∀ j < k, Yields w ((Finder.origin w start).up j) (.ok none)) →
      Finder.Lacks w.files w.cwd ownNames ((Finder.origin w start).up k) →
      ¬w.HoldsJson (((Finder.origin w start).up k).entry manifestName) →
      (∀ fault, ¬w.Garbled (((Finder.origin w start).up k).entry manifestName) fault) →
      w.files.exists? w.cwd (((Finder.origin w start).up k).entry manifestName).text = .ok true →
      ((find start).run w s).1 =
        ((find ((Finder.origin w start).up (k + 1)).text).run w s).1) ∧
    ∀ p, ¬w.HoldsJson p →
      ((∀ fallback, (w.loadJson p).map (·.getD fallback) = .ok fallback) ↔
        ∀ fault, ¬w.Garbled p fault) := by
  have hsettled (k : Nat) := settled_origin_up hcwd start k
  refine ⟨?_, fun k hk hnearer hown hheld hgarbled hthere => ?_, fun p => World.loadJson_getD_iff⟩
  · rw [find_ends_well_iff hcwd hvisits hs]
    refine not_congr (exists_congr fun k => and_congr_right fun hk => and_congr_right fun _ => ?_)
    exact (stumbles_iff (hsettled k) (hopen k hk)).symm
  · refine find_above hcwd hvisits hs hk fun j hj => ?_
    rcases Nat.lt_succ_iff_lt_or_eq.mp hj with hj | rfl
    · exact hnearer j hj
    · exact .passed hown hthere (embeds_of_none (hsettled j)
        (World.loadJson_eq_none_iff.mpr ⟨hheld, hgarbled⟩))

end ConfigFile

/-! ## 4. A project with such manifests -/

/-- A machine with a configuration file in the root, this manifest in `/p`, and in `/p/q` a
    directory by that name. -/
def World.littered (manifest : ByteArray) : World :=
  { World.bare with
    files := ((FileTree.empty.add [".eslintrc"] (.file .empty true true)).add ["p", "package.json"]
      (.file manifest true true)).add ["p", "q", "package.json"] (.directory true) }

/-- A manifest whose bytes are no text breaks the search, though all directories are searchable and
    there is a file above it. -/
theorem ConfigFile.garbled_manifest_not_passed :
    (∀ k ≤ (Finder.origin (.littered ⟨#[0xff]⟩) "/p").names.length,
      (World.littered ⟨#[0xff]⟩).files.searchable (World.littered ⟨#[0xff]⟩).cwd
        ((Finder.origin (.littered ⟨#[0xff]⟩) "/p").up k).text = true) ∧
    ((find "/p").run (World.littered ⟨#[0xff]⟩) (.start (.ofEnv []))).1 = .error .notUtf8 :=
  ⟨by decide +kernel, rfl⟩

/-- A machine where that manifest was not written to its end. -/
def World.unfinished : World := .littered "[".toUTF8

/-- A manifest that is no JSON and a directory in a manifest's place do not break the search. -/
theorem ConfigFile.malformed_manifest_passed :
    isAbsolute World.unfinished.cwd = true ∧
    (∀ k ≤ (Finder.origin .unfinished "/p/q").names.length,
      World.unfinished.files.searchable World.unfinished.cwd
        ((Finder.origin .unfinished "/p/q").up k).text = true) ∧
    ∃ found, ((find "/p/q").run World.unfinished (.start (.ofEnv []))).1 = .ok found := by
  have hcwd : isAbsolute World.unfinished.cwd = true := by decide
  have hvisits : ∀ v ∈ ([] : List Visit), v.Sees World.unfinished.files := List.forall_mem_nil _
  have hmemo : (Session.start (.ofEnv [])).cache.finder = .after [] := rfl
  have hopen : ∀ k ≤ (Finder.origin .unfinished "/p/q").names.length,
      World.unfinished.files.searchable World.unfinished.cwd
        ((Finder.origin .unfinished "/p/q").up k).text = true := by decide +kernel
  have hcalm : ∀ k ≤ (Finder.origin .unfinished "/p/q").names.length,
      (inDirectory .unfinished ((Finder.origin .unfinished "/p/q").up k)).isOk = true := by
    decide +kernel
  refine ⟨hcwd, hopen, (config_search_breaks_iff hcwd hvisits hmemo "/p/q" hopen).1.mpr ?_⟩
  rintro ⟨k, hk, -, hstumbles⟩
  obtain ⟨fault, hfault⟩ :=
    (stumbles_iff (settled_origin_up hcwd "/p/q" k) (hopen k hk)).mp hstumbles
  have hok := hcalm k hk
  rw [hfault.inDirectory] at hok
  cases hok

end LintHost
