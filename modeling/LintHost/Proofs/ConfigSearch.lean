import LintHost.Proofs.Entering
import LintHost.Proofs.Lookups
import LintHost.Proofs.Nearest

/-!
# One walk finds the configuration file

The search for the linter's configuration file begins anew above each manifest that has no section.
All these searches together are one walk: each directory up to the root is looked into once, and
what it yields by itself decides.

* `ConfigFile.Yields`: what one directory yields;
* `inDirectory_eq_iff`: the same computed;
* `freshFrom_eq`: the search is the walk, however often it begins anew;
* `config_search_one_pass`: so it is without a memo and with any memo of the same files.
-/

namespace LintHost

open LintHost.Action LintHost.Path

namespace ConfigFile

open PartPath (Climbs)

variable {w : World} {d : PartPath} {result : Except Fault (Option String)}

/-! ## 1. What a directory yields -/

/-- The configuration files that count by themselves, in order of preference. -/
def ownNames : List String :=
  [".eslintrc.js", ".eslintrc.yaml", ".eslintrc.yml", ".eslintrc.json", ".eslintrc"]

theorem names_eq : names = ownNames ++ [manifestName] := rfl

/-- What a directory yields: the first file there that counts by itself, or else the manifest if it
    has a section, or else nothing. -/
inductive Yields (w : World) (d : PartPath) : Except Fault (Option String) → Prop
  /-- One of the names that count by themselves decides. -/
  | own {result : Except Fault (Option String)}
      (h : Finder.Shows w.files w.cwd ownNames d result) (hresult : result ≠ .ok none) :
      Yields w d result
  /-- There is no manifest either. -/
  | bare (hown : Finder.Lacks w.files w.cwd ownNames d)
      (h : w.files.exists? w.cwd (d.entry manifestName).text = .ok false) : Yields w d (.ok none)
  /-- It cannot be told whether there is a manifest. -/
  | unknown {fault : LookupFault} (hown : Finder.Lacks w.files w.cwd ownNames d)
      (h : w.files.exists? w.cwd (d.entry manifestName).text = .error fault) :
      Yields w d (.error (.ofLookup (d.entry manifestName).text fault))
  /-- The manifest has a section. -/
  | manifest (hown : Finder.Lacks w.files w.cwd ownNames d)
      (h : w.files.exists? w.cwd (d.entry manifestName).text = .ok true)
      (hsection : embeds w (d.entry manifestName).text = .ok true) :
      Yields w d (.ok (some (d.entry manifestName).text))
  /-- The manifest has none. -/
  | passed (hown : Finder.Lacks w.files w.cwd ownNames d)
      (h : w.files.exists? w.cwd (d.entry manifestName).text = .ok true)
      (hsection : embeds w (d.entry manifestName).text = .ok false) : Yields w d (.ok none)
  /-- The manifest is a fault. -/
  | garbled {fault : Fault} (hown : Finder.Lacks w.files w.cwd ownNames d)
      (h : w.files.exists? w.cwd (d.entry manifestName).text = .ok true)
      (hsection : embeds w (d.entry manifestName).text = .error fault) : Yields w d (.error fault)

/-- What a directory yields, computed. -/
def inDirectory (w : World) (d : PartPath) : Except Fault (Option String) := do
  match ← Finder.inDirectory w.files w.cwd ownNames d with
  | some file => return some file
  | none =>
    match ← Finder.probe w.files w.cwd (d.entry manifestName) with
    | none => return none
    | some manifest => return if ← embeds w manifest then some manifest else none

theorem inDirectory_own (hown : Finder.Lacks w.files w.cwd ownNames d) :
    inDirectory w d = (do
      match ← Finder.probe w.files w.cwd (d.entry manifestName) with
      | none => return none
      | some manifest => return if ← embeds w manifest then some manifest else none) := by
  rw [inDirectory, Finder.inDirectory_eq_iff.mpr (.absent hown), Except.ok_bind]

theorem Yields.inDirectory (h : Yields w d result) : inDirectory w d = result := by
  cases h with
  | own h hresult =>
    unfold ConfigFile.inDirectory
    rw [h.inDirectory]
    cases h with
    | present => rfl
    | unknown => rfl
    | absent => exact absurd rfl hresult
  | bare hown h => rw [inDirectory_own hown, Finder.probe_absent h]; rfl
  | unknown hown h => rw [inDirectory_own hown, Finder.probe_unknown h]; rfl
  | manifest hown h hsection | passed hown h hsection | garbled hown h hsection =>
    rw [inDirectory_own hown, Finder.probe_present h, Except.ok_bind]
    dsimp only
    rw [hsection]
    rfl

theorem exists_yields (w : World) (d : PartPath) : ∃ result, Yields w d result := by
  have hshows := Finder.shows_inDirectory w.files w.cwd d ownNames
  by_cases hnone : Finder.inDirectory w.files w.cwd ownNames d = .ok none
  · have hown : Finder.Lacks w.files w.cwd ownNames d := Finder.shows_none.mp (hnone ▸ hshows)
    cases h : w.files.exists? w.cwd (d.entry manifestName).text with
    | error fault => exact ⟨_, .unknown hown h⟩
    | ok there =>
      cases there with
      | false => exact ⟨_, .bare hown h⟩
      | true =>
        cases hsection : embeds w (d.entry manifestName).text with
        | error fault => exact ⟨_, .garbled hown h hsection⟩
        | ok counts =>
          cases counts with
          | false => exact ⟨_, .passed hown h hsection⟩
          | true => exact ⟨_, .manifest hown h hsection⟩
  · exact ⟨_, .own hshows hnone⟩

/-- **What a directory yields** is what looking into it gives. -/
theorem inDirectory_eq_iff : inDirectory w d = result ↔ Yields w d result := by
  refine ⟨fun h => ?_, Yields.inDirectory⟩
  obtain ⟨other, hother⟩ := exists_yields w d
  rw [← h, hother.inDirectory]
  exact hother

/-! ## 2. What the search meets in a directory -/

/-- Under all the names, a directory shows what it shows under those that count by themselves, or
    else the manifest. -/
theorem shows_names_of_own (h : Finder.Shows w.files w.cwd ownNames d result)
    (hresult : result ≠ .ok none) : Finder.Shows w.files w.cwd names d result := by
  cases h with
  | present hnames hbefore h =>
    exact .present (by rw [names_eq, hnames, List.append_assoc, List.cons_append]) hbefore h
  | unknown hnames hbefore h =>
    exact .unknown (by rw [names_eq, hnames, List.append_assoc, List.cons_append]) hbefore h
  | absent => exact absurd rfl hresult

theorem lacks_names (hown : Finder.Lacks w.files w.cwd ownNames d)
    (h : w.files.exists? w.cwd (d.entry manifestName).text = .ok false) :
    Finder.Lacks w.files w.cwd names d := by
  intro name hname
  rw [names_eq] at hname
  rcases List.mem_append.mp hname with hname | hname
  · exact hown name hname
  · rw [List.mem_singleton.mp hname]
    exact h

/-- The name of a configuration file is a name, and one entry of its directory. -/
theorem isName_of_mem {name : String} (h : name ∈ names) : IsName name.toList := by
  have hall : ∀ name ∈ names, name.toList ≠ [] ∧ name.toList ≠ dot ∧ '/' ∉ name.toList ∧
      name.toList ≠ dotDot := by decide
  obtain ⟨hne, hdot, hslash, hup⟩ := hall name h
  exact ⟨⟨hne, hdot, hslash⟩, hup⟩

/-! ## 3. The search, directory by directory -/

variable {fuel : Nat}

theorem isName_manifestName : IsName manifestName.toList := isName_of_mem (by decide)

theorem fresh_search (hd : d.Settled) :
    Finder.fresh w d.text names = Finder.search w.files w.cwd names d :=
  Finder.fresh_text hd w names w.cwd

/-- What the search does with a file that it has found. -/
theorem freshFrom_found {dir file : String} (h : Finder.fresh w dir names = .ok (some file)) :
    freshFrom w (fuel + 1) dir =
      (if base file = manifestName then embeds w file else .ok true) >>= fun counts =>
        if counts then .ok (some file)
        else if directory (directory file) = directory file then .ok none
        else freshFrom w fuel (directory (directory file)) := by
  rw [freshFrom, h, Except.ok_bind]
  by_cases hbase : base file = manifestName
  · simp only [if_pos hbase]
  · simp only [if_neg hbase]

theorem search_shown (h : Finder.Shows w.files w.cwd names d result) (hresult : result ≠ .ok none) :
    Finder.search w.files w.cwd names d = result := by
  refine Finder.search_eq_iff.mpr (.stops (Nat.zero_le _) (fun j hj => nomatch hj) ?_ hresult)
  rw [PartPath.up_zero]
  exact h

/-- Where nothing is shown, the search goes on above. -/
theorem search_lacking (h : Finder.Lacks w.files w.cwd names d) :
    Finder.search w.files w.cwd names d =
      if d.names = [] then .ok none else Finder.search w.files w.cwd names d.parent := by
  have hpassed := Finder.inDirectory_eq_iff.mpr (.absent h)
  unfold Finder.search
  split
  · rw [PartPath.ancestors_root ‹_›, Finder.firstSome_passed hpassed, Finder.firstSome]
  · rw [PartPath.ancestors_cons ‹_›, Finder.firstSome_passed hpassed]

/-- **A directory that yields more than nothing** decides the search. -/
theorem freshFrom_decided (hd : d.Settled) (h : Yields w d result) (hresult : result ≠ .ok none) :
    freshFrom w (fuel + 1) d.text = result := by
  cases h with
  | own h =>
    have hsearch := search_shown (shows_names_of_own h hresult) hresult
    rw [← fresh_search hd] at hsearch
    cases h with
    | @present before after name hnames hbefore h =>
      have hown : name ∈ ownNames := by rw [hnames]; simp
      have hname := isName_of_mem (List.mem_append_left [manifestName] hown)
      have hbase : base (d.entry name).text ≠ manifestName := by
        rw [hd.base_entry hname]
        exact fun e => absurd (e ▸ hown) (by decide)
      rw [freshFrom_found hsearch, if_neg hbase]
      rfl
    | unknown => rw [freshFrom, hsearch]; rfl
    | absent => exact absurd rfl hresult
  | bare => exact absurd rfl hresult
  | passed => exact absurd rfl hresult
  | unknown hown h =>
    have hsearch := search_shown (.unknown names_eq hown h) (by simp)
    rw [← fresh_search hd] at hsearch
    rw [freshFrom, hsearch]
    rfl
  | manifest hown h hsection | garbled hown h hsection =>
    have hsearch := search_shown (.present names_eq hown h) (by simp)
    rw [← fresh_search hd] at hsearch
    rw [freshFrom_found hsearch, if_pos (hd.base_entry isName_manifestName), hsection]
    rfl

/-- **A directory that yields nothing** is passed over: at the root the search ends, and elsewhere
    it is as good as begun above, with the searches that are left or one less. -/
theorem freshFrom_passed (hd : d.Settled) (h : Yields w d (.ok none)) :
    (d.names = [] → freshFrom w (fuel + 1) d.text = .ok none) ∧
      (d.names ≠ [] → ∃ left, fuel ≤ left ∧
        freshFrom w (fuel + 1) d.text = freshFrom w left d.parent.text) := by
  cases h with
  | own _ hresult => exact absurd rfl hresult
  | bare hown h =>
    have hsearch := search_lacking (lacks_names hown h)
    rw [← fresh_search hd, ← fresh_search hd.parent] at hsearch
    constructor
    · intro hroot
      rw [if_pos hroot] at hsearch
      rw [freshFrom, hsearch]
      rfl
    · intro hroot
      rw [if_neg hroot] at hsearch
      refine ⟨fuel + 1, Nat.le_succ fuel, ?_⟩
      rw [freshFrom, freshFrom, hsearch]
  | passed hown h hsection =>
    have hsearch := search_shown (.present names_eq hown h) (by simp)
    rw [← fresh_search hd] at hsearch
    have hfound : freshFrom w (fuel + 1) d.text = _ := freshFrom_found hsearch
    rw [if_pos (hd.base_entry isName_manifestName), hsection, Except.ok_bind,
      hd.directory_entry isName_manifestName, directory_text hd] at hfound
    constructor
    · intro hroot
      rw [hfound, PartPath.parent_eq_self_iff.mpr hroot, if_neg (by decide), if_pos rfl]
    · intro hroot
      have hparent : d.parent.text ≠ d.text := fun e =>
        hroot (PartPath.parent_eq_self_iff.mp (text_inj hd.parent.plain hd.plain e))
      exact ⟨fuel, Nat.le_refl fuel, by rw [hfound, if_neg (by decide), if_neg hparent]⟩

/-- **The search is one walk**: if it may begin anew as often as there are names, it gives what the
    nearest directory gives that yields more than nothing. -/
theorem freshFrom_eq (hd : d.Settled) (hfuel : d.names.length < fuel) :
    freshFrom w fuel d.text = Finder.firstSome (inDirectory w) d.ancestors := by
  induction hn : d.names.length generalizing d fuel with
  | zero =>
    obtain ⟨fuel, rfl⟩ := Nat.exists_eq_succ_of_ne_zero (Nat.ne_of_gt (Nat.zero_lt_of_lt hfuel))
    have hroot := List.length_eq_zero_iff.mp hn
    rw [PartPath.ancestors_root hroot]
    by_cases hnone : inDirectory w d = .ok none
    · rw [(freshFrom_passed hd (inDirectory_eq_iff.mp hnone)).1 hroot,
        Finder.firstSome_passed hnone, Finder.firstSome]
    · rw [freshFrom_decided hd (inDirectory_eq_iff.mp rfl) hnone, Finder.firstSome_decided hnone]
  | succ n ih =>
    obtain ⟨fuel, rfl⟩ := Nat.exists_eq_succ_of_ne_zero (Nat.ne_of_gt (Nat.zero_lt_of_lt hfuel))
    have hroot : d.names ≠ [] := fun e => by rw [e] at hn; cases hn
    rw [PartPath.ancestors_cons hroot]
    by_cases hnone : inDirectory w d = .ok none
    · obtain ⟨left, hleft, hpassed⟩ : ∃ left, fuel ≤ left ∧
          freshFrom w (fuel + 1) d.text = freshFrom w left d.parent.text :=
        (freshFrom_passed hd (inDirectory_eq_iff.mp hnone)).2 hroot
      have hlength : d.parent.names.length = n := by
        rw [PartPath.parent_eq_up, PartPath.length_up, hn, Nat.add_sub_cancel]
      rw [hpassed, Finder.firstSome_passed hnone]
      exact ih hd.parent (by omega) hlength
    · rw [freshFrom_decided hd (inDirectory_eq_iff.mp rfl) hnone, Finder.firstSome_decided hnone]

theorem origin_eq_place (hcwd : isAbsolute w.cwd = true) (start : String) :
    Finder.origin w start = place w.cwd start := by
  rw [Finder.origin, absolute_eq, PartPath.ofText_text (settled_place hcwd start).plain]

theorem fresh_eq (hcwd : isAbsolute w.cwd = true) (start : String) :
    fresh w start = Finder.firstSome (inDirectory w) (Finder.origin w start).ancestors := by
  have hplace := settled_place hcwd start
  rw [fresh, absolute_eq, components_text hplace, origin_eq_place hcwd]
  exact freshFrom_eq hplace (Nat.lt_succ_self _)

theorem fresh_eq_iff (hcwd : isAbsolute w.cwd = true) (start : String) :
    fresh w start = result ↔ Climbs (Yields w) (Finder.origin w start) result := by
  rw [fresh_eq hcwd]
  exact Finder.firstSome_ancestors fun _ _ => inDirectory_eq_iff

/-- With a memo that operations on the same files have left, the search gives what it gives without
    one, whatever the bound on how often it begins anew. -/
theorem findFrom_after (hcwd : isAbsolute w.cwd = true) {visits : List Visit}
    (hvisits : ∀ v ∈ visits, v.Sees w.files) {s : Session}
    (hs : s.cache.finder = FinderMemo.after visits) (start : String) (fuel : Nat) (dir : String) :
    ((findFrom start fuel dir).run w s).1 = freshFrom w fuel dir := by
  have hrecalls : Recalls w.files s := by
    rw [Recalls, hs]
    exact FinderMemo.right_after visits hvisits
  exact ((computes_findFrom hcwd start fuel dir).run s hrecalls).1

/-- What the search gives then is what the walk gives. -/
theorem find_after (hcwd : isAbsolute w.cwd = true) {visits : List Visit}
    (hvisits : ∀ v ∈ visits, v.Sees w.files) {s : Session}
    (hs : s.cache.finder = FinderMemo.after visits) (start : String) :
    ((find start).run w s).1 = result ↔ Climbs (Yields w) (Finder.origin w start) result := by
  rw [find, run_absolute_bind, findFrom_after hcwd hvisits hs]
  exact fresh_eq_iff hcwd start

/-- **One walk finds the configuration file.** Both `fresh`, the search that asks no memo, and the
    search with a memo that any operations on the same files have left give what the walk over the
    directories from the start up to the root gives: the nearest one that yields a file, or a fault,
    decides; and nothing is found exactly if all of them up to the root yield nothing. The search
    comes to its end by itself: a greater bound on how often it begins anew changes nothing. -/
theorem config_search_one_pass (hcwd : isAbsolute w.cwd = true) {visits : List Visit}
    (hvisits : ∀ v ∈ visits, v.Sees w.files) {s : Session}
    (hs : s.cache.finder = FinderMemo.after visits) (start : String) :
    (∀ result, fresh w start = result ↔ Climbs (Yields w) (Finder.origin w start) result) ∧
    (∀ result, ((find start).run w s).1 = result ↔
      Climbs (Yields w) (Finder.origin w start) result) ∧
    (((find start).run w s).1 = .ok none ↔ ∀ k ≤ (Finder.origin w start).names.length,
      Yields w ((Finder.origin w start).up k) (.ok none)) ∧
    ∀ bound > (Finder.origin w start).names.length,
      ((findFrom start bound (absolute w.cwd start)).run w s).1 = ((find start).run w s).1 := by
  refine ⟨fun result => fresh_eq_iff hcwd start, fun result => find_after hcwd hvisits hs start, ?_,
    fun bound hbound => ?_⟩
  · rw [find_after hcwd hvisits hs, PartPath.climbs_none]
  · rw [findFrom_after hcwd hvisits hs, eq_comm, find_after hcwd hvisits hs, ← fresh_eq_iff hcwd,
      fresh_eq hcwd, absolute_eq]
    rw [origin_eq_place hcwd] at hbound ⊢
    exact (freshFrom_eq (settled_place hcwd start) hbound).symm

end ConfigFile

/-! ## 4. A project with a manifest that has no section -/

/-- A machine with a configuration file in the root, a section in the manifest of `/p`, and none in
    that of `/p/q`. -/
def World.terraced : World :=
  { World.bare with
    files := ((FileTree.empty.add [".eslintrc.js"] (.file .empty true true)).add ["p", "package.json"]
      (.file "\x7b\"eslintConfig\": []\x7d".toUTF8 true true)).add ["p", "q", "package.json"]
      (.file "\x7b\x7d".toUTF8 true true) }

/-- The search there from a directory. -/
def Visit.ofConfig (start : String) : Visit :=
  ⟨.terraced, .start (.ofEnv []), .configFile start⟩

/-- The manifest without a section is passed over, after an earlier search from the root. -/
theorem ConfigFile.terraced_one_pass :
    let visits := [Visit.ofConfig "/"]
    isAbsolute World.terraced.cwd = true ∧ (∀ v ∈ visits, v.Sees World.terraced.files) ∧
    ((find "p/q").run World.terraced ((Visit.ofConfig "p/q").withMemo (.after visits))).1 =
      .ok (some "/p/package.json") := by
  intro visits
  have hcwd : isAbsolute World.terraced.cwd = true := by decide
  have hvisits : ∀ v ∈ visits, v.Sees World.terraced.files := by
    intro v hv
    rw [List.mem_singleton.mp hv]
    exact ⟨rfl, hcwd⟩
  have hpath : (((Finder.origin .terraced "p/q").up 1).entry manifestName).text =
      "/p/package.json" := by decide +kernel
  have hmemo : ((Visit.ofConfig "p/q").withMemo (.after visits)).cache.finder = .after visits := by
    rw [Visit.withMemo]
  refine ⟨hcwd, hvisits, ((config_search_one_pass hcwd hvisits hmemo "p/q").2.1 _).mpr ?_⟩
  rw [← hpath]
  refine .stops (by decide +kernel) (fun j hj => ?_) (.manifest ?_ ?_ ?_) nofun
  · obtain rfl : j = 0 := Nat.lt_one_iff.mp hj
    exact .passed (by unfold Finder.Lacks; decide +kernel) (by decide +kernel)
      (Except.eq_ok_of_toOption (by decide +kernel))
  · unfold Finder.Lacks
    decide +kernel
  · decide +kernel
  · exact Except.eq_ok_of_toOption (by decide +kernel)

end LintHost
