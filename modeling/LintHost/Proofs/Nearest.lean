import LintHost.Proofs.Memo
import LintHost.Proofs.Place
import Mathlib.Data.Nat.Find

/-!
# The nearest hit decides

Looking upwards asks one directory after the other, and in each of them for one name after the
other. This file says which of all these questions decides, and what it is decided by.

* `PartPath.up`: the directories above one, counted from it up to the root;
* `PartPath.Climbs`: what a walk upwards comes to, by what each single directory yields;
* `Finder.Shows`: what a directory shows under some names, by what each single probe says;
* `Finder.First`: the probe before which all others are plainly negative;
* `nearest_hit_decides`: that probe decides, and what fails is not remembered.
-/

namespace LintHost

variable {ε β : Type}

/-! ## 1. Going up -/

namespace PartPath

theorem up_zero (p : PartPath) : p.up 0 = p := by
  rw [up, Nat.sub_zero, List.take_length]

theorem length_up (p : PartPath) (k : Nat) : (p.up k).names.length = p.names.length - k := by
  rw [up, List.length_take]
  omega

theorem up_up (p : PartPath) (j k : Nat) : (p.up j).up k = p.up (j + k) := by
  have hlength := length_up p j
  unfold up at hlength ⊢
  rw [hlength, List.take_take]
  congr 2
  omega

theorem parent_eq_up (p : PartPath) : p.parent = p.up 1 := by
  rw [parent, up, List.dropLast_eq_take]

theorem up_succ (p : PartPath) (k : Nat) : p.up (k + 1) = (p.up k).parent := by
  rw [parent_eq_up, up_up]

/-- The root is the only directory that has none above it. -/
theorem parent_eq_self_iff {p : PartPath} : p.parent = p ↔ p.names = [] := by
  constructor
  · intro h
    have hlength := congrArg (·.names.length) h
    rw [parent_eq_up, length_up] at hlength
    exact List.eq_nil_of_length_eq_zero (by omega)
  · intro h
    obtain ⟨slashes, names⟩ := p
    cases h
    rfl

/-- The root is reached after as many steps as there are names, and not before. -/
theorem parent_up_eq_iff {p : PartPath} {k : Nat} :
    (p.up k).parent = p.up k ↔ p.names.length ≤ k := by
  rw [parent_eq_self_iff, ← List.length_eq_zero_iff, length_up]
  omega

theorem ancestors_root {p : PartPath} (h : p.names = []) : p.ancestors = [p] := by
  obtain ⟨slashes, names⟩ := p
  cases h
  rfl

/-- First comes the directory itself, then all that are above the one above it. -/
theorem ancestors_cons {p : PartPath} (h : p.names ≠ []) :
    p.ancestors = p :: p.parent.ancestors := by
  obtain ⟨slashes, names⟩ := p
  obtain ⟨init, last, rfl⟩ := (List.eq_nil_or_concat' names).resolve_left h
  have hprefixes : prefixesDown (init ++ [last]) = (init ++ [last]) :: prefixesDown init := by
    unfold prefixesDown
    rw [List.length_append, List.length_singleton, List.range_succ, List.reverse_append,
      List.reverse_singleton, List.singleton_append, List.map_cons]
    congr 1
    · exact List.take_of_length_le (by simp)
    · refine List.map_congr_left fun k hk => List.take_append_of_le_length ?_
      have hk' : k < init.length + 1 := by simpa using hk
      omega
  rw [ancestors, ancestors, parent]
  dsimp only
  rw [hprefixes, List.dropLast_concat, List.map_cons]

/-- What a walk upwards comes to: the nearest directory that yields more than nothing decides, and
    nothing is found if there is none up to the root. -/
inductive Climbs (yields : PartPath → Except ε (Option β) → Prop) (p : PartPath) :
    Except ε (Option β) → Prop
  | stops {k : Nat} {result : Except ε (Option β)} (hk : k ≤ p.names.length)
      (hnearer : ∀ j < k, yields (p.up j) (.ok none)) (h : yields (p.up k) result)
      (hresult : result ≠ .ok none) : Climbs yields p result
  | passes (h : ∀ k ≤ p.names.length, yields (p.up k) (.ok none)) : Climbs yields p (.ok none)

variable {yields : PartPath → Except ε (Option β) → Prop} {p : PartPath}

theorem climbs_decided {result : Except ε (Option β)} (hresult : result ≠ .ok none) :
    Climbs yields p result ↔ ∃ k ≤ p.names.length, (∀ j < k, yields (p.up j) (.ok none)) ∧
      yields (p.up k) result := by
  constructor
  · intro h
    cases h with
    | stops hk hnearer h _ => exact ⟨_, hk, hnearer, h⟩
    | passes => exact absurd rfl hresult
  · rintro ⟨k, hk, hnearer, h⟩
    exact .stops hk hnearer h hresult

theorem climbs_none : Climbs yields p (.ok none) ↔
    ∀ k ≤ p.names.length, yields (p.up k) (.ok none) := by
  constructor
  · intro h
    cases h with
    | stops _ _ _ hresult => exact absurd rfl hresult
    | passes h => exact h
  · exact .passes

end PartPath

namespace Finder

open PartPath (Climbs)

variable {ask : PartPath → Except ε (Option β)} {p : PartPath}

theorem firstSome_passed {α : Type} {ask : α → Except ε (Option β)} {a : α} {rest : List α}
    (h : ask a = .ok none) : firstSome ask (a :: rest) = firstSome ask rest := by
  rw [firstSome, h]

theorem firstSome_decided {α : Type} {ask : α → Except ε (Option β)} {a : α} {rest : List α}
    (h : ask a ≠ .ok none) : firstSome ask (a :: rest) = ask a := by
  rw [firstSome]
  split
  · exact absurd ‹_› h
  · rfl

/-- Those that answer nothing may be left out. -/
theorem firstSome_append {α : Type} {ask : α → Except ε (Option β)} {after : List α} :
    ∀ {before : List α}, (∀ a ∈ before, ask a = .ok none) →
      firstSome ask (before ++ after) = firstSome ask after
  | [], _ => rfl
  | a :: before, h => by
    rw [List.cons_append, firstSome_passed (h a List.mem_cons_self)]
    exact firstSome_append fun b hb => h b (List.mem_cons_of_mem _ hb)

theorem firstSome_all {α : Type} {ask : α → Except ε (Option β)} {as : List α}
    (h : ∀ a ∈ as, ask a = .ok none) : firstSome ask as = .ok none := by
  rw [← List.append_nil as, firstSome_append h, firstSome]

/-- Where the nearest directories yield nothing, the walk may as well begin above them. -/
theorem firstSome_up : ∀ {k : Nat}, k ≤ p.names.length → (∀ j < k, ask (p.up j) = .ok none) →
    firstSome ask p.ancestors = firstSome ask (p.up k).ancestors
  | 0, _, _ => by rw [PartPath.up_zero]
  | k + 1, hk, h => by
    have hbelow : (p.up k).names ≠ [] := by
      intro hroot
      have hlength := PartPath.length_up p k
      rw [hroot, List.length_nil] at hlength
      omega
    rw [firstSome_up (Nat.le_of_succ_le hk) fun j hj => h j (Nat.lt_succ_of_lt hj),
      PartPath.ancestors_cons hbelow, firstSome_passed (h k (Nat.lt_succ_self k)),
      ← PartPath.up_succ]

theorem firstSome_of_climbs {result : Except ε (Option β)}
    (h : Climbs (fun d answer => ask d = answer) p result) :
    firstSome ask p.ancestors = result := by
  cases h with
  | @stops k result hk hnearer h hresult =>
    rw [firstSome_up hk hnearer]
    have hdecides : ask (p.up k) ≠ .ok none := by rw [h]; exact hresult
    by_cases hroot : (p.up k).names = []
    · rw [PartPath.ancestors_root hroot, firstSome_decided hdecides, h]
    · rw [PartPath.ancestors_cons hroot, firstSome_decided hdecides, h]
  | passes h =>
    have hroot : (p.up p.names.length).names = [] := by
      rw [← List.length_eq_zero_iff, PartPath.length_up]
      omega
    rw [firstSome_up (Nat.le_refl _) fun j hj => h j (Nat.le_of_lt hj),
      PartPath.ancestors_root hroot, firstSome_passed (h _ (Nat.le_refl _)), firstSome]

/-- **What a walk upwards comes to**, where it is known what each directory yields. -/
theorem firstSome_ancestors {yields : PartPath → Except ε (Option β) → Prop}
    (hyields : ∀ d answer, ask d = answer ↔ yields d answer) {result : Except ε (Option β)} :
    firstSome ask p.ancestors = result ↔ Climbs yields p result := by
  obtain rfl : (fun d answer => ask d = answer) = yields := by
    funext d answer
    exact propext (hyields d answer)
  refine ⟨fun h => ?_, firstSome_of_climbs⟩
  by_cases hsome : ∃ k, k ≤ p.names.length ∧ ask (p.up k) ≠ .ok none
  · classical
    obtain ⟨hk, hdecides⟩ := Nat.find_spec hsome
    have hnearer : ∀ j < Nat.find hsome, ask (p.up j) = .ok none := fun j hj =>
      Classical.byContradiction fun hj' =>
        Nat.find_min hsome hj ⟨Nat.le_of_lt (Nat.lt_of_lt_of_le hj hk), hj'⟩
    have hclimbs : Climbs (fun d answer => ask d = answer) p (ask (p.up (Nat.find hsome))) :=
      .stops hk hnearer rfl hdecides
    rw [← h, firstSome_of_climbs hclimbs]
    exact hclimbs
  · have hnone : ∀ k ≤ p.names.length, ask (p.up k) = .ok none := fun k hk =>
      Classical.byContradiction fun hk' => hsome ⟨k, hk, hk'⟩
    have hclimbs : Climbs (fun d answer => ask d = answer) p (.ok none) := .passes hnone
    rw [← h, firstSome_of_climbs hclimbs]
    exact hclimbs

/-! ## 2. One directory -/

variable {files : FileTree} {cwd : String} {names : List String} {d : PartPath}
  {result : Except Fault (Option String)}

/-- Each of the names is plainly absent in a directory. -/
def Lacks (files : FileTree) (cwd : String) (names : List String) (d : PartPath) : Prop :=
  ∀ name ∈ names, files.exists? cwd (d.entry name).text = .ok false

/-- What a directory shows under some names: the first that is not plainly absent decides. -/
inductive Shows (files : FileTree) (cwd : String) (names : List String) (d : PartPath) :
    Except Fault (Option String) → Prop
  /-- It is there. -/
  | present {before after : List String} {name : String} (hnames : names = before ++ name :: after)
      (hbefore : Lacks files cwd before d) (h : files.exists? cwd (d.entry name).text = .ok true) :
      Shows files cwd names d (.ok (some (d.entry name).text))
  /-- It cannot be told whether it is there. -/
  | unknown {before after : List String} {name : String} {fault : LookupFault}
      (hnames : names = before ++ name :: after) (hbefore : Lacks files cwd before d)
      (h : files.exists? cwd (d.entry name).text = .error fault) :
      Shows files cwd names d (.error (.ofLookup (d.entry name).text fault))
  | absent (h : Lacks files cwd names d) : Shows files cwd names d (.ok none)

theorem probe_absent {q : PartPath} (h : files.exists? cwd q.text = .ok false) :
    probe files cwd q = .ok none := by
  rw [probe, h]

theorem probe_present {q : PartPath} (h : files.exists? cwd q.text = .ok true) :
    probe files cwd q = .ok (some q.text) := by
  rw [probe, h]

theorem probe_unknown {q : PartPath} {fault : LookupFault}
    (h : files.exists? cwd q.text = .error fault) :
    probe files cwd q = .error (.ofLookup q.text fault) := by
  rw [probe, h]

theorem Shows.inDirectory (h : Shows files cwd names d result) :
    inDirectory files cwd names d = result := by
  unfold Finder.inDirectory
  have hpassed {before : List String} (hbefore : Lacks files cwd before d) :
      ∀ name ∈ before, probe files cwd (d.entry name) = .ok none :=
    fun name hname => probe_absent (hbefore name hname)
  cases h with
  | present hnames hbefore h =>
    have hprobe := probe_present h
    rw [hnames, firstSome_append (hpassed hbefore), firstSome_decided (by rw [hprobe]; nofun),
      hprobe]
  | unknown hnames hbefore h =>
    have hprobe := probe_unknown h
    rw [hnames, firstSome_append (hpassed hbefore), firstSome_decided (by rw [hprobe]; nofun),
      hprobe]
  | absent h => exact firstSome_all (hpassed h)

theorem shows_inDirectory (files : FileTree) (cwd : String) (d : PartPath) : ∀ names : List String,
    Shows files cwd names d (inDirectory files cwd names d)
  | [] => .absent fun _ h => nomatch h
  | name :: rest => by
    have hfirst : Lacks files cwd [] d := fun _ h => nomatch h
    cases h : files.exists? cwd (d.entry name).text with
    | error fault =>
      have hshows : Shows files cwd (name :: rest) d _ := .unknown rfl hfirst h
      rw [hshows.inDirectory]
      exact hshows
    | ok there =>
      cases there with
      | true =>
        have hshows : Shows files cwd (name :: rest) d _ := .present rfl hfirst h
        rw [hshows.inDirectory]
        exact hshows
      | false =>
        have hlacks {before : List String} (hbefore : Lacks files cwd before d) :
            Lacks files cwd (name :: before) d := by
          intro other hother
          rcases List.mem_cons.mp hother with rfl | hother
          · exact h
          · exact hbefore other hother
        have hrest := shows_inDirectory files cwd d rest
        have hpassed : inDirectory files cwd (name :: rest) d = inDirectory files cwd rest d :=
          firstSome_passed (probe_absent h)
        rw [hpassed]
        generalize inDirectory files cwd rest d = answer at hrest
        cases hrest with
        | present hnames hbefore h =>
          exact .present (by rw [hnames, List.cons_append]) (hlacks hbefore) h
        | unknown hnames hbefore h =>
          exact .unknown (by rw [hnames, List.cons_append]) (hlacks hbefore) h
        | absent h => exact .absent (hlacks h)

/-- **What a directory shows** is what looking in it finds. -/
theorem inDirectory_eq_iff :
    inDirectory files cwd names d = result ↔ Shows files cwd names d result :=
  ⟨fun h => h ▸ shows_inDirectory files cwd d names, Shows.inDirectory⟩

theorem search_eq_iff :
    search files cwd names p = result ↔ Climbs (Shows files cwd names) p result :=
  firstSome_ancestors fun _ _ => inDirectory_eq_iff

theorem shows_none : Shows files cwd names d (.ok none) ↔ Lacks files cwd names d := by
  constructor
  · intro h
    cases h with
    | absent h => exact h
  · exact .absent

/-! ## 3. The probe that decides -/

/-- The probe for `name` so many directories above is the first that may decide: nothing is there
    in the nearer directories, and nothing in this one under the names before it. -/
structure First (files : FileTree) (cwd : String) (names : List String) (p : PartPath) (k : Nat)
    (name : String) : Prop where
  reached : k ≤ p.names.length
  nearer : ∀ j < k, Lacks files cwd names (p.up j)
  earlier : ∃ before after, names = before ++ name :: after ∧ Lacks files cwd before (p.up k)

theorem search_eq_some_iff {path : String} : search files cwd names p = .ok (some path) ↔
    ∃ k name, First files cwd names p k name ∧
      files.exists? cwd ((p.up k).entry name).text = .ok true ∧
      path = ((p.up k).entry name).text := by
  have hdecides : (.ok (some path) : Except Fault (Option String)) ≠ .ok none := nofun
  rw [search_eq_iff, PartPath.climbs_decided hdecides]
  constructor
  · rintro ⟨k, hk, hnearer, h⟩
    cases h with
    | @present before after name hnames hbefore h =>
      exact ⟨k, name, ⟨hk, fun j hj => shows_none.mp (hnearer j hj), before, after, hnames,
        hbefore⟩, h, rfl⟩
  · rintro ⟨k, name, ⟨hk, hnearer, before, after, hnames, hbefore⟩, h, rfl⟩
    exact ⟨k, hk, fun j hj => .absent (hnearer j hj), .present hnames hbefore h⟩

theorem search_eq_error_iff {fault : Fault} : search files cwd names p = .error fault ↔
    ∃ k name cause, First files cwd names p k name ∧
      files.exists? cwd ((p.up k).entry name).text = .error cause ∧
      fault = .ofLookup ((p.up k).entry name).text cause := by
  have hdecides : (.error fault : Except Fault (Option String)) ≠ .ok none := nofun
  rw [search_eq_iff, PartPath.climbs_decided hdecides]
  constructor
  · rintro ⟨k, hk, hnearer, h⟩
    cases h with
    | @unknown before after name cause hnames hbefore h =>
      exact ⟨k, name, cause, ⟨hk, fun j hj => shows_none.mp (hnearer j hj), before, after, hnames,
        hbefore⟩, h, rfl⟩
  · rintro ⟨k, name, cause, ⟨hk, hnearer, before, after, hnames, hbefore⟩, h, rfl⟩
    exact ⟨k, hk, fun j hj => .absent (hnearer j hj), .unknown hnames hbefore h⟩

theorem search_eq_none_iff : search files cwd names p = .ok none ↔
    ∀ k ≤ p.names.length, Lacks files cwd names (p.up k) := by
  rw [search_eq_iff, PartPath.climbs_none]
  exact forall₂_congr fun _ _ => shows_none

/-- A search that fails leaves everything as it was. -/
theorem find_error_session {w : World} {start : String} {names : List String} {s : Session}
    {fault : Fault} (h : ((find start names).run w s).1 = .error fault) :
    ((find start names).run w s).2 = s := by
  cases hm : s.cache.finder.lookup (key w start names) with
  | some found => rw [find_known hm]
  | none =>
    rw [find_unknown hm] at h ⊢
    dsimp only at h ⊢
    rw [h]
    show { s with cache := { s.cache with finder := s.cache.finder ++ [] } } = s
    rw [List.append_nil]

/-- The directory that a search starts from. -/
def origin (w : World) (start : String) : PartPath := PartPath.ofText (Path.absolute w.cwd start)

/-- **The nearest hit decides.** The walk goes from the directory to the one above it until that is
    the same. What is not remembered is found exactly if the first probe that is not plainly
    negative, by distance and then by the order of the names, is positive, and fails exactly if
    that probe fails, with its fault; nothing is found exactly if all probes are negative. What
    fails is not remembered. -/
theorem nearest_hit_decides (w : World) (start : String) (names : List String) :
    ((origin w start).up 0 = origin w start ∧
      ∀ k, (origin w start).up (k + 1) = ((origin w start).up k).parent ∧
        (((origin w start).up k).parent = (origin w start).up k ↔
          (origin w start).names.length ≤ k)) ∧
    (∀ s, s.cache.finder.lookup (key w start names) = none →
      (∀ path, ((find start names).run w s).1 = .ok (some path) ↔
        ∃ k name, First w.files w.cwd names (origin w start) k name ∧
          w.files.exists? w.cwd (((origin w start).up k).entry name).text = .ok true ∧
          path = (((origin w start).up k).entry name).text) ∧
      (∀ fault, ((find start names).run w s).1 = .error fault ↔
        ∃ k name cause, First w.files w.cwd names (origin w start) k name ∧
          w.files.exists? w.cwd (((origin w start).up k).entry name).text = .error cause ∧
          fault = .ofLookup (((origin w start).up k).entry name).text cause) ∧
      (((find start names).run w s).1 = .ok none ↔
        ∀ k ≤ (origin w start).names.length, ∀ name ∈ names,
          w.files.exists? w.cwd (((origin w start).up k).entry name).text = .ok false)) ∧
    ∀ s fault, ((find start names).run w s).1 = .error fault →
      ((find start names).run w s).2 = s := by
  refine ⟨⟨(origin w start).up_zero, fun k => ⟨(origin w start).up_succ k,
    PartPath.parent_up_eq_iff⟩⟩, fun s hs => ?_, fun s fault h => find_error_session h⟩
  have hresult : ((find start names).run w s).1 =
      search w.files w.cwd names (origin w start) := by
    rw [find_unknown hs, fresh, origin]
  rw [hresult]
  exact ⟨fun path => search_eq_some_iff, fun fault => search_eq_error_iff, search_eq_none_iff⟩

end Finder

/-! ## 4. A project in a project -/

/-- A machine with a project in `/p` and one in `/p/q`, which has a directory that is closed. -/
def World.nested : World :=
  { World.bare with files := ((FileTree.empty.add ["p", "a"] (.file .empty true true)).add
      ["p", "q", "b"] (.file .empty true true)).add ["p", "q", "shut"] (.directory false) }

/-- The nearer file is found though its name comes later, and what cannot be told about a name ends
    the search though a later name is there. -/
theorem Finder.nested_nearest :
    (Session.start (.ofEnv [])).cache.finder.lookup (key .nested "p/./q" ["a", "b"]) = none ∧
    ((find "p/./q" ["a", "b"]).run World.nested (.start (.ofEnv []))).1 = .ok (some "/p/q/b") ∧
    ((find "/p/q" ["shut/x", "b"]).run World.nested (.start (.ofEnv []))).1 =
      .error (.os ⟨13, "/p/q/shut/x"⟩) := by
  refine ⟨rfl, ?_, ?_⟩
  · refine ((nearest_hit_decides .nested "p/./q" ["a", "b"]).2.1 _ rfl).1 _ |>.mpr
      ⟨0, "b", ⟨Nat.zero_le _, nofun, ["a"], [], rfl, ?_⟩, by decide +kernel, by decide +kernel⟩
    intro name hname
    rw [List.mem_singleton.mp hname]
    decide +kernel
  · refine ((nearest_hit_decides .nested "/p/q" ["shut/x", "b"]).2.1 _ rfl).2.1 _ |>.mpr
      ⟨0, "shut/x", .denied, ⟨Nat.zero_le _, nofun, [], ["b"], rfl, nofun⟩, by decide +kernel, ?_⟩
    have htext : (((origin .nested "/p/q").up 0).entry
        "shut/x").text = "/p/q/shut/x" := by decide +kernel
    rw [htext, Fault.ofLookup]

end LintHost
