import LintHost.Proofs.Fallback
import LintHost.Proofs.Place

/-!
# Looking upwards is remembered rightly

All that looks upwards shares one memo, and it is asked by a directory and names only: neither the
working directory nor the operation that looks is part of the question. This file shows that both
may be left out.

* `search_rooted`: from an absolute directory the working directory does not matter;
* `FinderMemo.Right`: every entry is what a search from its directory finds, wherever it is started;
* the `fresh` form of each operation that looks upwards: what it gives when no memo is asked;
* `Computes`: with a right memo the operation gives that, and leaves a right memo;
* `finder_memo_transparent`: so it is for every sequence of operations on one memo.
-/

namespace LintHost

open LintHost.Action LintHost.Path

variable {w : World}

/-! ## 1. The working directory does not matter -/

theorem FileTree.exists?_absolute (tree : FileTree) {path : String}
    (h : isAbsolute path = true) (cwd cwd' : String) :
    tree.exists? cwd path = tree.exists? cwd' path := by
  have hfind : tree.find cwd true path = tree.find cwd' true path := by
    unfold FileTree.find
    rw [if_pos h, if_pos h]
  simp only [FileTree.exists?, FileTree.stat, FileTree.statWith, hfind]

theorem PartPath.rooted_entry {p : PartPath} (h : p.slashes ≠ 0) (name : String) :
    (p.entry name).slashes ≠ 0 := by
  unfold PartPath.entry PartPath.child
  split
  · rename_i hname
    exact of_decide_eq_true hname
  · exact h

namespace Finder

theorem firstSome_congr {ε α β : Type} {ask ask' : α → Except ε (Option β)} :
    ∀ {as : List α}, (∀ a ∈ as, ask a = ask' a) → firstSome ask as = firstSome ask' as
  | [], _ => rfl
  | a :: rest, h => by
    have hrest := firstSome_congr fun b hb => h b (List.mem_cons_of_mem _ hb)
    rw [firstSome, firstSome, h a List.mem_cons_self, hrest]

theorem probe_rooted (files : FileTree) {p : PartPath} (h : p.slashes ≠ 0) (cwd cwd' : String) :
    probe files cwd p = probe files cwd' p := by
  unfold probe
  rw [files.exists?_absolute (isAbsolute_text h) cwd cwd']

/-- **From an absolute directory** a search finds the same wherever it is started. -/
theorem search_rooted (files : FileTree) (names : List String) {p : PartPath}
    (h : p.slashes ≠ 0) (cwd cwd' : String) :
    search files cwd names p = search files cwd' names p := by
  refine firstSome_congr fun q hq => firstSome_congr fun name _ => ?_
  have hroot : q.slashes = p.slashes := by
    obtain ⟨names, -, rfl⟩ := List.mem_map.mp hq
    rfl
  have hq : q.slashes ≠ 0 := hroot ▸ h
  exact probe_rooted files (PartPath.rooted_entry hq name) cwd cwd'

/-- Without a memo, the place decides that the start names. -/
theorem fresh_eq (hcwd : isAbsolute w.cwd = true) (start : String) (names : List String) :
    fresh w start names = search w.files w.cwd names (place w.cwd start) := by
  have hplace := settled_place hcwd start
  rw [fresh, absolute_eq, PartPath.ofText_text hplace.plain]

/-- Without a memo, a place is searched from alike in all worlds with these files. -/
theorem fresh_text {p : PartPath} (h : p.Settled) (w : World) (names : List String)
    (cwd : String) : fresh w p.text names = search w.files cwd names p := by
  rw [fresh, absolute_eq, place_text h, PartPath.ofText_text h.plain]
  exact search_rooted w.files names h.rooted w.cwd cwd

end Finder

/-! ## 2. Right memos -/

/-- Every entry is for a place, and it is what a search from there finds, wherever that is started
    from. -/
def FinderMemo.Right (files : FileTree) (memo : FinderMemo) : Prop :=
  ∀ entry ∈ memo, ∃ p : PartPath, p.Settled ∧ entry.1.1 = p.text ∧
    ∀ cwd, Finder.search files cwd entry.1.2 p = .ok entry.2

namespace FinderMemo

variable {files : FileTree}

theorem right_nil : Right files [] := by
  intro entry hentry
  cases hentry

theorem Right.rooted {memo : FinderMemo} (h : memo.Right files) {entry}
    (hentry : entry ∈ memo) : isAbsolute entry.1.1 = true := by
  obtain ⟨p, hp, htext, -⟩ := h entry hentry
  rw [htext]
  exact isAbsolute_text hp.rooted

/-- A right memo says the same in every world with these files. -/
theorem Right.fresh {memo : FinderMemo} (h : memo.Right files) {entry} (hentry : entry ∈ memo)
    {w : World} (hw : w.files = files) :
    Finder.fresh w entry.1.1 entry.1.2 = .ok entry.2 := by
  obtain ⟨p, hp, htext, hfound⟩ := h entry hentry
  rw [htext, Finder.fresh_text hp w entry.1.2 w.cwd, hw]
  exact hfound w.cwd

/-- What is remembered of a place is what is found there. -/
theorem Right.lookup {memo : FinderMemo} (h : memo.Right w.files)
    (hcwd : isAbsolute w.cwd = true) {start : String} {names : List String}
    {found : Option String} (hfound : memo.lookup (Finder.key w start names) = some found) :
    Finder.fresh w start names = .ok found := by
  obtain ⟨before, later, hmemo, -⟩ := List.lookup_eq_some_iff.mp hfound
  obtain ⟨p, hp, htext, hsearch⟩ := h (Finder.key w start names, found) (by simp [hmemo])
  have hplace := settled_place hcwd start
  have hkey : (Finder.key w start names).1 = (place w.cwd start).text := by
    rw [Finder.key, absolute_eq, PartPath.ofText_text hplace.plain]
  have hsame : p.text = (place w.cwd start).text := htext.symm.trans hkey
  have hp' : p = place w.cwd start := by
    rw [← place_text hp w.cwd, hsame, place_text hplace]
  rw [Finder.fresh_eq hcwd, ← hp']
  exact hsearch w.cwd

/-- What was found may be remembered. -/
theorem Right.append {memo : FinderMemo} (h : memo.Right w.files)
    (hcwd : isAbsolute w.cwd = true) (start : String) (names : List String) :
    Right w.files (memo ++
      ((Finder.fresh w start names).toOption.map (Finder.key w start names, ·)).toList) := by
  intro entry hentry
  rcases List.mem_append.mp hentry with hentry | hentry
  · exact h entry hentry
  · obtain ⟨hkey, hfound⟩ := Finder.mem_gained.mp hentry
    have hplace := settled_place hcwd start
    have hnames : entry.1.2 = names := congrArg Prod.snd hkey
    refine ⟨place w.cwd start, hplace, ?_, fun cwd => ?_⟩
    · rw [hkey, Finder.key, absolute_eq, PartPath.ofText_text hplace.plain]
    · rw [Finder.fresh_eq hcwd] at hfound
      rw [hnames, ← hfound]
      exact Finder.search_rooted w.files names hplace.rooted cwd w.cwd

end FinderMemo

/-- The session's memo of what looking upwards has found is right. -/
def Recalls (files : FileTree) (s : Session) : Prop := s.cache.finder.Right files

/-- **Looking upwards with a right memo** finds what is found without, and leaves a right memo. -/
theorem Finder.find_right (hcwd : isAbsolute w.cwd = true) {s : Session} (h : Recalls w.files s)
    (start : String) (names : List String) :
    ((find start names).run w s).1 = fresh w start names ∧
      Recalls w.files ((find start names).run w s).2 := by
  cases hm : s.cache.finder.lookup (key w start names) with
  | some found =>
    rw [find_known hm, h.lookup hcwd hm]
    exact ⟨rfl, h⟩
  | none =>
    rw [find_unknown hm]
    dsimp only
    exact ⟨rfl, h.append hcwd start names⟩

theorem searches_recalls (hcwd : isAbsolute w.cwd = true) :
    Searches w (Same (Recalls w.files)) (Same (Recalls w.files)) where
  fault := fun _ _ h => h
  sees := sees_same
  tell := fun _ _ _ => alike_of_keeps fun _ h => h
  find := fun start names => alike_of_keeps fun _ h => (Finder.find_right hcwd h start names).2

/-! ## 3. Without a memo -/

namespace ConfigFile

/-- The search for the configuration file, where no memo is asked. -/
def freshFrom (w : World) : Nat → String → Except Fault (Option String)
  | 0, _ => .ok none
  | fuel + 1, dir => do
    match ← Finder.fresh w dir names with
    | none => .ok none
    | some file =>
      let counts ← if base file = manifestName then embeds w file else .ok true
      if counts then .ok (some file)
      else if directory (directory file) = directory file then .ok none
      else freshFrom w fuel (directory (directory file))

/-- The configuration file that applies to the files of a directory, where no memo is asked. -/
def fresh (w : World) (start : String) : Except Fault (Option String) :=
  freshFrom w ((components (absolute w.cwd start)).length + 1) (absolute w.cwd start)

end ConfigFile

/-- The nearest ignore file, where no memo is asked. -/
def freshIgnoreFile (w : World) (fileDir : String) (policy : Policy) :
    Except Fault (Option String) :=
  if policy.disableIgnore then .ok none else Finder.fresh w fileDir [ignoreFileName]

/-- The engine's working directory, where no memo is asked. -/
def Workplace.fresh (w : World) (fileDir filePath : String) (policy : Policy)
    (project : Option String) : Except Fault Workplace :=
  (freshIgnoreFile w fileDir policy).map fun ignore =>
    choose w.cwd fileDir filePath ignore project

namespace Engine.Options

/-- The directory that an entry stands for, where no memo is asked. -/
def freshRulePath (w : World) (fileDir entry : String) : Except Fault (Option String) := do
  let dir ← clean w.host.homes w.env entry
  if dir = "" then .ok none
  else if isAbsolute dir then .ok (some dir)
  else Finder.fresh w fileDir [dir]

/-- The directories that entries stand for, where no memo is asked. -/
def freshRuleDirectories (w : World) (fileDir : String) :
    List String → Except Fault (List String)
  | [] => .ok []
  | entry :: rest => do
    let found ← freshRulePath w fileDir entry
    let others ← freshRuleDirectories w fileDir rest
    return found.toList ++ others

/-- The configuration file that is named when none was found nearby. -/
def fallbackOf (w : World) (policy : Policy) (config : Option String) :
    Except Fault (Option String) :=
  match config, policy.fallbackConfig with
  | none, some path =>
    if path = "" then .ok none else (clean w.host.homes w.env path).map some
  | _, _ => .ok none

/-- The options for a job, where no memo is asked. -/
def fresh (w : World) (jobType : String) (policy : Policy) (rules : Entries Json)
    (fileDir : String) (config : Option String) : Except Fault Engine.Options := do
  let configFile ← fallbackOf w policy config
  let ignorePath ← freshIgnoreFile w fileDir policy
  let paths ← freshRuleDirectories w fileDir policy.rulesDirs
  return ⟨rules, !policy.disableIgnore, jobType = "fix", ignorePath, paths, configFile⟩

end Engine.Options

/-- The copy for the files of a directory, where no memo is asked: it is loaded in a session whose
    search path was refreshed. -/
def Package.fresh (w : World) (s : Session) (fileDir : String) (policy : Policy)
    (project : Option String) : Except Fault Package := do
  let found ← Finder.fresh w fileDir ["node_modules/eslint"]
  let modulesDir := found.map directory
  ((load modulesDir policy project).run w
    { s with context := s.context.pointedAt modulesDir }).1

/-! ## 4. With a right memo -/

/-- **With a right memo** the operation gives this result, and leaves a right memo. -/
structure Computes {α : Type} (w : World) (x : Action α) (result : Except Fault α) : Prop where
  run : ∀ s, Recalls w.files s →
    (x.run w s).1 = result ∧ Recalls w.files (x.run w s).2

namespace Computes

variable {α β : Type}

theorem pure (a : α) : Computes w (pure a) (.ok a) := ⟨fun _ hs => ⟨rfl, hs⟩⟩

theorem ofExcept (result : Except Fault α) : Computes w (Action.ofExcept result) result :=
  ⟨fun s hs => by rw [run_ofExcept]; exact ⟨rfl, hs⟩⟩

theorem tell (source : String) (level : Log.Level) (message : String) :
    Computes w (Action.tell source level message) (.ok ⟨⟩) := ⟨fun _ hs => ⟨rfl, hs⟩⟩

/-- What a run ends with tells what is computed. -/
theorem result {x : Action α} {result : Except Fault α} (h : Computes w x result) {s t : Session}
    (hs : Recalls w.files s) {a : α} (hrun : x.run w s = (.ok a, t)) :
    result = .ok a ∧ Recalls w.files t := by
  have hx := h.run s hs
  rw [hrun] at hx
  exact ⟨hx.1.symm, hx.2⟩

/-- What is computed tells what a run ends with. -/
theorem ends {x : Action α} {a : α} (h : Computes w x (.ok a)) {s : Session}
    (hs : Recalls w.files s) : ∃ t, x.run w s = (.ok a, t) ∧ Recalls w.files t := by
  obtain ⟨hresult, ht⟩ := h.run s hs
  exact ⟨_, Prod.ext hresult rfl, ht⟩

theorem find (hcwd : isAbsolute w.cwd = true) (start : String) (names : List String) :
    Computes w (Finder.find start names) (Finder.fresh w start names) :=
  ⟨fun _ hs => Finder.find_right hcwd hs start names⟩

theorem bind {x : Action α} {f : α → Action β} {result : Except Fault α}
    {next : α → Except Fault β} (hx : Computes w x result)
    (hf : ∀ a, Computes w (f a) (next a)) : Computes w (x >>= f) (result >>= next) := by
  refine ⟨fun s hs => ?_⟩
  obtain ⟨hresult, hs'⟩ := hx.run s hs
  rcases hrun : x.run w s with ⟨r, s'⟩
  rw [hrun] at hresult hs'
  dsimp only at hresult hs'
  rw [← hresult]
  cases r with
  | error fault =>
    rw [run_bind_error hrun]
    exact ⟨rfl, hs'⟩
  | ok a =>
    rw [run_bind_ok hrun]
    exact (hf a).run s' hs'

theorem map {x : Action α} {result : Except Fault α} (hx : Computes w x result) (f : α → β) :
    Computes w (f <$> x) (result.map f) := by
  refine ⟨fun s hs => ?_⟩
  obtain ⟨hresult, hs'⟩ := hx.run s hs
  rw [run_map, hresult]
  exact ⟨rfl, hs'⟩

theorem read_bind {f : World → Action β} {result : Except Fault β}
    (h : Computes w (f w) result) : Computes w (read >>= f) result := by
  refine ⟨fun s hs => ?_⟩
  rw [run_read_bind]
  exact h.run s hs

theorem absolute_bind {path : String} {f : String → Action β} {result : Except Fault β}
    (h : Computes w (f (absolute w.cwd path)) result) :
    Computes w (Action.absolute path >>= f) result := by
  refine ⟨fun s hs => ?_⟩
  rw [run_absolute_bind]
  exact h.run s hs

theorem cleanPath (path : String) :
    Computes w (Action.cleanPath path) (clean w.host.homes w.env path) :=
  ⟨fun s hs => by rw [run_cleanPath]; exact ⟨rfl, hs⟩⟩

end Computes

section Operations

variable (hcwd : isAbsolute w.cwd = true)
include hcwd

theorem ConfigFile.computes_findFrom (start : String) :
    ∀ fuel dir, Computes w (findFrom start fuel dir) (freshFrom w fuel dir)
  | 0, _ => .pure none
  | fuel + 1, dir => by
    rw [findFrom, freshFrom]
    refine (Computes.find hcwd dir names).bind fun found => ?_
    cases found with
    | none => exact .pure none
    | some file =>
      have goOn (counts : Bool) : Computes w
          (if counts then do
            Action.tell source .debug ("Config file for " ++ start ++ ": " ++ file)
            return some file
          else if directory (directory file) = directory file then return none
          else findFrom start fuel (directory (directory file)))
          (if counts then .ok (some file)
          else if directory (directory file) = directory file then .ok none
          else freshFrom w fuel (directory (directory file))) := by
        split
        · exact (Computes.tell _ _ _).bind fun _ => .pure (some file)
        · split
          · exact .pure none
          · exact computes_findFrom start fuel _
      by_cases hm : base file = manifestName
      · simp only [hm, if_true]
        exact .read_bind ((Computes.ofExcept _).bind goOn)
      · simp only [hm, if_false]
        exact goOn true

theorem ConfigFile.computes_find (start : String) : Computes w (find start) (fresh w start) := by
  rw [find, fresh]
  exact .absolute_bind (computes_findFrom hcwd start _ _)

theorem computes_ignoreFile (fileDir : String) (policy : Policy) :
    Computes w (ignoreFile fileDir policy) (freshIgnoreFile w fileDir policy) := by
  unfold ignoreFile freshIgnoreFile
  split
  · exact .pure none
  · exact .find hcwd fileDir _

theorem Workplace.computes_resolve (fileDir filePath : String) (policy : Policy)
    (project : Option String) :
    Computes w (resolve fileDir filePath policy project)
      (fresh w fileDir filePath policy project) := by
  have hnote (working : Workplace) : Computes w
      (modifyContext fun c => { c with cwd := some working.cwd }) (.ok ⟨⟩) :=
    ⟨fun _ hs => ⟨rfl, hs⟩⟩
  have hrest (ignore : Option String) : Computes w (do
        let working := choose (← read).cwd fileDir filePath ignore project
        Action.modifyContext fun context => { context with cwd := some working.cwd }
        Action.tell source .debug ("Engine cwd " ++ working.cwd ++ ", relative path " ++
          working.relativePath)
        return working)
      (.ok (choose w.cwd fileDir filePath ignore project)) :=
    .read_bind ((hnote _).bind fun _ => (Computes.tell _ _ _).bind fun _ => .pure _)
  unfold resolve fresh
  have hbind := (computes_ignoreFile hcwd fileDir policy).bind hrest
  cases hignore : freshIgnoreFile w fileDir policy with
  | error fault =>
    rw [hignore] at hbind
    exact hbind
  | ok ignore =>
    rw [hignore] at hbind
    exact hbind

theorem Engine.Options.computes_rulePath (fileDir entry : String) :
    Computes w (rulePath fileDir entry) (freshRulePath w fileDir entry) := by
  rw [rulePath, freshRulePath]
  refine (Computes.cleanPath entry).bind fun dir => ?_
  split
  · exact .pure none
  · split
    · exact .pure _
    · exact .find hcwd fileDir _

theorem Engine.Options.computes_ruleDirectories (fileDir : String) : ∀ entries,
    Computes w (ruleDirectories fileDir entries) (freshRuleDirectories w fileDir entries)
  | [] => .pure []
  | entry :: rest => by
    rw [ruleDirectories, freshRuleDirectories]
    exact (computes_rulePath hcwd fileDir entry).bind fun found =>
      (computes_ruleDirectories fileDir rest).bind fun others => .pure _

omit hcwd in
theorem Engine.Options.computes_fallback (policy : Policy) (config : Option String) :
    Computes w (fallback policy config) (fallbackOf w policy config) := by
  unfold fallback fallbackOf
  cases config with
  | some path => exact .pure none
  | none =>
    cases policy.fallbackConfig with
    | none => exact .pure none
    | some path =>
      dsimp only
      split
      · exact .pure none
      · exact (Computes.cleanPath path).map some

theorem Engine.Options.computes_build (jobType : String) (policy : Policy) (rules : Entries Json)
    (fileDir : String) (config : Option String) :
    Computes w (build jobType policy rules fileDir config)
      (fresh w jobType policy rules fileDir config) := by
  rw [build, fresh]
  exact (computes_fallback policy config).bind fun configFile =>
    (computes_ignoreFile hcwd fileDir policy).bind fun ignorePath =>
      (computes_ruleDirectories hcwd fileDir policy.rulesDirs).bind fun paths => .pure _

end Operations

/-! ## 5. The copy for a directory -/

theorem locates_recalls (hcwd : isAbsolute w.cwd = true) :
    Locates w (Same (Recalls w.files)) (Same (Recalls w.files)) :=
  locates_of_frame (searches_recalls hcwd) (fun _ _ h => h) fun _ _ _ h => h

theorem recalls_refresh (dir : Option String) :
    Alike w (Same (Recalls w.files)) (Same (Recalls w.files))
      (discard (Package.refreshSearchPath dir)) fun _ => Same (Recalls w.files) :=
  alike_refresh (fun _ _ _ hs => hs) dir

namespace Package

/-- Loading gives the same in sessions that differ in the log and in what looking upwards has
    found. -/
theorem load_frame (modulesDir : Option String) (policy : Policy) (project : Option String)
    (s : Session) (memo : FinderMemo) (log : List Log.Record) :
    ((load modulesDir policy project).run w
        { s with cache := { s.cache with finder := memo }, log := log }).1 =
      ((load modulesDir policy project).run w s).1 := by
  cases hmode : policy.useGlobal with
  | false =>
    rw [load_local hmode, load_local hmode]
    exact localCopy_congr (bundledCopy_congr rfl rfl)
  | true =>
    rw [load_global hmode, load_global hmode]
    rfl

theorem fresh_frame (s : Session) (memo : FinderMemo) (fileDir : String) (policy : Policy)
    (project : Option String) :
    fresh w { s with cache := { s.cache with finder := memo } } fileDir policy project =
      fresh w s fileDir policy project := by
  unfold fresh
  congr 1
  funext found
  exact load_frame (found.map directory) policy project
    { s with context := s.context.pointedAt (found.map directory) } memo s.log

theorem forDirectory_right (hcwd : isAbsolute w.cwd = true) {s : Session}
    (h : Recalls w.files s) (fileDir : String) (policy : Policy) (project : Option String) :
    ((forDirectory fileDir policy project).run w s).1 = fresh w s fileDir policy project ∧
      Recalls w.files ((forDirectory fileDir policy project).run w s).2 := by
  constructor
  · have hfind := (Finder.find_right hcwd h fileDir ["node_modules/eslint"]).1
    obtain ⟨memo, ⟨fault, hfault, hrun⟩ | ⟨found, log, hfound, hrun⟩⟩ :=
      forDirectory_run (w := w) fileDir policy project s
    · rw [hrun, fresh, ← hfind, hfault]
      rfl
    · rw [hrun, fresh, ← hfind, hfound]
      exact load_frame (found.map directory) policy project
        { s with context := s.context.pointedAt (found.map directory) } memo log
  · exact (alike_forDirectory (searches_recalls hcwd) (locates_recalls hcwd) recalls_refresh
      fileDir policy project).keeps.session h

end Package

/-! ## 6. Sequences of operations on one memo -/

/-- What looks upwards. -/
inductive Query
  | find (start : String) (names : List String)
  | configFile (start : String)
  | ignoreFile (fileDir : String) (policy : Policy)
  | ruleDirectories (fileDir : String) (entries : List String)
  | package (fileDir : String) (policy : Policy) (project : Option String)
  | workplace (fileDir filePath : String) (policy : Policy) (project : Option String)
  | options (jobType : String) (policy : Policy) (rules : Entries Json) (fileDir : String)
      (config : Option String)

namespace Query

/-- What comes back. -/
def Reply : Query → Type
  | find .. | configFile .. | ignoreFile .. => Option String
  | ruleDirectories .. => List String
  | package .. => Package
  | workplace .. => Workplace
  | options .. => Engine.Options

/-- Carries an operation out. -/
def perform : (q : Query) → Action q.Reply
  | find start names => Finder.find start names
  | configFile start => ConfigFile.find start
  | ignoreFile fileDir policy => LintHost.ignoreFile fileDir policy
  | ruleDirectories fileDir entries => Engine.Options.ruleDirectories fileDir entries
  | package fileDir policy project => Package.forDirectory fileDir policy project
  | workplace fileDir filePath policy project => Workplace.resolve fileDir filePath policy project
  | options jobType policy rules fileDir config =>
    Engine.Options.build jobType policy rules fileDir config

/-- What an operation gives in a session where no memo of looking upwards is asked. -/
def fresh (w : World) (s : Session) : (q : Query) → Except Fault q.Reply
  | find start names => Finder.fresh w start names
  | configFile start => ConfigFile.fresh w start
  | ignoreFile fileDir policy => freshIgnoreFile w fileDir policy
  | ruleDirectories fileDir entries => Engine.Options.freshRuleDirectories w fileDir entries
  | package fileDir policy project => Package.fresh w s fileDir policy project
  | workplace fileDir filePath policy project => Workplace.fresh w fileDir filePath policy project
  | options jobType policy rules fileDir config =>
    Engine.Options.fresh w jobType policy rules fileDir config

theorem fresh_frame (s : Session) (memo : FinderMemo) (q : Query) :
    q.fresh w { s with cache := { s.cache with finder := memo } } = q.fresh w s := by
  cases q with
  | package fileDir policy project => exact Package.fresh_frame s memo fileDir policy project
  | find | configFile | ignoreFile | ruleDirectories | workplace | options => rfl

/-- **One operation with a right memo** gives what it gives without, and leaves a right memo. -/
theorem perform_right (hcwd : isAbsolute w.cwd = true) {s : Session} (h : Recalls w.files s)
    (q : Query) : (q.perform.run w s).1 = q.fresh w s ∧
      Recalls w.files (q.perform.run w s).2 := by
  cases q with
  | find start names => exact Finder.find_right hcwd h start names
  | configFile start => exact (ConfigFile.computes_find hcwd start).run s h
  | ignoreFile fileDir policy => exact (computes_ignoreFile hcwd fileDir policy).run s h
  | ruleDirectories fileDir entries =>
    exact (Engine.Options.computes_ruleDirectories hcwd fileDir entries).run s h
  | package fileDir policy project =>
    exact Package.forDirectory_right hcwd h fileDir policy project
  | workplace fileDir filePath policy project =>
    exact (Workplace.computes_resolve hcwd fileDir filePath policy project).run s h
  | options jobType policy rules fileDir config =>
    exact (Engine.Options.computes_build hcwd jobType policy rules fileDir config).run s h

end Query

/-- What looks upwards ends alike from sessions that its primitives leave related. -/
theorem alike_query {R : Session → Session → Prop} (hR : Locates w R R)
    (refresh : ∀ dir, Alike w R R (discard (Package.refreshSearchPath dir)) fun _ => R)
    (note : ∀ cwd, Alike w R R (modifyContext fun c => { c with cwd := some cwd }) fun _ => R)
    (q : Query) : Alike w R R q.perform fun _ => R := by
  cases q with
  | find start names => exact hR.find start names
  | configFile start => exact hR.configFile start
  | ignoreFile fileDir policy => exact hR.ignoreFile fileDir policy
  | ruleDirectories fileDir entries => exact hR.ruleDirectories fileDir entries
  | package fileDir policy project =>
    exact alike_forDirectory hR.toSearches hR refresh fileDir policy project
  | workplace fileDir filePath policy project =>
    exact alike_workplace hR.toSearches hR.toSearches note fileDir filePath policy project
  | options jobType policy rules fileDir config =>
    exact hR.options jobType policy rules fileDir config

/-- An operation with all that it meets besides the memo: the world with the working directory of
    the moment, and the session of some context. -/
structure Visit where
  world : World
  session : Session
  query : Query

namespace Visit

/-- The world has these files and an absolute working directory. -/
structure Sees (files : FileTree) (v : Visit) : Prop where
  files : v.world.files = files
  cwd : isAbsolute v.world.cwd = true

/-- The session with a memo of what looking upwards has found. -/
def withMemo (v : Visit) (memo : FinderMemo) : Session :=
  { v.session with cache := { v.session.cache with finder := memo } }

/-- What the operation gives where this memo is asked. -/
def outcome (v : Visit) (memo : FinderMemo) : Except Fault v.query.Reply :=
  (v.query.perform.run v.world (v.withMemo memo)).1

/-- What the operation gives where no memo is asked. -/
def fresh (v : Visit) : Except Fault v.query.Reply := v.query.fresh v.world (v.withMemo [])

/-- The memo that the operation leaves. -/
def leaves (memo : FinderMemo) (v : Visit) : FinderMemo :=
  (v.query.perform.run v.world (v.withMemo memo)).2.cache.finder

end Visit

/-- The memo after operations that start with an empty one, of which each may have failed. -/
def FinderMemo.after (visits : List Visit) : FinderMemo := visits.foldl Visit.leaves []

theorem Visit.right {files : FileTree} {v : Visit} (hv : v.Sees files) {memo : FinderMemo}
    (h : memo.Right files) : v.outcome memo = v.fresh ∧ (v.leaves memo).Right files := by
  obtain rfl := hv.files
  have hrecalls : Recalls v.world.files (v.withMemo memo) := h
  obtain ⟨hresult, hleft⟩ := Query.perform_right hv.cwd hrecalls v.query
  refine ⟨?_, hleft⟩
  have hmemo := Query.fresh_frame (w := v.world) v.session memo v.query
  have hempty := Query.fresh_frame (w := v.world) v.session [] v.query
  exact hresult.trans (hmemo.trans hempty.symm)

theorem FinderMemo.right_after {files : FileTree} (visits : List Visit)
    (hvisits : ∀ v ∈ visits, v.Sees files) : (FinderMemo.after visits).Right files := by
  have hfold : ∀ (visits : List Visit) (memo : FinderMemo), (∀ v ∈ visits, v.Sees files) →
      memo.Right files → (visits.foldl Visit.leaves memo).Right files := by
    intro visits
    induction visits with
    | nil => exact fun _ _ h => h
    | cons v rest ih =>
      intro memo hall h
      have hleft := (Visit.right (hall v List.mem_cons_self) h).2
      exact ih _ (fun v' hv' => hall v' (List.mem_cons_of_mem _ hv')) hleft
  exact hfold visits [] hvisits right_nil

/-- **The memo of looking upwards is transparent.** After operations on one memo that was empty at
    first, whatever they were and however they ended, in worlds with one file tree: every entry is
    for an absolute directory and is what is found from there without a memo, in all such worlds;
    and a further operation gives what it gives where no memo is asked. -/
theorem finder_memo_transparent (files : FileTree) (visits : List Visit)
    (hvisits : ∀ v ∈ visits, v.Sees files) :
    (∀ entry ∈ FinderMemo.after visits, isAbsolute entry.1.1 = true ∧
      ∀ w : World, w.files = files → Finder.fresh w entry.1.1 entry.1.2 = .ok entry.2) ∧
    ∀ v : Visit, v.Sees files → v.outcome (FinderMemo.after visits) = v.fresh := by
  have hright := FinderMemo.right_after visits hvisits
  constructor
  · intro entry hentry
    exact ⟨hright.rooted hentry, fun w hw => hright.fresh hentry hw⟩
  · intro v hv
    exact (Visit.right hv hright).1

/-! ## 7. A project that is seen from two directories -/

/-- A machine with a project in `/p` that has an ignore file, seen from a working directory. -/
def World.ignoring (cwd : String) : World :=
  { World.bare with files := FileTree.empty.add ["p", ".eslintignore"] (.file .empty true true), cwd }

/-- The ignore file for a directory is looked for from a working directory. -/
def Visit.ofIgnore (cwd fileDir : String) : Visit :=
  ⟨.ignoring cwd, .start (.ofEnv []), .ignoreFile fileDir .standard⟩

/-- What was found for `src` while `/p` was the working directory is not found for `src` when it is
    `/` later, and is found for `p/src` then. -/
theorem ignoring_memo_transparent :
    let visits := [Visit.ofIgnore "/p" "src"]
    (∀ v ∈ visits, v.Sees (World.ignoring "/").files) ∧
    FinderMemo.after visits = [(("/p/src", [".eslintignore"]), some "/p/.eslintignore")] ∧
    Finder.fresh (.ignoring "/") "/p/src" [".eslintignore"] = .ok (some "/p/.eslintignore") ∧
    (Visit.ofIgnore "/" "src").outcome (FinderMemo.after visits) = .ok (none : Option String) ∧
    (Visit.ofIgnore "/" "p/src").outcome (FinderMemo.after visits) =
      .ok (some "/p/.eslintignore") := by
  intro visits
  have hsees (cwd fileDir : String) (hcwd : isAbsolute cwd = true) :
      (Visit.ofIgnore cwd fileDir).Sees (World.ignoring "/").files := ⟨rfl, hcwd⟩
  have hvisits : ∀ v ∈ visits, v.Sees (World.ignoring "/").files := by
    intro v hv
    rw [List.mem_singleton.mp hv]
    exact hsees "/p" "src" (by decide)
  have hmemo : FinderMemo.after visits =
      [(("/p/src", [".eslintignore"]), some "/p/.eslintignore")] := by decide +kernel
  obtain ⟨hentries, houtcomes⟩ := finder_memo_transparent (World.ignoring "/").files visits hvisits
  refine ⟨hvisits, hmemo, ?_, ?_, ?_⟩
  · rw [hmemo] at hentries
    exact (hentries _ List.mem_cons_self).2 (.ignoring "/") rfl
  · rw [houtcomes _ (hsees "/" "src" (by decide))]
    rfl
  · rw [houtcomes _ (hsees "/" "p/src" (by decide))]
    rfl

end LintHost
