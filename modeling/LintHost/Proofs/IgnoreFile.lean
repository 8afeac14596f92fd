import LintHost.Proofs.ChildEnv
import LintHost.Proofs.DebugJob
import Mathlib.Data.List.Induction

/-!
# The ignore file is looked for twice

The engine's working directory is chosen by the nearest ignore file, and the engine is told that
file among its options. Both look for it themselves, one after the other, and the files may have
changed by then. What holds them together is the memo of looking upwards, which keeps what it once
was told, also that nothing was found.

* `FinderMemo.Grown`: what an operation does to the memo; `Visit.grown`: every operation does;
* `FinderMemo.after_lookup`: an answer is kept by all that comes later;
* `FinderMemo.LearntFrom`: the operation that an answer comes from; `FinderMemo.learnt`: there is
  one, and it has found the answer among the files of its moment;
* `Workplace.resolve_stages`, `ignoreFile_enabled`: the two lookups;
* `ignore_file_agrees`: what they have in common.
-/

namespace LintHost

open LintHost.Action LintHost.Path

variable {w : World}

/-! ## 1. What an operation does to the memo -/

/-- A memo has grown in a world: all that it held is still there, and what was added is what was
    found in that world. -/
def FinderMemo.Grown (w : World) (memo later : FinderMemo) : Prop :=
  ∃ added, later = memo ++ added ∧ ∀ entry ∈ added, ∃ start,
    entry.1 = Finder.key w start entry.1.2 ∧ Finder.fresh w start entry.1.2 = .ok entry.2

namespace FinderMemo

variable {memo later : FinderMemo}

theorem Grown.refl (memo : FinderMemo) : Grown w memo memo := ⟨[], by simp, nofun⟩

/-- What was found may be added. -/
theorem Grown.add (h : Grown w memo later) (start : String) (names : List String) :
    Grown w memo (later ++
      ((Finder.fresh w start names).toOption.map (Finder.key w start names, ·)).toList) := by
  obtain ⟨added, rfl, hadded⟩ := h
  refine ⟨_, List.append_assoc .., fun entry hentry => ?_⟩
  rcases List.mem_append.mp hentry with hentry | hentry
  · exact hadded entry hentry
  · obtain ⟨hkey, hfound⟩ := Finder.mem_gained.mp hentry
    have hnames : entry.1.2 = names := congrArg Prod.snd hkey
    exact ⟨start, hnames ▸ hkey, hnames ▸ hfound⟩

/-- An answer is kept. -/
theorem Grown.lookup (h : Grown w memo later) {key : String × List String} {found : Option String}
    (hfound : memo.lookup key = some found) : later.lookup key = some found := by
  obtain ⟨added, rfl, -⟩ := h
  rw [List.lookup_append, hfound, Option.some_or]

/-- A new answer is what was found. -/
theorem Grown.found (h : Grown w memo later) {key : String × List String} {found : Option String}
    (hnone : memo.lookup key = none) (hfound : later.lookup key = some found) :
    ∃ start, key = Finder.key w start key.2 ∧ Finder.fresh w start key.2 = .ok found := by
  obtain ⟨added, rfl, hadded⟩ := h
  rw [List.lookup_append, hnone, Option.none_or] at hfound
  obtain ⟨front, back, hsplit, -⟩ := List.lookup_eq_some_iff.mp hfound
  exact hadded (key, found) (by rw [hsplit]; simp)

end FinderMemo

theorem locates_grown (memo : FinderMemo) :
    Locates w (Same fun s => FinderMemo.Grown w memo s.cache.finder)
      (Same fun s => FinderMemo.Grown w memo s.cache.finder) := by
  refine locates_of_frame ⟨fun _ _ h => h, sees_same, fun _ _ _ => alike_of_keeps fun _ h => h,
    fun start names => alike_of_keeps fun s h => ?_⟩ (fun _ _ h => h) fun _ _ _ h => h
  cases hm : s.cache.finder.lookup (Finder.key w start names) with
  | some found =>
    rw [Finder.find_known hm]
    exact h
  | none =>
    rw [Finder.find_unknown hm]
    exact h.add start names

/-- **Every operation makes the memo grow**, however it ends. -/
theorem Visit.grown (v : Visit) (memo : FinderMemo) :
    FinderMemo.Grown v.world memo (v.leaves memo) := by
  have hquery := alike_query (locates_grown (w := v.world) memo)
    (alike_refresh fun _ _ _ h => h) (fun _ => .modifyContext fun _ _ ⟨hsame, h⟩ => ?_) v.query
  · exact hquery.keeps.session (s := v.withMemo memo) (.refl memo)
  · subst hsame
    exact ⟨rfl, h⟩

/-! ## 2. Where an answer comes from -/

namespace FinderMemo

theorem after_append (visits : List Visit) (v : Visit) :
    after (visits ++ [v]) = v.leaves (after visits) := by
  rw [after, List.foldl_append]
  rfl

/-- **An answer is kept** by all that comes later. -/
theorem after_lookup {visits : List Visit} {key : String × List String} {found : Option String}
    (h : (after visits).lookup key = some found) (later : List Visit) :
    (after (visits ++ later)).lookup key = some found := by
  induction later generalizing visits with
  | nil => rwa [List.append_nil]
  | cons v rest ih =>
    rw [List.append_cons]
    exact ih (after_append visits v ▸ (v.grown _).lookup h)

/-- Among operations on one memo, this was the one that first found out an answer. -/
def LearntFrom (visits : List Visit) (v : Visit) (key : String × List String)
    (found : Option String) : Prop :=
  ∃ earlier later, visits = earlier ++ v :: later ∧ (after earlier).lookup key = none ∧
    (after (earlier ++ [v])).lookup key = some found

/-- **Every answer was found out once**, among the files of that moment. -/
theorem learnt {visits : List Visit} {key : String × List String} {found : Option String}
    (h : (after visits).lookup key = some found) : ∃ v, LearntFrom visits v key found ∧
      ∃ start, key = Finder.key v.world start key.2 ∧
        Finder.fresh v.world start key.2 = .ok found := by
  induction visits using List.reverseRecOn with
  | nil => cases h
  | append_singleton visits v ih =>
    have hgrown := v.grown (after visits)
    cases hbefore : (after visits).lookup key with
    | some known =>
      have hknown := after_lookup hbefore [v]
      obtain rfl : known = found := Option.some.inj (hknown.symm.trans h)
      obtain ⟨u, ⟨earlier, later, hvisits, hlearnt⟩, hfound⟩ := ih hbefore
      refine ⟨u, ⟨earlier, later ++ [v], ?_, hlearnt⟩, hfound⟩
      rw [hvisits, List.append_assoc, List.cons_append]
    | none =>
      refine ⟨v, ⟨visits, [], rfl, hbefore, h⟩, hgrown.found hbefore ?_⟩
      rw [← after_append]
      exact h

end FinderMemo

/-- An answer for a place is the nearest among the files that it was found out from. -/
theorem Finder.nearest_of_key {v w : World} (hv : isAbsolute v.cwd = true)
    (hw : isAbsolute w.cwd = true) {start dir name : String} {found : Option String}
    (hkey : key w dir [name] = key v start [name]) (hfound : fresh v start [name] = .ok found) :
    Nearest v (absolute w.cwd dir) name found := by
  have hstart := settled_place hv start
  have hdir := settled_place hw dir
  have hsame : (place w.cwd dir).text = (place v.cwd start).text := by
    have htext := (Prod.mk.inj hkey).1
    rwa [absolute_eq, absolute_eq, PartPath.ofText_text hdir.plain,
      PartPath.ofText_text hstart.plain] at htext
  refine nearest_of_fresh hv ?_
  rw [absolute_eq, hsame, fresh_eq hv, place_text hstart, ← fresh_eq hv]
  exact hfound

/-! ## 3. The two lookups -/

/-- Without ignore files nothing is looked for. -/
theorem ignoreFile_disabled {policy : Policy} (h : policy.disableIgnore = true) (dir : String) :
    ignoreFile dir policy = pure none := by rw [ignoreFile, if_pos h]

theorem ignoreFile_enabled {policy : Policy} (h : policy.disableIgnore = false) (dir : String) :
    ignoreFile dir policy = Finder.find dir [ignoreFileName] := by
  rw [ignoreFile, if_neg (by rw [h]; exact Bool.false_ne_true)]

/-- What was found is remembered. -/
theorem Finder.find_eq_ok {start : String} {names : List String} {s t : Session}
    {found : Option String} (h : (find start names).run w s = (.ok found, t)) :
    t.cache.finder.lookup (key w start names) = some found := by
  cases hm : s.cache.finder.lookup (key w start names) with
  | some known =>
    rw [find_known hm] at h
    cases h
    exact hm
  | none =>
    rw [find_unknown hm] at h
    obtain ⟨hfound, rfl⟩ := Prod.mk.inj h
    rw [hfound, List.lookup_append, hm]
    simp [Except.toOption]

/-- The choice of the working directory goes by the ignore file, and leaves the memo that was left
    by looking for that. -/
theorem Workplace.resolve_stages {fileDir filePath : String} {policy : Policy}
    {project : Option String} {s t : Session} {working : Workplace}
    (h : (resolve fileDir filePath policy project).run w s = (.ok working, t)) :
    ∃ ignore u, (ignoreFile fileDir policy).run w s = (.ok ignore, u) ∧
      working = choose w.cwd fileDir filePath ignore project ∧ t.cache = u.cache := by
  rw [resolve] at h
  obtain ⟨ignore, u, hignore, h⟩ := of_run_bind h
  rw [run_read_bind] at h
  dsimp only at h
  rw [run_bind_ok (run_modifyContext _ _), run_bind_ok (run_tell _ _ _ _), run_pure] at h
  obtain ⟨hworking, rfl⟩ := Prod.mk.inj h
  exact ⟨ignore, u, hignore, (Except.ok.inj hworking).symm, rfl⟩

section

variable {policy : Policy} {dir filePath jobType : String} {project config : Option String}
  {rules : Entries Json} {s : Session} {memo : FinderMemo} {working : Workplace}
  {options : Engine.Options}

/-- The choice goes by what is found then, and that is remembered. -/
theorem Visit.workplace_taken (henabled : policy.disableIgnore = false)
    (h : (Visit.mk w s (.workplace dir filePath policy project)).outcome memo = .ok working) :
    ∃ ignore, ((ignoreFile dir policy).run w
        ((Visit.mk w s (.workplace dir filePath policy project)).withMemo memo)).1 = .ok ignore ∧
      working = Workplace.choose w.cwd dir filePath ignore project ∧
      ((Visit.mk w s (.workplace dir filePath policy project)).leaves memo).lookup
        (Finder.key w dir [ignoreFileName]) = some ignore := by
  let v : Visit := ⟨w, s, .workplace dir filePath policy project⟩
  rcases hrun : (Workplace.resolve dir filePath policy project).run w (v.withMemo memo) with
    ⟨result, t⟩
  obtain rfl : result = .ok working := (congrArg Prod.fst hrun).symm.trans h
  obtain ⟨ignore, u, hignore, hchosen, hcache⟩ := Workplace.resolve_stages hrun
  refine ⟨ignore, by rw [hignore], hchosen, ?_⟩
  have hleft : v.leaves memo = u.cache.finder :=
    (congrArg (fun p => p.2.cache.finder) hrun).trans (congrArg Cache.finder hcache)
  rw [ignoreFile_enabled henabled] at hignore
  rw [hleft]
  exact Finder.find_eq_ok hignore

/-- The options have the ignore file that is found when they are put together. -/
theorem Visit.options_taken
    (h : (Visit.mk w s (.options jobType policy rules dir config)).outcome memo = .ok options) :
    options.ignore = !policy.disableIgnore ∧ ((ignoreFile dir policy).run w
      ((Visit.mk w s (.options jobType policy rules dir config)).withMemo memo)).1 =
        .ok options.ignorePath := by
  let v : Visit := ⟨w, s, .options jobType policy rules dir config⟩
  rcases hrun : (Engine.Options.build jobType policy rules dir config).run w (v.withMemo memo) with
    ⟨result, t⟩
  obtain rfl : result = .ok options := (congrArg Prod.fst hrun).symm.trans h
  obtain ⟨configFile, ignorePath, paths, u, -, hignore, -, rfl⟩ := Engine.Options.build_stages hrun
  exact ⟨rfl, congrArg Prod.fst hignore⟩

/-- The options have what is remembered. -/
theorem Visit.options_given (henabled : policy.disableIgnore = false) {ignore : Option String}
    (hknown : memo.lookup (Finder.key w dir [ignoreFileName]) = some ignore)
    (h : (Visit.mk w s (.options jobType policy rules dir config)).outcome memo = .ok options) :
    options.ignore = true ∧ options.ignorePath = ignore := by
  obtain ⟨hignore, htaken⟩ := Visit.options_taken h
  have hmemo : ((Visit.mk w s (.options jobType policy rules dir config)).withMemo
      memo).cache.finder.lookup (Finder.key w dir [ignoreFileName]) = some ignore := hknown
  rw [ignoreFile_enabled henabled, Finder.find_known hmemo] at htaken
  rw [henabled] at hignore
  exact ⟨hignore, (Except.ok.inj htaken).symm⟩

/-- Without ignore files the choice always succeeds, and does not depend on the files. -/
theorem Visit.workplace_disabled (hdisabled : policy.disableIgnore = true) (w : World)
    (s : Session) (memo : FinderMemo) :
    (Visit.mk w s (.workplace dir filePath policy project)).outcome memo =
      .ok (Workplace.choose w.cwd dir filePath none project) := by
  show ((Workplace.resolve dir filePath policy project).run w _).1 = _
  rw [Workplace.resolve, ignoreFile_disabled hdisabled]
  rfl

theorem Visit.options_disabled (hdisabled : policy.disableIgnore = true)
    (h : (Visit.mk w s (.options jobType policy rules dir config)).outcome memo = .ok options) :
    options.ignore = false ∧ options.ignorePath = none := by
  obtain ⟨hignore, htaken⟩ := Visit.options_taken h
  rw [ignoreFile_disabled hdisabled] at htaken
  rw [hdisabled] at hignore
  exact ⟨hignore, (Except.ok.inj htaken).symm⟩

end

/-! ## 4. Their agreement -/

/-- **The ignore file and the working directory agree.** A working directory is chosen, and later
    options are put together for the same directory, both on one memo that was empty at first and
    that any other operations have used before and in between, in worlds that may all differ. When
    both return and ignore files are in use,

    * `ignore` is set, and the ignore file among the options is the one that the working directory
      was chosen by, or there is none in both: then the directory is that file's;
    * some operation, up to the choice itself, was the first to look it up, and it is the nearest
      one among the files of that moment, or there was none.

    Without ignore files `ignore` is not set and there is no ignore file, and neither that nor the
    choice depends on the files. -/
theorem ignore_file_agrees (policy : Policy) (dir dir' filePath : String)
    (project : Option String) (jobType : String) (rules : Entries Json) (config : Option String)
    (w w' : World) (s s' : Session) (before between : List Visit)
    (hsame : absolute w'.cwd dir' = absolute w.cwd dir)
    {working : Workplace} {options : Engine.Options}
    (hworking : (Visit.mk w s (.workplace dir filePath policy project)).outcome
      (.after before) = .ok working)
    (hoptions : (Visit.mk w' s' (.options jobType policy rules dir' config)).outcome
      (.after (before ++ .mk w s (.workplace dir filePath policy project) :: between)) =
        .ok options) :
    let visits := before ++ [.mk w s (.workplace dir filePath policy project)]
    (policy.disableIgnore = false → options.ignore = true ∧ ∃ ignore : Option String,
      ((ignoreFile dir policy).run w
        ((Visit.mk w s (.workplace dir filePath policy project)).withMemo (.after before))).1 =
          .ok ignore ∧
      working = Workplace.choose w.cwd dir filePath ignore project ∧
      options.ignorePath = ignore ∧
      (∀ path, ignore = some path → working.cwd = directory path) ∧
      ((∀ v ∈ visits, isAbsolute v.world.cwd = true) →
        ∃ v, FinderMemo.LearntFrom visits v (absolute w.cwd dir, [ignoreFileName]) ignore ∧
          Finder.Nearest v.world (absolute w.cwd dir) ignoreFileName ignore)) ∧
    (policy.disableIgnore = true → options.ignore = false ∧ options.ignorePath = none ∧
      ∀ files (s : Session) memo,
        (Visit.mk { w with files } s (.workplace dir filePath policy project)).outcome memo =
          .ok working ∧
        ∀ options', (Visit.mk { w' with files } s
            (.options jobType policy rules dir' config)).outcome memo = .ok options' →
          options'.ignore = false ∧ options'.ignorePath = none) := by
  intro visits
  constructor
  · intro henabled
    obtain ⟨ignore, htaken, hchosen, hleft⟩ := Visit.workplace_taken henabled hworking
    rw [← FinderMemo.after_append] at hleft
    have hkey : Finder.key w' dir' [ignoreFileName] = Finder.key w dir [ignoreFileName] := by
      rw [Finder.key, Finder.key, hsame]
    have hknown := FinderMemo.after_lookup hleft between
    rw [List.append_assoc, List.singleton_append, ← hkey] at hknown
    obtain ⟨hignore, hpath⟩ := Visit.options_given henabled hknown hoptions
    refine ⟨hignore, ignore, htaken, hchosen, hpath, ?_, fun hcwds => ?_⟩
    · rintro path rfl
      rw [hchosen]
      rfl
    · have hw : isAbsolute w.cwd = true :=
        hcwds _ (List.mem_append_right _ (List.mem_singleton_self _))
      obtain ⟨v, hlearnt, start, hstart, hfound⟩ := FinderMemo.learnt hleft
      have hv : isAbsolute v.world.cwd = true := by
        obtain ⟨earlier, later, hvisits, -⟩ := hlearnt
        refine hcwds v ?_
        show v ∈ before ++ _
        rw [hvisits]
        exact List.mem_append_right _ List.mem_cons_self
      have htext : (Finder.key w dir [ignoreFileName]).1 = absolute w.cwd dir := by
        rw [Finder.key, absolute_eq, PartPath.ofText_text (settled_place hw dir).plain]
      refine ⟨v, ?_, Finder.nearest_of_key hv hw hstart hfound⟩
      rw [← htext]
      exact hlearnt
  · intro hdisabled
    obtain ⟨hignore, hpath⟩ := Visit.options_disabled hdisabled hoptions
    refine ⟨hignore, hpath, fun files s memo => ⟨?_, fun options' hoptions' =>
      Visit.options_disabled hdisabled hoptions'⟩⟩
    rw [Visit.workplace_disabled hdisabled] at hworking
    exact (Visit.workplace_disabled hdisabled ..).trans hworking

/-- A working directory is chosen for `/p/src/a.js` while there is an ignore file in `/p`. -/
def Visit.chosen : Visit :=
  ⟨.ignoring "/", .start (.ofEnv []), .workplace "/p/src" "/p/src/a.js" .standard none⟩

/-- The options are put together when it is gone: they still have it, since it was there when it was
    looked up first. -/
theorem deleted_ignore_file_agrees : ∃ working options,
    Visit.chosen.outcome [] = .ok working ∧
    (Visit.mk .bare (.start (.ofEnv [])) (.options "lint" .standard [] "/p/src" none)).outcome
      (.after [.chosen]) = .ok options ∧
    working = Workplace.mk "/p" "src/a.js" ∧ options.ignorePath = some "/p/.eslintignore" ∧
    Finder.Nearest (.ignoring "/") "/p/src" ignoreFileName (some "/p/.eslintignore") ∧
    Finder.fresh .bare "/p/src" [ignoreFileName] = .ok none := by
  let building : Visit :=
    ⟨.bare, .start (.ofEnv []), .options "lint" .standard [] "/p/src" none⟩
  have hworking : Visit.chosen.outcome (.after []) = .ok (Workplace.mk "/p" "src/a.js") := rfl
  have hbuilt : (building.outcome (.after [.chosen])).isOk = true := by decide +kernel
  obtain ⟨options, hoptions⟩ := exists_of_isOk hbuilt
  obtain ⟨hagree, -⟩ := ignore_file_agrees .standard "/p/src" "/p/src" "/p/src/a.js" none "lint" []
    none (.ignoring "/") .bare (.start (.ofEnv [])) (.start (.ofEnv [])) [] [] rfl hworking hoptions
  obtain ⟨-, ignore, htaken, -, hpath, -, hnearest⟩ := hagree rfl
  obtain rfl : some "/p/.eslintignore" = ignore := Except.ok.inj htaken
  have hcwds : ∀ v ∈ [Visit.chosen], isAbsolute v.world.cwd = true := by
    intro v hv
    rw [List.mem_singleton.mp hv]
    rfl
  obtain ⟨v, ⟨earlier, later, hvisits, -⟩, hnearest⟩ := hnearest hcwds
  have hv : v ∈ [Visit.chosen] := by
    rw [show [Visit.chosen] = earlier ++ v :: later from hvisits]
    exact List.mem_append_right _ List.mem_cons_self
  rw [List.mem_singleton.mp hv] at hnearest
  exact ⟨_, options, hworking, hoptions, rfl, hpath, hnearest, rfl⟩

end LintHost
