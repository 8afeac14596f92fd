import LintHost.Proofs.ConfigFaults
import LintHost.Proofs.DebugJob
import LintHost.Proofs.RuleDirectories

/-!
# Directories with rules that cannot be found

An entry of the policy's that leads nowhere is left out of the options. But looking for it may also
fail, where a path is too long or something on the way is closed, and then there are no options at
all. This file says which of the two becomes of an entry.

* `Finder.Stuck`, `fresh_fails_iff`: what a search for one name fails at;
* `Stuck.of_name`: what that can be, where the directories may be searched;
* `Engine.Options.Jams`: an entry that looking for fails at; `build_fails_iff`: what the options
  fail at;
* `Engine.Options.Lost`: an entry that is nowhere; `lost_dropped`: it makes no difference as long
  as it is plainly nowhere;
* `lost_entry_dropped_iff`: otherwise there are no options.
-/

namespace LintHost

open LintHost.Action LintHost.Path

variable {w : World} {s : Session}

/-! ## 1. What a search fails at -/

namespace Finder

variable {start name : String} {k : Nat} {cause : LookupFault}

/-- It cannot be told whether the name is there so many directories above, and it is not there in
    the nearer ones. -/
structure Stuck (w : World) (start name : String) (k : Nat) (cause : LookupFault) : Prop where
  reached : k ≤ (origin w start).names.length
  nearer : ∀ j < k, w.files.exists? w.cwd (((origin w start).up j).entry name).text = .ok false
  untold : w.files.exists? w.cwd (((origin w start).up k).entry name).text = .error cause

/-- **What a search for one name fails at** is the first probe that is not plainly negative. -/
theorem fresh_fails_iff : Fails (fresh w start [name]) ↔ ∃ k cause, Stuck w start name k cause := by
  constructor
  · rintro ⟨fault, hfault⟩
    obtain ⟨k, other, cause, hfirst, huntold, -⟩ := search_eq_error_iff.mp hfault
    obtain ⟨before, after, hnames, -⟩ := hfirst.earlier
    obtain rfl : other = name := List.mem_singleton.mp (by rw [hnames]; simp)
    exact ⟨k, cause, hfirst.reached,
      fun j hj => hfirst.nearer j hj other List.mem_cons_self, huntold⟩
  · rintro ⟨k, cause, hstuck⟩
    exact ⟨_, search_eq_error_iff.mpr ⟨k, name, cause, ⟨hstuck.reached,
      fun j hj => List.forall_mem_singleton.mpr (hstuck.nearer j hj), [], [], rfl, nofun⟩,
      hstuck.untold, rfl⟩⟩

/-- Nothing is found of a name that is plainly nowhere, and of no other. -/
theorem fresh_eq_none_iff : fresh w start [name] = .ok none ↔
    ∀ k ≤ (origin w start).names.length,
      w.files.exists? w.cwd (((origin w start).up k).entry name).text = .ok false :=
  search_eq_none_iff.trans (forall₂_congr fun _ _ => List.forall_mem_singleton)

/-- What is found of a name is there. -/
theorem fresh_eq_some {path : String} (h : fresh w start [name] = .ok (some path)) :
    ∃ k ≤ (origin w start).names.length,
      w.files.exists? w.cwd (((origin w start).up k).entry name).text = .ok true := by
  obtain ⟨k, other, hfirst, hthere, -⟩ := search_eq_some_iff.mp h
  obtain ⟨before, after, hnames, -⟩ := hfirst.earlier
  obtain rfl : other = name := List.mem_singleton.mp (by rw [hnames]; simp)
  exact ⟨k, hfirst.reached, hthere⟩

/-- **Where the directories may be searched**, a single name is stuck on a path that is too long or
    a link to what is closed. -/
theorem Stuck.of_name (h : Stuck w start name k cause) (hname : IsName name.toList)
    (hcwd : isAbsolute w.cwd = true)
    (hopen : w.files.searchable w.cwd ((origin w start).up k).text = true) :
    cause = .nameTooLong ∨ cause = .denied ∧
      ∃ target, w.files.lstat w.cwd (((origin w start).up k).entry name).text =
        .ok (.link target) := by
  rcases FileTree.exists?_fault h.untold with rfl | rfl
  · exact .inr ⟨rfl, FileTree.link_of_denied (ConfigFile.settled_origin_up hcwd start k) hname
      hopen h.untold⟩
  · exact .inl rfl

end Finder

theorem isName_ignoreFileName : IsName ignoreFileName.toList :=
  ⟨⟨by decide, by decide, by decide⟩, by decide⟩

/-! ## 2. What putting options together fails at -/

theorem freshIgnoreFile_fails_iff {fileDir : String} {policy : Policy} :
    Fails (freshIgnoreFile w fileDir policy) ↔
      policy.disableIgnore = false ∧ ∃ k cause, Finder.Stuck w fileDir ignoreFileName k cause := by
  rw [freshIgnoreFile]
  cases policy.disableIgnore with
  | true => exact iff_of_false not_fails_ok nofun
  | false => exact Finder.fresh_fails_iff.trans (and_iff_right rfl).symm

/-- Looking for the ignore file with a coherent memo. -/
theorem ignoreFile_run (hs : s.cache.finder.Coherent w) (fileDir : String) (policy : Policy) :
    ∃ memo, FinderMemo.Coherent w memo ∧ (ignoreFile fileDir policy).run w s =
      (freshIgnoreFile w fileDir policy, { s with cache := { s.cache with finder := memo } }) := by
  rw [ignoreFile, freshIgnoreFile]
  split
  · exact ⟨s.cache.finder, hs, rfl⟩
  · exact Finder.find_run hs fileDir _

namespace Engine.Options

variable {jobType fileDir entry : String} {policy : Policy} {rules : Entries Json}
  {config : Option String} {entries : List String}

/-- Looking for an entry fails: it begins with the name of a user that nobody can have, or the search
    for it is stuck. -/
inductive Jams (w : World) (fileDir entry : String) : Prop
  | nobody (h : NamesNobody entry.toList)
  | stuck {given : String} {k : Nat} {cause : LookupFault} (hentry : entry ≠ "")
    (hclean : clean w.host.homes w.env entry = .ok given) (hrelative : isAbsolute given = false)
    (h : Finder.Stuck w fileDir given k cause)

/-- An entry that can be cleaned and does not come out absolute jams where the search is stuck. -/
theorem jams_iff_stuck {given : String} (hentry : entry ≠ "")
    (hclean : clean w.host.homes w.env entry = .ok given) (hrelative : isAbsolute given = false) :
    Jams w fileDir entry ↔ ∃ k cause, Finder.Stuck w fileDir given k cause := by
  constructor
  · rintro (hnobody | ⟨-, hclean', -, hstuck⟩)
    · exact nomatch hclean.symm.trans (clean_eq_error_iff.mpr ⟨hnobody, rfl⟩)
    · cases hclean.symm.trans hclean'
      exact ⟨_, _, hstuck⟩
  · rintro ⟨k, cause, hstuck⟩
    exact .stuck hentry hclean hrelative hstuck

theorem freshRulePath_fails_iff : Fails (freshRulePath w fileDir entry) ↔ Jams w fileDir entry := by
  by_cases hentry : entry = ""
  · subst hentry
    rw [freshRulePath_empty]
    refine iff_of_false not_fails_ok ?_
    rintro (hnobody | ⟨hne, -⟩)
    · cases hnobody.1
    · exact hne rfl
  cases hclean : clean w.host.homes w.env entry with
  | error fault =>
    refine iff_of_true ⟨fault, ?_⟩ (.nobody (clean_eq_error_iff.mp hclean).1)
    rw [freshRulePath, hclean]
    rfl
  | ok given =>
    cases hrooted : isAbsolute given with
    | true =>
      rw [freshRulePath_rooted hclean hrooted]
      refine iff_of_false not_fails_ok ?_
      rintro (hnobody | ⟨-, hclean', hrelative, -⟩)
      · cases hclean.symm.trans (clean_eq_error_iff.mpr ⟨hnobody, rfl⟩)
      · cases hclean.symm.trans hclean'
        cases hrooted.symm.trans hrelative
    | false =>
      rw [freshRulePath_sought hentry hclean hrooted, Finder.fresh_fails_iff,
        jams_iff_stuck hentry hclean hrooted]

theorem freshRuleDirectories_fails_iff :
    Fails (freshRuleDirectories w fileDir entries) ↔ ∃ entry ∈ entries, Jams w fileDir entry := by
  induction entries with
  | nil => exact iff_of_false not_fails_ok fun ⟨_, hmem, _⟩ => List.not_mem_nil hmem
  | cons entry entries ih =>
    rw [freshRuleDirectories_cons, fails_bind fun _ => fails_map, freshRulePath_fails_iff, ih,
      List.exists_mem_cons_iff]

/-- **Options that are put together with a coherent memo** are what they are without. -/
theorem build_result (hs : s.cache.finder.Coherent w) (jobType : String) (policy : Policy)
    (rules : Entries Json) (fileDir : String) (config : Option String) :
    ((build jobType policy rules fileDir config).run w s).1 =
      fresh w jobType policy rules fileDir config := by
  obtain ⟨memo, hmemo, hignore⟩ := ignoreFile_run hs fileDir policy
  obtain ⟨later, -, hpaths⟩ := ruleDirectories_run fileDir policy.rulesDirs
    (s := { s with cache := { s.cache with finder := memo } }) hmemo
  rw [build, fresh]
  refine run_bind_result (fallback_run policy config s) fun configFile => ?_
  refine run_bind_result hignore fun ignorePath => ?_
  exact run_bind_result hpaths fun paths => rfl

/-- The configuration file that the policy names begins with the name of a user that nobody can have,
    and it is asked for. -/
def NamelessFallback (policy : Policy) (config : Option String) : Prop :=
  config = none ∧ ∃ path, policy.fallbackConfig = some path ∧ NamesNobody path.toList

theorem fallbackOf_fails_iff :
    Fails (fallbackOf w policy config) ↔ NamelessFallback policy config := by
  unfold fallbackOf NamelessFallback
  cases config with
  | some path => exact iff_of_false not_fails_ok nofun
  | none =>
    cases policy.fallbackConfig with
    | none => exact iff_of_false not_fails_ok nofun
    | some path =>
      dsimp only
      split
      · rename_i hempty
        subst hempty
        refine iff_of_false not_fails_ok ?_
        rintro ⟨-, _, ⟨⟩, hnobody, -⟩
        cases hnobody
      · rw [fails_map]
        constructor
        · rintro ⟨fault, hfault⟩
          exact ⟨rfl, path, rfl, (clean_eq_error_iff.mp hfault).1⟩
        · rintro ⟨-, _, ⟨⟩, hnobody⟩
          exact ⟨_, clean_eq_error_iff.mpr ⟨hnobody, rfl⟩⟩

/-- **What the options fail at**: the configuration file, the ignore file, where there is to be one,
    or an entry. -/
theorem build_fails_iff (hs : s.cache.finder.Coherent w) :
    Fails ((build jobType policy rules fileDir config).run w s).1 ↔
      NamelessFallback policy config ∨
      (policy.disableIgnore = false ∧
        ∃ k cause, Finder.Stuck w fileDir ignoreFileName k cause) ∨
      ∃ entry ∈ policy.rulesDirs, Jams w fileDir entry := by
  rw [build_result hs, fresh,
    fails_bind fun _ => fails_bind fun _ => fails_bind fun _ => fails_pure _,
    fallbackOf_fails_iff, freshIgnoreFile_fails_iff, freshRuleDirectories_fails_iff, or_false]

/-! ## 3. Entries that are nowhere -/

/-- What looking at a path comes to so many directories above that of a file. -/
def seen (w : World) (fileDir path : String) (k : Nat) : Except LookupFault Node :=
  w.files.stat w.cwd (((Finder.origin w fileDir).up k).entry path).text

/-- An entry that is not empty and, once it is cleaned, neither absolute nor seen from anywhere, for
    whatever reason. -/
structure Lost (w : World) (fileDir entry : String) : Prop where
  given : entry ≠ ""
  nowhere : ∀ path, clean w.host.homes w.env entry = .ok path → isAbsolute path = false ∧
    ∀ k ≤ (Finder.origin w fileDir).names.length, Fails (seen w fileDir path k)

/-- The reasons that count for more than that nothing is there. -/
inductive Obstructed (w : World) (fileDir entry : String) : Prop
  /-- It begins with the name of a user that nobody can have. -/
  | nobody (h : NamesNobody entry.toList)
  /-- Where it is looked for, something on the way is closed or the path is too long. -/
  | untold {path : String} {k : Nat} (hclean : clean w.host.homes w.env entry = .ok path)
    (hk : k ≤ (Finder.origin w fileDir).names.length)
    (h : seen w fileDir path k = .error .denied ∨ seen w fileDir path k = .error .nameTooLong)

/-- An entry that is plainly nowhere stands for nothing. -/
theorem lost_nothing (h : Lost w fileDir entry) (hclear : ¬Obstructed w fileDir entry) :
    freshRulePath w fileDir entry = .ok none := by
  have hnamed : ¬NamesNobody entry.toList := fun hnobody => hclear (.nobody hnobody)
  obtain ⟨path, hclean⟩ := clean_isOk w.host.homes w.env hnamed
  obtain ⟨hrelative, hnowhere⟩ := h.nowhere path hclean
  rw [freshRulePath_sought h.given hclean hrelative]
  refine Finder.fresh_eq_none_iff.mpr fun k hk => ?_
  obtain ⟨fault, hfault⟩ := hnowhere k hk
  have hthere := FileTree.exists?_of_stat_error hfault
  cases habsent : fault.saysAbsent with
  | true =>
    rw [habsent] at hthere
    exact hthere
  | false =>
    rw [habsent] at hthere
    refine absurd (Obstructed.untold hclean hk ?_) hclear
    rcases FileTree.exists?_fault hthere with rfl | rfl
    · exact .inl hfault
    · exact .inr hfault

/-- **An entry that is plainly nowhere** is left out. -/
theorem lost_dropped (h : Lost w fileDir entry) (hclear : ¬Obstructed w fileDir entry)
    (before after : List String) : freshRuleDirectories w fileDir (before ++ entry :: after) =
      freshRuleDirectories w fileDir (before ++ after) := by
  rw [freshRuleDirectories_append, freshRuleDirectories_append, freshRuleDirectories_cons,
    lost_nothing h hclear, Except.ok_bind]
  cases freshRuleDirectories w fileDir after <;> rfl

/-- Looking for an entry that is nowhere fails if it is obstructed somewhere. -/
theorem Lost.jams (h : Lost w fileDir entry) (hobstructed : Obstructed w fileDir entry) :
    Jams w fileDir entry := by
  cases hobstructed with
  | nobody hnobody => exact .nobody hnobody
  | @untold path k hclean hk hseen =>
    obtain ⟨hrelative, hnowhere⟩ := h.nowhere path hclean
    have huntold : Fails (w.files.exists? w.cwd
        (((Finder.origin w fileDir).up k).entry path).text) := by
      rcases hseen with hseen | hseen
      · exact ⟨_, FileTree.exists?_of_stat_error hseen⟩
      · exact ⟨_, FileTree.exists?_of_stat_error hseen⟩
    refine (jams_iff_stuck h.given hclean hrelative).mpr (Finder.fresh_fails_iff.mp ?_)
    cases hfound : Finder.fresh w fileDir [path] with
    | error fault => exact ⟨fault, rfl⟩
    | ok found =>
      -- there is no hit, since the entry is nowhere; and without one the obstruction is met
      exfalso
      cases found with
      | some hit =>
        obtain ⟨j, hj, hthere⟩ := Finder.fresh_eq_some hfound
        obtain ⟨fault, hfault⟩ := hnowhere j hj
        rw [FileTree.exists?_of_stat_error hfault] at hthere
        split at hthere <;> cases hthere
      | none =>
        obtain ⟨fault, huntold⟩ := huntold
        rw [Finder.fresh_eq_none_iff.mp hfound k hk] at huntold
        cases huntold

/-! ## 4. The whole list -/

/-- **Directories with rules that cannot be found.** Let the directories from that of the file to
    the root be searchable. Then, with any coherent memo and whatever the policy says otherwise:

    * options are put together exactly if the configuration file that the policy names can be put in
      place, where it is asked for, and looking for the ignore file, where there is to be one, and for
      the entries does not fail;
    * they are then what was asked for, the configuration file, the ignore file, and what each entry
      stands for;
    * looking for the ignore file fails only on a path that is too long or a link to what is closed;
    * an entry that is nowhere makes no difference if it is not obstructed anywhere, and if it is
      there are no options. -/
theorem lost_entry_dropped_iff (hcwd : isAbsolute w.cwd = true)
    (hs : s.cache.finder.Coherent w) (jobType : String) (policy : Policy) (rules : Entries Json)
    (fileDir : String) (config : Option String)
    (hopen : ∀ k ≤ (Finder.origin w fileDir).names.length,
      w.files.searchable w.cwd ((Finder.origin w fileDir).up k).text = true) :
    let built (dirs : List String) :=
      ((build jobType { policy with rulesDirs := dirs } rules fileDir config).run w s).1
    (∀ dirs, (∃ options, built dirs = .ok options) ↔
      ¬NamelessFallback policy config ∧
      (policy.disableIgnore = false →
        ¬∃ k cause, Finder.Stuck w fileDir ignoreFileName k cause) ∧
      ∀ entry ∈ dirs, ¬Jams w fileDir entry) ∧
    (∀ dirs options, built dirs = .ok options → ∃ configFile ignorePath shares,
      options = ⟨rules, !policy.disableIgnore, jobType = "fix", ignorePath,
        shares.flatMap Option.toList, configFile⟩ ∧
      fallbackOf w policy config = .ok configFile ∧
      freshIgnoreFile w fileDir policy = .ok ignorePath ∧
      List.Forall₂ (StandsFor w fileDir) dirs shares) ∧
    (∀ k cause, Finder.Stuck w fileDir ignoreFileName k cause →
      cause = .nameTooLong ∨ cause = .denied ∧
        ∃ target, w.files.lstat w.cwd
          (((Finder.origin w fileDir).up k).entry ignoreFileName).text = .ok (.link target)) ∧
    ∀ before entry after, Lost w fileDir entry →
      (¬Obstructed w fileDir entry →
        built (before ++ entry :: after) = built (before ++ after)) ∧
      (Obstructed w fileDir entry → Fails (built (before ++ entry :: after))) := by
  intro built
  refine ⟨fun dirs => ?_, fun dirs options hbuilt => ?_,
    fun k cause hstuck => hstuck.of_name isName_ignoreFileName hcwd (hopen k hstuck.reached),
    fun before entry after hlost => ⟨fun hclear => ?_, fun hobstructed => ?_⟩⟩
  · rw [← not_fails_iff, build_fails_iff hs, not_or, not_or, not_and]
    refine and_congr_right fun _ => and_congr_right fun _ => ?_
    simp only [not_exists, not_and]
  · rw [show built dirs = _ from build_result hs ..] at hbuilt
    obtain ⟨configFile, hconfig, h⟩ := Except.bind_eq_ok hbuilt
    obtain ⟨ignorePath, hignore, h⟩ := Except.bind_eq_ok h
    obtain ⟨paths, hpaths, h⟩ := Except.bind_eq_ok h
    obtain ⟨shares, hshares, rfl⟩ := (freshRuleDirectories_eq_ok hcwd).mp hpaths
    exact ⟨configFile, ignorePath, shares, (Except.ok.inj h).symm, hconfig, hignore, hshares⟩
  · have hdropped := lost_dropped hlost hclear before after
    show ((build _ _ _ _ _).run w s).1 = ((build _ _ _ _ _).run w s).1
    rw [build_result hs, build_result hs, fresh, fresh, hdropped]
    rfl
  · exact (build_fails_iff hs).mpr (.inr (.inr ⟨entry, by simp, hlost.jams hobstructed⟩))

end Engine.Options

/-! ## 5. A project with such entries -/

/-- A machine with a project in `/p` that has a directory with rules and one that is closed. -/
def World.shut : World :=
  { World.bare with
    files := (FileTree.empty.add ["p", "rules"] (.directory true)).add ["p", "shut"]
      (.directory false) }

/-- An entry in the closed directory is nowhere, but it is not left out: there are no options,
    though there are without it and all directories above the file are searchable. -/
theorem closed_entry_not_dropped :
    let built (dirs : List String) := ((Engine.Options.build "lint"
      { Policy.standard with rulesDirs := dirs } [] "/p" none).run World.shut (.start (.ofEnv []))).1
    (∀ k ≤ (Finder.origin .shut "/p").names.length, World.shut.files.searchable World.shut.cwd
      ((Finder.origin .shut "/p").up k).text = true) ∧
    Engine.Options.Lost .shut "/p" "shut/x" ∧
    built ["rules"] = .ok ⟨[], true, false, none, ["/p/rules"], none⟩ ∧
    built ["rules", "shut/x"] = .error (.os ⟨13, "/p/shut/x"⟩) := by
  have hnowhere : ∀ k ≤ (Finder.origin .shut "/p").names.length,
      (Engine.Options.seen .shut "/p" "shut/x" k).isOk = false := by decide +kernel
  have hclean : clean World.shut.host.homes World.shut.env "shut/x" = .ok "shut/x" := rfl
  have hlost : Engine.Options.Lost .shut "/p" "shut/x" := by
    refine ⟨by decide, fun path hpath => ?_⟩
    obtain rfl : "shut/x" = path := Except.ok.inj (hclean.symm.trans hpath)
    exact ⟨rfl, fun k hk => fails_of_isOk (hnowhere k hk)⟩
  exact ⟨by decide +kernel, hlost, rfl, rfl⟩

/-- A machine with a project in `/p` that has a directory with rules, a file and a link to
    itself. -/
def World.cluttered : World :=
  { World.bare with
    files := ((FileTree.empty.add ["p", "rules"] (.directory true)).add ["p", "notes"]
      (.file .empty true true)).add ["p", "circle"] (.link "circle") }

/-- Entries that are missing, lie below a file, lead in a circle or are no paths are left out. -/
theorem cluttered_entries_dropped :
    let built (dirs : List String) := ((Engine.Options.build "lint"
      { Policy.standard with rulesDirs := dirs } [] "/p" none).run World.cluttered
        (.start (.ofEnv []))).1
    built ["gone", "notes/rules", "circle", "rules", "nul\x00"] = built ["rules"] ∧
    built ["rules"] = .ok ⟨[], true, false, none, ["/p/rules"], none⟩ := by
  intro built
  have hopen : ∀ k ≤ (Finder.origin .cluttered "/p").names.length,
      World.cluttered.files.searchable World.cluttered.cwd
        ((Finder.origin .cluttered "/p").up k).text = true := by decide +kernel
  have hmemo : (Session.start (.ofEnv [])).cache.finder.Coherent .cluttered :=
    FinderMemo.coherent_nil
  obtain ⟨-, -, -, hdrop⟩ := Engine.Options.lost_entry_dropped_iff (by decide) hmemo "lint"
    .standard [] "/p" none hopen
  let lost := ["gone", "notes/rules", "circle", "nul\x00"]
  have hclean : ∀ entry ∈ lost, entry ≠ "" ∧ isAbsolute entry = false ∧
      clean World.cluttered.host.homes World.cluttered.env entry = .ok entry := by
    intro entry hentry
    simp only [lost, List.mem_cons, List.not_mem_nil, or_false] at hentry
    obtain rfl | rfl | rfl | rfl := hentry <;> exact ⟨by decide, rfl, rfl⟩
  have hlost : ∀ entry ∈ lost, Engine.Options.Lost .cluttered "/p" entry := by
    have hnowhere : ∀ entry ∈ lost, ∀ k ≤ (Finder.origin .cluttered "/p").names.length,
        (Engine.Options.seen .cluttered "/p" entry k).isOk = false := by decide +kernel
    intro entry hentry
    obtain ⟨hne, hrelative, hsame⟩ := hclean entry hentry
    refine ⟨hne, fun path hpath => ?_⟩
    obtain rfl : entry = path := Except.ok.inj (hsame.symm.trans hpath)
    exact ⟨hrelative, fun k hk => fails_of_isOk (hnowhere entry hentry k hk)⟩
  have hclear : ∀ entry ∈ lost, ¬Engine.Options.Obstructed .cluttered "/p" entry := by
    have htold : ∀ entry ∈ lost, ∀ k ≤ (Finder.origin .cluttered "/p").names.length,
        (World.cluttered.files.exists? World.cluttered.cwd (((Finder.origin .cluttered "/p").up
          k).entry entry).text).isOk = true := by decide +kernel
    rintro entry hentry (hnobody | ⟨hpath, hk, hseen⟩)
    · exact nomatch (hclean entry hentry).2.2.symm.trans (clean_eq_error_iff.mpr ⟨hnobody, rfl⟩)
    · obtain rfl := Except.ok.inj ((hclean entry hentry).2.2.symm.trans hpath)
      have hok := htold entry hentry _ hk
      rcases hseen with hseen | hseen <;>
      · rw [FileTree.exists?_of_stat_error hseen] at hok
        cases hok
  have hdropped (before after : List String) {entry : String} (hentry : entry ∈ lost) :
      built (before ++ entry :: after) = built (before ++ after) :=
    (hdrop before entry after (hlost entry hentry)).1 (hclear entry hentry)
  refine ⟨?_, rfl⟩
  calc built ["gone", "notes/rules", "circle", "rules", "nul\x00"]
    _ = built ["notes/rules", "circle", "rules", "nul\x00"] := hdropped [] _ (by decide)
    _ = built ["circle", "rules", "nul\x00"] := hdropped [] _ (by decide)
    _ = built ["rules", "nul\x00"] := hdropped [] _ (by decide)
    _ = built ["rules"] := hdropped ["rules"] [] (by decide)

end LintHost
