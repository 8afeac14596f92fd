import Mathlib.Data.List.Forall2
import LintHost.Proofs.ChildEnv
import LintHost.Proofs.NodePrefix

/-!
# Directories with rules

The policy names further directories with rules, and the order of their paths matters: a later one
overrides those before it. The entries are looked for one after the other with one memo, so each of
them might notice the others. This file says what an entry stands for on its own, and that it stands
for just that in any list and with any memo that is coherent.

* `Finder.fresh_eq_ok_iff`: what a search for one name finds is the nearest, and it finds that;
* `Engine.Options.StandsFor`: what an entry stands for; `freshRulePath_eq_ok`: it is what is found;
* `Engine.Options.rulePath_run`, `ruleDirectories_run`: one entry and a list of them, with a memo;
* `Engine.Options.freshRuleDirectories_append`: a list in two parts;
* `rule_directories_entrywise`: the whole list.
-/

namespace LintHost

open LintHost.Action LintHost.Path

variable {w : World}

/-! ## 1. The nearest of a name -/

namespace Finder

variable {start name : String} {found : Option String}

theorem inDirectory_present {files : FileTree} {cwd : String} {p : PartPath}
    (h : files.exists? cwd (p.entry name).text = .ok true) :
    inDirectory files cwd [name] p = .ok (some (p.entry name).text) := by
  have hfirst : [name] = [] ++ name :: [] := rfl
  exact inDirectory_eq_iff.mpr (.present hfirst nofun h)

theorem inDirectory_absent {files : FileTree} {cwd : String} {p : PartPath}
    (h : files.exists? cwd (p.entry name).text = .ok false) :
    inDirectory files cwd [name] p = .ok none :=
  inDirectory_eq_iff.mpr (.absent (List.forall_mem_singleton.mpr h))

/-- The nearest is found. -/
theorem fresh_of_nearest (hcwd : isAbsolute w.cwd = true) (h : Nearest w start name found) :
    fresh w start [name] = .ok found := by
  rw [fresh_eq hcwd, search]
  cases found with
  | none => exact firstSome_all fun p hp => inDirectory_absent (h p hp)
  | some path =>
    obtain ⟨nearer, p, farther, hall, rfl, hthere, hnearer⟩ := h
    have hdecides := inDirectory_present hthere
    have hfound : inDirectory w.files w.cwd [name] p ≠ .ok none := by
      rw [hdecides]
      simp
    rw [hall, firstSome_append fun q hq => inDirectory_absent (hnearer q hq),
      firstSome_decided hfound, hdecides]

/-- **What a search for one name finds** is the nearest, and it finds that. -/
theorem fresh_eq_ok_iff (hcwd : isAbsolute w.cwd = true) :
    fresh w start [name] = .ok found ↔ Nearest w start name found :=
  ⟨nearest_of_fresh hcwd, fresh_of_nearest hcwd⟩

/-- What is nearest is an absolute path. -/
theorem Nearest.path_absolute {path : String} (h : Nearest w start name (some path))
    (hcwd : isAbsolute w.cwd = true) : isAbsolute path = true := by
  obtain ⟨nearer, p, farther, hall, rfl, -, -⟩ := h
  have hp : p ∈ (place w.cwd start).ancestors := by rw [hall]; simp
  obtain ⟨names, -, rfl⟩ := List.mem_map.mp hp
  have hroot : PartPath.slashes ⟨(place w.cwd start).slashes, names⟩ ≠ 0 :=
    (settled_place hcwd start).rooted
  exact isAbsolute_text (PartPath.rooted_entry hroot name)

end Finder

/-! ## 2. One entry -/

namespace Engine.Options

variable {fileDir entry : String} {found : Option String}

/-- What an entry stands for, seen from the directory of a file. -/
inductive StandsFor (w : World) (fileDir : String) : String → Option String → Prop
  /-- An empty entry stands for nothing. -/
  | empty : StandsFor w fileDir "" none
  /-- One that is absolute when it is cleaned stands for that path, be it there or not. -/
  | rooted {entry given : String} (hclean : clean w.host.homes w.env entry = .ok given)
    (habsolute : isAbsolute given = true) : StandsFor w fileDir entry (some given)
  /-- Any other stands for the nearest at the directory or above, or for nothing. -/
  | sought {entry given : String} {found : Option String} (hentry : entry ≠ "")
    (hclean : clean w.host.homes w.env entry = .ok given) (hrelative : isAbsolute given = false)
    (h : Finder.Nearest w fileDir given found) : StandsFor w fileDir entry found

theorem freshRulePath_empty : freshRulePath w fileDir "" = .ok none := rfl

theorem freshRulePath_rooted {given : String} (hclean : clean w.host.homes w.env entry = .ok given)
    (h : isAbsolute given = true) : freshRulePath w fileDir entry = .ok (some given) := by
  have hgiven : given ≠ "" := by
    rintro rfl
    cases h
  rw [freshRulePath, hclean, Except.ok_bind, if_neg hgiven, if_pos h]

theorem freshRulePath_sought {given : String} (hentry : entry ≠ "")
    (hclean : clean w.host.homes w.env entry = .ok given) (hrelative : isAbsolute given = false) :
    freshRulePath w fileDir entry = Finder.fresh w fileDir [given] := by
  have hgiven : given ≠ "" := fun hempty => hentry (clean_eq_empty_iff.mp (hempty ▸ hclean))
  rw [freshRulePath, hclean, Except.ok_bind, if_neg hgiven,
    if_neg (by rw [hrelative]; exact Bool.false_ne_true)]

/-- **What is found for an entry** is what it stands for. -/
theorem freshRulePath_eq_ok (hcwd : isAbsolute w.cwd = true) :
    freshRulePath w fileDir entry = .ok found ↔ StandsFor w fileDir entry found := by
  constructor
  · intro h
    by_cases hentry : entry = ""
    · subst hentry
      cases h
      exact .empty
    · obtain ⟨given, hclean, -⟩ := Except.bind_eq_ok h
      cases hrooted : isAbsolute given with
      | true =>
        rw [freshRulePath_rooted hclean hrooted] at h
        cases h
        exact .rooted hclean hrooted
      | false =>
        rw [freshRulePath_sought hentry hclean hrooted] at h
        exact .sought hentry hclean hrooted ((Finder.fresh_eq_ok_iff hcwd).mp h)
  · intro h
    cases h with
    | empty => exact freshRulePath_empty
    | rooted hclean habsolute => exact freshRulePath_rooted hclean habsolute
    | sought hentry hclean hrelative h =>
      rw [freshRulePath_sought hentry hclean hrelative]
      exact (Finder.fresh_eq_ok_iff hcwd).mpr h

/-- What an entry stands for is an absolute path. -/
theorem StandsFor.path_absolute {path : String} (h : StandsFor w fileDir entry (some path))
    (hcwd : isAbsolute w.cwd = true) : isAbsolute path = true := by
  cases h with
  | rooted _ habsolute => exact habsolute
  | sought _ _ _ h => exact h.path_absolute hcwd

/-! ## 3. A list of entries -/

variable {entries paths : List String}

theorem StandsFor.all_absolute {shares : List (Option String)}
    (h : List.Forall₂ (StandsFor w fileDir) entries shares) (hcwd : isAbsolute w.cwd = true) :
    ∀ path ∈ shares.flatMap Option.toList, isAbsolute path = true := by
  induction h with
  | nil => nofun
  | @cons entry share entries shares hfirst _ ih =>
    intro path hpath
    rw [List.flatMap_cons] at hpath
    rcases List.mem_append.mp hpath with hpath | hpath
    · obtain rfl : share = some path := Option.mem_toList.mp hpath
      exact hfirst.path_absolute hcwd
    · exact ih path hpath

theorem freshRuleDirectories_cons : freshRuleDirectories w fileDir (entry :: entries) =
    freshRulePath w fileDir entry >>= fun found =>
      (freshRuleDirectories w fileDir entries).map (found.toList ++ ·) := by
  rw [freshRuleDirectories]
  cases freshRulePath w fileDir entry with
  | error fault => rfl
  | ok found => cases freshRuleDirectories w fileDir entries <;> rfl

/-- An entry alone. -/
theorem freshRuleDirectories_single :
    freshRuleDirectories w fileDir [entry] = (freshRulePath w fileDir entry).map Option.toList := by
  rw [freshRuleDirectories_cons]
  cases freshRulePath w fileDir entry with
  | error fault => rfl
  | ok found => exact congrArg Except.ok (List.append_nil _)

/-- **A list in two parts** stands for what the parts stand for, one after the other. -/
theorem freshRuleDirectories_append (xs ys : List String) :
    freshRuleDirectories w fileDir (xs ++ ys) = freshRuleDirectories w fileDir xs >>= fun before =>
      (freshRuleDirectories w fileDir ys).map (before ++ ·) := by
  induction xs with
  | nil => cases h : freshRuleDirectories w fileDir ys <;> simp [freshRuleDirectories, h] <;> rfl
  | cons x xs ih =>
    rw [List.cons_append, freshRuleDirectories_cons, freshRuleDirectories_cons, ih]
    cases freshRulePath w fileDir x with
    | error fault => rfl
    | ok found =>
      cases freshRuleDirectories w fileDir xs with
      | error fault => rfl
      | ok before =>
        cases freshRuleDirectories w fileDir ys with
        | error fault => rfl
        | ok after => exact congrArg Except.ok (List.append_assoc ..).symm

/-- **What is found for a list** is, in order, what its entries stand for. -/
theorem freshRuleDirectories_eq_ok (hcwd : isAbsolute w.cwd = true) :
    freshRuleDirectories w fileDir entries = .ok paths ↔ ∃ shares : List (Option String),
      List.Forall₂ (StandsFor w fileDir) entries shares ∧ paths = shares.flatMap Option.toList := by
  induction entries generalizing paths with
  | nil =>
    constructor
    · intro h
      cases h
      exact ⟨[], .nil, rfl⟩
    · rintro ⟨shares, hshares, rfl⟩
      cases hshares
      rfl
  | cons entry entries ih =>
    rw [freshRuleDirectories_cons]
    constructor
    · intro h
      obtain ⟨found, hfound, h⟩ := Except.bind_eq_ok h
      obtain ⟨others, hothers, rfl⟩ := Except.map_eq_ok h
      obtain ⟨shares, hshares, rfl⟩ := ih.mp hothers
      exact ⟨found :: shares, .cons ((freshRulePath_eq_ok hcwd).mp hfound) hshares, rfl⟩
    · rintro ⟨shares, hshares, rfl⟩
      cases hshares with
      | cons hfirst hrest =>
        rw [(freshRulePath_eq_ok hcwd).mpr hfirst, Except.ok_bind, ih.mpr ⟨_, hrest, rfl⟩]
        rfl

/-! ## 4. With a memo -/

variable {s : Session}

/-- **One entry with a coherent memo** is found as without; the memo stays coherent. -/
theorem rulePath_run (hs : s.cache.finder.Coherent w) (fileDir entry : String) :
    ∃ memo, FinderMemo.Coherent w memo ∧ (rulePath fileDir entry).run w s =
      (freshRulePath w fileDir entry, { s with cache := { s.cache with finder := memo } }) := by
  have hclean := run_cleanPath (w := w) entry s
  rw [rulePath, freshRulePath]
  cases hgiven : clean w.host.homes w.env entry with
  | error fault =>
    rw [hgiven] at hclean
    exact ⟨s.cache.finder, hs, run_bind_error hclean⟩
  | ok given =>
    rw [hgiven] at hclean
    rw [run_bind_ok hclean, Except.ok_bind]
    split
    · exact ⟨s.cache.finder, hs, rfl⟩
    · split
      · exact ⟨s.cache.finder, hs, rfl⟩
      · exact Finder.find_run hs fileDir _

/-- **A list of entries with a coherent memo** is found as without. -/
theorem ruleDirectories_run (fileDir : String) : ∀ (entries : List String) {s : Session},
    s.cache.finder.Coherent w → ∃ memo, FinderMemo.Coherent w memo ∧
      (ruleDirectories fileDir entries).run w s = (freshRuleDirectories w fileDir entries,
        { s with cache := { s.cache with finder := memo } })
  | [], s, hs => ⟨s.cache.finder, hs, rfl⟩
  | entry :: rest, s, hs => by
    obtain ⟨memo, hmemo, hfirst⟩ := rulePath_run hs fileDir entry
    rw [ruleDirectories, freshRuleDirectories]
    cases hfound : freshRulePath w fileDir entry with
    | error fault =>
      rw [hfound] at hfirst
      exact ⟨memo, hmemo, run_bind_error hfirst⟩
    | ok found =>
      rw [hfound] at hfirst
      rw [run_bind_ok hfirst, Except.ok_bind]
      obtain ⟨later, hlater, hrest⟩ := ruleDirectories_run fileDir rest
        (s := { s with cache := { s.cache with finder := memo } }) hmemo
      refine ⟨later, hlater, ?_⟩
      cases hothers : freshRuleDirectories w fileDir rest with
      | error fault =>
        rw [hothers] at hrest
        exact run_bind_error hrest
      | ok others =>
        rw [hothers] at hrest
        exact run_bind_ok hrest

theorem ruleDirectories_result (hs : s.cache.finder.Coherent w) (fileDir : String)
    (entries : List String) : ((ruleDirectories fileDir entries).run w s).1 =
      freshRuleDirectories w fileDir entries := by
  obtain ⟨memo, -, hrun⟩ := ruleDirectories_run fileDir entries hs
  rw [hrun]

/-- **Directories with rules are resolved entry by entry.** With any coherent memo, whenever a list
    of entries is resolved:

    * the paths are, in order, those that each entry stands for; and each entry alone, where nothing
      is remembered, is resolved to just these, none or one;
    * they are absolute;
    * if the list has two parts, the paths are those of the first followed by those of the second,
      whatever coherent memo each part is resolved with. -/
theorem rule_directories_entrywise (hcwd : isAbsolute w.cwd = true) (fileDir : String)
    (hs : s.cache.finder.Coherent w)
    (h : ((ruleDirectories fileDir entries).run w s).1 = .ok paths) :
    (∃ shares : List (Option String), paths = shares.flatMap Option.toList ∧
      List.Forall₂ (fun entry share => StandsFor w fileDir entry share ∧
        ∀ t : Session, t.cache.finder = [] →
          ((ruleDirectories fileDir [entry]).run w t).1 = .ok share.toList) entries shares) ∧
    (∀ path ∈ paths, isAbsolute path = true) ∧
    ∀ xs ys, entries = xs ++ ys → ∃ before after, paths = before ++ after ∧
      ∀ t : Session, t.cache.finder.Coherent w →
        ((ruleDirectories fileDir xs).run w t).1 = .ok before ∧
        ((ruleDirectories fileDir ys).run w t).1 = .ok after := by
  rw [ruleDirectories_result hs] at h
  obtain ⟨shares, hshares, hpaths⟩ := (freshRuleDirectories_eq_ok hcwd).mp h
  refine ⟨⟨shares, hpaths, hshares.imp fun entry share hshare => ⟨hshare, fun t ht => ?_⟩⟩,
    hpaths ▸ StandsFor.all_absolute hshares hcwd, fun xs ys hsplit => ?_⟩
  · have hempty : t.cache.finder.Coherent w := ht ▸ FinderMemo.coherent_nil
    rw [ruleDirectories_result hempty, freshRuleDirectories_single,
      (freshRulePath_eq_ok hcwd).mpr hshare]
    rfl
  · rw [hsplit, freshRuleDirectories_append] at h
    obtain ⟨before, hbefore, h⟩ := Except.bind_eq_ok h
    obtain ⟨after, hafter, rfl⟩ := Except.map_eq_ok h
    exact ⟨before, after, rfl, fun t ht => ⟨(ruleDirectories_result ht ..).trans hbefore,
      (ruleDirectories_result ht ..).trans hafter⟩⟩

end Engine.Options

/-! ## 5. A project with such a directory -/

/-- A machine with a project in `/p` that has a directory with rules. -/
def World.ruled : World :=
  { World.bare with files := FileTree.empty.add ["p", "rules"] (.directory true) }

/-- What is left when that directory was looked for from `/p/src`. -/
def Session.soughtRules : Session :=
  ((Finder.find "/p/src" ["rules"]).run World.ruled (.start (.ofEnv []))).2

/-- Among other entries that directory is found twice, once for each entry that names it, and it
    makes no difference that it is remembered. -/
theorem ruled_directories_entrywise :
    let entries := ["rules", "~/gone/", "", "none", "./rules"]
    let paths := ["/p/rules", "/root/gone", "/p/rules"]
    Session.soughtRules.cache.finder = [(("/p/src", ["rules"]), some "/p/rules")] ∧
    ((Engine.Options.ruleDirectories "/p/src" entries).run World.ruled .soughtRules).1 = .ok paths ∧
    (∃ shares, paths = shares.flatMap Option.toList ∧
      List.Forall₂ (Engine.Options.StandsFor .ruled "/p/src") entries shares) ∧
    ∃ before after, paths = before ++ after ∧
      ((Engine.Options.ruleDirectories "/p/src" ["rules", "~/gone/", ""]).run World.ruled
        (.start (.ofEnv []))).1 = .ok before ∧
      ((Engine.Options.ruleDirectories "/p/src" ["none", "./rules"]).run World.ruled
        (.start (.ofEnv []))).1 = .ok after := by
  intro entries paths
  have hcwd : isAbsolute World.ruled.cwd = true := by decide
  have hmemo : Session.soughtRules.cache.finder.Coherent .ruled := by
    obtain ⟨memo, hmemo, hrun⟩ := Finder.find_run (w := .ruled)
      (s := .start (.ofEnv [])) FinderMemo.coherent_nil "/p/src" ["rules"]
    rw [Session.soughtRules, hrun]
    exact hmemo
  have hpaths : ((Engine.Options.ruleDirectories "/p/src" entries).run World.ruled .soughtRules).1 =
      .ok paths := rfl
  obtain ⟨⟨shares, hflat, hshares⟩, -, hparts⟩ :=
    Engine.Options.rule_directories_entrywise hcwd "/p/src" hmemo hpaths
  refine ⟨by decide +kernel, hpaths, ⟨shares, hflat, hshares.imp fun _ _ h => h.1⟩, ?_⟩
  obtain ⟨before, after, hsplit, hall⟩ :=
    hparts ["rules", "~/gone/", ""] ["none", "./rules"] rfl
  exact ⟨before, after, hsplit, hall (.start (.ofEnv [])) FinderMemo.coherent_nil⟩

end LintHost
