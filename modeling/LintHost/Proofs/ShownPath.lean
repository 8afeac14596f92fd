import LintHost.Proofs.DebugJob
import LintHost.Proofs.RealPath

/-!
# Paths as hosts are shown them

A host is shown a path as it is called from a root, if its real path lies at the real path of the
root or below it, and else as it was given.

* `AtOrBelow`: a path lies at another or below it, name by name; `below?_eq_some`, `below?_eq_none`:
  the test for it;
* `entry_below`: what a place is called from above leads to it;
* `shown_path_rejoins`: so does a shown path.
-/

namespace LintHost

open LintHost.Path

/-! ## 1. At or below -/

namespace PartPath

/-- A path lies at another or below it: it has its root and begins with its names. -/
structure AtOrBelow (p root : PartPath) : Prop where
  slashes : p.slashes = root.slashes
  names : root.names <+: p.names

theorem dropNames?_eq_some_iff : ∀ {root names rest : List (List Char)},
    dropNames? root names = some rest ↔ names = root ++ rest
  | [], names, rest => by
    rw [dropNames?, List.nil_append, Option.some.injEq]
  | n :: root, [], rest => by
    rw [dropNames?, List.cons_append]
    exact iff_of_false nofun nofun
  | n :: root, m :: names, rest => by
    rw [dropNames?, List.cons_append, List.cons.injEq]
    by_cases h : n = m
    · rw [if_pos h, dropNames?_eq_some_iff]
      exact (and_iff_right h.symm).symm
    · rw [if_neg h]
      exact iff_of_false nofun fun hcons => h hcons.1.symm

/-- What a path is called from one that it lies at or below. -/
theorem below?_eq_some {p root below : PartPath} (h : p.below? root = some below) :
    p.AtOrBelow root ∧ below.slashes = 0 ∧ p.names = root.names ++ below.names := by
  unfold below? at h
  split at h
  · rename_i hslashes
    obtain ⟨rest, hrest, rfl⟩ := Option.map_eq_some_iff.mp h
    have hnames := dropNames?_eq_some_iff.mp hrest
    exact ⟨⟨hslashes, ⟨rest, hnames.symm⟩⟩, rfl, hnames⟩
  · cases h

theorem below?_eq_none {p root : PartPath} (h : p.below? root = none) : ¬p.AtOrBelow root := by
  rintro ⟨hslashes, rest, hrest⟩
  rw [below?, if_pos hslashes, dropNames?_eq_some_iff.mpr hrest.symm] at h
  cases h

/-- A path is seen from above by its last names. -/
theorem entry_below {p root below : PartPath} (hp : p.Settled) (h : p.below? root = some below) :
    Path.isAbsolute below.text = false ∧ dotDot ∉ split below.text.toList ∧
      root.entry below.text = p := by
  obtain ⟨⟨hslashes, -⟩, hroot, hnames⟩ := below?_eq_some h
  have hall : ∀ n ∈ below.names, IsName n := by
    intro n hn
    refine hp.names n ?_
    rw [hnames]
    exact List.mem_append_right root.names hn
  have hplain : below.Plain := ⟨by omega, fun n hn => (hall n hn).toIsEntry⟩
  have hunrooted : below.isAbsolute = false := decide_eq_false (not_not_intro hroot)
  refine ⟨by rw [isAbsolute_text_eq hplain, hunrooted], fun hmem => ?_, ?_⟩
  · have hentry : dotDot ∈ entries below.text.toList :=
      List.mem_filter.mpr ⟨hmem, by decide⟩
    rw [PartPath.text, String.toList_ofList, entries_chars hplain] at hentry
    exact (hall dotDot hentry).ne_dotDot rfl
  · rw [entry, ofText_text hplain, PartPath.child, if_neg (by rw [hunrooted]; decide), ← hslashes,
      ← hnames]

end PartPath

/-! ## 2. Showing a path -/

namespace Job

variable {w : World}

/-- **A shown path** leads back to the path. If the real path lies at or below that of the root,
    name by name, it is shown as its last names, which lead from the one to the other; else the path
    is shown as it was given. -/
theorem shown_path_rejoins {path root : String} (hrooted : isAbsolute path = true)
    {real realRoot : PartPath} (hpath : realPath w path = .ok real)
    (hroot : realPath w root = .ok realRoot) :
    ∃ shown, shownPath w path root = .ok shown ∧
      (real.AtOrBelow realRoot → isAbsolute shown = false ∧ dotDot ∉ split shown.toList ∧
        realRoot.entry shown = real) ∧
      (¬real.AtOrBelow realRoot → shown = (PartPath.ofText path).text ∧ isAbsolute shown = true) ∧
      (isAbsolute shown = false ↔ real.AtOrBelow realRoot) := by
  have hslashes : (PartPath.ofText path).slashes ≠ 0 := leadingSlashes_ne_zero.mpr hrooted
  have hreal : real.Settled := FileTree.settled_resolve hpath hslashes
  rw [shownPath_rooted (decide_eq_true hslashes), hpath, hroot]
  dsimp only
  cases hbelow : real.below? realRoot with
  | some below =>
    have hwithin := (PartPath.below?_eq_some hbelow).1
    have hentry := PartPath.entry_below hreal hbelow
    exact ⟨_, rfl, fun _ => hentry, fun h => absurd hwithin h, iff_of_true hentry.1 hwithin⟩
  | none =>
    have houtside := PartPath.below?_eq_none hbelow
    have habsolute := isAbsolute_text hslashes
    refine ⟨_, rfl, fun h => absurd h houtside, fun _ => ⟨rfl, habsolute⟩, ?_⟩
    rw [habsolute]
    exact iff_of_false nofun houtside

end Job

/-! ## 3. A project with a second name -/

/-- A machine on which `/alias` is a link to the directory `/store/here` and `/entry` leads there
    through it. -/
def World.aliased : World :=
  { World.bare with
    files := (((FileTree.empty.add ["store", "here", "src", "a.js"] (.file .empty true true)).add
      ["store", "hereafter"] (.directory true)).add ["alias"] (.link "store/./here")).add
      ["entry"] (.link "alias/src/..") }

/-- Through its second name a file is shown as seen from the directory; what only begins with the
    same letters is shown as it was given. -/
theorem Job.aliased_path_rejoins :
    let file := PartPath.ofText "/store/here/src/a.js"
    let other := PartPath.ofText "/store/hereafter/b.js"
    let directory := PartPath.ofText "/store/here"
    realPath .aliased "/entry/src/a.js" = .ok file ∧ realPath .aliased "alias" = .ok directory ∧
    realPath .aliased "/store//hereafter/b.js" = .ok other ∧
    (∃ shown, shownPath .aliased "/entry/src/a.js" "alias" = .ok shown ∧
      isAbsolute shown = false ∧ directory.entry shown = file) ∧
    shownPath .aliased "/store//hereafter/b.js" "alias" = .ok "/store/hereafter/b.js" := by
  intro file other directory
  have hfile : realPath .aliased "/entry/src/a.js" = .ok file :=
    Except.eq_ok_of_toOption (by decide +kernel)
  have hother : realPath .aliased "/store//hereafter/b.js" = .ok other :=
    Except.eq_ok_of_toOption (by decide +kernel)
  have hdirectory : realPath .aliased "alias" = .ok directory :=
    Except.eq_ok_of_toOption (by decide +kernel)
  refine ⟨hfile, hdirectory, hother, ?_, ?_⟩
  · obtain ⟨shown, hshown, hbelow, -⟩ :=
      shown_path_rejoins (w := .aliased) (by decide) hfile hdirectory
    have hwithin : file.AtOrBelow directory :=
      ⟨by decide +kernel, [['s', 'r', 'c'], ['a', '.', 'j', 's']], by decide +kernel⟩
    obtain ⟨hrelative, -, hentry⟩ := hbelow hwithin
    exact ⟨shown, hshown, hrelative, hentry⟩
  · obtain ⟨shown, hshown, -, houtside, -⟩ :=
      shown_path_rejoins (w := .aliased) (by decide) hother hdirectory
    have hapart : ¬other.AtOrBelow directory := by
      rintro ⟨-, hnames⟩
      have hprefix := List.isPrefixOf_iff_prefix.mpr hnames
      revert hprefix
      decide +kernel
    rw [hshown, (houtside hapart).1]
    exact congrArg Except.ok (by decide +kernel)

end LintHost
