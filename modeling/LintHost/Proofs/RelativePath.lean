import LintHost.Proofs.CleanPath

/-!
# Relative paths

A path seen from a root is written as the way that leads there: up to what both have in common and
down again.

* `way_updown`: what a way is put together from; `way_eq_nil_iff`: when there is none to go;
* `count_dotDot_way`: how often it goes up;
* `relative_eq`: a relative path is the text of a way;
* `relative_inverts_join`: behind its root it leads to the path again.
-/

namespace LintHost.Path

open LintHost.Text

/-! ## 1. The way as a list of steps -/

/-- How a way is put together: as many `..` as the start has names beyond what it shares with the
    goal, and then the names of the goal beyond that. -/
theorem way_updown (start goal : List (List Char)) : ∃ shared beyond downs,
    LongestShared shared start goal ∧ start = shared ++ beyond ∧ goal = shared ++ downs ∧
      way start goal = List.replicate beyond.length dotDot ++ downs := by
  obtain ⟨shared, beyond, hlongest, hstart, hlength, hgoal⟩ := diverge_spec start goal
  refine ⟨shared, beyond, (diverge start goal).2, hlongest, hstart, hgoal, ?_⟩
  rw [hlength]
  rfl

/-- There is no way to go exactly from a place to itself. -/
theorem way_eq_nil_iff {start goal : List (List Char)} : way start goal = [] ↔ goal = start := by
  obtain ⟨shared, beyond, downs, hlongest, hstart, hgoal, hway⟩ := way_updown start goal
  rw [hway, List.append_eq_nil_iff, List.replicate_eq_nil_iff, List.length_eq_zero_iff]
  constructor
  · rintro ⟨rfl, rfl⟩
    rw [hstart, hgoal]
  · intro h
    have hall : start <+: shared := hlongest.longest start List.prefix_rfl (h ▸ List.prefix_rfl)
    have hlength := hall.length_le
    rw [hstart, List.length_append] at hlength
    have hbeyond : beyond = [] := List.length_eq_zero_iff.mp (by omega)
    refine ⟨hbeyond, ?_⟩
    rw [hstart, hgoal, hbeyond] at h
    exact List.append_cancel_left h

/-- A way goes up once for every name of its start beyond what both share. -/
theorem count_dotDot_way (start : List (List Char)) {goal : List (List Char)}
    (hgoal : ∀ n ∈ goal, IsName n) : ∃ shared, LongestShared shared start goal ∧
      (way start goal).count dotDot = start.length - shared.length := by
  obtain ⟨shared, beyond, downs, hlongest, hstart, hdowns, hway⟩ := way_updown start goal
  refine ⟨shared, hlongest, ?_⟩
  have hnone : downs.count dotDot = 0 := by
    refine List.count_eq_zero.mpr fun hmem => ?_
    refine (hgoal dotDot ?_).ne_dotDot rfl
    rw [hdowns]
    exact List.mem_append_right shared hmem
  rw [hway, List.count_append, hnone, List.count_replicate_self, hstart, List.length_append]
  omega

/-! ## 2. The way as text -/

theorem absolute_unrooted (base : String) {path : String} (h : isAbsolute path = false) :
    absolute base path = normalize (join base path) := by
  rw [absolute, if_neg (by rw [h]; decide)]

section Relative

variable {cwd : String} (hcwd : isAbsolute cwd = true) (path root : String)

include hcwd

/-- A relative path is written as a path without root whose names are the steps of the way. -/
theorem relative_eq : relative cwd path root =
    PartPath.text ⟨0, way (place cwd root).names (place cwd path).names⟩ := by
  have hpath := settled_place hcwd path
  have hroot := settled_place hcwd root
  rw [relative, absolute_eq, absolute_eq, components_text hpath, components_text hroot]
  rw [PartPath.text, PartPath.chars]
  dsimp only
  rw [List.replicate_zero, List.nil_append]
  congr 1
  generalize hway : way (place cwd root).names (place cwd path).names = steps
  by_cases hne : steps = []
  · rw [hne]
    rfl
  · have hsteps : ∀ n ∈ steps, IsEntry n := by
      rw [← hway]
      exact isEntry_way hpath.names
    obtain ⟨u, c, hlast, -⟩ := unsplit_last hne hsteps
    rw [if_neg (by simpa using hne), if_neg (by rw [hlast]; simp)]

/-- The steps of a way between places: some `..`, and names after them. -/
theorem reduced_way :
    PartPath.Reduced ⟨0, way (place cwd root).names (place cwd path).names⟩ := by
  obtain ⟨shared, beyond, downs, -, -, hgoal, hway⟩ :=
    way_updown (place cwd root).names (place cwd path).names
  refine ⟨Nat.zero_le 2, beyond.length, downs, hway, fun h => absurd rfl h, fun n hn => ?_⟩
  refine (settled_place hcwd path).names n ?_
  rw [hgoal]
  exact List.mem_append_right shared hn

theorem isAbsolute_relative : isAbsolute (relative cwd path root) = false := by
  rw [relative_eq hcwd, isAbsolute_text_eq (reduced_way hcwd path root).plain]
  rfl

theorem relative_eq_dot_iff : relative cwd path root = "." ↔
    (place cwd path).names = (place cwd root).names := by
  have hdot : "." = PartPath.text ⟨0, []⟩ := rfl
  rw [relative_eq hcwd, hdot, ← way_eq_nil_iff]
  constructor
  · intro h
    have hempty : PartPath.Plain ⟨0, []⟩ := ⟨Nat.zero_le 2, fun n hn => nomatch hn⟩
    exact congrArg PartPath.names (text_inj (reduced_way hcwd path root).plain hempty h)
  · intro h
    rw [h]

/-- **A relative path behind its root** names what the path names. -/
theorem place_join_relative : (place cwd path).names =
    components (normalize (join (absolute cwd root) (relative cwd path root))) := by
  have hroot := settled_place hcwd root
  have hrooted : isAbsolute (absolute cwd root) = true := by
    rw [absolute_eq]
    exact isAbsolute_text hroot.rooted
  have hunrooted := isAbsolute_relative hcwd path root
  have hnames : reduce true (entries (absolute cwd root).toList) = (place cwd root).names := by
    rw [absolute_eq, PartPath.text, String.toList_ofList, entries_chars hroot.plain,
      reduce_names true hroot.names]
  rw [← absolute_unrooted _ hunrooted, absolute_eq (absolute cwd root),
    components_text (settled_place hrooted _), place_relative hrooted hunrooted, hnames,
    descend_relative hcwd]

end Relative

/-- A component `..` always counts. -/
theorem count_entries (path : List Char) :
    (entries path).count dotDot = (split path).count dotDot := by
  rw [entries, List.count_filter (by decide)]

/-- **A relative path inverts joining.** From any root there is a relative path, up first and then
    down, that leads to what the path names: up as often as the root goes beyond what both begin
    with, and nowhere exactly if both are the same. -/
theorem relative_inverts_join {cwd : String} (hcwd : isAbsolute cwd = true) (path root : String) :
    relative cwd path root ≠ "" ∧ isAbsolute (relative cwd path root) = false ∧
    AscendsFirst (split (relative cwd path root).toList) ∧
    components (normalize (join (absolute cwd root) (relative cwd path root))) =
      components (absolute cwd path) ∧
    (relative cwd path root = "." ↔
      components (absolute cwd path) = components (absolute cwd root)) ∧
    ∃ shared, LongestShared shared (components (absolute cwd root))
        (components (absolute cwd path)) ∧
      (split (relative cwd path root).toList).count dotDot =
        (components (absolute cwd root)).length - shared.length := by
  have hpath := settled_place hcwd path
  have hroot := settled_place hcwd root
  have hnormal : IsNormal (relative cwd path root).toList := by
    rw [relative_eq hcwd, PartPath.text, String.toList_ofList]
    exact normal_chars (reduced_way hcwd path root)
  rw [absolute_eq cwd path, components_text hpath]
  refine ⟨?_, isAbsolute_relative hcwd path root, hnormal.ascents,
    (place_join_relative hcwd path root).symm, ?_, ?_⟩
  · intro hempty
    exact hnormal.nonempty (String.toList_eq_nil_iff.mpr hempty)
  · rw [absolute_eq, components_text hroot]
    exact relative_eq_dot_iff hcwd path root
  · rw [absolute_eq, components_text hroot, ← count_entries, entries_relative hcwd]
    exact count_dotDot_way _ hpath.names

/-- From the working directory `/w/d` one goes three directories up from `b/./c` to come down to
    `../a//x`. -/
theorem sibling_inverts_join :
    isAbsolute "/w/d" = true ∧ relative "/w/d" "../a//x" "b/./c" = "../../../a/x" ∧
    components (normalize (join (absolute "/w/d" "b/./c") "../../../a/x")) =
      components (absolute "/w/d" "../a//x") ∧
    ∃ shared, LongestShared shared (components (absolute "/w/d" "b/./c"))
        (components (absolute "/w/d" "../a//x")) ∧
      (split "../../../a/x".toList).count dotDot =
        (components (absolute "/w/d" "b/./c")).length - shared.length := by
  have hcwd : isAbsolute "/w/d" = true := by decide
  have hrelative : relative "/w/d" "../a//x" "b/./c" = "../../../a/x" := by decide +kernel
  obtain ⟨-, -, -, hjoin, -, hcount⟩ := relative_inverts_join hcwd "../a//x" "b/./c"
  rw [hrelative] at hjoin hcount
  exact ⟨hcwd, hrelative, hjoin, hcount⟩

end LintHost.Path
