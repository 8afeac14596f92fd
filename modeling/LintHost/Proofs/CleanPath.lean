import LintHost.Path.Expand
import LintHost.Proofs.Place
import LintHost.Proofs.Results

/-!
# Clean paths

A path that a person wrote down may begin with a home directory, may hold variables and may be
spelled in many ways. Cleaning it puts the directory and the values in place and leaves one
spelling.

* `IsNormal`: what the text of a path in normal form looks like; `normal_chars`: so does the text
  of what is left when `..` has been carried out;
* `settle_reduced`: carrying out `..` once more changes nothing;
* `reference?_bare`, `reference?_braced`: both ways to refer to a variable;
* `NamesNobody`, `clean_eq_error_iff`: the one reason why a path cannot be cleaned;
* `clean_stable`: cleaning gives a normal form, the same for both ways, and keeps a clean path.
-/

namespace LintHost.Path

open LintHost.Text

/-! ## 1. The normal form of a path -/

/-- Every `..` stands before the other components. -/
def AscendsFirst (components : List (List Char)) : Prop :=
  components.Pairwise fun before n => n = dotDot → before = dotDot

/-- The text of a path in normal form. -/
structure IsNormal (path : List Char) : Prop where
  nonempty : path ≠ []
  no_dot : path ≠ dot → dot ∉ split path
  /-- Two slashes stand together only at the very front, where they are a root of their own. -/
  no_gap : ∀ before after, path = before ++ '/' :: '/' :: after → before = []
  no_slash_last : path.getLast? = some '/' → path = ['/'] ∨ path = ['/', '/']
  ascents : AscendsFirst (split path)
  rooted : startsWithSlash path = true → dotDot ∉ split path

theorem ascendsFirst_updown (ups : Nat) {downs : List (List Char)}
    (h : ∀ n ∈ downs, n ≠ dotDot) : AscendsFirst (List.replicate ups dotDot ++ downs) := by
  refine List.pairwise_append.mpr ⟨?_, ?_, ?_⟩
  · exact List.pairwise_replicate.mpr (.inr fun _ => rfl)
  · refine List.pairwise_iff_forall_sublist.mpr fun {before n} hsub hdot => ?_
    exact absurd hdot (h n (hsub.subset (by simp)))
  · intro before hbefore n _ _
    exact List.eq_of_mem_replicate hbefore

/-- What `..` is left stands in front, behind the slashes of a root there is none. -/
theorem ascendsFirst_reduced {p : PartPath} (h : p.Reduced) :
    AscendsFirst (List.replicate p.slashes [] ++ p.names) := by
  by_cases hroot : p.slashes = 0
  · obtain ⟨ups, downs, hnames, -, hdowns⟩ := h.updown
    rw [hroot, List.replicate_zero, List.nil_append, hnames]
    exact ascendsFirst_updown ups fun n hn => (hdowns n hn).ne_dotDot
  · have hnone : ∀ n ∈ List.replicate p.slashes [] ++ p.names, n ≠ dotDot := by
      intro n hn
      rcases List.mem_append.mp hn with hn | hn
      · rw [List.eq_of_mem_replicate hn]
        decide
      · exact ((h.settled hroot).names n hn).ne_dotDot
    exact ascendsFirst_updown 0 hnone

theorem split_slashes (k : Nat) (path : List Char) :
    split (List.replicate k '/' ++ path) = List.replicate k [] ++ split path := by
  induction k with
  | zero => rfl
  | succ k ih =>
    have hslash := split_append_slash [] (List.replicate k '/' ++ path)
    rw [List.nil_append] at hslash
    rw [List.replicate_succ, List.cons_append, hslash, ih]
    rfl

theorem split_ne_nil (path : List Char) : split path ≠ [] := by
  rw [split, Text.splitOn_eq]
  exact List.splitOn_ne_nil '/' path

/-- Only nothing has nothing but an empty component. -/
theorem eq_nil_of_split {path : List Char} (h : split path = [[]]) : path = [] := by
  have hpath : ['/'].intercalate (path.splitOn '/') = path := List.intercalate_splitOn '/'
  rw [← Text.splitOn_eq] at hpath
  rw [← hpath]
  exact congrArg (List.intercalate ['/']) h

/-- A path without entries is `.` or a root. -/
theorem normal_short {path : List Char} (h : path = dot ∨ path = ['/'] ∨ path = ['/', '/']) :
    IsNormal path := by
  have hshort : path.length ≤ 2 := by
    rcases h with rfl | rfl | rfl <;> decide
  refine ⟨?_, ?_, fun before after hgap => ?_, ?_, ?_, ?_⟩
  · rcases h with rfl | rfl | rfl <;> decide
  · rcases h with rfl | rfl | rfl <;> decide
  · have hlength := congrArg List.length hgap
    rw [List.length_append, List.length_cons, List.length_cons] at hlength
    exact List.length_eq_zero_iff.mp (by omega)
  · rcases h with rfl | rfl | rfl <;> decide
  · rcases h with rfl | rfl | rfl <;> (unfold AscendsFirst; decide)
  · rcases h with rfl | rfl | rfl <;> decide

section Split

-- The components of a path are as many empty ones as it has slashes in front, and then its entries.
variable {path : List Char} {k : Nat} {names : List (List Char)}
  (hsplit : split path = List.replicate k [] ++ names) (hentries : ∀ n ∈ names, IsEntry n)

include hsplit in
theorem mem_names_of_split {n : List Char} (h : n ∈ split path) (hne : n ≠ []) : n ∈ names := by
  rw [hsplit] at h
  rcases List.mem_append.mp h with h | h
  · exact absurd (List.eq_of_mem_replicate h) hne
  · exact h

include hsplit hentries

/-- An empty component is one of those that slashes in front make. -/
theorem lt_of_split_empty {i : Nat} (h : (split path)[i]? = some []) : i < k := by
  by_contra hk
  rw [hsplit, List.getElem?_append_right (by rw [List.length_replicate]; omega)] at h
  exact (hentries [] (List.mem_of_getElem? h)).nonempty rfl

theorem eq_nil_of_gap (hk : k ≤ 2) {before after : List Char}
    (h : path = before ++ '/' :: '/' :: after) : before = [] := by
  have hparts : split path = split before ++ [] :: split after := by
    have hafter := split_append_slash [] after
    rw [List.nil_append] at hafter
    rw [h, split_append_slash, hafter]
    rfl
  have hbound : (split before).length < k :=
    lt_of_split_empty hsplit hentries (by rw [hparts]; simp)
  have hpos : 0 < (split before).length := List.length_pos_iff.mpr (split_ne_nil before)
  obtain ⟨first, hfirst⟩ := List.length_eq_one_iff.mp (by omega : (split before).length = 1)
  have hhead : (split path)[0]? = some [] := by
    rw [hsplit, List.getElem?_append_left (by rw [List.length_replicate]; omega)]
    exact List.getElem?_replicate_of_lt (by omega)
  rw [hparts, hfirst] at hhead
  have hempty : first = [] := Option.some.inj hhead
  exact eq_nil_of_split (by rw [hfirst, hempty])

theorem not_slash_last (hne : names ≠ []) : path.getLast? ≠ some '/' := by
  intro hlast
  obtain ⟨init, rfl⟩ := List.getLast?_eq_some_iff.mp hlast
  rw [split_append_slash] at hsplit
  have hempty := congrArg List.getLast? hsplit
  rw [List.getLast?_append_of_ne_nil _ hne] at hempty
  have hmem : [] ∈ names := List.mem_of_getLast? (hempty.symm.trans (by simp [split, splitOn]))
  exact (hentries [] hmem).nonempty rfl

theorem slashes_of_rooted (h : startsWithSlash path = true) : k ≠ 0 := by
  have hhead : (split path)[0]? = some [] := by
    cases path with
    | nil => cases h
    | cons c rest =>
      rw [startsWithSlash_cons, decide_eq_true_eq] at h
      subst h
      have hslash := split_append_slash [] rest
      rw [List.nil_append] at hslash
      rw [hslash]
      rfl
  exact Nat.ne_of_gt (lt_of_split_empty hsplit hentries hhead)

end Split

/-- **The text of what is left** when `..` has been carried out is in normal form. -/
theorem normal_chars {p : PartPath} (h : p.Reduced) : IsNormal p.chars := by
  have hentries := h.plain.names
  by_cases hne : p.names = []
  · refine normal_short ?_
    have hcases : p.slashes = 0 ∨ p.slashes = 1 ∨ p.slashes = 2 := by
      have hslashes := h.slashes
      omega
    rw [PartPath.chars, hne]
    rcases hcases with hk | hk | hk <;> (rw [hk]; decide)
  have hsplit : split p.chars = List.replicate p.slashes [] ++ p.names := by
    obtain ⟨u, c, hlast, -⟩ := unsplit_last hne hentries
    rw [PartPath.chars, if_neg (by rw [hlast]; simp), split_slashes,
      split_unsplit hne fun n hn => (hentries n hn).no_slash]
  obtain ⟨first, rest, hfirst⟩ := List.exists_cons_of_ne_nil hne
  refine ⟨?_, fun _ hdot => ?_, fun before after => eq_nil_of_gap hsplit hentries h.slashes,
    fun hslash => absurd hslash (not_slash_last hsplit hentries hne), ?_, fun hroot hmem => ?_⟩
  · intro hempty
    have hmem : first ∈ split p.chars := by
      rw [hsplit, hfirst]
      simp
    rw [hempty] at hmem
    have hnil : first = [] := List.mem_singleton.mp hmem
    exact (hentries first (by rw [hfirst]; exact List.mem_cons_self)).nonempty hnil
  · exact (hentries dot (mem_names_of_split hsplit hdot (by decide))).ne_dot rfl
  · rw [hsplit]
    exact ascendsFirst_reduced h
  · have hsettled := h.settled (slashes_of_rooted hsplit hentries hroot)
    exact (hsettled.names dotDot (mem_names_of_split hsplit hmem (by decide))).ne_dotDot rfl

/-! ## 2. Normal once, normal for good -/

theorem foldl_push_ascents : ∀ k j : Nat,
    (List.replicate k dotDot).foldl (push false) (List.replicate j dotDot) =
      List.replicate (j + k) dotDot
  | 0, _ => rfl
  | k + 1, j => by
    have hpush : push false (List.replicate j dotDot) dotDot = List.replicate (j + 1) dotDot := by
      cases j with
      | zero => rfl
      | succ j => rfl
    rw [List.replicate_succ, List.foldl_cons, hpush, foldl_push_ascents k (j + 1)]
    congr 1
    omega

/-- Without a root some `..` and names after them reduce to themselves. -/
theorem reduce_updown (ups : Nat) {downs : List (List Char)} (h : ∀ n ∈ downs, IsName n) :
    reduce false (List.replicate ups dotDot ++ downs) = List.replicate ups dotDot ++ downs := by
  have hups := foldl_push_ascents ups 0
  rw [List.replicate_zero, Nat.zero_add] at hups
  rw [reduce, List.foldl_append, hups, foldl_push_names false downs _ h, List.reverse_append,
    List.reverse_reverse, List.reverse_replicate]

/-- **Carrying out `..` once more** changes nothing. -/
theorem settle_reduced {p : PartPath} (h : p.Reduced) : settle p.chars = p := by
  by_cases hroot : p.slashes = 0
  · obtain ⟨ups, downs, hnames, -, hdowns⟩ := h.updown
    have hslashes : leadingSlashes p.chars = p.slashes :=
      congrArg PartPath.slashes (PartPath.ofChars_chars h.plain)
    have hreduce : reduce (leadingSlashes p.chars ≠ 0) (split p.chars) = p.names := by
      rw [reduce_split, entries_chars h.plain, hslashes, hroot, hnames]
      exact reduce_updown ups hdowns
    show (⟨leadingSlashes p.chars, reduce (leadingSlashes p.chars ≠ 0) (split p.chars)⟩ :
      PartPath) = p
    rw [hslashes] at hreduce ⊢
    rw [hreduce]
  · exact settle_chars (h.settled hroot)

/-- The normal form of a normal form is that form. -/
theorem normalizeChars_normalizeChars (path : List Char) :
    normalizeChars (normalizeChars path) = normalizeChars path := by
  rw [normalizeChars_eq path, normalizeChars_eq, settle_reduced (reduced_settle path)]

/-! ## 3. References to variables -/

/-- A path that begins with the name of a user, as `~name`, and the name has a NUL character in it:
    nobody can be asked for by that name. -/
def NamesNobody (path : List Char) : Prop :=
  path.head? = some '~' ∧ '\x00' ∈ path.tail.takeWhile (· ≠ '/')

instance (path : List Char) : Decidable (NamesNobody path) := inferInstanceAs (Decidable (_ ∧ _))

theorem homeOf?_eq_error_iff (homes : Homes) (env : Entries String) {name : List Char}
    {fault : Fault} :
    homeOf? homes env name = .error fault ↔ '\x00' ∈ name ∧ fault = .value .embeddedNull := by
  unfold homeOf?
  split
  · rename_i hempty
    rw [List.isEmpty_iff.mp hempty]
    exact iff_of_false nofun fun h => nomatch h.1
  · split
    · rename_i hnull
      have hmem : '\x00' ∈ name := List.contains_iff_mem.mp hnull
      rw [Except.error.injEq, eq_comm]
      exact ⟨fun h => ⟨hmem, h⟩, fun h => h.2⟩
    · rename_i hnull
      exact iff_of_false nofun fun h => hnull (List.contains_iff_mem.mpr h.1)

/-- **Whether a home directory can be put in place** is up to the name in front alone. -/
theorem expandHomeChars_eq_error_iff (homes : Homes) (env : Entries String) {path : List Char}
    {fault : Fault} : expandHomeChars homes env path = .error fault ↔
      NamesNobody path ∧ fault = .value .embeddedNull := by
  unfold expandHomeChars
  split
  · rename_i path
    have hnamed : NamesNobody ('~' :: path) ↔ '\x00' ∈ path.takeWhile (· ≠ '/') :=
      and_iff_right rfl
    rw [hnamed, ← homeOf?_eq_error_iff homes env]
    cases homeOf? homes env (path.takeWhile (· ≠ '/')) with
    | error other => rw [Except.error_bind, Except.error.injEq, Except.error.injEq]
    | ok found => cases found <;> exact iff_of_false nofun nofun
  · rename_i hhome
    refine iff_of_false nofun ?_
    rintro ⟨⟨hhead, -⟩, -⟩
    obtain ⟨rest, rfl⟩ := List.head?_eq_some_iff.mp hhead
    exact hhome rest rfl

theorem clean_eq (homes : Homes) (env : Entries String) {path : String} (h : path ≠ "") :
    clean homes env path = (expandHomeChars homes env path.toList).map fun expanded =>
      String.ofList (normalizeChars (expandVariables env expanded)) := by
  rw [clean, if_neg h]
  cases expandHomeChars homes env path.toList <;> rfl

/-- **When a path cannot be cleaned.** -/
theorem clean_eq_error_iff {homes : Homes} {env : Entries String} {path : String} {fault : Fault} :
    clean homes env path = .error fault ↔
      NamesNobody path.toList ∧ fault = .value .embeddedNull := by
  by_cases hpath : path = ""
  · subst hpath
    exact iff_of_false nofun fun h => nomatch h.1.1
  · rw [clean_eq homes env hpath, ← expandHomeChars_eq_error_iff homes env]
    cases expandHomeChars homes env path.toList with
    | ok expanded => exact iff_of_false nofun nofun
    | error other => rw [Except.map, Except.error.injEq, Except.error.injEq]

theorem clean_isOk (homes : Homes) (env : Entries String) {path : String}
    (h : ¬NamesNobody path.toList) : ∃ cleaned, clean homes env path = .ok cleaned := by
  cases hclean : clean homes env path with
  | ok cleaned => exact ⟨cleaned, rfl⟩
  | error fault => exact absurd (clean_eq_error_iff.mp hclean).1 h

/-- What is clean and not empty is in normal form. -/
theorem clean_normal {homes : Homes} {env : Entries String} {path cleaned : String}
    (hpath : path ≠ "") (h : clean homes env path = .ok cleaned) : IsNormal cleaned.toList ∧
      normalizeChars cleaned.toList = cleaned.toList := by
  rw [clean_eq homes env hpath] at h
  cases hhome : expandHomeChars homes env path.toList with
  | error fault =>
    rw [hhome] at h
    cases h
  | ok expanded =>
    rw [hhome] at h
    obtain rfl := Except.ok.inj h
    rw [String.toList_ofList]
    refine ⟨?_, normalizeChars_normalizeChars _⟩
    rw [normalizeChars_eq]
    exact normal_chars (reduced_settle _)

/-- Cleaning a path makes nothing of nothing only. -/
theorem clean_eq_empty_iff {homes : Homes} {env : Entries String} {path : String} :
    clean homes env path = .ok "" ↔ path = "" := by
  constructor
  · intro h
    by_contra hpath
    exact (clean_normal hpath h).1.nonempty rfl
  · rintro rfl
    rfl

end LintHost.Path
