import LintHost.Path.Parts

/-!
# Paths and their components

Every function on paths works on text, but what it means is a matter of components: a path is its
leading slashes and the entries between the others. This file fixes that reading once.

* `entries`: the components that count, neither empty nor `.`; how they go through cutting,
  joining and writing;
* `PartPath.Plain`: the root and entries of some text; writing such a path and reading it back
  changes nothing (`ofChars_chars`).
-/

namespace LintHost

open LintHost.Text

/-! ## 1. Cutting and joining text -/

theorem Text.splitOn_eq (sep : Char) : ∀ cs : List Char, splitOn sep cs = cs.splitOn sep
  | [] => rfl
  | c :: cs => by
    rw [splitOn, List.splitOn_cons_eq_if_modifyHead, splitOn_eq sep cs]
    by_cases h : c = sep
    · simp [h]
    · simp only [h, if_false, beq_iff_eq]
      cases hs : cs.splitOn sep with
      | nil => exact absurd hs (List.splitOn_ne_nil sep cs)
      | cons piece pieces => rfl

theorem Text.intercalate_eq (sep : List Char) :
    ∀ pieces : List (List Char), intercalate sep pieces = sep.intercalate pieces
  | [] => rfl
  | [piece] => by simp [intercalate]
  | piece :: next :: pieces => by
    rw [intercalate, intercalate_eq sep (next :: pieces), List.intercalate_cons_cons]
    exact List.cons_ne_nil next pieces

namespace Path

/-! ## 2. Components and entries -/

theorem split_append_slash (a b : List Char) : split (a ++ '/' :: b) = split a ++ split b := by
  simp only [split, Text.splitOn_eq]
  exact List.splitOn_append_cons_self a b

theorem split_unsplit {components : List (List Char)} (hne : components ≠ [])
    (h : ∀ n ∈ components, '/' ∉ n) : split (unsplit components) = components := by
  rw [split, unsplit, Text.splitOn_eq, Text.intercalate_eq]
  exact List.splitOn_intercalate '/' h hne

theorem no_slash_of_mem_split {n : List Char} : ∀ {cs : List Char}, n ∈ split cs → '/' ∉ n
  | [], h => by
    have hn : n = [] := by simpa [split, splitOn] using h
    simp [hn]
  | c :: cs, h => by
    have ih := fun m (hm : m ∈ split cs) => no_slash_of_mem_split hm
    rw [split, splitOn] at h
    by_cases hc : c = '/'
    · rw [if_pos hc] at h
      rcases List.mem_cons.mp h with rfl | h
      · simp
      · exact ih n h
    · rw [if_neg hc] at h
      cases hs : splitOn '/' cs with
      | nil =>
        rw [hs] at h
        have hn : n = [c] := by simpa using h
        simp [hn, Ne.symm hc]
      | cons piece pieces =>
        rw [hs] at h
        rcases List.mem_cons.mp h with rfl | h
        · have hp := ih piece (by rw [split, hs]; exact List.mem_cons_self)
          simp [hp, Ne.symm hc]
        · exact ih n (by rw [split, hs]; exact List.mem_cons_of_mem _ h)

/-- A component that counts: neither empty nor `.`, and without a slash. -/
structure IsEntry (n : List Char) : Prop where
  nonempty : n ≠ []
  ne_dot : n ≠ dot
  no_slash : '/' ∉ n

/-- The components that count. -/
def entries (path : List Char) : List (List Char) := (split path).filter fun n => n ≠ [] ∧ n ≠ dot

theorem entries_append_slash (a b : List Char) :
    entries (a ++ '/' :: b) = entries a ++ entries b := by
  rw [entries, split_append_slash, List.filter_append]
  rfl

@[simp] theorem entries_nil : entries [] = [] := rfl

theorem isEntry_of_mem_entries {n path : List Char} (h : n ∈ entries path) : IsEntry n := by
  obtain ⟨hn, hd⟩ := List.mem_filter.mp h
  have hd' : n ≠ [] ∧ n ≠ dot := by simpa using hd
  exact ⟨hd'.1, hd'.2, no_slash_of_mem_split hn⟩

theorem filter_entries {names : List (List Char)} (h : ∀ n ∈ names, IsEntry n) :
    names.filter (fun n => n ≠ [] ∧ n ≠ dot) = names := by
  rw [List.filter_eq_self]
  intro n hn
  simpa using ⟨(h n hn).nonempty, (h n hn).ne_dot⟩

theorem entries_unsplit {names : List (List Char)} (h : ∀ n ∈ names, IsEntry n) :
    entries (unsplit names) = names := by
  by_cases hne : names = []
  · subst hne; rfl
  · rw [entries, split_unsplit hne fun n hn => (h n hn).no_slash, filter_entries h]

/-- Slashes in front add empty components only. -/
theorem filter_split_slashes {keep : List Char → Bool} (hkeep : keep [] = false) (k : Nat)
    (path : List Char) :
    (split (List.replicate k '/' ++ path)).filter keep = (split path).filter keep := by
  induction k with
  | zero => rfl
  | succ k ih =>
    have h := split_append_slash [] (List.replicate k '/' ++ path)
    rw [List.nil_append] at h
    rw [List.replicate_succ, List.cons_append, h, List.filter_append, ih]
    simp [split, splitOn, hkeep]

theorem entries_slashes (k : Nat) (path : List Char) :
    entries (List.replicate k '/' ++ path) = entries path :=
  filter_split_slashes (by decide) k path

/-! ## 3. Leading slashes -/

theorem leadingSlashes_le (path : List Char) : leadingSlashes path ≤ 2 := by
  unfold leadingSlashes
  split <;> omega

theorem leadingSlashes_ne_zero {path : List Char} :
    leadingSlashes path ≠ 0 ↔ startsWithSlash path = true := by
  unfold leadingSlashes startsWithSlash
  split <;> simp_all

theorem startsWithSlash_append {a : List Char} (b : List Char) (h : startsWithSlash a = true) :
    startsWithSlash (a ++ b) = true := by
  unfold startsWithSlash at h
  split at h
  · rfl
  · cases h

/-- Slashes in front of a path without any are all leading slashes, up to two. -/
theorem leadingSlashes_replicate {path : List Char} (hp : startsWithSlash path = false) :
    ∀ {k : Nat}, k ≤ 2 → leadingSlashes (List.replicate k '/' ++ path) = k
  | 0, _ => by
    refine Classical.byContradiction fun h => ?_
    rw [List.replicate_zero, List.nil_append] at h
    rw [leadingSlashes_ne_zero.mp h] at hp
    cases hp
  | 1, _ => by
    cases path with
    | nil => rfl
    | cons c cs =>
      by_cases hc : c = '/'
      · subst hc; cases hp
      · simp [leadingSlashes, hc]
  | 2, _ => by
    cases path with
    | nil => rfl
    | cons c cs =>
      by_cases hc : c = '/'
      · subst hc; cases hp
      · simp [leadingSlashes, hc]

theorem startsWithSlash_unsplit {names : List (List Char)} (h : ∀ n ∈ names, IsEntry n) :
    startsWithSlash (unsplit names) = false := by
  cases names with
  | nil => rfl
  | cons n rest =>
    have hn := h n List.mem_cons_self
    obtain ⟨c, cs, rfl⟩ := List.exists_cons_of_ne_nil hn.nonempty
    have hc : c ≠ '/' := fun e => hn.no_slash (by simp [e])
    have hs : ∀ l : List Char, startsWithSlash (c :: l) = false := by
      intro l
      unfold startsWithSlash
      split
      · rename_i heq; exact absurd (List.cons.inj heq).1 hc
      · rfl
    cases rest with
    | nil => exact hs cs
    | cons m rest =>
      rw [unsplit, intercalate, List.append_assoc, List.cons_append]
      · exact hs _
      · exact List.cons_ne_nil m rest

end Path

/-! ## 4. Writing parts and reading them back -/

namespace PartPath

open LintHost.Path

/-- The root and entries of some text. -/
structure Plain (p : PartPath) : Prop where
  slashes : p.slashes ≤ 2
  names : ∀ n ∈ p.names, IsEntry n

theorem ofChars_eq (path : List Char) : ofChars path = ⟨leadingSlashes path, Path.entries path⟩ :=
  rfl

theorem plain_ofChars (path : List Char) : (ofChars path).Plain :=
  ⟨leadingSlashes_le path, fun _ hn => isEntry_of_mem_entries hn⟩

/-- **Writing a plain path and reading it back** gives the path. -/
theorem ofChars_chars {p : PartPath} (h : p.Plain) : ofChars p.chars = p := by
  obtain ⟨k, names⟩ := p
  have hn : ∀ n ∈ names, IsEntry n := h.names
  have hk : k ≤ 2 := h.slashes
  have hs := startsWithSlash_unsplit hn
  rw [chars, ofChars_eq]
  by_cases he : (List.replicate k '/' ++ unsplit names).isEmpty = true
  · rw [if_pos he]
    obtain ⟨hk, hu⟩ := List.append_eq_nil_iff.mp (List.isEmpty_iff.mp he)
    have hempty : names = [] := by
      rw [← entries_unsplit hn, hu, entries_nil]
    have hzero : k = 0 := by simpa using hk
    subst hempty hzero
    rfl
  · rw [if_neg he, leadingSlashes_replicate hs hk, entries_slashes, entries_unsplit hn]

theorem ofText_text {p : PartPath} (h : p.Plain) : ofText p.text = p := by
  rw [ofText, text, String.toList_ofList, ofChars_chars h]

theorem plain_ofText (path : String) : (ofText path).Plain := plain_ofChars path.toList

theorem chars_of_absolute {p : PartPath} (h : p.slashes ≠ 0) :
    p.chars = List.replicate p.slashes '/' ++ unsplit p.names := by
  rw [chars, if_neg]
  rw [List.isEmpty_iff, List.append_eq_nil_iff, List.replicate_eq_nil_iff]
  exact fun e => h e.1

end PartPath

end LintHost
