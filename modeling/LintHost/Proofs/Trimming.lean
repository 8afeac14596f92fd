import Mathlib.Data.List.TakeWhile
import LintHost.Text.Blank

/-!
# Trimmed text

Trimming takes characters of a kind off both ends of a text and leaves all that stands between them.

* `trimWhere_eq_self`, `trimWhere_blank`: nothing or all is taken off;
* `trimWhere_between`, `trimWhere_framed`: what stands around a text makes no difference;
* `head_trimWhere`: what is left begins with nothing that could be taken off.
-/

namespace LintHost.Text

variable {p : Char → Bool}

/-- Text without the characters that are trimmed stays as it is. -/
theorem trimWhere_eq_self {cs : List Char} (h : ∀ c ∈ cs, p c = false) :
    trimWhere p cs = cs := by
  have keep {ds : List Char} (hds : ∀ c ∈ ds, p c = false) : ds.dropWhile p = ds := by
    cases ds with
    | nil => rfl
    | cons c rest => simp [hds c List.mem_cons_self]
  have hreverse : ∀ c ∈ cs.reverse, p c = false := fun c hc => h c (List.mem_reverse.mp hc)
  rw [trimWhere, keep h, keep hreverse, List.reverse_reverse]

/-- What is trimmed off at the ends makes no difference. -/
theorem trimWhere_between {before after : List Char} (cs : List Char)
    (hbefore : ∀ c ∈ before, p c = true) (hafter : ∀ c ∈ after, p c = true) :
    trimWhere p (before ++ (cs ++ after)) = trimWhere p cs := by
  have hnil : after.dropWhile p = [] := List.dropWhile_eq_nil_iff.mpr hafter
  unfold trimWhere
  rw [List.dropWhile_append_of_pos hbefore, List.dropWhile_append]
  split
  · rename_i hcs
    rw [List.isEmpty_iff.mp hcs, hnil]
  · rw [List.reverse_append,
      List.dropWhile_append_of_pos fun c hc => hafter c (List.mem_reverse.mp hc)]

theorem trimWhere_blank {cs : List Char} (h : ∀ c ∈ cs, p c = true) : trimWhere p cs = [] := by
  rw [trimWhere, List.dropWhile_eq_nil_iff.mpr h]
  rfl

/-- Trimming takes the characters around a text off, and leaves a text alone that none of them
    begins or ends. -/
theorem trimWhere_framed {before inner after : List Char} {first last : Char}
    (hbefore : ∀ c ∈ before, p c = true) (hafter : ∀ c ∈ after, p c = true)
    (hfirst : p first = false) (hlast : p last = false) :
    trimWhere p (before ++ (first :: (inner ++ [last]) ++ after)) =
      first :: (inner ++ [last]) := by
  have hreversed : ∀ c ∈ after.reverse, p c = true := fun c hc => hafter c (List.mem_reverse.mp hc)
  have hstart : (before ++ (first :: (inner ++ [last]) ++ after)).dropWhile p =
      first :: (inner ++ [last]) ++ after := by
    rw [List.dropWhile_append_of_pos hbefore, List.cons_append, List.dropWhile_cons_of_neg]
    rw [hfirst]
    exact Bool.false_ne_true
  have hend : (first :: (inner ++ [last]) ++ after).reverse =
      after.reverse ++ last :: (first :: inner).reverse := by simp
  rw [trimWhere, hstart, hend, List.dropWhile_append_of_pos hreversed,
    List.dropWhile_cons_of_neg (by rw [hlast]; exact Bool.false_ne_true)]
  simp

/-- Trimmed text begins with nothing that is trimmed. -/
theorem head_trimWhere {cs : List Char} {c : Char}
    (h : (trimWhere p cs).head? = some c) : p c = false := by
  unfold trimWhere at h
  have hfirst := List.head?_dropWhile_not p cs
  cases hrest : cs.dropWhile p with
  | nil =>
    rw [hrest] at h
    cases h
  | cons d rest =>
    rw [hrest] at h hfirst
    have hd : p d = false := by simpa using hfirst
    -- The last character of the reversed text is `d`, which trimming at that end keeps.
    have hkeeps : ((d :: rest).reverse.dropWhile p).reverse.head? = some d := by
      rw [List.reverse_cons, List.dropWhile_append]
      split
      · simp [hd]
      · simp
    rw [hkeeps] at h
    cases h
    exact hd

end LintHost.Text
