/-!
# Entries: a map that keeps its order

Names with what they stand for, each name at most once, in the order in which the names first
came. JSON objects and environments are kept this way.

* `get?` looks a name up, `put` sets it (in place if it is there, else at the end), `erase`
  removes it;
* `ofPairs` keeps the first place and the last value of a name that comes more than once;
* `nodup_put`: no name is there twice if all were put in.
-/

namespace LintHost

/-- Names and what they stand for, in the order of their first coming. -/
abbrev Entries (α : Type) := List (String × α)

namespace Entries

variable {α : Type}

/-- What a name stands for. -/
def get? (name : String) : Entries α → Option α
  | [] => none
  | (n, a) :: rest => if n = name then some a else get? name rest

/-- Whether a name is there. -/
def has (name : String) (entries : Entries α) : Bool := (entries.get? name).isSome

/-- The entries with a name standing for `a`, in its old place or else at the end. -/
def put (name : String) (a : α) : Entries α → Entries α
  | [] => [(name, a)]
  | (n, b) :: rest => if n = name then (n, a) :: rest else (n, b) :: put name a rest

/-- The entries without a name. -/
def erase (name : String) (entries : Entries α) : Entries α := entries.filter (·.1 ≠ name)

/-- The names in order. -/
def names (entries : Entries α) : List String := entries.map (·.1)

/-- The entries that come from setting the pairs one after the other. -/
def ofPairs (pairs : List (String × α)) : Entries α :=
  pairs.foldl (fun entries (name, a) => put name a entries) []

theorem get?_put_self (name : String) (a : α) (entries : Entries α) :
    (put name a entries).get? name = some a := by
  induction entries with
  | nil => simp [put, get?]
  | cons e rest ih =>
    obtain ⟨n, b⟩ := e
    by_cases h : n = name
    · simp [put, get?, h]
    · simp [put, get?, h, ih]

theorem get?_put_ne {name other : String} (h : other ≠ name) (a : α) (entries : Entries α) :
    (put name a entries).get? other = entries.get? other := by
  induction entries with
  | nil => simp [put, get?, h.symm]
  | cons e rest ih =>
    obtain ⟨n, b⟩ := e
    by_cases hn : n = name
    · subst hn; simp [put, get?, h.symm]
    · simp only [put, hn, if_false, get?, ih]

theorem has_cons {name n : String} {a : α} {rest : Entries α} :
    has name ((n, a) :: rest) = (decide (n = name) || rest.has name) := by
  unfold has
  rw [get?]
  by_cases h : n = name <;> simp [h]

theorem has_iff {name : String} {entries : Entries α} :
    entries.has name = true ↔ name ∈ entries.names := by
  induction entries with
  | nil => simp [has, get?, names]
  | cons e rest ih =>
    obtain ⟨n, a⟩ := e
    rw [has_cons, Bool.or_eq_true, decide_eq_true_eq, ih]
    simp [names, eq_comm]

theorem put_of_lacks {name : String} {a : α} {entries : Entries α}
    (h : entries.has name = false) : put name a entries = entries ++ [(name, a)] := by
  induction entries with
  | nil => rfl
  | cons e rest ih =>
    obtain ⟨n, b⟩ := e
    rw [has_cons, Bool.or_eq_false_iff, decide_eq_false_iff_not] at h
    rw [put, if_neg h.1, ih h.2, List.cons_append]

theorem has_append_other {name n : String} {a : α} {entries : Entries α} (h : n ≠ name) :
    has name (entries ++ [(n, a)]) = entries.has name := by
  induction entries with
  | nil => simp [has, get?, h]
  | cons e rest ih =>
    obtain ⟨m, b⟩ := e
    rw [List.cons_append, has_cons, has_cons, ih]

theorem mem_names_put {name n : String} {a : α} {entries : Entries α} :
    n ∈ (put name a entries).names ↔ n = name ∨ n ∈ entries.names := by
  rw [← has_iff, ← has_iff]
  unfold has
  by_cases h : n = name
  · rw [h, get?_put_self]
    simp
  · rw [get?_put_ne h]
    simp [h]

theorem nodup_put {name : String} {a : α} {entries : Entries α} (h : entries.names.Nodup) :
    (put name a entries).names.Nodup := by
  induction entries with
  | nil => simp [put, names]
  | cons e rest ih =>
    obtain ⟨n, b⟩ := e
    obtain ⟨hn, hrest⟩ := List.nodup_cons.mp h
    unfold put
    split
    · exact h
    · rename_i hne
      refine List.nodup_cons.mpr ⟨fun hmem => ?_, ih hrest⟩
      exact (mem_names_put.mp hmem).elim hne hn

/-- Where no name is there twice, an entry is what its name stands for. -/
theorem mem_iff_get? {name : String} {a : α} {entries : Entries α} (h : entries.names.Nodup) :
    (name, a) ∈ entries ↔ entries.get? name = some a := by
  induction entries with
  | nil => simp [get?]
  | cons e rest ih =>
    obtain ⟨n, b⟩ := e
    obtain ⟨hn, hrest⟩ := List.nodup_cons.mp h
    rw [get?, List.mem_cons, Prod.mk.injEq]
    split
    · rename_i hname
      subst hname
      have habsent : (n, a) ∉ rest := fun hmem => hn (List.mem_map.mpr ⟨(n, a), hmem, rfl⟩)
      simp [habsent, eq_comm]
    · rename_i hname
      rw [ih hrest]
      simp [Ne.symm hname]

/-- Where no name is there twice, looking a name up from behind finds the same. -/
theorem findSome?_reverse {β : Type} {name : String} {f : α → Option β} {entries : Entries α}
    (h : entries.names.Nodup) :
    entries.reverse.findSome? (fun e => if e.1 = name then f e.2 else none) =
      (entries.get? name).bind f := by
  induction entries with
  | nil => rfl
  | cons e rest ih =>
    obtain ⟨n, a⟩ := e
    obtain ⟨hn, hrest⟩ := List.nodup_cons.mp h
    rw [List.reverse_cons, List.findSome?_append, ih hrest, List.findSome?_singleton, get?]
    by_cases hname : n = name
    · subst hname
      have hget : get? n rest = none := by
        cases hget : get? n rest with
        | none => rfl
        | some b =>
          exact absurd (List.mem_map.mpr ⟨(n, b), (mem_iff_get? hrest).mpr hget, rfl⟩) hn
      simp [hget]
    · simp [hname]

end Entries

end LintHost
