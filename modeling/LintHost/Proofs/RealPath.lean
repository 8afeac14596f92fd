import LintHost.FileTree.RealPath
import LintHost.Proofs.Place
import LintHost.Proofs.Results
import Mathlib.Data.List.DropRight

/-!
# Real paths are places

A path is followed name by name, and wherever a link is met its target is followed in between, with
a memo of the links met so far. Whatever the links are, a path with a root is followed to a path
with a root; the real path is that path with its `..` carried out.

* `Seen.Rooted`, `Progress.Rooted`: what the memo and the path followed so far keep;
* `followWith_rooted`: the names of a path keep it if links do; `follow_rooted`: so does a path;
* `FileTree.resolve_eq_ok`: what the real path is of what was followed;
* `FileTree.settled_resolve`: the real path of a path with a root is a place.
-/

namespace LintHost

open LintHost.Path

/-! ## 1. Directories of rooted paths -/

namespace Path

theorem startsWithSlash_of_prefix {a b : List Char} (h : a <+: b) (hne : a ≠ [])
    (hb : startsWithSlash b = true) : startsWithSlash a = true := by
  obtain ⟨c, cs, rfl⟩ := List.exists_cons_of_ne_nil hne
  obtain ⟨rest, rfl⟩ := h
  rw [List.cons_append, startsWithSlash_cons] at hb
  rw [startsWithSlash_cons, hb]

/-- The directory of a rooted path is rooted. -/
theorem startsWithSlash_directoryChars {path : List Char} (h : startsWithSlash path = true) :
    startsWithSlash (directoryChars path) = true := by
  have hmem : '/' ∈ path := by
    cases path with
    | nil => cases h
    | cons c rest =>
      rw [startsWithSlash_cons, decide_eq_true_eq] at h
      simp [h]
  have hhead : startsWithSlash (path.rdropWhile (· ≠ '/')) = true := by
    refine startsWithSlash_of_prefix (List.rdropWhile_prefix _ _) (fun hnil => ?_) h
    simpa using List.rdropWhile_eq_nil_iff.mp hnil '/' hmem
  show startsWithSlash (if (path.rdropWhile (· ≠ '/')).all (· = '/') then
    path.rdropWhile (· ≠ '/') else (path.rdropWhile (· ≠ '/')).rdropWhile (· = '/')) = true
  split
  · exact hhead
  · rename_i hall
    refine startsWithSlash_of_prefix (List.rdropWhile_prefix _ _) (fun hnil => hall ?_) hhead
    exact List.all_eq_true.mpr (List.rdropWhile_eq_nil_iff.mp hnil)

end Path

/-! ## 2. Following a rooted path -/

namespace RealPath

theorem startsWithSlash_up {path : List Char} (h : startsWithSlash path = true) :
    startsWithSlash (up path) = true := by
  have hdirectory := startsWithSlash_directoryChars h
  unfold up
  split
  · rename_i hempty
    rw [List.isEmpty_iff.mp hempty] at h
    cases h
  · dsimp only
    split
    · exact startsWithSlash_joinChars (startsWithSlash_joinChars hdirectory _) _
    · exact hdirectory

/-- All real paths that are known are rooted. -/
def Seen.Rooted (seen : Seen) : Prop :=
  ∀ link real, seen.lookup link = some (some real) → startsWithSlash real = true

/-- A path was followed to a rooted one, and so were all on the way. -/
def Progress.Rooted : Progress → Prop
  | .done path seen => startsWithSlash path = true ∧ seen.Rooted
  | .circle path => startsWithSlash path = true

theorem Seen.rooted_nil : Seen.Rooted [] := fun _ _ h => by cases h

theorem Seen.Rooted.cons {seen : Seen} (h : seen.Rooted) {link : List Char}
    {known : Option (List Char)}
    (hknown : ∀ real, known = some real → startsWithSlash real = true) :
    Seen.Rooted ((link, known) :: seen) := by
  intro other real hlookup
  rw [List.lookup_cons] at hlookup
  split at hlookup
  · exact hknown real (Option.some.inj hlookup)
  · exact h other real hlookup

variable {tree : FileTree} {cwd : String}

/-- Components lead from a rooted path to a rooted one if links do. -/
theorem followWith_rooted {jump : List Char → Seen → List Char → Except Fault Progress}
    (hjump : ∀ path seen target progress, startsWithSlash path = true → seen.Rooted →
      jump path seen target = .ok progress → progress.Rooted) :
    ∀ (names : List (List Char)) (path : List Char) (seen : Seen) (progress : Progress),
      startsWithSlash path = true → seen.Rooted →
      followWith jump tree cwd path seen names = .ok progress → progress.Rooted
  | [], path, seen, progress, hpath, hseen, h => by
    rw [followWith] at h
    cases h
    exact ⟨hpath, hseen⟩
  | name :: rest, path, seen, progress, hpath, hseen, h => by
    have ih := followWith_rooted hjump rest
    have hnext := startsWithSlash_joinChars hpath name
    rw [followWith] at h
    split at h
    · exact ih path seen progress hpath hseen h
    split at h
    · exact ih (up path) seen progress (startsWithSlash_up hpath) hseen h
    obtain ⟨target, -, h⟩ := Except.bind_eq_ok h
    cases target with
    | none => exact ih _ seen progress hnext hseen h
    | some target =>
      dsimp only at h
      split at h
      · rename_i real hreal
        exact ih real seen progress (hseen _ real hreal) hseen h
      · cases h
        exact startsWithSlash_joinChars hnext _
      · have hentered : Seen.Rooted ((joinChars path name, none) :: seen) :=
          hseen.cons fun real hreal => nomatch hreal
        obtain ⟨stopped, hstopped, h⟩ := Except.bind_eq_ok h
        have hrooted := hjump path _ target.toList stopped hpath hentered hstopped
        cases stopped with
        | circle stopped =>
          cases h
          exact startsWithSlash_joinChars hrooted _
        | done real seen =>
          refine ih real _ progress hrooted.1 (hrooted.2.cons fun other hother => ?_) h
          rw [← Option.some.inj hother]
          exact hrooted.1

/-- **Following a rooted path**, or any path from a rooted one, ends at a rooted one. -/
theorem follow_rooted : ∀ (depth : Nat) (path : List Char) (seen : Seen) (rest : List Char)
    (progress : Progress), startsWithSlash path = true ∨ startsWithSlash rest = true →
      seen.Rooted → follow tree cwd depth path seen rest = .ok progress → progress.Rooted
  | 0, _, _, _, _, _, _, h => nomatch h
  | depth + 1, path, seen, rest, progress, hrooted, hseen, h => by
    have hjump := fun path seen target progress hpath =>
      follow_rooted depth path seen target progress (.inl hpath)
    rw [follow] at h
    split at h
    · exact followWith_rooted hjump _ ['/'] seen progress rfl hseen h
    · rename_i hrest
      exact followWith_rooted hjump _ path seen progress (hrooted.resolve_right hrest) hseen h

/-- The path followed so far. -/
def Progress.path : Progress → List Char
  | .done path _ => path
  | .circle path => path

theorem Progress.Rooted.path {progress : Progress} (h : progress.Rooted) :
    startsWithSlash progress.path = true := by
  cases progress with
  | done path seen => exact h.1
  | circle path => exact h

end RealPath

/-! ## 3. The real path -/

namespace FileTree

variable {tree : FileTree} {cwd : String} {p q : PartPath}

/-- A real path is the place that the followed path names. -/
theorem resolve_eq_ok (h : tree.resolve cwd p = .ok q) : ∃ progress,
    RealPath.follow tree cwd RealPath.depthLimit [] [] p.chars = .ok progress ∧
      q = place cwd (String.ofList progress.path) := by
  have written (path : List Char) :
      PartPath.ofText (absolute cwd (String.ofList path)) = place cwd (String.ofList path) := by
    rw [absolute_eq, PartPath.ofText_text]
    exact (reduced_settle _).plain
  unfold FileTree.resolve at h
  obtain ⟨progress, hprogress, h⟩ := Except.bind_eq_ok h
  refine ⟨progress, hprogress, ?_⟩
  cases progress
  all_goals
    obtain ⟨stopped, hstopped, h⟩ := Except.bind_eq_ok h
    cases hstopped
    dsimp only at h
    rw [RealPath.Progress.path, ← written]
    generalize absolute cwd (String.ofList _) = real at h ⊢
    split at h <;> cases h
    rfl

theorem plain_resolve (h : tree.resolve cwd p = .ok q) : q.Plain := by
  obtain ⟨progress, -, rfl⟩ := resolve_eq_ok h
  exact (reduced_settle _).plain

/-- **The real path of a rooted path** is a place: nothing in it has to be carried out. -/
theorem settled_resolve (h : tree.resolve cwd p = .ok q) (hp : p.slashes ≠ 0) : q.Settled := by
  obtain ⟨progress, hprogress, rfl⟩ := resolve_eq_ok h
  have hrooted : startsWithSlash progress.path = true :=
    (RealPath.follow_rooted _ _ _ _ _ (.inr (startsWithSlash_chars hp)) RealPath.Seen.rooted_nil
      hprogress).path
  have habsolute : isAbsolute (String.ofList progress.path) = true := by
    rw [isAbsolute, String.toList_ofList, hrooted]
  rw [place, if_pos habsolute, String.toList_ofList]
  exact settled_settle hrooted

end FileTree

end LintHost
