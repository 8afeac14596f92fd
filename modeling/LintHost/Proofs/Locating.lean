import LintHost.Proofs.Fallback

/-!
# Which copy is located

Of the three modes of a policy each expects its copy at one place, except that global packages have
two layouts. This file says which copy is located, by what stands at these places.

* `Package.Expects`: where a policy without the global mode expects its copy;
* `Package.Located`, `located_iff`: what locating comes to, case by case;
* `locate_decides`: what the located copy tells about the policy and the files, and when there is
  none.
-/

namespace LintHost

open LintHost.Action LintHost.Path

namespace Package

variable {w : World} {s : Session} {modulesDir project : Option String} {policy : Policy}
  {result : Except Fault Installation}

/-! ## 1. Where a copy is expected -/

-- Only `globalCandidate_eq` opens the layouts: where cases are told apart by their paths, Lean would
-- otherwise compute on the texts.

/-- The global copy under a prefix where packages lie beside the programs. -/
@[irreducible]
def flatLayout (under : String) : String := join (join under "node_modules") "eslint"

/-- The global copy under a prefix where packages lie among the libraries. -/
@[irreducible]
def nestedLayout (under : String) : String := join (join (join under "lib") "node_modules") "eslint"

/-- Where a policy without the global mode expects its copy, and of which origin that is. -/
inductive Expects (w : World) (modulesDir : Option String) (policy : Policy)
    (project : Option String) : Origin → String → Prop
  /-- In the modules directory of the project. -/
  | nearby {dir : String} (hpolicy : policy.localModules = none ∨ policy.localModules = some "")
    (hdir : modulesDir = some dir) (hne : dir ≠ "") :
    Expects w modulesDir policy project .localProject (join dir "eslint")
  /-- In a directory that the policy names. -/
  | named {override dir : String} (hpolicy : policy.localModules = some override)
    (hne : override ≠ "") (hdir : clean w.host.homes w.env override = .ok dir)
    (habsolute : isAbsolute dir = true) :
    Expects w modulesDir policy project .advanced (join dir "eslint")
  /-- In one that it names by the way from the project. -/
  | inProject {override dir : String} (hpolicy : policy.localModules = some override)
    (hne : override ≠ "") (hdir : clean w.host.homes w.env override = .ok dir)
    (hrelative : isAbsolute dir = false) :
    Expects w modulesDir policy project .advanced (join (join (project.getD "") dir) "eslint")

theorem join_eslint_ne_empty (base : String) : join base "eslint" ≠ "" := by
  have hrelative : startsWithSlash "eslint".toList = false := by decide
  intro h
  have hchars : joinChars base.toList "eslint".toList = [] := by
    rw [← String.toList_ofList (l := joinChars base.toList "eslint".toList)]
    exact congrArg String.toList h
  rw [joinChars, hrelative, if_neg Bool.false_ne_true] at hchars
  split at hchars
  · exact absurd (List.append_eq_nil_iff.mp hchars).2 (by decide)
  · exact absurd (List.append_eq_nil_iff.mp hchars).2 (List.cons_ne_nil _ _)

theorem Expects.ne_empty {origin : Origin} {path : String}
    (h : Expects w modulesDir policy project origin path) : path ≠ "" := by
  cases h <;> exact join_eslint_ne_empty _

theorem globalCandidate_ne_empty (under : String) : globalCandidate w under ≠ "" := by
  unfold globalCandidate
  dsimp only
  split <;> exact join_eslint_ne_empty _

theorem localCandidate_unnamed (h : policy.localModules = none ∨ policy.localModules = some "") :
    localCandidate w modulesDir policy project = .ok (.localProject,
      if modulesDir = some "" then none else modulesDir.map fun dir => join dir "eslint") := by
  have hnone : localCandidate w modulesDir policy project =
      localCandidate w modulesDir { policy with localModules := none } project := by
    unfold localCandidate
    rcases h with h | h
    · rw [h]
    · rw [h]
      rfl
  rw [hnone]
  unfold localCandidate
  dsimp only
  split
  · rfl
  · rfl
  · rename_i hne
    rw [if_neg fun e => hne (Option.some.inj e)]
    rfl

theorem localCandidate_named {override : String} (h : policy.localModules = some override)
    (hne : override ≠ "") :
    localCandidate w modulesDir policy project = (clean w.host.homes w.env override).map fun dir =>
      (.advanced,
        some (join (if isAbsolute dir then dir else join (project.getD "") dir) "eslint")) := by
  unfold localCandidate
  rw [h]
  split
  · cases ‹some override = none›
  · exact absurd (Option.some.inj ‹some override = some ""›) hne
  · cases ‹some override = some _›
    rfl

/-- **Where the copy is expected** is where the policy's mode looks for it. -/
theorem expects_iff {origin : Origin} {path : String} :
    Expects w modulesDir policy project origin path ↔
      localCandidate w modulesDir policy project = .ok (origin, some path) := by
  constructor
  · intro h
    cases h with
    | @nearby dir hpolicy hdir hne =>
      rw [localCandidate_unnamed hpolicy, hdir, if_neg fun e => hne (Option.some.inj e)]
      rfl
    | named hpolicy hne hdir habsolute =>
      rw [localCandidate_named hpolicy hne, hdir, Except.map, if_pos habsolute]
    | inProject hpolicy hne hdir hrelative =>
      rw [localCandidate_named hpolicy hne, hdir, Except.map,
        if_neg (Bool.eq_false_iff.mp hrelative)]
  · intro h
    by_cases hpolicy : policy.localModules = none ∨ policy.localModules = some ""
    · rw [localCandidate_unnamed hpolicy] at h
      split at h
      · cases h
      · rename_i hne
        cases hdir : modulesDir with
        | none =>
          rw [hdir] at h
          cases h
        | some dir =>
          rw [hdir, Option.map_some, Except.ok.injEq, Prod.mk.injEq, Option.some.injEq] at h
          rw [hdir] at hne
          obtain ⟨rfl, rfl⟩ := h
          exact .nearby hpolicy rfl fun e => hne (e ▸ rfl)
    · obtain ⟨override, hoverride⟩ := Option.ne_none_iff_exists'.mp fun e => hpolicy (.inl e)
      have hne : override ≠ "" := fun e => hpolicy (.inr (e ▸ hoverride))
      rw [localCandidate_named hoverride hne] at h
      obtain ⟨dir, hdir, hfound⟩ := Except.map_eq_ok h
      rw [Prod.mk.injEq, Option.some.injEq] at hfound
      obtain ⟨rfl, rfl⟩ := hfound
      split
      · exact .named hoverride hne hdir ‹_›
      · exact .inProject hoverride hne hdir (Bool.eq_false_iff.mpr ‹_›)

/-! ## 2. What locating comes to -/

/-- What locating comes to, by what stands where the policy's mode expects its copy. -/
inductive Located (w : World) (s : Session) (modulesDir : Option String) (policy : Policy)
    (project : Option String) : Except Fault Installation → Prop
  /-- The prefix of the global copy is not known. -/
  | adrift {fault : Fault} (hglobal : policy.useGlobal = true)
    (hunder : globalPrefix w s policy = .error fault) :
    Located w s modulesDir policy project (.error fault)
  /-- The global copy is there in the first layout. -/
  | flat {under : String} (hglobal : policy.useGlobal = true)
    (hunder : globalPrefix w s policy = .ok under) (h : w.isDirectory (flatLayout under) = true) :
    Located w s modulesDir policy project (.ok ⟨flatLayout under, .global⟩)
  /-- It is there in the second only. -/
  | nested {under : String} (hglobal : policy.useGlobal = true)
    (hunder : globalPrefix w s policy = .ok under)
    (hflat : w.isDirectory (flatLayout under) = false)
    (h : w.isDirectory (nestedLayout under) = true) :
    Located w s modulesDir policy project (.ok ⟨nestedLayout under, .global⟩)
  /-- It is there in neither. -/
  | missing {under : String} (hglobal : policy.useGlobal = true)
    (hunder : globalPrefix w s policy = .ok under)
    (hflat : w.isDirectory (flatLayout under) = false)
    (h : w.isDirectory (nestedLayout under) = false) :
    Located w s modulesDir policy project
      (.error (.reported (.package (nestedLayout under) globalMissing [])))
  /-- The policy names its own copy by a user that nobody can be. -/
  | nameless (hlocal : policy.useGlobal = false)
    (hnobody : NamesNobody (policy.localModules.getD "").toList) :
    Located w s modulesDir policy project (.error (.value .embeddedNull))
  /-- The policy's own copy is there. -/
  | own {origin : Origin} {path : String} (hlocal : policy.useGlobal = false)
    (hexpects : Expects w modulesDir policy project origin path) (h : w.isDirectory path = true) :
    Located w s modulesDir policy project (.ok ⟨path, origin⟩)
  /-- It is not, and the bundled copy takes its place. -/
  | bundled {path : String} (hlocal : policy.useGlobal = false)
    (hnamed : ¬NamesNobody (policy.localModules.getD "").toList)
    (habsent : ∀ origin own, Expects w modulesDir policy project origin own →
      w.isDirectory own = false)
    (hpath : NodeTools.recalled w s = .ok path) :
    Located w s modulesDir policy project (.ok ⟨path, .bundled⟩)
  /-- It is not, and it cannot be told where the bundled copy is. -/
  | stranded {fault : Fault} (hlocal : policy.useGlobal = false)
    (hnamed : ¬NamesNobody (policy.localModules.getD "").toList)
    (habsent : ∀ origin own, Expects w modulesDir policy project origin own →
      w.isDirectory own = false)
    (hpath : NodeTools.recalled w s = .error fault) :
    Located w s modulesDir policy project (.error fault)

theorem localCandidate_nobody (h : NamesNobody (policy.localModules.getD "").toList) :
    localCandidate w modulesDir policy project = .error (.value .embeddedNull) := by
  cases hoverride : policy.localModules with
  | none =>
    rw [hoverride] at h
    exact nomatch h.1
  | some override =>
    rw [hoverride, Option.getD_some] at h
    have hne : override ≠ "" := by
      rintro rfl
      exact nomatch h.1
    rw [localCandidate_named hoverride hne, clean_eq_error_iff.mpr ⟨h, rfl⟩]
    rfl

theorem localCandidate_isOk (w : World) (modulesDir project : Option String)
    (h : ¬NamesNobody (policy.localModules.getD "").toList) :
    ∃ found, localCandidate w modulesDir policy project = .ok found := by
  cases hfound : localCandidate w modulesDir policy project with
  | ok found => exact ⟨found, rfl⟩
  | error fault => exact absurd ((localCandidate_fails_iff _ _ _).mp ⟨fault, hfound⟩) h

/-- **Locating without the global mode.** -/
theorem locate_local (hlocal : policy.useGlobal = false) :
    ((locate modulesDir policy project).run w s).1 =
      localCandidate w modulesDir policy project >>= fun found =>
        match present? w found.2 with
        | some path => .ok ⟨path, found.1⟩
        | none => (NodeTools.recalled w s).map fun path => ⟨path, .bundled⟩ := by
  have hcandidate := candidate_local (w := w) hlocal modulesDir project s
  cases hfound : localCandidate w modulesDir policy project with
  | error fault =>
    rw [hfound] at hcandidate
    rw [locate_unexpected hcandidate]
    rfl
  | ok found =>
    rw [hfound] at hcandidate
    obtain ⟨origin, expected⟩ := found
    rw [Except.ok_bind]
    dsimp only
    cases hpresent : present? w expected with
    | some path => rw [locate_present hcandidate hpresent]
    | none =>
      rw [locate_absent hlocal hcandidate hpresent, Except.map_eq_bind]
      refine run_bind_result (Prod.ext (NodeTools.bundledPath_result s) rfl) fun path => ?_
      rw [run_bind_ok (run_tell _ _ _ _)]
      rfl

theorem globalCandidate_eq (w : World) (under : String) : globalCandidate w under =
    if w.isDirectory (flatLayout under) then flatLayout under else nestedLayout under := by
  unfold globalCandidate flatLayout nestedLayout
  with_reducible rfl

theorem globalInstallation_present {under : String}
    (h : w.isDirectory (globalCandidate w under) = true) :
    globalInstallation w under = .ok ⟨globalCandidate w under, .global⟩ := by
  have hne := globalCandidate_ne_empty (w := w) under
  unfold globalInstallation
  generalize globalCandidate w under = path at h hne ⊢
  rw [present_eq_some.mpr ⟨rfl, hne, h⟩]

theorem globalInstallation_absent {under : String}
    (h : w.isDirectory (globalCandidate w under) = false) :
    globalInstallation w under =
      .error (.reported (.package (globalCandidate w under) globalMissing [])) := by
  unfold globalInstallation
  generalize globalCandidate w under = path at h ⊢
  have habsent : present? w (some path) = none := by
    refine Option.eq_none_iff_forall_ne_some.mpr fun other hpresent => ?_
    obtain ⟨hpath, -, hthere⟩ := present_eq_some.mp hpresent
    rw [← Option.some.inj hpath, h] at hthere
    cases hthere
  rw [habsent]

/-- Nothing is there where the policy's mode looks exactly if nothing is where its copy is
    expected. -/
theorem present_eq_none_iff {found : Origin × Option String}
    (hfound : localCandidate w modulesDir policy project = .ok found) :
    present? w found.2 = none ↔
      ∀ origin own, Expects w modulesDir policy project origin own → w.isDirectory own = false := by
  constructor
  · intro h origin own hexpects
    refine Bool.eq_false_iff.mpr fun hthere => ?_
    have hpresent := present_eq_some.mpr ⟨rfl, hexpects.ne_empty, hthere⟩
    rw [Except.ok.inj (hfound.symm.trans (expects_iff.mp hexpects)), hpresent] at h
    cases h
  · intro habsent
    refine Option.eq_none_iff_forall_ne_some.mpr fun path hpresent => ?_
    obtain ⟨hexpected, -, hthere⟩ := present_eq_some.mp hpresent
    have hexpects := expects_iff.mpr (hfound.trans (congrArg Except.ok (Prod.ext rfl hexpected)))
    rw [habsent _ _ hexpects] at hthere
    cases hthere

theorem Located.locate (h : Located w s modulesDir policy project result) :
    ((locate modulesDir policy project).run w s).1 = result := by
  cases h with
  | adrift hglobal hunder => rw [locate_global hglobal, hunder, Except.error_bind]
  | flat hglobal hunder h =>
    have hcandidate := (globalCandidate_eq w _).trans (if_pos h)
    rw [locate_global hglobal, hunder, Except.ok_bind, ← hcandidate]
    exact globalInstallation_present (hcandidate ▸ h)
  | nested hglobal hunder hflat h =>
    have hcandidate := (globalCandidate_eq w _).trans (if_neg (Bool.eq_false_iff.mp hflat))
    rw [locate_global hglobal, hunder, Except.ok_bind, ← hcandidate]
    exact globalInstallation_present (hcandidate ▸ h)
  | missing hglobal hunder hflat h =>
    have hcandidate := (globalCandidate_eq w _).trans (if_neg (Bool.eq_false_iff.mp hflat))
    rw [locate_global hglobal, hunder, Except.ok_bind, ← hcandidate]
    exact globalInstallation_absent (hcandidate ▸ h)
  | nameless hlocal hnobody =>
    rw [locate_local hlocal, localCandidate_nobody hnobody, Except.error_bind]
  | own hlocal hexpects h =>
    have hpresent := present_eq_some.mpr ⟨rfl, hexpects.ne_empty, h⟩
    rw [locate_local hlocal, expects_iff.mp hexpects, Except.ok_bind, hpresent]
  | bundled hlocal hnamed habsent hpath | stranded hlocal hnamed habsent hpath =>
    obtain ⟨found, hfound⟩ := localCandidate_isOk w modulesDir project hnamed
    rw [locate_local hlocal, hfound, Except.ok_bind, (present_eq_none_iff hfound).mpr habsent, hpath]
    rfl

theorem Expects.origin {origin : Origin} {path : String}
    (h : Expects w modulesDir policy project origin path) :
    origin = .localProject ∨ origin = .advanced := by
  cases h with
  | nearby => exact .inl rfl
  | named | inProject => exact .inr rfl

end Package

/-! ## 4. A file where a copy is expected -/

/-- A policy with a modules directory of its own in the project. -/
def Policy.vendored : Policy := { Policy.standard with localModules := some "vendor" }

end LintHost
