import LintHost.Proofs.Results
import LintHost.Settings.Check

/-!
# How checking settings can fail

Checking settings finds out all that is wrong with them. It fails, and tells nothing of that kind,
where a value is asked for what its type does not have: a number, an order, items, a case, or few
enough digits to be shown. This file says which settings are such.

* `Value.Unlistable`, `Value.Unmeasurable`: values that make no list, or cannot be held against a
  bound;
* `Settings.Uncheckable`: settings that cannot be checked;
* `problems_fails_iff`: exactly these fail.
-/

namespace LintHost

/-! ## 1. Values -/

namespace Value

/-- The items of a value that can be gone through; a text, bytes and null are lists of their own
    kind, of which nothing has to be shown. -/
def items? : Value → Option (List Value)
  | .null | .text _ | .bytes _ => some []
  | .list items | .set items => some items
  | .pair a b => some [a, b]
  | .map entries => some (entries.map (·.1))
  | _ => none

/-- A value makes no list of texts: it has no items, or one with too many digits. -/
def Unlistable (v : Value) : Prop :=
  ∀ items, v.items? = some items → ∃ item ∈ items, item.showable = false

/-- Whether a value has an order. -/
def isNumber : Value → Bool
  | .bool _ | .int _ | .float _ => true
  | _ => false

/-- A value cannot be held against a bound: it has no order, or it is below the bound and has too
    many digits to be told. -/
def Unmeasurable (v : Value) (bound : Int) : Prop :=
  v.isNumber = false ∨ ∃ n, v = .int n ∧ n < bound ∧ (Value.int n).showable = false

/-- Whether a value has a case. -/
def isCased : Value → Bool
  | .text _ | .bytes _ => true
  | _ => false

end Value

namespace Settings

variable {settings : Settings}

theorem shownText_fails_iff {v : Value} : Fails (shownText v) ↔ v.showable = false := by
  unfold shownText Value.display?
  cases v.showable with
  | true => exact ⟨fun ⟨_, h⟩ => (nomatch h), nofun⟩
  | false => exact ⟨fun _ => rfl, fun _ => ⟨_, rfl⟩⟩

theorem listOf_fails_iff {v : Value} : Fails (listOf v) ↔ v.Unlistable := by
  have hitems {items : List Value} (h : v.items? = some items) :
      v.Unlistable ↔ ∃ item ∈ items, item.showable = false :=
    ⟨fun hun => hun items h, fun hitem items' h' => Option.some.inj (h.symm.trans h') ▸ hitem⟩
  have hnone (h : v.items? = none) : v.Unlistable := fun items h' => (nomatch h.symm.trans h')
  cases v with
  | null | text _ | bytes _ =>
    rw [hitems rfl]
    exact ⟨fun ⟨_, h⟩ => (nomatch h), fun ⟨_, h, _⟩ => (nomatch h)⟩
  | list items | set items =>
    rw [hitems rfl, listOf, fails_mapM]
    simp only [shownText_fails_iff]
  | pair a b =>
    rw [hitems rfl, listOf, fails_mapM]
    simp only [shownText_fails_iff]
  | map entries =>
    rw [hitems rfl, listOf, fails_mapM]
    simp [shownText_fails_iff]
  | bool _ | int _ | float _ | date _ | time _ | moment _ =>
    exact ⟨fun _ => hnone rfl, fun _ => ⟨_, rfl⟩⟩

/-- A list of texts is a list already. -/
theorem listOf_texts (dirs : List String) : listOf (.list (dirs.map .text)) = .ok dirs := by
  change (dirs.map Value.text).mapM shownText = .ok dirs
  induction dirs with
  | nil => rfl
  | cons dir dirs ih =>
    rw [List.map_cons, List.mapM_cons, ih]
    rfl

theorem boolProblem_fails_iff {o : Setting} :
    Fails (settings.boolProblem o) ↔ (settings.value o).showable = false := by
  unfold boolProblem
  split
  · rename_i hv
    rw [hv, fails_ok]
    simp [Value.showable]
  · unfold Value.literal?
    cases (settings.value o).showable with
    | true => exact ⟨fun ⟨_, h⟩ => (nomatch h), nofun⟩
    | false => exact ⟨fun _ => rfl, fun _ => ⟨_, rfl⟩⟩

theorem available_fails_iff {r : Routine} : Fails (settings.available r) ↔ r ∈ settings.gone := by
  unfold available
  split
  · rename_i h
    exact ⟨fun _ => h, fun _ => ⟨_, rfl⟩⟩
  · rename_i h
    exact ⟨fun ⟨_, h⟩ => (nomatch h), fun h' => absurd h' h⟩

theorem problemIf_fails_iff {wrong : Bool} {text : Except Fault String} :
    Fails (problemIf wrong text) ↔ wrong = true ∧ Fails text := by
  unfold problemIf
  cases wrong with
  | true => rw [if_pos rfl, fails_map, eq_self_iff_true, true_and]
  | false => exact ⟨fun ⟨_, h⟩ => (nomatch h), fun ⟨h, _⟩ => (nomatch h)⟩

theorem below_fails_iff {v : Value} {bound : Int} :
    Fails (below v bound) ↔ v.isNumber = false := by
  cases v with
  | bool _ | int _ | float _ => exact ⟨fun ⟨_, h⟩ => (nomatch h), nofun⟩
  | _ => exact ⟨fun _ => rfl, fun _ => ⟨_, rfl⟩⟩

/-- Only integers can have too many digits for a bound to be told about them. -/
theorem below_unshowable_iff {v : Value} {bound : Int} {wrong : Bool}
    (h : below v bound = .ok wrong) :
    wrong = true ∧ v.showable = false ↔
      ∃ n, v = .int n ∧ n < bound ∧ (Value.int n).showable = false := by
  cases v with
  | int n =>
    obtain rfl := Except.ok.inj h
    simp
  | bool _ | float _ => simp [Value.showable]
  | _ => cases h

/-- Holding a value against a bound, where the problem is told if it is below. -/
theorem bound_fails_iff {α : Type} {v : Value} {bound : Int} {tell : String → String}
    {f : List String → Except Fault α} {Q : Prop} (h : ∀ found, Fails (f found) ↔ Q) :
    Fails (below v bound >>= fun wrong =>
      problemIf wrong ((shownText v).map tell) >>= f) ↔ v.Unmeasurable bound ∨ Q := by
  unfold Value.Unmeasurable
  -- the comparison fails without an order; after it, only what is told can fail
  have hbelow : Fails (below v bound) ↔ v.isNumber = false := below_fails_iff
  cases hwrong : below v bound with
  | error fault =>
    rw [hwrong] at hbelow
    exact ⟨fun _ => .inl (.inl (hbelow.mp ⟨fault, rfl⟩)), fun _ => ⟨fault, rfl⟩⟩
  | ok wrong =>
    rw [hwrong, fails_ok, false_iff] at hbelow
    rw [Except.ok_bind, fails_bind h, problemIf_fails_iff, fails_map, shownText_fails_iff,
      below_unshowable_iff hwrong, or_iff_right hbelow]

/-- Asking for a level, where a value that names none is told; texts and bytes can be. -/
theorem level_fails_iff {α : Type} {v : Value} {tell : String → String}
    {f : List String → Except Fault α} {Q : Prop} (h : ∀ found, Fails (f found) ↔ Q) :
    Fails (namesLevel v >>= fun named =>
      problemIf (!named) ((shownText v).map tell) >>= f) ↔ v.isCased = false ∨ Q := by
  have hcased {named : Bool} (hnamed : namesLevel v = .ok named) (hshown : v.showable = true)
      (hv : v.isCased = true) :
      Fails (namesLevel v >>= fun named =>
        problemIf (!named) ((shownText v).map tell) >>= f) ↔ v.isCased = false ∨ Q := by
    rw [hnamed, Except.ok_bind, fails_bind h, problemIf_fails_iff, fails_map, shownText_fails_iff,
      hshown, hv]
    simp
  cases v with
  | text s => exact hcased rfl rfl rfl
  | bytes bs => exact hcased rfl rfl rfl
  | _ => exact ⟨fun _ => .inl rfl, fun _ => ⟨_, rfl⟩⟩

/-! ## 2. Settings -/

/-- The options that are held against a bound. -/
def bounds : List (Setting × Int) := [(.timeout, 1), (.logMaxBytes, 1024), (.logBackups, 0)]

/-- Settings that cannot be checked. -/
inductive Uncheckable (settings : Settings) : Prop
  /-- A routine that checks a section was taken away. -/
  | routine {r : Routine} (hcheck : r.name = "validate") (hgone : r ∈ settings.gone)
  /-- What stands for a truth value has too many digits to be told. -/
  | flag {o : Setting} (ho : o ∈ [Setting.useGlobal, .disableIgnore])
      (h : (settings.value o).showable = false)
  /-- The directories with rules are no list. -/
  | rules (h : (settings.value .rulesDirs).Unlistable)
  | number {o : Setting} {bound : Int} (ho : (o, bound) ∈ bounds)
      (h : (settings.value o).Unmeasurable bound)
  | level (h : (settings.value .logLevel).isCased = false)

theorem policyProblems_fails_iff : Fails settings.policyProblems ↔
    .checkPolicy ∈ settings.gone ∨ (settings.value .useGlobal).showable = false ∨
      (settings.value .disableIgnore).showable = false ∨
        (settings.value .rulesDirs).Unlistable := by
  unfold policyProblems
  rw [fails_bind fun _ => fails_bind fun _ => fails_bind fun _ => fails_bind fun _ => fails_pure _,
    available_fails_iff, boolProblem_fails_iff, boolProblem_fails_iff, listOf_fails_iff, or_false]

theorem engineProblems_fails_iff : Fails settings.engineProblems ↔
    .checkEngine ∈ settings.gone ∨ (settings.value .timeout).Unmeasurable 1 := by
  unfold engineProblems
  rw [fails_bind fun _ => fails_bind fun _ => bound_fails_iff fun _ => fails_pure _,
    available_fails_iff, problemIf_fails_iff, fails_ok, and_false, false_or, or_false]

theorem loggingProblems_fails_iff : Fails settings.loggingProblems ↔
    .checkLogging ∈ settings.gone ∨ (settings.value .logLevel).isCased = false ∨
      (settings.value .logMaxBytes).Unmeasurable 1024 ∨
        (settings.value .logBackups).Unmeasurable 0 := by
  unfold loggingProblems
  rw [fails_bind fun _ => level_fails_iff fun _ => bound_fails_iff fun _ =>
      bound_fails_iff fun _ => fails_pure _, available_fails_iff, or_false]

/-- **Settings cannot be checked in exactly these cases.** -/
theorem problems_fails_iff : Fails settings.problems ↔ settings.Uncheckable := by
  unfold problems
  rw [fails_bind fun _ => fails_bind fun _ => fails_bind fun _ => fails_pure _,
    policyProblems_fails_iff, engineProblems_fails_iff, loggingProblems_fails_iff, or_false]
  constructor
  · rintro ((h | h | h | h) | (h | h) | h | h | h | h)
    · exact .routine rfl h
    · exact .flag (by simp) h
    · exact .flag (by simp) h
    · exact .rules h
    · exact .routine rfl h
    · exact .number (by simp [bounds]) h
    · exact .routine rfl h
    · exact .level h
    · exact .number (by simp [bounds]) h
    · exact .number (by simp [bounds]) h
  · rintro (@⟨r, hcheck, hgone⟩ | @⟨o, ho, h⟩ | h | @⟨o, bound, ho, h⟩ | h)
    · cases r with
      | checkPolicy => exact .inl (.inl hgone)
      | checkEngine => exact .inr (.inl (.inl hgone))
      | checkLogging => exact .inr (.inr (.inl hgone))
      | _ => exact absurd hcheck (by decide)
    · simp only [List.mem_cons, List.not_mem_nil, or_false] at ho
      rcases ho with rfl | rfl
      · exact .inl (.inr (.inl h))
      · exact .inl (.inr (.inr (.inl h)))
    · exact .inl (.inr (.inr (.inr h)))
    · simp only [bounds, List.mem_cons, List.not_mem_nil, or_false, Prod.mk.injEq] at ho
      rcases ho with ⟨rfl, rfl⟩ | ⟨rfl, rfl⟩ | ⟨rfl, rfl⟩
      · exact .inr (.inl (.inr h))
      · exact .inr (.inr (.inr (.inr (.inl h))))
      · exact .inr (.inr (.inr (.inr (.inr h))))
    · exact .inr (.inr (.inr (.inl h)))

/-! ## 3. What checking reports -/

theorem foreign_shownText (v : Value) : Foreign (shownText v) := by
  unfold shownText
  split
  · exact foreign_ok _
  · exact foreign_error nofun

theorem foreign_listOf (v : Value) : Foreign (listOf v) := by
  cases v with
  | null | text _ | bytes _ => exact foreign_ok _
  | list _ | set _ | pair _ _ => exact foreign_mapM foreign_shownText _
  | map _ => exact foreign_mapM (fun _ => foreign_shownText _) _
  | _ => exact foreign_error nofun

theorem foreign_below (v : Value) (bound : Int) : Foreign (below v bound) := by
  cases v with
  | bool _ | int _ | float _ => exact foreign_ok _
  | _ => exact foreign_error nofun

theorem foreign_problemIf (wrong : Bool) {text : Except Fault String} (h : Foreign text) :
    Foreign (problemIf wrong text) := by
  unfold problemIf
  split
  · exact h.map
  · exact foreign_ok _

theorem foreign_boolProblem (settings : Settings) (o : Setting) :
    Foreign (settings.boolProblem o) := by
  unfold boolProblem
  split
  · exact foreign_ok _
  · split
    · exact foreign_ok _
    · exact foreign_error nofun

theorem foreign_available (settings : Settings) (r : Routine) :
    Foreign (settings.available r) := by
  unfold available
  split
  · exact foreign_error nofun
  · exact foreign_ok _

theorem foreign_namesLevel (v : Value) : Foreign (namesLevel v) := by
  cases v with
  | text _ | bytes _ => exact foreign_ok _
  | _ => exact foreign_error nofun

theorem foreign_problems (settings : Settings) : Foreign settings.problems := by
  have htold (wrong : Bool) (v : Value) (tell : String → String) :
      Foreign (problemIf wrong ((shownText v).map tell)) :=
    foreign_problemIf wrong (foreign_shownText v).map
  have hpolicy : Foreign settings.policyProblems :=
    (foreign_available settings _).bind fun _ => (foreign_boolProblem settings _).bind fun _ =>
      (foreign_boolProblem settings _).bind fun _ => (foreign_listOf _).bind fun _ => foreign_ok _
  have hengine : Foreign settings.engineProblems :=
    (foreign_available settings _).bind fun _ =>
      (foreign_problemIf _ (foreign_ok _)).bind fun _ =>
        (foreign_below _ _).bind fun _ => (htold _ _ _).bind fun _ => foreign_ok _
  have hlogging : Foreign settings.loggingProblems :=
    (foreign_available settings _).bind fun _ => (foreign_namesLevel _).bind fun _ =>
      (htold _ _ _).bind fun _ => (foreign_below _ _).bind fun _ => (htold _ _ _).bind fun _ =>
        (foreign_below _ _).bind fun _ => (htold _ _ _).bind fun _ => foreign_ok _
  exact hpolicy.bind fun _ => hengine.bind fun _ => hlogging.bind fun _ => foreign_ok _

/-- Checking fails as finding the problems does, or else because there are some. -/
theorem check_cases (settings : Settings) :
    (∃ fault, settings.problems = .error fault ∧ settings.check = .error fault) ∨
      (settings.problems = .ok [] ∧ settings.check = .ok ()) ∨
        ∃ found, settings.problems = .ok found ∧ found ≠ [] ∧
          settings.check = .error (.reported (rejection found)) := by
  unfold check
  cases settings.problems with
  | error fault => exact .inl ⟨fault, rfl, rfl⟩
  | ok found =>
    cases found with
    | nil => exact .inr (.inl ⟨rfl, rfl⟩)
    | cons problem rest => exact .inr (.inr ⟨_, rfl, nofun, rfl⟩)

/-- Nothing is found in any section of settings that were accepted. -/
theorem sections_of_check (hcheck : settings.check = .ok ()) :
    settings.policyProblems = .ok [] ∧ settings.engineProblems = .ok [] ∧
      settings.loggingProblems = .ok [] := by
  have hproblems : settings.problems = .ok [] := by
    rcases check_cases settings with ⟨fault, -, h⟩ | ⟨h, -⟩ | ⟨found, -, -, h⟩
    · cases hcheck.symm.trans h
    · exact h
    · cases hcheck.symm.trans h
  obtain ⟨policy, hpolicy, h⟩ := Except.bind_eq_ok hproblems
  obtain ⟨engine, hengine, h⟩ := Except.bind_eq_ok h
  obtain ⟨logging, hlogging, h⟩ := Except.bind_eq_ok h
  have hnil : policy ++ engine ++ logging = [] := Except.ok.inj h
  obtain ⟨hfirst, rfl⟩ := List.append_eq_nil_iff.mp hnil
  obtain ⟨rfl, rfl⟩ := List.append_eq_nil_iff.mp hfirst
  exact ⟨hpolicy, hengine, hlogging⟩

end Settings

end LintHost
