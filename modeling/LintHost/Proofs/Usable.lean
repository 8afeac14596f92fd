import LintHost.Proofs.LoadFaults

/-!
# What loaded settings are good for

Settings that were loaded have been checked. They are then used: for a policy, and for the context
of a host. Checking and using ask for different things, so this file says which settings that were
accepted can be used.

* `Succeeds`: all that a record needs is right;
* `Value.isTextual`: values that a text, or nothing, can be read from;
* `Settings.Usable`: what the uses ask for beyond the check;
* `loaded_usable_iff`: loaded settings can be used exactly if they are usable.
-/

namespace LintHost

/-! ## 1. Records -/

section Succeeds

variable {α β : Type}

/-- Nothing is wrong with a value. -/
def Succeeds (x : Checked α) : Prop := ∃ a, x = .ok a

theorem succeeds_ok {a : α} : Succeeds (.ok a) := ⟨a, rfl⟩

theorem not_succeeds_bad {issues : List Issue} : ¬Succeeds (.bad issues : Checked α) :=
  fun ⟨_, h⟩ => (nomatch h)

theorem succeeds_seq {f : Checked (α → β)} {x : Checked α} :
    Succeeds (f <*> x) ↔ Succeeds f ∧ Succeeds x := by
  cases f with
  | ok f => cases x with
    | ok a => exact iff_of_true succeeds_ok ⟨succeeds_ok, succeeds_ok⟩
    | bad is => exact iff_of_false not_succeeds_bad fun h => not_succeeds_bad h.2
  | bad is => cases x with
    | ok a => exact iff_of_false not_succeeds_bad fun h => not_succeeds_bad h.1
    | bad js => exact iff_of_false not_succeeds_bad fun h => not_succeeds_bad h.1

theorem succeeds_map {f : α → β} {x : Checked α} : Succeeds (f <$> x) ↔ Succeeds x := by
  cases x with
  | ok a => exact iff_of_true succeeds_ok succeeds_ok
  | bad is => exact iff_of_false not_succeeds_bad not_succeeds_bad

theorem succeeds_inside {step : FieldStep} {x : Checked α} :
    Succeeds (x.inside step) ↔ Succeeds x := by
  cases x with
  | ok a => exact iff_of_true succeeds_ok succeeds_ok
  | bad is => exact iff_of_false not_succeeds_bad not_succeeds_bad

theorem succeeds_items {read : α → Checked β} :
    ∀ (n : Nat) (as : List α), Succeeds (Checked.items read n as) ↔ ∀ a ∈ as, Succeeds (read a)
  | _, [] => iff_of_true succeeds_ok nofun
  | n, a :: rest => by
    rw [Checked.items, succeeds_seq, succeeds_map, succeeds_inside, succeeds_items (n + 1) rest]
    simp

theorem toExcept_ok_iff {x : Checked α} : (∃ a, x.toExcept = .ok a) ↔ Succeeds x := by
  cases x with
  | ok a => exact iff_of_true ⟨a, rfl⟩ succeeds_ok
  | bad is => exact iff_of_false (fun ⟨_, h⟩ => nomatch h) not_succeeds_bad

end Succeeds

/-- Whether a text can be read from a value, or that there is none. -/
def Value.isTextual : Value → Bool
  | .null | .text _ => true
  | .bytes bs => (Text.decode? ⟨bs.toArray⟩).isSome
  | _ => false

theorem succeeds_text?_iff {v : Value} : Succeeds (Record.text? v) ↔ v.isTextual = true := by
  cases v with
  | null => exact iff_of_true succeeds_ok rfl
  | text s => exact iff_of_true succeeds_ok rfl
  | bytes bs =>
    have hread : Succeeds (Record.text? (.bytes bs)) ↔ Succeeds (Record.text (.bytes bs)) :=
      succeeds_map
    rw [hread, Record.text, Value.isTextual]
    cases Text.decode? ⟨bs.toArray⟩ with
    | some s => exact iff_of_true succeeds_ok rfl
    | none => exact iff_of_false not_succeeds_bad nofun
  | _ => exact iff_of_false not_succeeds_bad nofun

theorem succeeds_texts (items : List String) :
    Succeeds (Record.texts (.list (items.map .text))) := by
  refine (succeeds_items 0 _).mpr fun v hv => ?_
  obtain ⟨s, -, rfl⟩ := List.mem_map.mp hv
  exact succeeds_ok

/-! ## 2. Uses -/

namespace Settings

/-- The options of a policy that hold a text or nothing. -/
def textOptions : List Setting := [.globalPath, .localModules, .fallbackConfig]

/-- What the uses of settings ask for beyond the check. -/
structure Usable (settings : Settings) : Prop where
  /-- The routines that make a policy and a search path are there. -/
  routines : .toPolicy ∉ settings.gone ∧ .pathEntries ∉ settings.gone
  /-- Options for texts hold texts, unless they stand for no. -/
  texts : ∀ o ∈ textOptions, (settings.value o).truthy = true →
    (settings.value o).isTextual = true
  /-- The directories for the search path are a list. -/
  paths : ¬(settings.value .extraPaths).Unlistable

variable {settings : Settings}

theorem boolProblem_nil {o : Setting} (h : settings.boolProblem o = .ok []) :
    ∃ b, settings.value o = .bool b := by
  unfold boolProblem at h
  split at h
  · rename_i b hb
    exact ⟨b, hb⟩
  · split at h
    · cases h
    · cases h

/-- Settings that were accepted have truth values for flags, and a list of directories with
    rules. -/
theorem policy_of_check (hcheck : settings.check = .ok ()) :
    (∃ b, settings.value .useGlobal = .bool b) ∧ (∃ b, settings.value .disableIgnore = .bool b) ∧
      ∃ dirs, listOf (settings.value .rulesDirs) = .ok dirs := by
  obtain ⟨-, -, h⟩ := Except.bind_eq_ok (sections_of_check hcheck).1
  obtain ⟨first, hfirst, h⟩ := Except.bind_eq_ok h
  obtain ⟨second, hsecond, h⟩ := Except.bind_eq_ok h
  obtain ⟨dirs, hdirs, h⟩ := Except.bind_eq_ok h
  have hnil := List.append_eq_nil_iff.mp (List.append_eq_nil_iff.mp (Except.ok.inj h)).1
  exact ⟨boolProblem_nil (hnil.1 ▸ hfirst), boolProblem_nil (hnil.2 ▸ hsecond), dirs, hdirs⟩

theorem succeeds_orNull_iff {v : Value} :
    Succeeds (Record.text? (orNull v)) ↔ (v.truthy = true → v.isTextual = true) := by
  unfold orNull
  split
  · rename_i h
    rw [succeeds_text?_iff]
    exact ⟨fun ht _ => ht, fun ht => ht h⟩
  · rename_i h
    exact iff_of_true succeeds_ok fun h' => absurd h' h

/-- A policy is read from its fields if each is right. -/
theorem succeeds_ofFields {useGlobal globalPath localModules disableIgnore dirs fallback : Value} :
    Succeeds (Policy.ofFields [(Setting.useGlobal.name, useGlobal),
      (Setting.globalPath.name, globalPath), (Setting.localModules.name, localModules),
      (Setting.disableIgnore.name, disableIgnore), (Setting.rulesDirs.name, dirs),
      (Setting.fallbackConfig.name, fallback)]) ↔
      ((((Succeeds (Record.bool useGlobal) ∧ Succeeds (Record.text? globalPath)) ∧
        Succeeds (Record.text? localModules)) ∧ Succeeds (Record.bool disableIgnore)) ∧
          Succeeds (Record.texts dirs)) ∧ Succeeds (Record.text? fallback) := by
  unfold Policy.ofFields
  simp only [succeeds_seq, succeeds_map, Record.field, Entries.get?, Setting.name]
  simp [succeeds_inside]

/-- Settings that were accepted make a policy exactly if its texts are texts. -/
theorem policy_ok_iff (hcheck : settings.check = .ok ()) :
    (∃ policy, settings.policy = .ok policy) ↔ .toPolicy ∉ settings.gone ∧
      ∀ o ∈ textOptions, (settings.value o).truthy = true →
        (settings.value o).isTextual = true := by
  obtain ⟨⟨useGlobal, huse⟩, ⟨disableIgnore, hdisable⟩, dirs, hdirs⟩ := policy_of_check hcheck
  unfold policy available
  split
  · rename_i hgone
    exact iff_of_false (fun ⟨_, h⟩ => nomatch h) fun h => h.1 hgone
  · rename_i hthere
    rw [and_iff_right hthere, Except.ok_bind, hdirs, Except.ok_bind, toExcept_ok_iff, huse,
      hdisable]
    have hbool (b : Bool) : Succeeds (Record.bool (.bool b)) := succeeds_ok
    simp only [succeeds_ofFields, succeeds_orNull_iff, hbool, succeeds_texts, true_and, and_true]
    constructor
    · rintro ⟨⟨hglobal, hlocal⟩, hfallback⟩ o ho
      simp only [textOptions, List.mem_cons, List.not_mem_nil, or_false] at ho
      rcases ho with rfl | rfl | rfl
      · exact hglobal
      · exact hlocal
      · exact hfallback
    · intro h
      exact ⟨⟨h .globalPath (by simp [textOptions]), h .localModules (by simp [textOptions])⟩,
        h .fallbackConfig (by simp [textOptions])⟩

/-- Settings make a context exactly if the directories for its search path are a list. -/
theorem context_ok_iff (env : Entries String) :
    (∃ context, settings.context env = .ok context) ↔
      .pathEntries ∉ settings.gone ∧ ¬(settings.value .extraPaths).Unlistable := by
  rw [← available_fails_iff, ← listOf_fails_iff]
  unfold context pathEntries
  cases settings.available .pathEntries with
  | error fault =>
    exact iff_of_false (fun ⟨_, h⟩ => nomatch h) fun h => h.1 ⟨fault, rfl⟩
  | ok there =>
    rw [Except.ok_bind]
    cases listOf (settings.value .extraPaths) with
    | error fault =>
      exact iff_of_false (fun ⟨_, h⟩ => nomatch h) fun h => h.2 ⟨fault, rfl⟩
    | ok dirs => exact iff_of_true ⟨_, rfl⟩ ⟨not_fails_ok, not_fails_ok⟩

end Settings

/-! ## 3. Loaded settings -/

namespace Loader

variable {w : World}

/-- **Loaded settings can be used exactly if they are usable**: no routine that uses them was taken
    away, options for texts that stand for something hold texts, and the directories for the search
    path are a list. -/
theorem loaded_usable_iff {request : Request} {loading : Loading} {settings : Settings}
    (hload : ((load request).run w loading).1 = .ok settings) (env : Entries String) :
    ((∃ policy, settings.policy = .ok policy) ∧ ∃ context, settings.context env = .ok context) ↔
      settings.Usable := by
  rw [load_result] at hload
  obtain ⟨settings', -, haccepted⟩ := Except.bind_eq_ok hload
  obtain ⟨hcheck, rfl⟩ := accepted_eq_ok haccepted
  rw [Settings.policy_ok_iff hcheck, Settings.context_ok_iff]
  exact ⟨fun ⟨⟨hpolicy, htexts⟩, hpaths, hlist⟩ => ⟨⟨hpolicy, hpaths⟩, htexts, hlist⟩,
    fun h => ⟨⟨h.routines.1, h.texts⟩, h.routines.2, h.paths⟩⟩

/-- A machine without files whose environment sets where global packages are. -/
def globalMachine (path : String) : World :=
  { World.bare with env := [("ESLINT_BRIDGE_POLICY__GLOBAL_NODE_PATH", path)] }

/-- The settings that are loaded on such a machine. -/
def globalSettings (path : String) : Settings :=
  Settings.standard.withEnvironment (globalMachine path).env

/-- A path of digits is loaded as a number, and the settings make no policy. -/
theorem numeric_path_unusable :
    ((load ⟨none, true, [], none⟩).run (globalMachine "123") (.start (globalMachine "123").env)).1 =
      .ok (globalSettings "123") ∧
    (globalSettings "123").policy = .error (.invalid [⟨[.field "global_node_path"], .textType⟩]) :=
  ⟨rfl, rfl⟩

/-- Another path is loaded as a text, and the settings can be used. -/
theorem text_path_usable :
    ((load ⟨none, true, [], none⟩).run (globalMachine "/usr")
      (.start (globalMachine "/usr").env)).1 = .ok (globalSettings "/usr") ∧
    (∃ policy, (globalSettings "/usr").policy = .ok policy) ∧
      ∃ context, (globalSettings "/usr").context (globalMachine "/usr").env = .ok context := by
  have hload : ((load ⟨none, true, [], none⟩).run (globalMachine "/usr")
      (.start (globalMachine "/usr").env)).1 = .ok (globalSettings "/usr") := rfl
  refine ⟨hload, (loaded_usable_iff hload _).mpr ⟨?_, ?_, fun h => ?_⟩⟩
  · decide +kernel
  · decide +kernel
  · obtain ⟨item, hitem, -⟩ := h [] rfl
    cases hitem

end Loader

end LintHost
