import Mathlib.Data.List.Nodup
import LintHost.Settings.Overrides

/-!
# The names of settings

Options and routines are set by their names: in a file by the names of the section and of the
option, in the environment by one name for both. This file says which name sets what.

* `Setting.key`, `Routine.key`: the name for the environment, without its start;
* `variableKey?`: what follows the start in a variable's name, in lower case;
* `variableTarget?_eq_iff`: a variable names a section and an option exactly if its key joins them;
* `assign_value`, `assign_gone`: a name sets the option or routine that has it, and nothing else.
-/

namespace LintHost

open LintHost.Text

/-! ## 1. Texts with a double separator -/

namespace Text

variable {sep : Char}

theorem splitOnPair_ne_nil : ∀ cs : List Char, splitOnPair sep cs ≠ []
  | [] => by simp [splitOnPair]
  | [c] => by simp [splitOnPair]
  | c :: d :: cs => by
    unfold splitOnPair
    split
    · exact List.cons_ne_nil _ _
    · split <;> exact List.cons_ne_nil _ _

/-- The pieces with the separators put back are the text. -/
theorem intercalate_splitOnPair : ∀ cs : List Char,
    intercalate [sep, sep] (splitOnPair sep cs) = cs
  | [] => rfl
  | [c] => rfl
  | c :: d :: cs => by
    unfold splitOnPair
    split
    · rename_i hboth
      have ih := intercalate_splitOnPair cs
      cases hsplit : splitOnPair sep cs with
      | nil => exact absurd hsplit (splitOnPair_ne_nil cs)
      | cons piece pieces =>
        rw [hsplit] at ih
        simp [intercalate, ih, hboth.1, hboth.2]
    · have ih := intercalate_splitOnPair (d :: cs)
      cases hsplit : splitOnPair sep (d :: cs) with
      | nil => exact absurd hsplit (splitOnPair_ne_nil _)
      | cons piece pieces =>
        rw [hsplit] at ih
        cases pieces <;> simpa [intercalate] using ih

/-- A first piece without the separator's character is cut off. -/
theorem splitOnPair_append {piece : List Char} (h : sep ∉ piece) (rest : List Char) :
    splitOnPair sep (piece ++ sep :: sep :: rest) = piece :: splitOnPair sep rest := by
  induction piece with
  | nil => simp [splitOnPair]
  | cons c piece ih =>
    have hc : c ≠ sep := fun hc => h (hc ▸ List.mem_cons_self)
    have ih := ih fun hpiece => h (List.mem_cons_of_mem _ hpiece)
    cases piece with
    | nil =>
      rw [List.nil_append] at ih
      simp [splitOnPair, hc]
    | cons d piece =>
      rw [List.cons_append] at ih
      rw [List.cons_append, List.cons_append, splitOnPair, if_neg fun h => hc h.1, ih]

end Text

/-! ## 2. Options and routines by name -/

theorem find?_eq_some_of_unique {α : Type} {p : α → Bool} {l : List α} {a : α} (hmem : a ∈ l)
    (ha : p a = true) (hunique : ∀ b ∈ l, p b = true → b = a) : l.find? p = some a := by
  cases h : l.find? p with
  | none => exact absurd ha (List.find?_eq_none.mp h a hmem)
  | some b => rw [hunique b (List.mem_of_find?_eq_some h) (List.find?_some h)]

namespace Section

theorem mem_all (s : Section) : s ∈ all := by cases s <;> decide

theorem eq_of_name {s t : Section} (h : s.name = t.name) : s = t :=
  List.inj_on_of_nodup_map (by decide : (all.map name).Nodup) (mem_all s) (mem_all t) h

theorem no_separator (s : Section) : '_' ∉ s.name.toList := by cases s <;> decide

end Section

theorem Settings.sectionNamed?_name (s : Section) : sectionNamed? s.name = some s :=
  find?_eq_some_of_unique s.mem_all (by simp)
    fun _ _ h => Section.eq_of_name (of_decide_eq_true h)

theorem Settings.name_of_sectionNamed? {name : String} {s : Section}
    (h : sectionNamed? name = some s) : s.name = name := by
  have h := List.find?_some h
  exact of_decide_eq_true h

namespace Setting

/-- The name of an option in the environment, without its start. -/
def key (o : Setting) : String := o.inSection.name ++ "__" ++ o.name

theorem mem_all (o : Setting) : o ∈ all := by cases o <;> decide

theorem eq_of_name {a b : Setting} (hs : a.inSection = b.inSection) (h : a.name = b.name) : a = b :=
  List.inj_on_of_nodup_map (by decide : (all.map fun o => (o.inSection.name, o.name)).Nodup)
    (mem_all a) (mem_all b) (by rw [hs, h])

theorem splitOnPair_name (o : Setting) : splitOnPair '_' o.name.toList = [o.name.toList] := by
  cases o <;> decide

theorem find?_name (o : Setting) : find? o.inSection o.name = some o := by
  refine find?_eq_some_of_unique ?_ (by simp) fun b hb h => ?_
  · exact List.mem_filter.mpr ⟨mem_all o, by simp⟩
  · exact eq_of_name (of_decide_eq_true (List.mem_filter.mp hb).2) (of_decide_eq_true h)

theorem of_find? {s : Section} {name : String} {o : Setting} (h : find? s name = some o) :
    o.inSection = s ∧ o.name = name := by
  have hname := List.find?_some h
  exact ⟨of_decide_eq_true (List.mem_filter.mp (List.mem_of_find?_eq_some h)).2,
    of_decide_eq_true hname⟩

end Setting

namespace Routine

/-- The name of a routine in the environment, without its start. -/
def key (r : Routine) : String := r.inSection.name ++ "__" ++ r.name

theorem mem_all (r : Routine) : r ∈ all := by cases r <;> decide

theorem eq_of_name {a b : Routine} (hs : a.inSection = b.inSection) (h : a.name = b.name) : a = b :=
  List.inj_on_of_nodup_map (by decide : (all.map fun r => (r.inSection.name, r.name)).Nodup)
    (mem_all a) (mem_all b) (by rw [hs, h])

theorem splitOnPair_name (r : Routine) : splitOnPair '_' r.name.toList = [r.name.toList] := by
  cases r <;> decide

theorem find?_name (r : Routine) : find? r.inSection r.name = some r := by
  refine find?_eq_some_of_unique (mem_all r) (by simp) fun b _ h => ?_
  obtain ⟨hs, hname⟩ := of_decide_eq_true h
  exact eq_of_name hs hname

theorem of_find? {s : Section} {name : String} {r : Routine} (h : find? s name = some r) :
    r.inSection = s ∧ r.name = name := by
  have h := List.find?_some h
  exact of_decide_eq_true h

/-- No option of its section has a routine's name. -/
theorem find?_setting (r : Routine) : Setting.find? r.inSection r.name = none := by
  cases r <;> decide

end Routine

/-! ## 3. Setting by name -/

namespace Settings

theorem put_value (settings : Settings) (option o : Setting) (v : Value) :
    (settings.put option v).value o = if o = option then v else settings.value o := rfl

theorem assign_value (settings : Settings) (s name : String) (v : Value) (o : Setting) :
    (settings.assign s name v).value o =
      if s = o.inSection.name ∧ name = o.name then v else settings.value o := by
  unfold assign
  split
  · rename_i s hs
    obtain rfl := name_of_sectionNamed? hs
    unfold assignIn
    split
    · rename_i option hoption
      obtain ⟨rfl, rfl⟩ := Setting.of_find? hoption
      rw [put_value]
      refine if_congr ⟨fun h => h ▸ ⟨rfl, rfl⟩, fun ⟨hs, hname⟩ => ?_⟩ rfl rfl
      exact Setting.eq_of_name (Section.eq_of_name hs.symm) hname.symm
    · rename_i hoption
      have hother : ¬(s.name = o.inSection.name ∧ name = o.name) := by
        rintro ⟨hs, rfl⟩
        rw [Section.eq_of_name hs, Setting.find?_name] at hoption
        cases hoption
      rw [if_neg hother]
      split <;> rfl
  · rename_i hs
    rw [if_neg]
    rintro ⟨rfl, -⟩
    rw [sectionNamed?_name] at hs
    cases hs

theorem assign_gone (settings : Settings) (s name : String) (v : Value) (r : Routine) :
    r ∈ (settings.assign s name v).gone ↔
      s = r.inSection.name ∧ name = r.name ∨ r ∈ settings.gone := by
  unfold assign
  split
  · rename_i s hs
    obtain rfl := name_of_sectionNamed? hs
    unfold assignIn
    split
    · rename_i option hoption
      refine (or_iff_right ?_).symm
      rintro ⟨hs, rfl⟩
      rw [Section.eq_of_name hs, Routine.find?_setting] at hoption
      cases hoption
    · split
      · rename_i routine hroutine
        obtain ⟨rfl, rfl⟩ := Routine.of_find? hroutine
        rw [List.mem_cons]
        refine or_congr_left ⟨fun h => h ▸ ⟨rfl, rfl⟩, fun ⟨hs, hname⟩ => ?_⟩
        exact (Routine.eq_of_name (Section.eq_of_name hs) hname).symm
      · rename_i hroutine
        refine (or_iff_right ?_).symm
        rintro ⟨hs, rfl⟩
        rw [Section.eq_of_name hs, Routine.find?_name] at hroutine
        cases hroutine
  · rename_i hs
    refine (or_iff_right ?_).symm
    rintro ⟨rfl, -⟩
    rw [sectionNamed?_name] at hs
    cases hs

/-! ## 4. Variables -/

/-- What follows the start in the name of a variable for settings, in lower case. -/
def variableKey? (name : String) : Option String :=
  (dropStart? variableStart.toList name.toList).map fun rest => String.ofList (rest.map lowerChar)

theorem variableTarget?_eq_iff {name s option : String} (hs : '_' ∉ s.toList)
    (hoption : splitOnPair '_' option.toList = [option.toList]) :
    variableTarget? name = some (s, option) ↔
      variableKey? name = some (s ++ "__" ++ option) := by
  unfold variableTarget? variableKey?
  cases dropStart? variableStart.toList name.toList with
  | none => simp
  | some rest =>
    simp only [Option.map_some, Option.some.injEq]
    constructor
    · intro h
      split at h
      · rename_i first second hsplit
        obtain ⟨rfl, rfl⟩ := Prod.mk.inj (Option.some.inj h)
        rw [← intercalate_splitOnPair (rest.map lowerChar), hsplit, ← String.toList_inj]
        simp [intercalate]
      · cases h
    · intro h
      have hrest : rest.map lowerChar = s.toList ++ '_' :: '_' :: option.toList := by
        rw [← String.toList_ofList (l := rest.map lowerChar), h]
        simp
      rw [hrest, splitOnPair_append hs, hoption]
      simp

theorem names_setting_iff {name : String} (o : Setting) :
    variableTarget? name = some (o.inSection.name, o.name) ↔ variableKey? name = some o.key :=
  variableTarget?_eq_iff o.inSection.no_separator o.splitOnPair_name

theorem names_routine_iff {name : String} (r : Routine) :
    variableTarget? name = some (r.inSection.name, r.name) ↔ variableKey? name = some r.key :=
  variableTarget?_eq_iff r.inSection.no_separator r.splitOnPair_name

/-- Case does not matter in the names of variables. -/
example : variableKey? "ESLINT_BRIDGE_Policy__ESLINTRC_path" = some Setting.fallbackConfig.key := by
  decide

end Settings

end LintHost
