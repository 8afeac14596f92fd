import LintHost.Proofs.Results
import LintHost.Record

/-!
# What records are read as

A record is read field by field, and a field comes to a value only if what stands under its name has
the right type. This file says which values that are, for JSON: a text, a text or null, an object, a
list of objects.

* `Checked.seq_eq_ok`, `Checked.map_eq_ok`: all fields come to something;
* `Record.field_eq_ok`: one field does;
* `Record.text_json`, `Record.text?_json`, `Record.object_eq_ok`, `Record.objects_eq_ok`: what it is.
-/

namespace LintHost

variable {α β : Type}

/-! ## 1. All fields -/

namespace Checked

theorem seq_eq_ok {f : Checked (α → β)} {x : Checked α} {b : β} :
    f <*> x = .ok b ↔ ∃ g a, f = .ok g ∧ x = .ok a ∧ g a = b := by
  constructor
  · intro h
    cases f with
    | ok g => cases x with
      | ok a => exact ⟨g, a, rfl, rfl, Checked.ok.inj h⟩
      | bad issues => cases h
    | bad issues => cases x with
      | ok a => cases h
      | bad more => cases h
  · rintro ⟨g, a, rfl, rfl, rfl⟩
    rfl

theorem map_eq_ok {f : α → β} {x : Checked α} {b : β} :
    f <$> x = .ok b ↔ ∃ a, x = .ok a ∧ f a = b := by
  constructor
  · intro h
    cases x with
    | ok a => exact ⟨a, rfl, Checked.ok.inj h⟩
    | bad issues => cases h
  · rintro ⟨a, rfl, rfl⟩
    rfl

theorem inside_eq_ok {step : FieldStep} {x : Checked α} {a : α} :
    x.inside step = .ok a ↔ x = .ok a := by
  cases x with
  | ok b => exact Iff.rfl
  | bad issues => exact iff_of_false nofun nofun

theorem toExcept_eq_ok {x : Checked α} {a : α} : x.toExcept = .ok a ↔ x = .ok a := by
  cases x with
  | ok b => simp [toExcept]
  | bad issues => simp [toExcept]

theorem toExcept_eq_error {x : Checked α} {fault : Fault} :
    x.toExcept = .error fault ↔ ∃ issues, x = .bad issues ∧ fault = .invalid issues := by
  cases x with
  | ok b => simp [toExcept]
  | bad issues => simp [toExcept, eq_comm]

end Checked

/-! ## 2. One field -/

theorem Json.ofText?_inj {s t : Option String} (h : ofText? s = ofText? t) : s = t := by
  cases s <;> cases t <;> simp_all [ofText?]

namespace Record

/-- A field that may be left out comes to what stands under its name, or to what it stands for if
    nothing does. -/
theorem field_eq_ok {entries : Entries α} {name : String} {absent b : β} {read : α → Checked β} :
    field entries name absent read = .ok b ↔
      entries.get? name = none ∧ b = absent ∨ ∃ a, entries.get? name = some a ∧ read a = .ok b := by
  unfold field
  cases entries.get? name with
  | none => simp [eq_comm]
  | some a => simp [Checked.inside_eq_ok]

theorem text_json {j : Json} {s : String} : json text j = .ok s ↔ j = .text s := by
  cases j with
  | text t => simp [json, Value.ofJson, text]
  | _ => exact iff_of_false nofun nofun

theorem text?_json {j : Json} {s : Option String} : json text? j = .ok s ↔ j = .ofText? s := by
  cases j with
  | null => cases s <;> simp [json, Value.ofJson, text?, Json.ofText?]
  | text t =>
    show some <$> Checked.ok t = .ok s ↔ _
    rw [Checked.map_eq_ok]
    cases s <;> simp [Json.ofText?]
  | _ => cases s <;> exact iff_of_false nofun nofun

/-- A field for a text or null may be left out as well as be null. -/
theorem field_text? {entries : Entries Json} {name : String} {s : Option String} :
    field entries name none (json text?) = .ok s ↔
      (entries.get? name).getD .null = .ofText? s := by
  rw [field_eq_ok]
  cases entries.get? name with
  | none => cases s <;> simp [Json.ofText?]
  | some j => simp [text?_json]

theorem object_eq_ok {j : Json} {entries : Entries Json} :
    object j = .ok entries ↔ j = .object entries := by
  cases j with
  | object other => simp [object]
  | _ => exact iff_of_false nofun nofun

theorem items_object {objects : List (Entries Json)} : ∀ {n : Nat} {js : List Json},
    Checked.items object n js = .ok objects ↔ js = objects.map .object
  | _, [] => by cases objects <;> simp [Checked.items]
  | n, j :: rest => by
    rw [Checked.items, Checked.seq_eq_ok]
    constructor
    · rintro ⟨f, more, hf, hmore, rfl⟩
      obtain ⟨entries, hentries, rfl⟩ := Checked.map_eq_ok.mp hf
      rw [items_object.mp hmore, object_eq_ok.mp (Checked.inside_eq_ok.mp hentries)]
      rfl
    · intro h
      cases objects with
      | nil => cases h
      | cons entries more =>
        obtain ⟨rfl, hrest⟩ := List.cons.inj h
        exact ⟨List.cons entries, more, rfl, items_object.mpr hrest, rfl⟩

theorem objects_eq_ok {j : Json} {objects : List (Entries Json)} :
    Record.objects j = .ok objects ↔ j = .list (objects.map .object) := by
  cases j with
  | list js => simp [Record.objects, items_object]
  | _ => exact iff_of_false nofun nofun

end Record

end LintHost
