import LintHost.Proofs.JsonRead
import LintHost.Proofs.Provenance

/-!
# How reading a copy can fail

A copy of the linter that is there is read: its manifest, the entry point that the manifest names,
and the manifest's name and version. That the copy is unusable is an answer, and there is a
replacement for it. A fault is none: it ends whatever asked for the copy. This file says which
faults there are and from which files each arises.

* `World.Garbled`: a file whose content is a fault where JSON is asked for;
* `Package.Unforeseen`: a copy whose files are a fault, by what is wrong with them;
* `loadFrom_eq_error_iff`: reading a copy has exactly these faults.
-/

namespace LintHost

variable {w : World}

/-! ## 1. Files that are asked for JSON -/

/-- Where the file's JSON value is asked for, this fault arises. -/
inductive World.Garbled (w : World) (p : PartPath) : Fault → Prop
  /-- There is no such path. -/
  | path (h : w.files.read w.cwd p.text = .error .embeddedNull) : Garbled w p (.value .embeddedNull)
  /-- The file's bytes are no text. -/
  | bytes {content : ByteArray} (hread : w.files.read w.cwd p.text = .ok content)
      (h : Text.ofFile? content = none) : Garbled w p .notUtf8
  /-- The file's text is nested too deep to be followed. -/
  | nesting {content : ByteArray} {text : String}
      (hread : w.files.read w.cwd p.text = .ok content) (htext : Text.ofFile? content = some text)
      (h : Json.read text = .error .tooDeep) : Garbled w p .tooDeep

theorem World.loadJson_eq_error_iff {p : PartPath} {fault : Fault} :
    w.loadJson p = .error fault ↔ w.Garbled p fault := by
  constructor
  · intro h
    unfold loadJson at h
    split at h
    · rename_i hread
      cases h
      exact .path hread
    · cases h
    · rename_i content hread
      split at h
      · rename_i hbytes
        cases h
        exact .bytes hread hbytes
      · rename_i text htext
        obtain ⟨hdeep, rfl⟩ := Json.attempt_eq_error.mp h
        exact .nesting hread htext hdeep
  · intro h
    unfold loadJson
    cases h with
    | path h => rw [h]
    | bytes hread h => simp only [hread, h]
    | nesting hread htext h => simp only [hread, htext, Json.attempt_eq_error.mpr ⟨h, rfl⟩]

/-! ## 2. Manifests -/

/-- Whether a JSON value is a text. -/
def Json.isText : Json → Bool
  | .text _ => true
  | _ => false

theorem Json.eq_text_of_isText {j : Json} (h : j.isText = true) : ∃ s, j = .text s := by
  cases j with
  | text s => exact ⟨s, rfl⟩
  | _ => cases h

/-- Whether a JSON value is a text or null. -/
def Json.isTextOrNull : Json → Bool
  | .text _ | .null => true
  | _ => false

namespace Package

/-- What is wrong with the name and the version in a manifest: neither may be anything but a text,
    only that the version may be null. -/
def fieldIssues (manifest : Entries Json) : List Issue :=
  (if (nameOr manifest "name" "eslint").isText then [] else [⟨[.field "name"], .textType⟩]) ++
    if ((manifest.get? "version").getD .null).isTextOrNull then []
    else [⟨[.field "version"], .textType⟩]

theorem name_checked (j : Json) : (∃ s, Record.json Record.text j = .ok s ∧ j.isText = true) ∨
    Record.json Record.text j = .bad [⟨[], .textType⟩] ∧ j.isText = false := by
  cases j with
  | text s => exact .inl ⟨s, rfl, rfl⟩
  | _ => exact .inr ⟨rfl, rfl⟩

theorem version_checked (j : Json) :
    (∃ s, Record.json Record.text? j = .ok s ∧ j.isTextOrNull = true) ∨
      Record.json Record.text? j = .bad [⟨[], .textType⟩] ∧ j.isTextOrNull = false := by
  cases j with
  | text s => exact .inl ⟨some s, rfl, rfl⟩
  | null => exact .inl ⟨none, rfl, rfl⟩
  | _ => exact .inr ⟨rfl, rfl⟩

/-- A manifest's fields make a copy, or what is wrong with them is told. -/
theorem ofManifest_cases (found : Installation) (manifest : Entries Json) (entry : PartPath) :
    (∃ package, (ofManifest found manifest entry).toExcept = .ok package ∧
      fieldIssues manifest = []) ∨
    (ofManifest found manifest entry).toExcept = .error (.invalid (fieldIssues manifest)) ∧
      fieldIssues manifest ≠ [] := by
  have hversion : (∃ version, Record.field manifest "version" none (Record.json Record.text?) =
        .ok version ∧ ((manifest.get? "version").getD .null).isTextOrNull = true) ∨
      Record.field manifest "version" none (Record.json Record.text?) =
        .bad [⟨[.field "version"], .textType⟩] ∧
        ((manifest.get? "version").getD .null).isTextOrNull = false := by
    unfold Record.field
    cases manifest.get? "version" with
    | none => exact .inl ⟨none, rfl, rfl⟩
    | some j =>
      rcases version_checked j with ⟨version, hread, hj⟩ | ⟨hread, hj⟩
      · exact .inl ⟨version, by simp only [hread]; rfl, hj⟩
      · exact .inr ⟨by simp only [hread]; rfl, hj⟩
  unfold ofManifest fieldIssues
  rcases name_checked (nameOr manifest "name" "eslint") with ⟨name, hname, ht⟩ | ⟨hname, ht⟩ <;>
    rcases hversion with ⟨version, hversion, hv⟩ | ⟨hversion, hv⟩ <;>
    rw [hname, hversion, ht, hv]
  · exact .inl ⟨⟨found, name, version, entry.text⟩, rfl, rfl⟩
  · exact .inr ⟨rfl, by decide⟩
  · exact .inr ⟨rfl, by decide⟩
  · exact .inr ⟨rfl, by decide⟩

/-- The manifest in a directory holds these entries, and by them the directory is entered here. -/
structure Enters (w : World) (directory : PartPath) (manifest : Entries Json) (entry : PartPath) :
    Prop where
  held : w.loadJson (directory.entry manifestName) = .ok (some (.object manifest))
  named : ∃ main, nameOr manifest "main" "index.js" = .text main ∧ entry = directory.entry main

/-! ## 3. The faults of a copy -/

/-- Where the copy at `path` is read, this fault arises, though not because the copy is missing or
    has no entry point. -/
inductive Unforeseen (w : World) (path : String) : Fault → Prop
  /-- The manifest is asked for JSON. -/
  | manifest {fault : Fault} (h : w.Garbled ((PartPath.ofText path).entry manifestName) fault) :
      Unforeseen w path fault
  /-- The manifest names its entry point by something that is no text. -/
  | main {manifest : Entries Json}
      (hheld : w.loadJson ((PartPath.ofText path).entry manifestName) =
        .ok (some (.object manifest)))
      (h : (nameOr manifest "main" "index.js").isText = false) : Unforeseen w path .wrongType
  /-- It cannot be told whether the entry point is there. -/
  | entry {manifest : Entries Json} {entry : PartPath} {fault : Fault}
      (henters : Enters w (PartPath.ofText path) manifest entry)
      (h : isFile w entry = .error fault) : Unforeseen w path fault
  /-- The entry point is no file and has no name to be extended. -/
  | nameless {manifest : Entries Json} {entry : PartPath}
      (henters : Enters w (PartPath.ofText path) manifest entry)
      (habsent : isFile w entry = .ok false) (h : entry.extendName? ".js".toList = none) :
      Unforeseen w path (.value (.namelessPath entry.text))
  /-- The entry point is no file, and it cannot be told whether its sibling is. -/
  | sibling {manifest : Entries Json} {entry sibling : PartPath} {fault : Fault}
      (henters : Enters w (PartPath.ofText path) manifest entry)
      (habsent : isFile w entry = .ok false)
      (hsibling : entry.extendName? ".js".toList = some sibling)
      (h : isFile w sibling = .error fault) : Unforeseen w path fault
  /-- The entry point is there, but the name or the version is no text. -/
  | fields {manifest : Entries Json} {entry : PartPath}
      (henters : Enters w (PartPath.ofText path) manifest entry)
      (hthere : entryExists w entry = .ok true) (h : fieldIssues manifest ≠ []) :
      Unforeseen w path (.invalid (fieldIssues manifest))

theorem isFile_fault {p : PartPath} {fault : Fault} (h : isFile w p = .error fault) :
    ¬fault.Reported := by
  unfold isFile at h
  cases hfile : w.files.isFile? w.cwd p.text with
  | ok there =>
    rw [hfile] at h
    cases h
  | error missing =>
    rw [hfile] at h
    cases h
    exact Fault.not_reported_ofLookup p.text missing

/-- No such fault is one that the library reports on its own account. -/
theorem Unforeseen.not_reported {path : String} {fault : Fault} (h : Unforeseen w path fault) :
    ¬fault.Reported := by
  cases h with
  | manifest h => rintro ⟨failure, rfl⟩; cases h
  | main hheld h => rintro ⟨failure, h⟩; cases h
  | entry henters h => exact isFile_fault h
  | nameless henters habsent h => rintro ⟨failure, h⟩; cases h
  | sibling henters habsent hsibling h => exact isFile_fault h
  | fields henters hthere h => rintro ⟨failure, h⟩; cases h

/-- The faults of looking for an entry point. -/
theorem entryExists_fault {entry : PartPath} {fault : Fault}
    (h : entryExists w entry = .error fault) :
    isFile w entry = .error fault ∨ isFile w entry = .ok false ∧
      (entry.extendName? ".js".toList = none ∧ fault = .value (.namelessPath entry.text) ∨
        ∃ sibling, entry.extendName? ".js".toList = some sibling ∧
          isFile w sibling = .error fault) := by
  unfold entryExists at h
  cases hfile : isFile w entry with
  | error missing =>
    rw [hfile] at h
    cases h
    exact .inl rfl
  | ok there =>
    rw [hfile] at h
    cases there with
    | true => cases h
    | false =>
      refine .inr ⟨rfl, ?_⟩
      cases hsibling : entry.extendName? ".js".toList with
      | none =>
        simp only [hsibling] at h
        cases h
        exact .inl ⟨rfl, rfl⟩
      | some sibling =>
        simp only [hsibling] at h
        exact .inr ⟨sibling, rfl, h⟩

/-- A copy that is entered somewhere is loaded if the entry point is there. -/
theorem loadFrom_of_enters {found : Installation} {manifest : Entries Json} {entry : PartPath}
    (h : Enters w (PartPath.ofText found.path) manifest entry) :
    loadFrom w found = entryExists w entry >>= fun there =>
      if there then (ofManifest found manifest entry).toExcept.map .ok
      else .ok (.error ("entry point " ++ entry.text ++ " does not exist")) := by
  obtain ⟨hheld, main, hmain, rfl⟩ := h
  have hentry : entryPoint (PartPath.ofText found.path) manifest =
      .ok ((PartPath.ofText found.path).entry main) := by
    rw [entryPoint, hmain]
  unfold loadFrom
  simp only [hheld, hentry, bind, Except.bind]
  cases entryExists w ((PartPath.ofText found.path).entry main) with
  | error fault => rfl
  | ok there =>
    cases there with
    | false => rfl
    | true =>
      dsimp only
      cases (ofManifest found manifest ((PartPath.ofText found.path).entry main)).toExcept <;> rfl

/-- A copy whose manifest names its entry point by no text is not entered. -/
theorem loadFrom_of_main {found : Installation} {manifest : Entries Json}
    (hheld : w.loadJson ((PartPath.ofText found.path).entry manifestName) =
      .ok (some (.object manifest)))
    (h : (nameOr manifest "main" "index.js").isText = false) :
    loadFrom w found = .error .wrongType := by
  have hentry : entryPoint (PartPath.ofText found.path) manifest = .error .wrongType := by
    unfold entryPoint
    cases hmain : nameOr manifest "main" "index.js" with
    | text main =>
      rw [hmain] at h
      cases h
    | _ => rfl
  unfold loadFrom
  simp only [hheld, hentry, bind, Except.bind]

theorem Unforeseen.of_loadFrom {found : Installation} {fault : Fault}
    (h : loadFrom w found = .error fault) : Unforeseen w found.path fault := by
  cases hjson : w.loadJson ((PartPath.ofText found.path).entry manifestName) with
  | error garbled =>
    have hfault : loadFrom w found = .error garbled := by
      unfold loadFrom
      simp only [hjson, bind, Except.bind]
    obtain rfl : garbled = fault := Except.error.inj (hfault.symm.trans h)
    exact .manifest (World.loadJson_eq_error_iff.mp hjson)
  | ok value =>
    have held : ∃ manifest, value = some (.object manifest) := by
      unfold loadFrom at h
      simp only [hjson, bind, Except.bind] at h
      split at h
      · rename_i manifest
        exact ⟨manifest, rfl⟩
      · cases h
    obtain ⟨manifest, rfl⟩ := held
    cases hmain : (nameOr manifest "main" "index.js").isText with
    | false =>
      obtain rfl : Fault.wrongType = fault :=
        Except.error.inj ((loadFrom_of_main hjson hmain).symm.trans h)
      exact .main hjson hmain
    | true =>
      obtain ⟨main, hmain⟩ := Json.eq_text_of_isText hmain
      have henters : Enters w (PartPath.ofText found.path) manifest
          ((PartPath.ofText found.path).entry main) := ⟨hjson, main, hmain, rfl⟩
      -- the path of the entry point no longer matters, only what is there
      generalize (PartPath.ofText found.path).entry main = entry at henters
      rw [loadFrom_of_enters henters] at h
      cases hentry : entryExists w entry with
      | error missing =>
        rw [hentry] at h
        obtain rfl : missing = fault := Except.error.inj h
        rcases entryExists_fault hentry with
          hfile | ⟨habsent, ⟨hnone, rfl⟩ | ⟨sibling, hsibling, hfile⟩⟩
        · exact .entry henters hfile
        · exact .nameless henters habsent hnone
        · exact .sibling henters habsent hsibling hfile
      | ok there =>
        rw [hentry] at h
        cases there with
        | false => cases h
        | true =>
          rcases ofManifest_cases found manifest entry with ⟨package, hpackage, -⟩ | ⟨hissues, hne⟩
          · simp [bind, Except.bind, hpackage, Except.map] at h
          · simp only [bind, Except.bind, hissues, Except.map, if_true] at h
            cases h
            exact .fields henters hentry hne

/-- **Reading a copy fails in exactly these ways.** -/
theorem loadFrom_eq_error_iff {found : Installation} {fault : Fault} :
    loadFrom w found = .error fault ↔ Unforeseen w found.path fault := by
  refine ⟨.of_loadFrom, fun h => ?_⟩
  cases h with
  | manifest h =>
    unfold loadFrom
    simp only [World.loadJson_eq_error_iff.mpr h, bind, Except.bind]
  | main hheld h => exact loadFrom_of_main hheld h
  | entry henters h =>
    rw [loadFrom_of_enters henters, entryExists, h]
    rfl
  | nameless henters habsent h =>
    rw [loadFrom_of_enters henters, entryExists, habsent]
    simp only [h]
    rfl
  | sibling henters habsent hsibling h =>
    rw [loadFrom_of_enters henters, entryExists, habsent]
    simp only [hsibling, h]
    rfl
  | @fields manifest entry henters hthere h =>
    rw [loadFrom_of_enters henters, hthere]
    rcases ofManifest_cases found manifest entry with ⟨package, -, hnone⟩ | ⟨hissues, -⟩
    · exact absurd hnone h
    · simp [bind, Except.bind, hissues, Except.map]

end Package

end LintHost
