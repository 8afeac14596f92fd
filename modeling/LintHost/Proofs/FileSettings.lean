import Mathlib
import LintHost.Proofs.LoadFaults

/-!
# Which configuration files are taken

A configuration file is taken as a whole or not at all. Its document should be a mapping, and so
should be the part of it that is for this library, and each section of that part, which may name
options of its own only. This file says of every document what comes of it.

* `Value.at?`, `Settings.places`: what stands at a place of a document, and where settings may stand;
* `Settings.WellFormed`: a document is as it should be;
* `Settings.described`: the settings that a part describes;
* `Settings.ofDocument_eq_ok_iff`: settings are read from the documents as they should be;
* `Loader.file_taken_iff`: a file is taken if its document is so, and else reported and forgotten,
  unless it is misread.
-/

namespace LintHost

/-! ## 1. Places in a document -/

/-- What stands in a value under names, one below the other. -/
def Value.at? (v : Value) : List String → Option Value
  | [] => some v
  | name :: names =>
    match v with
    | .map entries => (get? (.text name) entries).bind fun below => below.at? names
    | _ => none

namespace Settings

/-- Where the settings may stand in a document, in order of preference. -/
def places : List (List String) := [
  ["tool", "eslint_bridge"], ["tool", "eslint-bridge"], ["eslint_bridge"], ["eslint-bridge"], []]

/-- What stands in a document at the first of these places that is there. -/
def part? (document : Value) : Option Value := places.findSome? document.at?

/-- The part for this library stands at the first place that is there. -/
theorem part?_map (entries : List (Value × Value)) :
    part? (.map entries) = some (ownPart entries) := by
  have htop (name : String) : Value.at? (.map entries) [name] =
    Value.get? (.text name) entries := Option.bind_fun_some _
  have htools : (ownNames.findSome? fun name => Value.at? (.map entries) [toolsName, name]) =
      toolPart? entries := by
    unfold toolPart? firstNamed? Value.at?
    dsimp only
    cases Value.get? (.text toolsName) entries with
    | none => rfl
    | some v => cases v with
      | map tools => exact congrArg ownNames.findSome? (funext fun name => Option.bind_fun_some _)
      | _ => rfl
  have hplaces : places = ownNames.map (fun name => [toolsName, name]) ++
    (ownNames.map (fun name => [name]) ++ [[]]) := rfl
  have hwhole : Value.at? (.map entries) [] = some (.map entries) := rfl
  unfold part? ownPart
  rw [hplaces, List.findSome?_append, List.findSome?_append, List.findSome?_map,
    List.findSome?_map, List.findSome?_singleton, hwhole]
  unfold Function.comp
  simp only [htools, htop]
  rw [← Option.or_assoc, Option.or_some]
  rfl

/-! ## 2. Documents as they should be -/

/-- A key names an option of a section. -/
def Declares (s : Section) (key : Value) : Prop := ∃ o : Setting, o.inSection = s ∧ key = .text o.name

/-- A section is not there, or it is a mapping whose keys name options of it. -/
def SectionFits (part : List (Value × Value)) (s : Section) : Prop :=
  ∀ v, Value.get? (.text s.name) part = some v →
    ∃ entries, v = .map entries ∧ ∀ e ∈ entries, Declares s e.1

/-- A document is as it should be: a mapping, with a mapping for this library at the first place
    that is there, whose sections fit. -/
structure WellFormed (document : Value) (part : List (Value × Value)) : Prop where
  root : ∃ entries, document = .map entries
  place : part? document = some (.map part)
  fits : ∀ s, SectionFits part s

/-- The standard settings with what a part says about them. -/
def described (part : List (Value × Value)) : Settings :=
  ⟨fun o => (sectionsGive? part o).getD o.standard, []⟩

theorem setEntries_ok_iff {s : Section} : ∀ {entries : List (Value × Value)} {settings : Settings},
    (∃ settings', setEntries s entries settings = .ok settings') ↔ ∀ e ∈ entries, Declares s e.1
  | [], settings => iff_of_true ⟨settings, rfl⟩ (List.forall_mem_nil _)
  | (key, v) :: rest, settings => by
    rw [List.forall_mem_cons]
    constructor
    · rintro ⟨settings', h⟩
      obtain ⟨option, hs, hkey, hrest⟩ := setEntries_cons h
      exact ⟨⟨option, hs, hkey⟩, setEntries_ok_iff.mp ⟨settings', hrest⟩⟩
    · rintro ⟨⟨option, rfl, hkey⟩, hrest⟩
      obtain rfl : key = .text option.name := hkey
      -- no option has the name that a record has for itself
      have hself : option.name ≠ "self" := by cases option <;> decide
      unfold setEntries
      rw [if_neg hself, option.find?_name]
      exact setEntries_ok_iff.mpr hrest

theorem setSection_ok_iff {part : List (Value × Value)} {settings : Settings} {s : Section} :
    (∃ settings', setSection part settings s = .ok settings') ↔ SectionFits part s := by
  unfold setSection SectionFits
  cases Value.get? (.text s.name) part with
  | none => exact iff_of_true ⟨settings, rfl⟩ nofun
  | some v =>
    simp only [Option.some.injEq, forall_eq']
    cases v with
    | map entries =>
      simp only [Value.map.injEq, exists_eq_left']
      rw [← @setEntries_ok_iff s entries settings]
      split
      · rfl
      · rename_i hkeys
        refine iff_of_false nofun fun ⟨settings', h⟩ => hkeys (List.all_eq_true.mpr fun e he => ?_)
        obtain ⟨option, -, hkey⟩ := setEntries_ok_iff.mp ⟨settings', h⟩ e he
        rw [hkey]
        rfl
    | _ => exact iff_of_false nofun nofun

/-- Steps that succeed or not whatever the settings were all succeed, or else some one does not. -/
theorem foldlM_ok_iff {α : Type} {step : Settings → α → Except MappingFault Settings}
    {Fits : α → Prop}
    (hstep : ∀ settings a, (∃ settings', step settings a = .ok settings') ↔ Fits a) :
    ∀ (as : List α) (settings : Settings),
      (∃ settings', as.foldlM step settings = .ok settings') ↔ ∀ a ∈ as, Fits a
  | [], settings => iff_of_true ⟨settings, rfl⟩ (List.forall_mem_nil _)
  | a :: as, settings => by
    rw [List.foldlM_cons, List.forall_mem_cons, ← hstep settings a]
    constructor
    · rintro ⟨settings', h⟩
      obtain ⟨next, hnext, h⟩ := Except.bind_eq_ok h
      exact ⟨⟨next, hnext⟩, (foldlM_ok_iff hstep as next).mp ⟨settings', h⟩⟩
    · rintro ⟨⟨next, hnext⟩, h⟩
      rw [hnext, Except.ok_bind]
      exact (foldlM_ok_iff hstep as next).mpr h

/-- **A mapping of sections describes settings** exactly if all sections fit. -/
theorem ofMapping_eq_ok_iff {part : List (Value × Value)} {settings : Settings} :
    ofMapping (.map part) = .ok settings ↔ (∀ s, SectionFits part s) ∧ settings = described part := by
  have hok : (∃ settings, ofMapping (.map part) = .ok settings) ↔ ∀ s, SectionFits part s :=
    (@foldlM_ok_iff _ (setSection part) _ (fun _ _ => setSection_ok_iff) Section.all
      standard).trans ⟨fun h s => h s s.mem_all, fun h s _ => h s⟩
  have hvalue {settings : Settings} (h : ofMapping (.map part) = .ok settings) :
      settings = described part := by
    obtain ⟨hgone, hvalue⟩ := ofMapping_value h
    obtain ⟨value, gone⟩ := settings
    obtain rfl : gone = [] := hgone
    obtain rfl : value = (described part).value := funext hvalue
    rfl
  constructor
  · exact fun h => ⟨hok.mp ⟨settings, h⟩, hvalue h⟩
  · rintro ⟨hfits, rfl⟩
    obtain ⟨settings, h⟩ := hok.mpr hfits
    rw [h, hvalue h]

/-- **Settings are read from a document** exactly if it is as it should be. -/
theorem ofDocument_eq_ok_iff {document : Value} {settings : Settings} :
    ofDocument document = .ok settings ↔
      ∃ part, WellFormed document part ∧ settings = described part := by
  constructor
  · intro h
    obtain ⟨entries, part, rfl, hpart, hmapping⟩ := ofDocument_value h
    obtain ⟨hfits, hsettings⟩ := ofMapping_eq_ok_iff.mp hmapping
    exact ⟨part, ⟨⟨entries, rfl⟩, hpart ▸ part?_map entries, hfits⟩, hsettings⟩
  · rintro ⟨part, ⟨⟨entries, rfl⟩, hpart, hfits⟩, rfl⟩
    have hown : ownPart entries = .map part := Option.some.inj ((part?_map entries).symm.trans hpart)
    rw [ofDocument, hown, ofMapping_eq_ok_iff.mpr ⟨hfits, rfl⟩]

end Settings

/-! ## 3. Files -/

namespace Loader

open LintHost.Settings

variable {w : World}

/-- The document that a text of a format is. -/
def Format.parse : Format → String → Except DocumentFault Value
  | .yaml, s => Yaml.read s
  | .toml, s => Toml.read s

/-- What is taken for the document: a mapping in place of a YAML document that stands for no. -/
def Format.taken : Format → Value → Value
  | .yaml, v => if v.truthy then v else .map []
  | .toml, v => v

theorem document_eq {format : Format} {bytes : ByteArray} {text : String} {document : Value}
    (htext : format.text? bytes = some text) (hparse : format.parse text = .ok document) :
    Loader.document format bytes = .ok (format.taken document) := by
  have hread : format.read text = .ok (format.taken document) := by
    unfold Format.parse at hparse
    unfold Format.read Format.taken
    cases format with
    | yaml =>
      dsimp only at hparse ⊢
      rw [hparse]
      rfl
    | toml => exact hparse
  unfold Loader.document Format.readBytes
  rw [htext]
  dsimp only
  rw [hread]

/-- The document of a file: an empty YAML document is an empty mapping. -/
def Format.rooted : Format → Value → Value
  | .yaml, .null => .map []
  | _, v => v

/-- A document is misread. -/
inductive Misread (format : Format) (document : Value) : Prop
  /-- It is taken for an empty mapping, but is another value that stands for no. -/
  | root (hyaml : format = .yaml) (hno : document.truthy = false) (hnull : document ≠ .null)
      (hmap : ∀ entries, document ≠ .map entries)
  /-- What stands at the first place for settings is no mapping. -/
  | part {entries : List (Value × Value)} {v : Value}
      (hroot : format.rooted document = .map entries) (hpart : part? (.map entries) = some v)
      (hmap : ∀ part, v ≠ .map part)

theorem taken_of_map {format : Format} {document : Value} {entries : List (Value × Value)}
    (h : format.rooted document = .map entries) : format.taken document = .map entries := by
  rw [← h]
  cases format with
  | toml => cases document <;> rfl
  | yaml =>
    cases document with
    | null => rfl
    | map entries => cases entries <;> rfl
    | _ => cases h

/-- A document that is not misread is taken for what it is. -/
theorem taken_eq {format : Format} {document : Value} (h : ¬Misread format document) :
    format.taken document = format.rooted document := by
  by_cases hmap : ∃ entries, format.rooted document = .map entries
  · obtain ⟨entries, hentries⟩ := hmap
    rw [taken_of_map hentries, hentries]
  · cases format with
    | toml => cases document <;> rfl
    | yaml =>
      have hnull : document ≠ .null := fun hnull => hmap ⟨[], hnull ▸ rfl⟩
      have hroot : Format.yaml.rooted document = document := by
        cases document with
        | null => exact absurd rfl hnull
        | _ => rfl
      rw [hroot] at hmap ⊢
      refine if_pos (by_contra fun hno => h ?_)
      exact .root rfl (Bool.eq_false_iff.mpr hno) hnull fun entries hentries =>
        hmap ⟨entries, hentries⟩

/-- **What is taken for the document is read** as the document should be, unless it is misread. -/
theorem taken_as_meant_iff {format : Format} {document : Value} :
    ((∀ part, WellFormed (format.rooted document) part →
        ofDocument (format.taken document) = .ok (described part)) ∧
      ((¬∃ part, WellFormed (format.rooted document) part) → ∃ fault : Fault,
        fault.OfConfiguration ∧ ofDocument (format.taken document) = .error fault)) ↔
      ¬Misread format document := by
  constructor
  · -- a misread document is not as it should be, and yet not reported
    rintro ⟨-, hreported⟩ (⟨rfl, hno, hnull, hmap⟩ | ⟨hroot, hplace, hmap⟩)
    · have hroot : Format.yaml.rooted document = document := by
        cases document with
        | null => exact absurd rfl hnull
        | _ => rfl
      have htaken : Format.yaml.taken document = .map [] := if_neg (Bool.eq_false_iff.mp hno)
      have hok : ofDocument (.map []) = .ok standard := rfl
      obtain ⟨fault, -, hfault⟩ := hreported fun ⟨part, hpart⟩ =>
        hpart.root.elim fun entries h => hmap entries (hroot ▸ h)
      rw [htaken, hok] at hfault
      cases hfault
    · obtain ⟨fault, hconfiguration, hfault⟩ := hreported fun ⟨part, hpart⟩ =>
        hmap part (Option.some.inj (hplace.symm.trans (hroot ▸ hpart.place)))
      rw [taken_of_map hroot] at hfault
      rw [part?_map] at hplace
      obtain ⟨stray, hstray, hother⟩ := ofDocument_strays_iff.mpr
        ⟨_, rfl, fun part h => hmap part ((Option.some.inj hplace).symm.trans h)⟩
      cases hfault.symm.trans hstray
      exact hother hconfiguration
  · intro h
    rw [taken_eq h]
    refine ⟨fun part hpart => ofDocument_eq_ok_iff.mpr ⟨part, hpart, rfl⟩, fun hno => ?_⟩
    cases hresult : ofDocument (format.rooted document) with
    | ok settings =>
      obtain ⟨part, hpart, -⟩ := ofDocument_eq_ok_iff.mp hresult
      exact absurd ⟨part, hpart⟩ hno
    | error fault =>
      refine ⟨fault, by_contra fun hother => h ?_, rfl⟩
      obtain ⟨entries, hroot, hpart⟩ := ofDocument_strays_iff.mp ⟨fault, hresult, hother⟩
      exact .part hroot (part?_map entries) hpart

/-- **A configuration file is taken exactly if its document is as it should be**, and then the
    settings are the standard ones with what the part for this library says; any other is reported
    as a failure of the configuration. This holds of exactly the documents that are not misread.
    Whatever fails, nothing has changed. -/
theorem file_taken_iff {path : String} {format : Format} {bytes : ByteArray} {text : String}
    {document : Value} (hformat : Format.ofSuffix? (PartPath.ofText path).suffix = some format)
    (hread : w.files.read w.cwd (PartPath.ofText path).text = .ok bytes)
    (htext : format.text? bytes = some text) (hparse : format.parse text = .ok document)
    (loading : Loading) :
    let ended := (file path).run w loading
    ((∀ part, WellFormed (format.rooted document) part →
        ∃ log, ended = (.ok ⟨⟩, { loading with settings := described part, log := log })) ∧
      ((¬∃ part, WellFormed (format.rooted document) part) →
        ∃ fault, fault.OfConfiguration ∧ ended = (.error fault, loading)) ↔
      ¬Misread format document) ∧
    ∀ fault, ended.1 = .error fault → ended.2 = loading := by
  intro ended
  have hsettings : settingsIn w path = ofDocument (format.taken document) := by
    rw [settingsIn_of_read hformat hread, document_eq htext hparse, Except.ok_bind]
  rw [← taken_as_meant_iff, ← hsettings]
  obtain ⟨fault, hfault, hrun⟩ | ⟨settings, log, hok, hrun⟩ := file_run (w := w) path loading
  · have hended : ended = (.error fault, loading) := hrun
    rw [hended, hfault]
    simp
  · have hended : ended = (.ok ⟨⟩, { loading with settings := settings, log := log }) := hrun
    rw [hended, hok]
    simp

/-- A machine with one file. -/
def fileMachine (name content : String) : World :=
  { World.bare with files := FileTree.empty.add [name] (.file content.toUTF8 true true) }

/-- The settings of a file in TOML are those that its document describes. -/
theorem fileMachine_settings {content : String} {document : Value}
    (htext : Format.toml.text? content.toUTF8 = some content)
    (hparse : Format.toml.parse content = .ok document) :
    settingsIn (fileMachine "c.toml" content) "/c.toml" =
      ofDocument (Format.toml.taken document) := by
  have hread : (fileMachine "c.toml" content).files.read (fileMachine "c.toml" content).cwd
      (PartPath.ofText "/c.toml").text = .ok content.toUTF8 := rfl
  have hformat : Format.ofSuffix? (PartPath.ofText "/c.toml").suffix = some .toml := rfl
  rw [settingsIn_of_read hformat hread, document_eq htext hparse, Except.ok_bind]

/-- Whether what was read is an empty list. -/
def readsEmptyList : Except DocumentFault Value → Bool
  | .ok (.list []) => true
  | _ => false

theorem readsEmptyList_iff {result : Except DocumentFault Value} :
    readsEmptyList result = true ↔ result = .ok (.list []) := by
  constructor
  · intro h
    unfold readsEmptyList at h
    split at h
    · rfl
    · cases h
  · intro h
    rw [h]
    rfl

/-- A number in the place of the settings is not told as a failure of the configuration, and a list
    in the place of the document is taken. -/
theorem misread_files_not_told :
    (Toml.read "eslint_bridge = 5\n" = .ok (.map [(.text "eslint_bridge", .int 5)]) ∧
      ((file "/c.toml").run (fileMachine "c.toml" "eslint_bridge = 5\n") (.start [])).1 =
        .error .missingFeature ∧
      ¬Fault.missingFeature.OfConfiguration) ∧
    Yaml.read "[]\n" = .ok (.list []) ∧
      ((file "/c.yaml").run (fileMachine "c.yaml" "[]\n") (.start [])).1 = .ok ⟨⟩ := by
  have hnumber : Toml.read "eslint_bridge = 5\n" = .ok (.map [(.text "eslint_bridge", .int 5)]) := by
    cbv
  have hlist : Yaml.read "[]\n" = .ok (.list []) := readsEmptyList_iff.mp (by decide +kernel)
  have htaken : ((file "/c.yaml").run (fileMachine "c.yaml" "[]\n") (.start [])).1.isOk = true := by
    decide +kernel
  obtain ⟨⟨⟩, htaken⟩ := exists_of_isOk htaken
  have htext : Format.toml.text? "eslint_bridge = 5\n".toUTF8 = some "eslint_bridge = 5\n" := by
    decide +kernel
  have hsettings : settingsIn (fileMachine "c.toml" "eslint_bridge = 5\n") "/c.toml" =
      .error .missingFeature := by
    rw [fileMachine_settings htext hnumber]
    rfl
  refine ⟨⟨hnumber, ?_, ?_⟩, hlist, htaken⟩
  · rcases file_run "/c.toml" (.start []) with ⟨fault, hfault, hrun⟩ | ⟨_, _, hok, -⟩
    · cases hfault.symm.trans hsettings
      rw [hrun]
    · cases hsettings.symm.trans hok
  · rintro ⟨key, problem, more, h⟩
    cases h

/-- A file of several tools, of which one is this library. -/
def toolsText : String := "[tool.eslint_bridge.engine]\ntimeout_s = 5\n[eslint_bridge]\nx = 1\n"

/-- What is in this file for the library. -/
def toolsPart : List (Value × Value) := [(.text "engine", .map [(.text "timeout_s", .int 5)])]

/-- What the file says. -/
def toolsDocument : Value :=
  .map [(.text "tool", .map [(.text "eslint_bridge", .map toolsPart)]),
    (.text "eslint_bridge", .map [(.text "x", .int 1)])]

/-- The part among the tools is taken, and the one at the top does not count. -/
theorem tools_file_taken :
    let w := fileMachine "c.toml" toolsText
    Format.ofSuffix? (PartPath.ofText "/c.toml").suffix = some .toml ∧
      w.files.read w.cwd (PartPath.ofText "/c.toml").text = .ok toolsText.toUTF8 ∧
      Format.toml.text? toolsText.toUTF8 = some toolsText ∧
      Format.toml.parse toolsText = .ok toolsDocument ∧
      ∃ log, (file "/c.toml").run w (.start []) =
        (.ok ⟨⟩, { Loading.start [] with settings := described toolsPart, log := log }) := by
  intro w
  have hread : w.files.read w.cwd (PartPath.ofText "/c.toml").text = .ok toolsText.toUTF8 := rfl
  have htext : Format.toml.text? toolsText.toUTF8 = some toolsText := by decide +kernel
  have hparse : Format.toml.parse toolsText = .ok toolsDocument := by cbv
  have hwell : WellFormed (Format.toml.rooted toolsDocument) toolsPart := by
    refine ⟨⟨_, rfl⟩, rfl, fun s v hv => ?_⟩
    cases s with
    | engine =>
      cases hv
      exact ⟨_, rfl, List.forall_mem_singleton.mpr ⟨.timeout, rfl, rfl⟩⟩
    | _ => cases hv
  have hread? : ¬Misread .toml toolsDocument := by
    rintro (⟨hyaml, -⟩ | ⟨hroot, hplace, hmap⟩)
    · cases hyaml
    · cases hroot
      exact hmap _ (Option.some.inj (hplace.symm.trans hwell.place))
  obtain ⟨htaken, -⟩ := file_taken_iff (w := w) rfl hread htext hparse (.start [])
  exact ⟨rfl, hread, htext, hparse, (htaken.mpr hread?).1 _ hwell⟩

end Loader

end LintHost
