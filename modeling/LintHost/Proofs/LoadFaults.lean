import LintHost.Proofs.CheckFaults
import LintHost.Proofs.Layers

/-!
# How loading settings can fail

Loading is meant to fail as the configuration does: with a failure that names the key and tells the
problem. Some faults are not told like that. They arise where the file cannot be looked for or its
bytes are no text, where the text says something that stands for no value, where the part for this
library is no mapping, in the file of variables, and where the settings cannot be checked.

* `Fault.OfConfiguration`: a failure of the configuration;
* `FileUnforeseen`, `VariablesUnforeseen`, `Unforeseen`: what makes loading fail otherwise;
* `fails_as_configured_iff`: loading fails as the configuration does exactly in all other cases.
-/

namespace LintHost

/-- A failure of the configuration. -/
def Fault.OfConfiguration (fault : Fault) : Prop :=
  ∃ key problem more, fault = .reported (.configuration key problem more)

theorem Fault.OfConfiguration.reported {fault : Fault} (h : fault.OfConfiguration) :
    fault.Reported := by
  obtain ⟨key, problem, more, rfl⟩ := h
  exact ⟨_, rfl⟩

/-- A computation comes to a failure that is none of the configuration. -/
def Strays {α : Type} (x : Except Fault α) : Prop :=
  ∃ fault, x = .error fault ∧ ¬fault.OfConfiguration

section Strays

variable {α β : Type} {x : Except Fault α}

theorem not_strays_ok {a : α} : ¬Strays (.ok a) := fun ⟨_, h, _⟩ => (nomatch h)

theorem strays_error {fault : Fault} :
    Strays (.error fault : Except Fault α) ↔ ¬fault.OfConfiguration :=
  ⟨fun ⟨_, h, hfault⟩ => Except.error.inj h ▸ hfault, fun h => ⟨fault, rfl, h⟩⟩

theorem strays_bind {f : α → Except Fault β} :
    Strays (x >>= f) ↔ Strays x ∨ ∃ a, x = .ok a ∧ Strays (f a) := by
  cases x with
  | error fault =>
    rw [strays_error]
    exact ⟨fun ⟨_, h, hfault⟩ => .inl (by cases h; exact hfault),
      fun h => h.elim (fun h => ⟨fault, rfl, h⟩) fun ⟨_, h, _⟩ => (nomatch h)⟩
  | ok a =>
    rw [Except.ok_bind, or_iff_right not_strays_ok]
    exact ⟨fun h => ⟨a, rfl, h⟩, fun ⟨_, ha, h⟩ => Except.ok.inj ha ▸ h⟩

/-- Where nothing is reported, every failure strays. -/
theorem Foreign.strays_iff (h : Foreign x) : Strays x ↔ Fails x :=
  ⟨fun ⟨fault, hx, _⟩ => ⟨fault, hx⟩,
    fun ⟨fault, hx⟩ => ⟨fault, hx, fun hfault => h fault hx hfault.reported⟩⟩

end Strays

theorem Settings.not_strays_unreadable {α : Type} (key problem : String) :
    ¬Strays (.error (unreadable key problem) : Except Fault α) :=
  fun h => strays_error.mp h ⟨key, problem, [], rfl⟩

/-! ## 1. Documents -/

namespace Settings

theorem setEntries_ne_noSections {s : Section} : ∀ {entries : List (Value × Value)}
    {settings : Settings}, setEntries s entries settings ≠ .error .noSections
  | [], settings, h => by cases h
  | (key, v) :: rest, settings, h => by
    cases key with
    | text name =>
      unfold setEntries at h
      split at h
      · cases h
      · split at h
        · exact setEntries_ne_noSections h
        · cases h
    | _ => cases h

theorem setSection_ne_noSections {sections : List (Value × Value)} {s : Section}
    {settings : Settings} : setSection sections settings s ≠ .error .noSections := by
  intro h
  unfold setSection at h
  split at h
  · cases h
  · split at h
    · exact setEntries_ne_noSections h
    · cases h
  · cases h

/-- Only what is no mapping has no sections. -/
theorem ofMapping_noSections_iff {v : Value} :
    ofMapping v = .error .noSections ↔ ∀ sections, v ≠ .map sections := by
  cases v with
  | map sections =>
    refine iff_of_false (fun h => ?_) fun h => h sections rfl
    simp only [ofMapping, Section.all, List.foldlM_cons, List.foldlM_nil] at h
    rcases Except.bind_eq_error h with h | ⟨_, -, h⟩
    · exact setSection_ne_noSections h
    rcases Except.bind_eq_error h with h | ⟨_, -, h⟩
    · exact setSection_ne_noSections h
    rcases Except.bind_eq_error h with h | ⟨_, -, h⟩
    · exact setSection_ne_noSections h
    · cases h
  | _ =>
    refine iff_of_true rfl fun sections h => ?_
    cases h

/-- Settings are read from a document, or the configuration is told to be wrong, unless the part
    that should hold them is no mapping. -/
theorem ofDocument_strays_iff {v : Value} :
    Strays (ofDocument v) ↔
      ∃ entries, v = .map entries ∧ ∀ sections, ownPart entries ≠ .map sections := by
  unfold ofDocument
  split
  · rename_i entries
    -- what is no mapping ends in a failure of its own, which no other step comes to
    have hmap : (∃ entries', Value.map entries = .map entries' ∧
        ∀ sections, ownPart entries' ≠ .map sections) ↔
          ofMapping (ownPart entries) = .error .noSections := by
      rw [ofMapping_noSections_iff]
      exact ⟨fun ⟨_, h, hown⟩ => Value.map.inj h ▸ hown, fun hown => ⟨entries, rfl, hown⟩⟩
    rw [hmap]
    split
    · rename_i hmapping
      exact iff_of_false not_strays_ok fun h => nomatch hmapping.symm.trans h
    · rename_i hmapping
      exact iff_of_true (strays_error.mpr fun ⟨_, _, _, h⟩ => nomatch h) hmapping
    · rename_i fault hother hmapping
      refine iff_of_false (not_strays_unreadable _ _) fun h => ?_
      exact hother (Except.error.inj (hmapping.symm.trans h))
  · rename_i hother
    exact iff_of_false (not_strays_unreadable _ _) fun ⟨entries, h, _⟩ => hother entries h

end Settings

namespace Loader

open LintHost.Settings LintHost.Text

variable {w : World}

/-! ## 2. Files -/

/-- The file that is asked for makes loading fail otherwise than the configuration does. -/
inductive FileUnforeseen (w : World) (path : String) : Prop
  /-- It cannot be told whether the file is there. -/
  | lookup {fault : LookupFault}
      (h : w.files.exists? w.cwd (PartPath.ofText path).text = .error fault)
  /-- The file's bytes are no text, and what is read of them before that shows is of its format. -/
  | bytes {format : Format} {content : ByteArray} {fault : Fault}
      (hformat : Format.ofSuffix? (PartPath.ofText path).suffix = some format)
      (hread : w.files.read w.cwd (PartPath.ofText path).text = .ok content)
      (htext : format.text? content = none) (h : format.garbledFault content = .invalid fault)
      (hfault : ¬fault.OfConfiguration)
  /-- The file's text is of its format, but something in it stands for no value. -/
  | value {format : Format} {content : ByteArray} {text : String} {fault : Fault}
      (hformat : Format.ofSuffix? (PartPath.ofText path).suffix = some format)
      (hread : w.files.read w.cwd (PartPath.ofText path).text = .ok content)
      (htext : format.text? content = some text) (h : format.read text = .error (.invalid fault))
      (hfault : ¬fault.OfConfiguration)
  /-- The part of the document that should hold the settings is no mapping. -/
  | part {format : Format} {content : ByteArray} {entries : List (Value × Value)}
      (hformat : Format.ofSuffix? (PartPath.ofText path).suffix = some format)
      (hread : w.files.read w.cwd (PartPath.ofText path).text = .ok content)
      (hdocument : document format content = .ok (.map entries))
      (h : ∀ sections, ownPart entries ≠ .map sections)

theorem exists_of_read {path : String} {content : ByteArray}
    (h : w.files.read w.cwd path = .ok content) : w.files.exists? w.cwd path = .ok true := by
  unfold FileTree.read at h
  unfold FileTree.exists?
  split at h
  · rename_i hstat
    rw [hstat]
  · cases h
  · cases h
  · cases h

/-- The content of a file that is there is read, or the configuration is told to be wrong. -/
theorem content_strays {p : PartPath} (hthere : w.files.exists? w.cwd p.text = .ok true) :
    ¬Strays (content w p) := by
  unfold content
  cases hread : w.files.read w.cwd p.text with
  | ok bytes => exact not_strays_ok
  | error fault =>
    -- a file was found at this path, so the path is one
    have hpath : fault ≠ .embeddedNull := by
      rintro rfl
      unfold FileTree.read at hread
      unfold FileTree.exists? at hthere
      split at hread
      · cases hread
      · cases hread
      · cases hread
      · rename_i hstat
        cases hread
        rw [hstat] at hthere
        cases hthere
    cases fault with
    | embeddedNull => exact absurd rfl hpath
    | _ => exact not_strays_unreadable _ _

theorem content_eq_ok_iff {p : PartPath} {bytes : ByteArray} :
    content w p = .ok bytes ↔ w.files.read w.cwd p.text = .ok bytes := by
  unfold content LookupFault.lift
  cases w.files.read w.cwd p.text with
  | ok bytes' => exact ⟨fun h => Except.ok.inj h ▸ rfl, fun h => Except.ok.inj h ▸ rfl⟩
  | error fault => cases fault <;> exact ⟨nofun, nofun⟩

theorem document_strays_iff {format : Format} {content : ByteArray} :
    Strays (document format content) ↔
      ∃ fault, format.readBytes content = .error (.invalid fault) ∧ ¬fault.OfConfiguration := by
  unfold document
  cases hread : format.readBytes content with
  | ok v => exact iff_of_false not_strays_ok fun ⟨_, h, _⟩ => nomatch h
  | error fault =>
    cases fault with
    | malformed => exact iff_of_false (not_strays_unreadable _ _) fun ⟨_, h, _⟩ => nomatch h
    | invalid fault =>
      dsimp only
      rw [strays_error]
      refine ⟨fun h => ⟨fault, rfl, h⟩, fun ⟨_, h, hfault⟩ => ?_⟩
      cases h
      exact hfault

/-- A file of a known format that can be read holds the settings of its document. -/
theorem settingsIn_of_read {path : String} {format : Format} {bytes : ByteArray}
    (hformat : Format.ofSuffix? (PartPath.ofText path).suffix = some format)
    (hread : w.files.read w.cwd (PartPath.ofText path).text = .ok bytes) :
    settingsIn w path = document format bytes >>= ofDocument := by
  unfold settingsIn
  simp only [exists_of_read hread, LookupFault.lift, Except.ok_bind, if_true, hformat,
    content_eq_ok_iff.mpr hread]

theorem settingsIn_strays_iff {path : String} :
    Strays (settingsIn w path) ↔ FileUnforeseen w path := by
  constructor
  · intro h
    unfold settingsIn at h
    dsimp only at h
    cases hexists : w.files.exists? w.cwd (PartPath.ofText path).text with
    | error fault => exact .lookup hexists
    | ok there =>
      rw [hexists, LookupFault.lift, Except.ok_bind] at h
      cases there with
      | false => exact absurd h (not_strays_unreadable _ _)
      | true =>
        rw [if_pos rfl] at h
        split at h
        · rename_i format hformat
          rcases strays_bind.mp h with h | ⟨bytes, hbytes, h⟩
          · exact absurd h (content_strays hexists)
          have hread := content_eq_ok_iff.mp hbytes
          rcases strays_bind.mp h with h | ⟨v, hdocument, h⟩
          · obtain ⟨fault, h, hfault⟩ := document_strays_iff.mp h
            unfold Format.readBytes at h
            split at h
            · rename_i htext
              exact .bytes hformat hread htext (Except.error.inj h) hfault
            · rename_i htext
              exact .value hformat hread htext h hfault
          · obtain ⟨entries, rfl, hown⟩ := ofDocument_strays_iff.mp h
            exact .part hformat hread hdocument hown
        · exact absurd h (not_strays_unreadable _ _)
  · intro h
    cases h with
    | lookup h =>
      unfold settingsIn
      simp only [h]
      exact strays_bind.mpr (.inl (strays_error.mpr fun hfault =>
        Fault.not_reported_ofLookup _ _ hfault.reported))
    | bytes hformat hread htext h hfault =>
      rw [settingsIn_of_read hformat hread]
      refine strays_bind.mpr (.inl (document_strays_iff.mpr ⟨_, ?_, hfault⟩))
      rw [Format.readBytes, htext, ← h]
    | value hformat hread htext h hfault =>
      rw [settingsIn_of_read hformat hread]
      refine strays_bind.mpr (.inl (document_strays_iff.mpr ⟨_, ?_, hfault⟩))
      rw [Format.readBytes, htext, ← h]
    | part hformat hread hdocument h =>
      rw [settingsIn_of_read hformat hread]
      exact strays_bind.mpr (.inr ⟨_, hdocument, ofDocument_strays_iff.mpr ⟨_, rfl, h⟩⟩)

/-! ## 3. Files of variables -/

/-- A file of variables makes loading fail. -/
inductive VariablesUnforeseen (w : World) (env : Entries String) (path : String) : Prop
  /-- There is no such path. -/
  | path (hpath : path ≠ "") (h : w.files.stat w.cwd path = .error .embeddedNull)
  /-- The file is not open to its user. -/
  | denied {content : ByteArray} {writable : Bool} (hpath : path ≠ "")
      (h : w.files.stat w.cwd path = .ok (.file content false writable))
  /-- The file's bytes are no text. -/
  | bytes {content : ByteArray} {writable : Bool} (hpath : path ≠ "")
      (hstat : w.files.stat w.cwd path = .ok (.file content true writable))
      (h : ofFile? content = none)
  /-- The file adds a variable that no environment can hold. -/
  | refused {text name value : String} {refusal : EnvFile.Refusal}
      (htext : variableText w path = .ok text) (hmem : (name, value) ∈ EnvFile.fresh env text)
      (h : EnvFile.refusal? name value = some refusal)

theorem variableText_fails_iff {path : String} :
    Fails (variableText w path) ↔ path ≠ "" ∧
      (w.files.stat w.cwd path = .error .embeddedNull ∨
        (∃ content writable, w.files.stat w.cwd path = .ok (.file content false writable)) ∨
          ∃ content writable, w.files.stat w.cwd path = .ok (.file content true writable) ∧
            ofFile? content = none) := by
  unfold variableText
  split
  · rename_i hpath
    exact iff_of_false not_fails_ok fun h => h.1 hpath
  · rename_i hpath
    rw [and_iff_right hpath]
    split
    · rename_i hstat
      exact iff_of_true ⟨_, rfl⟩ (.inl hstat)
    · rename_i content readable writable hstat
      unfold FileTree.read
      rw [hstat]
      cases readable with
      | false => exact iff_of_true ⟨_, rfl⟩ (.inr (.inl ⟨content, writable, rfl⟩))
      | true =>
        simp only [LookupFault.lift, Except.ok_bind]
        cases htext : ofFile? content with
        | none => exact iff_of_true ⟨_, rfl⟩ (.inr (.inr ⟨content, writable, rfl, htext⟩))
        | some text =>
          refine iff_of_false not_fails_ok ?_
          rintro (h | ⟨_, _, h⟩ | ⟨_, _, h, hnone⟩)
          · cases h
          · cases h
          · cases h
            cases htext.symm.trans hnone
    · rename_i hnull hfile
      refine iff_of_false not_fails_ok ?_
      rintro (h | ⟨content, writable, h⟩ | ⟨content, writable, h, -⟩)
      · exact hnull h
      · exact hfile _ _ _ h
      · exact hfile _ _ _ h

theorem refusedAmong?_isSome_iff {entries : Entries String} :
    (EnvFile.refusedAmong? entries).isSome = true ↔
      ∃ name value, (name, value) ∈ entries ∧
        ∃ refusal, EnvFile.refusal? name value = some refusal := by
  unfold EnvFile.refusedAmong?
  rw [List.findSome?_isSome_iff]
  constructor
  · rintro ⟨⟨name, value⟩, hmem, h⟩
    exact ⟨name, value, hmem, Option.isSome_iff_exists.mp h⟩
  · rintro ⟨name, value, hmem, h⟩
    exact ⟨(name, value), hmem, Option.isSome_iff_exists.mpr h⟩

theorem supplied_fails_iff {env : Entries String} {path : String} :
    Fails (supplied w env path) ↔
      switchedOff env = false ∧ VariablesUnforeseen w env path := by
  unfold supplied
  split
  · rename_i hoff
    exact iff_of_false not_fails_ok fun h => nomatch hoff.symm.trans h.1
  · rename_i hon
    rw [and_iff_right (Bool.eq_false_iff.mpr hon)]
    cases htext : variableText w path with
    | error fault =>
      refine iff_of_true ⟨fault, rfl⟩ ?_
      obtain ⟨hpath, h | ⟨content, _, h⟩ | ⟨content, _, hstat, h⟩⟩ :=
        variableText_fails_iff.mp ⟨fault, htext⟩
      · exact .path hpath h
      · exact .denied hpath h
      · exact .bytes hpath hstat h
    | ok text =>
      have hread : ¬Fails (variableText w path) := htext ▸ not_fails_ok
      have hrefused : Fails (supplied w env path) ↔
          (EnvFile.refusedAmong? (EnvFile.fresh env text)).isSome = true := by
        rw [← (EnvFile.added_spec env text).1, supplied, if_neg hon, htext, Except.ok_bind]
        rcases EnvFile.added env text with ⟨env', _ | refusal⟩
        · exact iff_of_false not_fails_ok nofun
        · exact iff_of_true ⟨_, rfl⟩ rfl
      rw [supplied, if_neg hon, htext] at hrefused
      rw [hrefused, refusedAmong?_isSome_iff]
      constructor
      · rintro ⟨name, value, hmem, refusal, h⟩
        exact .refused htext hmem h
      · intro h
        cases h with
        | path hpath h => exact absurd (variableText_fails_iff.mpr ⟨hpath, .inl h⟩) hread
        | denied hpath h =>
          exact absurd (variableText_fails_iff.mpr ⟨hpath, .inr (.inl ⟨_, _, h⟩)⟩) hread
        | bytes hpath hstat h =>
          exact absurd (variableText_fails_iff.mpr ⟨hpath, .inr (.inr ⟨_, _, hstat, h⟩)⟩) hread
        | refused htext' hmem h =>
          obtain rfl := Except.ok.inj (htext.symm.trans htext')
          exact ⟨_, _, hmem, _, h⟩

theorem foreign_supplied (env : Entries String) (path : String) :
    Foreign (supplied w env path) := by
  have htext : Foreign (variableText w path) := by
    unfold variableText
    split
    · exact foreign_ok _
    · split
      · exact foreign_error nofun
      · refine (foreign_lift _ _).bind fun content => ?_
        split
        · exact foreign_ok _
        · exact foreign_error nofun
      · exact foreign_ok _
  unfold supplied
  split
  · exact foreign_ok _
  · refine htext.bind fun text => ?_
    split
    · exact foreign_ok _
    · rename_i refusal _
      cases refusal <;> exact foreign_error nofun

/-! ## 4. Loading -/

/-- Loading fails otherwise than the configuration does. -/
inductive Unforeseen (w : World) (env : Entries String) (request : Request) : Prop
  | file {path : String} (hfile : request.file = some path) (hpath : path ≠ "")
      (h : FileUnforeseen w path)
  | envFile {settings : Settings} (hbase : base w request.file = .ok settings)
      (huse : request.useEnv = true) (hon : switchedOff env = false)
      (h : VariablesUnforeseen w env (request.envFile.getD w.host.envFile))
  | settings {settings : Settings} (hmerged : merged w env request = .ok settings)
      (h : settings.Uncheckable)

theorem base_strays_iff {file? : Option String} :
    Strays (base w file?) ↔ ∃ path, file? = some path ∧ path ≠ "" ∧ FileUnforeseen w path := by
  unfold base
  split
  · exact iff_of_false not_strays_ok fun ⟨_, h, _⟩ => nomatch h
  · exact iff_of_false not_strays_ok fun ⟨_, h, hpath, _⟩ => hpath (Option.some.inj h).symm
  · rename_i path hpath
    rw [settingsIn_strays_iff]
    exact ⟨fun h => ⟨path, rfl, hpath, h⟩, fun ⟨_, h, _, hfile⟩ => Option.some.inj h ▸ hfile⟩

theorem asked_strays_iff {env : Entries String} {request : Request} :
    Strays (asked w env request) ↔ request.useEnv = true ∧ switchedOff env = false ∧
      VariablesUnforeseen w env (request.envFile.getD w.host.envFile) := by
  unfold asked
  split
  · rename_i huse
    rw [(foreign_supplied _ _).strays_iff, supplied_fails_iff, and_iff_right huse]
  · rename_i huse
    exact iff_of_false not_strays_ok fun h => huse h.1

theorem accepted_strays_iff {settings : Settings} :
    Strays (accepted settings) ↔ settings.Uncheckable := by
  rw [← problems_fails_iff]
  unfold accepted
  rcases check_cases settings with ⟨fault, hproblems, hcheck⟩ | ⟨hproblems, hcheck⟩ |
    ⟨found, hproblems, -, hcheck⟩
  · rw [hcheck, hproblems]
    refine iff_of_true (strays_error.mpr fun h => ?_) ⟨fault, rfl⟩
    exact foreign_problems settings fault hproblems h.reported
  · rw [hcheck, hproblems]
    exact iff_of_false not_strays_ok not_fails_ok
  · rw [hcheck, hproblems]
    exact iff_of_false (fun h => strays_error.mp h ⟨_, _, _, rfl⟩) not_fails_ok

theorem load_strays_iff {request : Request} {loading : Loading} :
    Strays ((load request).run w loading).1 ↔ Unforeseen w loading.env request := by
  rw [load_result]
  constructor
  · intro h
    rcases strays_bind.mp h with h | ⟨settings, hmerged, h⟩
    · rcases strays_bind.mp h with h | ⟨settings, hbase, h⟩
      · obtain ⟨path, hfile, hpath, h⟩ := base_strays_iff.mp h
        exact .file hfile hpath h
      · rcases strays_bind.mp h with h | ⟨_, -, h⟩
        · obtain ⟨huse, hon, h⟩ := asked_strays_iff.mp h
          exact .envFile hbase huse hon h
        · exact (not_strays_ok h).elim
    · exact .settings hmerged (accepted_strays_iff.mp h)
  · intro h
    cases h with
    | file hfile hpath h =>
      exact strays_bind.mpr (.inl (strays_bind.mpr (.inl
        (base_strays_iff.mpr ⟨_, hfile, hpath, h⟩))))
    | envFile hbase huse hon h =>
      exact strays_bind.mpr (.inl (strays_bind.mpr (.inr ⟨_, hbase,
        strays_bind.mpr (.inl (asked_strays_iff.mpr ⟨huse, hon, h⟩))⟩)))
    | settings hmerged h =>
      exact strays_bind.mpr (.inr ⟨_, hmerged, accepted_strays_iff.mpr h⟩)

/-- **Loading fails as the configuration does, exactly if nothing unforeseen is there**: in the
    configuration file, in the file of variables, or in what the layers give. -/
theorem fails_as_configured_iff (w : World) (request : Request) (loading : Loading) :
    (∀ fault, ((load request).run w loading).1 = .error fault → fault.OfConfiguration) ↔
      ¬Unforeseen w loading.env request := by
  rw [← load_strays_iff]
  constructor
  · rintro h ⟨fault, hfault, hstrays⟩
    exact hstrays (h fault hfault)
  · intro h fault hfault
    by_contra hstrays
    exact h ⟨fault, hfault, hstrays⟩

/-- A machine with a configuration file that is no text. -/
def garbledMachine : World :=
  { World.bare with files := FileTree.empty.add ["c.yaml"] (.file ⟨#[0xff]⟩ true true) }

/-- A configuration file that is no text is not told as a failure of the configuration. -/
theorem garbled_file_strays :
    ((load ⟨some "/c.yaml", true, [], none⟩).run garbledMachine (.start [])).1 =
      .error .notUtf8 ∧ ¬Fault.notUtf8.OfConfiguration :=
  ⟨rfl, fun ⟨_, _, _, h⟩ => nomatch h⟩

end Loader

end LintHost
