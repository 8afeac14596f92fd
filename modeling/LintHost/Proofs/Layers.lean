import LintHost.Proofs.Loading
import LintHost.Proofs.Overrides
import LintHost.Proofs.Variables

/-!
# Which layer an option is from

A configuration file, the environment and the arguments are laid one over the other. This file says,
option by option, what comes out: what the arguments say, or else the environment, or else the file,
or else the standard.

* `Settings.sectionsGive?`: what a mapping of sections says about an option, if anything;
* `Loader.Holds`, `Loader.Adds`: what the files of a request hold;
* `Loader.merged_layers`: every option of the merged layers;
* `layered_options`: every option of settings that are loaded.
-/

namespace LintHost

namespace Settings

/-! ## 1. Documents -/

/-- What an entry of its section says about an option. -/
def entryGives? (o : Setting) : Value × Value → Option Value
  | (.text name, v) => if name = o.name then some v else none
  | _ => none

/-- What a mapping of sections says about an option. -/
def sectionsGive? (sections : List (Value × Value)) (o : Setting) : Option Value :=
  match Value.get? (.text o.inSection.name) sections with
  | some (.map entries) => entries.reverse.findSome? (entryGives? o)
  | _ => none

/-- An entry that was set names an option of its section. -/
theorem setEntries_cons {s : Section} {key v : Value} {rest : List (Value × Value)}
    {settings settings' : Settings} (h : setEntries s ((key, v) :: rest) settings = .ok settings') :
    ∃ option : Setting, option.inSection = s ∧ key = .text option.name ∧
      setEntries s rest (settings.put option v) = .ok settings' := by
  cases key with
  | text name =>
    unfold setEntries at h
    split at h
    · cases h
    · split at h
      · rename_i option hoption
        obtain ⟨hs, rfl⟩ := Setting.of_find? hoption
        exact ⟨option, hs, rfl, h⟩
      · cases h
  | _ => cases h

theorem entryGives?_name (o option : Setting) (hs : o.inSection = option.inSection) (v : Value) :
    entryGives? o (.text option.name, v) = if o = option then some v else none := by
  refine if_congr ⟨fun h => ?_, fun h => h ▸ rfl⟩ rfl rfl
  exact Setting.eq_of_name hs h.symm

/-- The entries of a section set its options, and no others. -/
theorem setEntries_value {s : Section} : ∀ {entries : List (Value × Value)}
    {settings settings' : Settings}, setEntries s entries settings = .ok settings' → ∀ o : Setting,
    settings'.value o = ((if o.inSection = s then entries.reverse.findSome? (entryGives? o)
      else none).getD (settings.value o))
  | [], settings, settings', h, o => by
    obtain rfl := Except.ok.inj h
    split <;> rfl
  | (key, v) :: rest, settings, settings', h, o => by
    obtain ⟨option, rfl, rfl, hrest⟩ := setEntries_cons h
    rw [setEntries_value hrest o, put_value, List.reverse_cons, List.findSome?_append]
    by_cases hs : o.inSection = option.inSection
    · rw [if_pos hs, if_pos hs, List.findSome?_singleton, entryGives?_name o option hs]
      cases rest.reverse.findSome? (entryGives? o) with
      | some v => rfl
      | none => by_cases ho : o = option <;> simp [ho]
    · rw [if_neg hs, if_neg hs, if_neg fun h => hs (congrArg Setting.inSection h)]

theorem setEntries_gone {s : Section} : ∀ {entries : List (Value × Value)}
    {settings settings' : Settings}, setEntries s entries settings = .ok settings' →
    settings'.gone = settings.gone
  | [], settings, settings', h => by
    obtain rfl := Except.ok.inj h
    rfl
  | (key, v) :: rest, settings, settings', h => by
    obtain ⟨option, -, -, hrest⟩ := setEntries_cons h
    have hgone := setEntries_gone hrest
    exact hgone

/-- One section of a mapping sets the options of that section, and no others. -/
theorem setSection_value {sections : List (Value × Value)} {s : Section}
    {settings settings' : Settings} (h : setSection sections settings s = .ok settings') :
    settings'.gone = settings.gone ∧ ∀ o : Setting, settings'.value o =
      ((if o.inSection = s then sectionsGive? sections o else none).getD (settings.value o)) := by
  unfold setSection at h
  split at h
  · rename_i hget
    obtain rfl := Except.ok.inj h
    refine ⟨rfl, fun o => ?_⟩
    split
    · rename_i hs
      rw [sectionsGive?, hs, hget]
      rfl
    · rfl
  · rename_i entries hget
    split at h
    · refine ⟨setEntries_gone h, fun o => ?_⟩
      rw [setEntries_value h o]
      split
      · rename_i hs
        rw [sectionsGive?, hs, hget]
      · rfl
    · cases h
  · cases h

/-- **A mapping of sections** sets each option to what it says about it. -/
theorem ofMapping_value {sections : List (Value × Value)} {settings : Settings}
    (h : ofMapping (.map sections) = .ok settings) :
    settings.gone = [] ∧
      ∀ o : Setting, settings.value o = (sectionsGive? sections o).getD o.standard := by
  simp only [ofMapping, Section.all, List.foldlM_cons, List.foldlM_nil] at h
  obtain ⟨first, hfirst, h⟩ := Except.bind_eq_ok h
  obtain ⟨second, hsecond, h⟩ := Except.bind_eq_ok h
  obtain ⟨third, hthird, h⟩ := Except.bind_eq_ok h
  obtain rfl := Except.ok.inj h
  obtain ⟨hgone, hpolicy⟩ := setSection_value hfirst
  obtain ⟨hgone', hengine⟩ := setSection_value hsecond
  obtain ⟨hgone'', hlogging⟩ := setSection_value hthird
  refine ⟨by rw [hgone'', hgone', hgone]; rfl, fun o => ?_⟩
  -- of the three sections only the option's own gives anything
  rw [hlogging, hengine, hpolicy]
  cases hs : o.inSection <;> simp [standard]

/-- What holds the settings in a document that was taken for settings. -/
theorem ofDocument_value {document : Value} {settings : Settings}
    (h : ofDocument document = .ok settings) :
    ∃ entries sections, document = .map entries ∧ ownPart entries = .map sections ∧
      ofMapping (.map sections) = .ok settings := by
  unfold ofDocument at h
  split at h
  · rename_i entries
    split at h
    · rename_i settings' hmapping
      obtain rfl := Except.ok.inj h
      cases hown : ownPart entries with
      | map sections => exact ⟨entries, sections, rfl, hown, hown ▸ hmapping⟩
      | _ =>
        rw [hown] at hmapping
        cases hmapping
    · cases h
    · cases h
  · cases h

end Settings

/-! ## 2. All layers -/

namespace Loader

open LintHost.Settings

variable {w : World}

/-- What the configuration file of a request holds: the mapping of sections in its document, or
    nothing if there is no file. -/
inductive Holds (w : World) : Option String → List (Value × Value) → Prop
  | noFile : Holds w none []
  | noName : Holds w (some "") []
  | file {path : String} {format : Format} {bytes : ByteArray}
      {entries sections : List (Value × Value)} (hpath : path ≠ "")
      (hformat : Format.ofSuffix? (PartPath.ofText path).suffix = some format)
      (hread : w.files.read w.cwd (PartPath.ofText path).text = .ok bytes)
      (hdocument : document format bytes = .ok (.map entries))
      (hown : ownPart entries = .map sections) : Holds w (some path) sections

/-- What a file of variables adds to an environment. -/
inductive Adds (w : World) (env : Entries String) (path : String) : Entries String → Prop
  | switchedOff (h : switchedOff env = true) : Adds w env path []
  | file {text : String} (hon : Loader.switchedOff env = false)
      (htext : variableText w path = .ok text) : Adds w env path (EnvFile.fresh env text)

theorem settingsIn_holds {path : String} {settings : Settings} (hpath : path ≠ "")
    (h : settingsIn w path = .ok settings) :
    ∃ sections, Holds w (some path) sections ∧ ofMapping (.map sections) = .ok settings := by
  unfold settingsIn at h
  dsimp only at h
  obtain ⟨there, -, h⟩ := Except.bind_eq_ok h
  split at h
  · split at h
    · rename_i format hformat
      obtain ⟨bytes, hbytes, h⟩ := Except.bind_eq_ok h
      obtain ⟨v, hdocument, h⟩ := Except.bind_eq_ok h
      obtain ⟨entries, sections, rfl, hown, hmapping⟩ := ofDocument_value h
      refine ⟨sections, .file hpath hformat ?_ hdocument hown, hmapping⟩
      unfold content LookupFault.lift at hbytes
      cases hread : w.files.read w.cwd (PartPath.ofText path).text with
      | ok bytes' =>
        rw [hread] at hbytes
        rw [Except.ok.inj hbytes]
      | error fault =>
        rw [hread] at hbytes
        cases fault <;> cases hbytes
    · cases h
  · cases h

theorem base_layer {file? : Option String} {settings : Settings}
    (h : base w file? = .ok settings) :
    ∃ sections, Holds w file? sections ∧ settings.gone = [] ∧
      ∀ o : Setting, settings.value o = (sectionsGive? sections o).getD o.standard := by
  unfold base at h
  split at h
  · obtain rfl := Except.ok.inj h
    exact ⟨[], .noFile, rfl, fun o => rfl⟩
  · obtain rfl := Except.ok.inj h
    exact ⟨[], .noName, rfl, fun o => rfl⟩
  · rename_i path hpath
    obtain ⟨sections, hholds, hmapping⟩ := settingsIn_holds hpath h
    exact ⟨sections, hholds, ofMapping_value hmapping⟩

theorem supplied_eq {env env' : Entries String} {path : String}
    (h : supplied w env path = .ok env') :
    ∃ fresh, Adds w env path fresh ∧ env' = env ++ fresh := by
  unfold supplied at h
  split at h
  · rename_i hoff
    obtain rfl := Except.ok.inj h
    exact ⟨[], .switchedOff hoff, (List.append_nil env).symm⟩
  · rename_i hon
    obtain ⟨text, htext, h⟩ := Except.bind_eq_ok h
    obtain ⟨-, hadded⟩ := EnvFile.added_spec env text
    split at h
    · rename_i heq
      obtain rfl := Except.ok.inj h
      rw [heq] at hadded
      exact ⟨_, .file (Bool.eq_false_iff.mpr hon) htext, hadded rfl⟩
    · cases h

/-- **What all layers come to**: an option holds what the last layer gives that gives anything, and
    the variables that name a routine take it away. -/
theorem merged_layers {env : Entries String} {request : Request} {settings : Settings}
    (h : merged w env request = .ok settings) :
    ∃ sections asked, Holds w request.file sections ∧ Loader.asked w env request = .ok asked ∧
      (∀ o : Setting, settings.value o =
        ((argumentsGive? request.arguments o).or
          ((environmentGives? asked o).or (sectionsGive? sections o))).getD o.standard) ∧
      ∀ r : Routine, r ∈ settings.gone ↔ ∃ entry ∈ asked, variableKey? entry.1 = some r.key := by
  obtain ⟨below, hbase, h⟩ := Except.bind_eq_ok h
  obtain ⟨asked, hasked, h⟩ := Except.bind_eq_ok h
  obtain rfl := Except.ok.inj h
  obtain ⟨sections, hholds, hgone, hvalue⟩ := base_layer hbase
  refine ⟨sections, asked, hholds, hasked, fun o => ?_, fun r => ?_⟩
  · rw [withArguments_value, withEnvironment_value, hvalue]
    cases argumentsGive? request.arguments o with
    | some v => rfl
    | none => cases environmentGives? asked o <;> rfl
  · rw [withArguments_gone, withEnvironment_gone, hgone]
    simp

/-- **Every option of loaded settings** is what the arguments give that is not null, or else what
    the last variable of the environment gives, with the variables of a file behind those that were
    there, or else what the file gives, or else the standard, whatever was loaded before. -/
theorem layered_options {request : Request} {loading after : Loading} {settings : Settings}
    (huse : request.useEnv = true)
    (hload : (load request).run w loading = (.ok settings, after)) :
    ∃ sections fresh, Holds w request.file sections ∧
      Adds w loading.env (request.envFile.getD w.host.envFile) fresh ∧
      after.env = loading.env ++ fresh ∧
      ∀ o : Setting, settings.value o =
        ((argumentsGive? request.arguments o).or
          ((environmentGives? (loading.env ++ fresh) o).or
            (sectionsGive? sections o))).getD o.standard := by
  obtain ⟨after', hrun, hleft⟩ := load_run (w := w) request loading
  obtain ⟨hresult, rfl⟩ := Prod.mk.inj (hrun.symm.trans hload)
  obtain ⟨settings', hmerged, haccepted⟩ := Except.bind_eq_ok hresult
  obtain ⟨-, rfl⟩ := accepted_eq_ok haccepted
  obtain ⟨below, hbelow, -⟩ := Except.bind_eq_ok hmerged
  obtain ⟨sections, asked, hholds, hasked, hvalue, -⟩ := merged_layers hmerged
  rw [Loader.asked, if_pos huse] at hasked
  obtain ⟨fresh, hadds, rfl⟩ := supplied_eq hasked
  refine ⟨sections, fresh, hholds, hadds, hleft below hbelow _ ?_, hvalue⟩
  rw [left, if_pos huse, hasked]

/-- A machine with a configuration file, a file of variables and a variable of its own. -/
def layeredMachine : World :=
  { World.bare with
    files := (FileTree.empty.add ["c.toml"]
      (.file "[engine]\ntimeout_s = 5\n[logging]\nlevel = \"INFO\"\n".toUTF8 true true)).add [".env"]
      (.file "ESLINT_BRIDGE_LOGGING__LEVEL=error\n".toUTF8 true true)
    env := [("ESLINT_BRIDGE_ENGINE__TIMEOUT_S", "9")] }

/-- A request for all layers. -/
def layeredRequest : Request := ⟨some "/c.toml", true, [("log_file", .text "x.log")], none⟩

/-- On this machine all four layers are loaded. -/
theorem layered_machine_options :
    ∃ settings after, layeredRequest.useEnv = true ∧
      (load layeredRequest).run layeredMachine (.start layeredMachine.env) =
        (.ok settings, after) ∧
      ∃ sections fresh, Holds layeredMachine (some "/c.toml") sections ∧
        Adds layeredMachine layeredMachine.env "/.env" fresh ∧
        after.env = layeredMachine.env ++ fresh ∧
        ∀ o : Setting, settings.value o =
          ((argumentsGive? layeredRequest.arguments o).or
            ((environmentGives? (layeredMachine.env ++ fresh) o).or
              (sectionsGive? sections o))).getD o.standard := by
  have hok : ((load layeredRequest).run layeredMachine (.start layeredMachine.env)).1.isOk =
      true := by
    decide +kernel
  rcases hrun : (load layeredRequest).run layeredMachine (.start layeredMachine.env) with
    ⟨result, after⟩
  rw [hrun] at hok
  obtain ⟨settings, rfl⟩ := exists_of_isOk hok
  exact ⟨settings, after, rfl, rfl, layered_options rfl hrun⟩

end Loader

end LintHost
