import LintHost.Proofs.BothWays
import LintHost.Proofs.ChildEnv
import LintHost.Proofs.FileSettings
import LintHost.Proofs.PathText
import LintHost.Proofs.Trimming
import LintHost.Proofs.Usable

/-!
# Lists written with commas

An option for a list may be written as a text with commas, as a variable has to, or as a list, as a
configuration file can. Blanks around the entries of such a text and blank pieces between its commas
do not count. So both ways come to the same list, wherever it is used.

* `Entry`, `Spread`: entries that can stand between commas, and the pieces of a text that holds them;
* `commaList_of_spread`: these entries are read from the text;
* `Settings.policy_rulesDirs`, `Settings.pathEntries_eq`, `Settings.Alike.path`: what lists are for;
* `Loader.Alone`: nothing else sets the option;
* `Loader.list_both_ways`: a variable and a configuration file come to the same.
-/

namespace LintHost

open LintHost.Text

/-! ## 1. Blanks and commas -/

namespace Text

theorem no_comma_of_blank {cs : List Char} (h : ∀ c ∈ cs, isBlank c = true) : ',' ∉ cs :=
  fun hcomma => absurd (h ',' hcomma) (by decide)

end Text

/-! ## 2. Entries between commas -/

namespace Settings

/-- An entry that can stand between commas: it is not empty, has no comma, and no blank at its
    ends. -/
structure Entry (e : String) : Prop where
  nonempty : e ≠ ""
  commaless : ',' ∉ e.toList
  trimmed : trim e = e

/-- Pieces that hold entries: each piece is blank, or an entry between blanks. -/
inductive Spread : List String → List (List Char) → Prop
  | nil : Spread [] []
  | blank {entries : List String} {pieces : List (List Char)} {piece : List Char}
      (hpiece : ∀ c ∈ piece, isBlank c = true) (hrest : Spread entries pieces) :
      Spread entries (piece :: pieces)
  | entry {entries : List String} {pieces : List (List Char)} {e : String}
      {before after : List Char} (he : Entry e) (hbefore : ∀ c ∈ before, isBlank c = true)
      (hafter : ∀ c ∈ after, isBlank c = true) (hrest : Spread entries pieces) :
      Spread (e :: entries) ((before ++ (e.toList ++ after)) :: pieces)

variable {entries : List String} {pieces : List (List Char)}

/-- No comma stands in a piece. -/
theorem Spread.commaless (h : Spread entries pieces) : ∀ piece ∈ pieces, ',' ∉ piece := by
  induction h with
  | nil => exact List.forall_mem_nil _
  | blank hpiece _ ih => exact List.forall_mem_cons.mpr ⟨no_comma_of_blank hpiece, ih⟩
  | entry he hbefore hafter _ ih =>
    refine List.forall_mem_cons.mpr ⟨?_, ih⟩
    rw [List.mem_append, List.mem_append, not_or, not_or]
    exact ⟨no_comma_of_blank hbefore, he.commaless, no_comma_of_blank hafter⟩

theorem Spread.nonempty (h : Spread entries pieces) : ∀ e ∈ entries, e ≠ "" := by
  induction h with
  | nil => exact List.forall_mem_nil _
  | blank _ _ ih => exact ih
  | entry he _ _ _ ih => exact List.forall_mem_cons.mpr ⟨he.nonempty, ih⟩

/-- Trimming the pieces and dropping empty ones leaves the entries. -/
theorem Spread.trimmed (h : Spread entries pieces) :
    (pieces.map fun piece => String.ofList (trimWhere isBlank piece)).filter (· ≠ "") =
      entries := by
  induction h with
  | nil => rfl
  | blank hpiece _ ih =>
    rw [List.map_cons, trimWhere_blank hpiece]
    exact ih
  | @entry _ _ e _ _ he hbefore hafter _ ih =>
    have htrim : String.ofList (trimWhere isBlank e.toList) = e := he.trimmed
    rw [List.map_cons, trimWhere_between _ hbefore hafter, htrim,
      List.filter_cons_of_pos (by simpa using he.nonempty), ih]

/-- **The entries of a text with commas** are read from it, whatever blanks stand around them. -/
theorem commaList_of_spread (h : Spread entries pieces) :
    commaList (String.ofList (intercalate [','] pieces)) = entries := by
  unfold commaList
  rw [String.toList_ofList, splitOn_eq, intercalate_eq]
  by_cases hpieces : pieces = []
  · subst hpieces
    cases h
    rfl
  · rw [List.splitOn_intercalate ',' h.commaless hpieces, h.trimmed]

/-! ## 3. What lists are used for -/

variable {a b : Settings}

theorem texts_eq_ok (dirs : List String) : Record.texts (.list (dirs.map .text)) = .ok dirs := by
  have hitems (n : Nat) : Checked.items Record.text n (dirs.map .text) = .ok dirs := by
    induction dirs generalizing n with
    | nil => rfl
    | cons dir dirs ih =>
      rw [List.map_cons, Checked.items, ih]
      rfl
  exact hitems 0

/-- The directories with rules of a policy are those of the settings. -/
theorem policy_rulesDirs {policy : Policy} (h : a.policy = .ok policy) :
    listOf (a.value .rulesDirs) = .ok policy.rulesDirs := by
  obtain ⟨-, -, hlist⟩ := Except.bind_eq_ok h
  obtain ⟨dirs, hdirs, hfields⟩ := Except.bind_eq_ok hlist
  -- the record puts the policy together field by field, and the last but one holds the directories
  obtain ⟨upToDirs, fallback, hupToDirs, -, rfl⟩ :=
    Checked.seq_eq_ok.mp (Checked.toExcept_eq_ok.mp hfields)
  obtain ⟨upToIgnore, dirs', hupToIgnore, hfield, rfl⟩ := Checked.seq_eq_ok.mp hupToDirs
  obtain ⟨upToLocal, ignore, hupToLocal, -, rfl⟩ := Checked.seq_eq_ok.mp hupToIgnore
  obtain ⟨upToGlobal, localModules, hupToGlobal, -, rfl⟩ := Checked.seq_eq_ok.mp hupToLocal
  obtain ⟨upToUse, globalPath, hupToUse, -, rfl⟩ := Checked.seq_eq_ok.mp hupToGlobal
  obtain ⟨useGlobal, -, rfl⟩ := Checked.map_eq_ok.mp hupToUse
  have htexts : Checked.ok dirs' = .ok dirs := by
    rcases Record.field_eq_ok.mp hfield with ⟨hnone, -⟩ | ⟨v, hv, hread⟩
    · cases hnone
    · obtain rfl := Option.some.inj hv
      exact hread.symm.trans (texts_eq_ok dirs)
  rw [hdirs, Checked.ok.inj htexts]

/-- Settings that differ in one list are alike if both ways of writing it come to the same. -/
theorem SameBut.alike {o : Setting} (h : SameBut o a b) (ho : o ∈ listOptions)
    (hlist : listOf (a.value o) = listOf (b.value o)) : Alike a b := by
  refine ⟨fun other hother => h.value other fun heq => hother (heq ▸ ho), fun other _ => ?_, h.gone⟩
  by_cases hother : other = o
  · rw [hother, hlist]
  · rw [h.value other hother]

/-- Settings that are alike put the same in front of the same search path. -/
theorem Alike.path (h : Alike a b) {env env' : Entries String}
    (hpath : env.get? "PATH" = env'.get? "PATH") :
    Paired (fun c d => c.env.get? "PATH" = d.env.get? "PATH") (a.context env) (b.context env') := by
  unfold Settings.context
  rw [h.pathEntries]
  cases b.pathEntries with
  | error fault => exact .error fault
  | ok extra =>
    refine .ok ?_
    change (NodeTools.childEnv env none extra).get? "PATH" =
      (NodeTools.childEnv env' none extra).get? "PATH"
    rw [(NodeTools.childEnv_entries env extra).2, (NodeTools.childEnv_entries env' extra).2, hpath]

/-- Directories for the search path that are not empty are put there as they are. -/
theorem pathEntries_eq (hlist : listOf (a.value .extraPaths) = .ok entries)
    (hthere : .pathEntries ∉ a.gone) (hentries : ∀ e ∈ entries, e ≠ "") :
    a.pathEntries = .ok entries := by
  unfold pathEntries
  rw [Settings.available, if_neg hthere, Except.ok_bind, hlist, Except.ok_bind,
    List.filter_eq_self.mpr fun e he => decide_eq_true (hentries e he)]
  rfl

end Settings

/-! ## 4. Loading -/

namespace Loader

open LintHost.Settings

variable {w : World} {request : Request} {earlier later : Entries String} {x : String}
  {o : Setting} {entries : List String} {file' : Option String} {below below' : Settings}

/-- All other sources leave an option to the variable that names it: they do not set it, and the
    file of variables does not refer to the variable. -/
structure Alone (w : World) (request : Request) (others : Entries String) (x : String)
    (o : Setting) : Prop where
  named : variableKey? x = some o.key
  asked : request.useEnv = true
  noArgument : argumentsGive? request.arguments o = none
  noVariable : ∀ entry ∈ others, variableKey? entry.1 ≠ some o.key
  noStatement : ∀ text, variableText w (request.envFile.getD w.host.envFile) = .ok text →
    ∀ setting ∈ (EnvFile.statements text).1, variableKey? setting.1 ≠ some o.key
  unmentioned : ∀ text, variableText w (request.envFile.getD w.host.envFile) = .ok text →
    ∀ setting ∈ (EnvFile.statements text).1, ∀ value ∈ setting.2, ¬EnvFile.Mentions value x

theorem Alone.leavesAside {others env : Entries String} {text : String}
    (h : Alone w request others x o)
    (htext : variableText w (request.envFile.getD w.host.envFile) = .ok text) :
    EnvFile.LeavesAside env text x := by
  refine ⟨h.unmentioned text htext, fun value hvalue => ?_⟩
  obtain ⟨-, setting, hsetting, rfl⟩ := EnvFile.mem_fresh hvalue
  exact absurd h.named (h.noStatement text htext setting hsetting)

/-- The file of variables adds nothing to what the environment says about the option. -/
theorem Alone.gives_asked {others env asked : Entries String}
    (h : Alone w request others x o) (hasked : Loader.asked w env request = .ok asked) :
    Settings.environmentGives? asked o = Settings.environmentGives? env o :=
  environmentGives?_asked h.asked hasked fun text htext setting hsetting hkey =>
    absurd hkey (h.noStatement text htext setting hsetting)

/-- What is merged holds the list, once as the variable spells it and once as the file has it. -/
theorem merged_lists {t : String} (halone : Alone w request (earlier ++ later) x o)
    (hplain : Value.Plain t) (ht : commaList t = entries)
    (hbelow : base w request.file = .ok below) (hbelow' : base w file' = .ok below')
    (hbut : SameBut o below below') (hlist : below'.value o = .list (entries.map .text)) :
    Paired (fun a b => SameBut o a b ∧ listOf (a.value o) = .ok entries ∧
      listOf (b.value o) = .ok entries)
      (merged w (earlier ++ (x, t) :: later) request)
      (merged w (earlier ++ later) { request with file := file' }) := by
  have henv : Entries.erase x (earlier ++ (x, t) :: later) = Entries.erase x (earlier ++ later) := by
    simp [Entries.erase]
  have hmerged := @merged_paired w _ _ x o request { request with file := file' } halone.named henv
    (fun text htext => ⟨halone.leavesAside htext, halone.leavesAside htext⟩)
    (by rw [hbelow, hbelow']; exact .ok hbut) rfl rfl fun _ _ => rfl
  refine hmerged.mono fun a b h => ?_
  obtain ⟨hbut, ha, hb⟩ := h
  refine ⟨hbut, ?_, ?_⟩
  · obtain ⟨asked, hasked, hvalue⟩ := merged_value ha hbelow
    have hlater : ∀ entry ∈ later, variableKey? entry.1 ≠ some o.key :=
      fun entry hentry => halone.noVariable entry (List.mem_append_right _ hentry)
    have hspelled : Value.spelled t = .text t := Value.spelled_eq_text_iff.mpr ⟨hplain, rfl⟩
    rw [hvalue, halone.noArgument, halone.gives_asked hasked,
      environmentGives?_last halone.named hlater, hspelled]
    exact congrArg Except.ok ht
  · obtain ⟨asked, hasked, hvalue⟩ := merged_value hb hbelow'
    rw [hvalue, halone.noArgument, halone.gives_asked hasked,
      environmentGives?_none halone.noVariable, Option.none_or, Option.getD_none, hlist, listOf_texts]

/-- **A list comes to the same from a variable with commas and from a configuration file.** Let the
    text with commas between the pieces be plain, and let the pieces hold the entries. Let one load
    have a variable with this text, and another a configuration file that holds the list and is the
    same otherwise, all other sources being equal. Then both fail with the same fault, or the
    settings of both come to the same policy, with these directories for rules, and to the same
    directories for the search path, which are these, and so to the same search path. -/
theorem list_both_ways {loading : Loading} {pieces : List (List Char)} (ho : o ∈ listOptions)
    (hspread : Spread entries pieces)
    (hplain : Value.Plain (String.ofList (intercalate [','] pieces)))
    (halone : Alone w request (earlier ++ later) x o)
    (hbelow : base w request.file = .ok below) (hbelow' : base w file' = .ok below')
    (hbut : SameBut o below below') (hlist : below'.value o = .list (entries.map .text)) :
    let byVariable := ((load request).run w { loading with
      env := earlier ++ (x, String.ofList (intercalate [','] pieces)) :: later }).1
    let byFile := ((load { request with file := file' }).run w
      { loading with env := earlier ++ later }).1
    Paired (fun a b => a.policy = b.policy ∧ a.pathEntries = b.pathEntries ∧
      (o = .rulesDirs → a.Usable → ∃ policy, a.policy = .ok policy ∧ policy.rulesDirs = entries) ∧
      (o = .extraPaths → .pathEntries ∉ a.gone → a.pathEntries = .ok entries) ∧
      ∀ env env' : Entries String, env.get? "PATH" = env'.get? "PATH" →
        Paired (fun c d => c.env.get? "PATH" = d.env.get? "PATH")
          (a.context env) (b.context env')) byVariable byFile := by
  intro byVariable byFile
  have hmerged := merged_lists halone hplain (commaList_of_spread hspread) hbelow hbelow' hbut hlist
  have hone : byVariable = merged w (earlier ++ (x, String.ofList (intercalate [','] pieces)) :: later)
      request >>= accepted := load_result ..
  have hother : byFile = merged w (earlier ++ later) { request with file := file' } >>= accepted :=
    load_result ..
  rw [hone, hother]
  refine hmerged.bind fun a b h => ?_
  obtain ⟨hbut, hentries, hentries'⟩ := h
  have halike := hbut.alike ho (hentries.trans hentries'.symm)
  refine halike.accepted fun hcheck => ⟨halike.policy, halike.pathEntries, ?_, ?_,
    fun env env' hpath => halike.path hpath⟩
  · rintro rfl husable
    obtain ⟨policy, hpolicy⟩ := (policy_ok_iff hcheck).mpr ⟨husable.routines.1, husable.texts⟩
    exact ⟨policy, hpolicy, Except.ok.inj ((policy_rulesDirs hpolicy).symm.trans hentries)⟩
  · rintro rfl hthere
    exact pathEntries_eq hentries hthere hspread.nonempty

/-- A configuration file with two directories for the search path. -/
def pathsText : String := "[engine]\nextra_paths = [\"/opt/a b\", \"/opt/c\"]\n"

/-- A machine with this file. -/
def pathsMachine : World := fileMachine "c.toml" pathsText

/-- The same directories with commas, with blanks and a blank piece. -/
def pathsPieces : List (List Char) := [" /opt/a b".toList, [], "\t/opt/c ".toList]

theorem spread_pathsPieces : Spread ["/opt/a b", "/opt/c"] pathsPieces := by
  have hfirst : Entry "/opt/a b" := ⟨by decide, by decide, by decide⟩
  have hsecond : Entry "/opt/c" := ⟨by decide, by decide, by decide⟩
  have hnone : ∀ c ∈ ([] : List Char), isBlank c = true := List.forall_mem_nil _
  have hspace : ∀ c ∈ [' '], isBlank c = true := List.forall_mem_singleton.mpr rfl
  have htab : ∀ c ∈ ['\t'], isBlank c = true := List.forall_mem_singleton.mpr rfl
  exact .entry hfirst hspace hnone (.blank hnone (.entry hsecond htab hspace .nil))

/-- Directories from a variable with commas are put in front of the search path as those from a
    configuration file are. -/
theorem paths_both_ways :
    ∃ a b, ((load ⟨none, true, [], none⟩).run pathsMachine (.start [("PATH", "/bin"),
        ("ESLINT_BRIDGE_ENGINE__EXTRA_PATHS", " /opt/a b,,\t/opt/c ")])).1 = .ok a ∧
      ((load ⟨some "/c.toml", true, [], none⟩).run pathsMachine
        (.start [("PATH", "/bin")])).1 = .ok b ∧
      a.pathEntries = .ok ["/opt/a b", "/opt/c"] ∧ b.pathEntries = .ok ["/opt/a b", "/opt/c"] := by
  have htext : Format.toml.text? pathsText.toUTF8 = some pathsText := by decide +kernel
  have hparse : Format.toml.parse pathsText = .ok (.map [(.text "engine",
      .map [(.text "extra_paths", .list [.text "/opt/a b", .text "/opt/c"])])]) := by cbv
  have hbase : base pathsMachine (some "/c.toml") =
      .ok (Settings.standard.put .extraPaths (.list [.text "/opt/a b", .text "/opt/c"])) := by
    rw [base_some (by decide), pathsMachine, fileMachine_settings htext hparse]
    rfl
  have hvariables : variableText pathsMachine "/.env" = .ok "" := rfl
  have hstatements (text : String) (htext : variableText pathsMachine "/.env" = .ok text) :
      (EnvFile.statements text).1 = [] := by
    rw [← Except.ok.inj (hvariables.symm.trans htext)]
    rfl
  have halone : Alone pathsMachine ⟨none, true, [], none⟩ [("PATH", "/bin")]
      "ESLINT_BRIDGE_ENGINE__EXTRA_PATHS" .extraPaths := by
    refine ⟨by decide, rfl, rfl, by decide, fun text htext => ?_, fun text htext => ?_⟩
    · rw [hstatements text htext]
      exact List.forall_mem_nil _
    · rw [hstatements text htext]
      exact List.forall_mem_nil _
  have hbut : SameBut .extraPaths Settings.standard
      (Settings.standard.put .extraPaths (.list [.text "/opt/a b", .text "/opt/c"])) :=
    ⟨fun other hother => (if_neg hother).symm, fun _ => .rfl⟩
  have hends := @list_both_ways pathsMachine ⟨none, true, [], none⟩ [("PATH", "/bin")] []
    "ESLINT_BRIDGE_ENGINE__EXTRA_PATHS" .extraPaths ["/opt/a b", "/opt/c"] (some "/c.toml")
    .standard _ (.start []) pathsPieces (by decide) spread_pathsPieces
    ⟨by decide, by decide, by decide⟩ halone rfl hbase hbut rfl
  have hload : ((load ⟨none, true, [], none⟩).run pathsMachine (.start [("PATH", "/bin"),
      ("ESLINT_BRIDGE_ENGINE__EXTRA_PATHS", " /opt/a b,,\t/opt/c ")])).1 =
      .ok (Settings.standard.withEnvironment [("PATH", "/bin"),
        ("ESLINT_BRIDGE_ENGINE__EXTRA_PATHS", " /opt/a b,,\t/opt/c ")]) := rfl
  rcases paired_iff.mp hends with ⟨a, b, ha, hb, -, hpaths, -, hlist, -⟩ | ⟨fault, hfault, -⟩
  · have hthere : .pathEntries ∉ a.gone := by
      rw [← Except.ok.inj (hload.symm.trans ha)]
      decide
    have hentries := hlist rfl hthere
    exact ⟨a, b, ha, hb, hentries, hpaths ▸ hentries⟩
  · cases hload.symm.trans hfault

end Loader

end LintHost
