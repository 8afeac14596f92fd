import LintHost.Proofs.FileText
import LintHost.Proofs.Inspection
import LintHost.Proofs.OtherFiles
import LintHost.Proofs.Reports

/-!
# Saved rules

The rules that an engine reports can be saved in a file, and those of a later report compared with
them. Between the two lie the text of the file and whatever the later run does before it reads it,
its log among that.

* `Compares`: words ask for a comparison with the rules in a file;
* `ends_rulesFor`: what comes back is what the last child has reported;
* `saved_rules_compared`: what was saved is found again, and comparing tells whether ids have changed;
* `logged_rules_not_compared`: not so where the log is kept in that file.
-/

namespace LintHost.CommandLine

open LintHost.Action LintHost.Path LintHost.Text

variable {m : Machine} {w : World} {s t : Session} {policy : Policy} {file : PartPath}
  {project : Option String}

/-! ## 1. The rules that are reported -/

/-- A call after which the rules are taken returns those that its engine has reported. -/
theorem ends_call_rules (engine : Engine) :
    Ends m Idle ((·.rules) <$> engine.call .rules "" none)
      (fun rules t => ∃ report, m.world.Told t.started report ∧ rules = report.rules)
      (fun t => ∀ report, ¬m.world.Told t.started report) := by
  rw [map_eq_pure_bind]
  exact (ends_call_told engine .rules "" none).bind fun report =>
    .pure fun t htold => ⟨report, htold, rfl⟩

/-- **The rules of a file's engine** are those that the last child has reported. -/
theorem ends_rulesFor (policy : Policy) (file : PartPath) (project : Option String) :
    Ends m Idle (rulesFor policy file project)
      (fun rules t => ∃ report, m.world.Told t.started report ∧ rules = report.rules)
      (fun t => ∀ report, ¬m.world.Told t.started report) := by
  have hworking := ends_workplace (m := m) (P := Idle) searches_started (fun _ _ h => h)
    (fileDir m.world file) (absolute m.world.cwd file.text) policy project
  unfold rulesFor
  refine ends_directoryOf_bind ((ends_forDirectory _ policy project).untold.bind fun package =>
    ends_wholePath_bind ?_)
  refine Ends.discard_bind (hworking.mono (fun _ h => h) (fun _ _ h => h.1) fun _ h => h).untold
    fun working => (keeps_optionsFor locates_started policy file false).untold.bind fun options =>
    ⟨fun s hs => ?_⟩
  rw [Adapter.construct, bind_assoc, run_context_bind, pure_bind, Adapter.rules_new]
  exact (ends_call_rules _).outcome s hs

/-! ## 2. Saving and comparing -/

/-- What a comparison shows: the ids of the rules, and whether they are others than before. -/
def shownComparison (rules : Entries Json) (changed : Bool) : Json :=
  .object [("rules", .ofTexts (Rules.sorted rules).names), ("changed", .bool changed)]

theorem writable_shownComparison (rules : Entries Json) (changed : Bool) :
    (shownComparison rules changed).Writable := by
  have hints := Json.allInts_texts Json.shortInt (Rules.sorted rules).names
  have hdepth := Json.depth_texts (Rules.sorted rules).names
  refine Json.writable_object ?_
  simp [Json.allInts, Json.depth, Json.ofTexts, hints, hdepth]

/-- Rules are compared with those in a file that holds some. -/
theorem compared_eq {previous : PartPath} {known : Entries Json}
    (h : w.loadJson previous = .ok (some (.object known))) (rules : Entries Json) :
    compared w rules (some previous) false =
      .ok (.showing (shownComparison rules (Rules.changed known rules))) := by
  have hknown : inventoryIn w previous = .ok known := by
    unfold inventoryIn
    rw [h]
    rfl
  unfold compared
  dsimp only
  rw [hknown]
  rfl

/-- What is to be saved is the text of the rules in the order of their ids. -/
theorem compared_save {previous : PartPath} {rules : Entries Json} {answer : Answer}
    (h : compared w rules (some previous) true = .ok answer) : ∃ text,
      answer.written = some (previous, text) ∧
      Json.write Json.snapshot (.object (Rules.sorted rules)) = .ok text := by
  unfold compared at h
  dsimp only at h
  obtain ⟨known, -, h⟩ := Except.bind_eq_ok h
  rw [if_pos rfl] at h
  obtain ⟨text, htext, h⟩ := Except.bind_eq_ok h
  cases h
  refine ⟨text, rfl, ?_⟩
  unfold written at htext
  split at htext
  · cases htext
    assumption
  · cases htext

/-- A run that has shown something has written the file of its answer. -/
theorem settle_saved {answer : Answer} {outcome : Outcome} {file : PartPath} {text shown : String}
    (hwritten : answer.written = some (file, text))
    (hshown : (settle w answer outcome).ending = .shown shown) :
    w.files.write w.cwd file.text (encode text) = .ok (settle w answer outcome).files := by
  unfold settle at hshown ⊢
  rw [hwritten] at hshown ⊢
  dsimp only at hshown ⊢
  cases hwrite : LookupFault.lift file.text (w.files.write w.cwd file.text (encode text)) with
  | error fault =>
    rw [hwrite] at hshown
    exact absurd hshown (Ending.ofFault_ne_shown fault shown)
  | ok files =>
    dsimp only
    rw [finish_files]
    exact LookupFault.lift_eq_ok.mp hwrite

/-- Saved rules are loaded again, in the order of their ids, by whoever can read the file. -/
theorem loadJson_saved {previous : PartPath} {rules : Entries Json} {text : String}
    (hrules : (Json.object rules).Tidy)
    (htext : Json.write Json.snapshot (.object (Rules.sorted rules)) = .ok text)
    {files : FileTree}
    (hwrite : w.files.write w.cwd previous.text (encode text) = .ok files) {held : ByteArray}
    (hheld : files.read w.cwd previous.text = .ok held) :
    World.loadJson { w with files := files } previous =
      .ok (some (.object (Rules.sorted rules))) := by
  obtain rfl := FileTree.read_write hwrite hheld
  refine World.loadJson_eq_some.mpr ⟨encode text, text, hheld, Json.ofFile?_write htext,
    Json.read_write htext ?_⟩
  cases hrules with
  | object hnames hentries =>
    have hperm := Rules.sorted_perm rules
    exact .object ((hperm.map Prod.fst).nodup_iff.mpr hnames) fun e he =>
      hentries e (hperm.mem_iff.mp he)

/-! ## 3. The task -/

/-- **What rules are compared with** is what the file holds once they are reported. -/
theorem perform_rules (hs : Idle s) (previous : Option PartPath) (save : Bool) (input : String)
    {result : Except Fault Answer} {report : Report}
    (h : ((Task.rules file project previous save).perform policy input).run m s = (result, t))
    (htold : m.world.Told t.started report) :
    result = compared (m.now t) report.rules previous save := by
  have hrules := (ends_rulesFor (m := m) policy file project).outcome s hs
  unfold Task.perform at h
  dsimp only at h
  rcases hrun : (rulesFor policy file project).run m s with ⟨found, t'⟩
  rw [hrun] at hrules
  cases found with
  | error fault =>
    rw [run_bind_error hrun] at h
    cases h
    exact absurd htold (hrules report)
  | ok rules =>
    obtain ⟨report', htold', rfl⟩ := hrules
    rw [run_bind_ok hrun, run_now_bind, run_ofExcept] at h
    obtain ⟨rfl, rfl⟩ := Prod.mk.inj h
    rw [htold.unique htold']

/-- What is told to a run is told to its stage. -/
theorem Stage.Sound.told {ready : Stage} (h : ready.Sound w) {started : List Child.Request}
    {report : Report} (htold : w.Told started report) : ready.world.Told started report := by
  obtain ⟨earlier, r, hstarted, hruns, hreports⟩ := htold
  unfold World.Reports at hreports
  rw [← h.host, ← h.answer] at hreports
  exact ⟨earlier, r, hstarted, hruns, hreports⟩

/-- **A run whose engine has told rules** compares them, with what the file holds by then, and
    settles what comes of it. -/
theorem Stage.Sound.finish_rules {ready : Stage} (h : ready.Sound w) {words : List String}
    {previous : Option PartPath} {save : Bool}
    (htask : Task.ofWords ready.world .rules words = .ok (.rules file project previous save))
    {input : String} {report : Report}
    (htold : w.Told (ready.finish .rules words input).started report) :
    ∃ records outcome, ready.finish .rules words input =
      conclude (ready.world.after ready.prepared.setup records) outcome
        (compared (ready.world.after ready.prepared.setup records) report.rules previous save) := by
  obtain ⟨outcome, -, hstarted, hfinish⟩ := ready.finish_eq htask input
  rw [hfinish, conclude_started, hstarted] at htold
  rw [hfinish]
  rcases hrun : ready.perform input (.rules file project previous save) with ⟨result, t⟩
  rw [hrun] at htold
  have hresult := perform_rules (started_self _ _) _ _ _ hrun (h.told htold)
  have hleft : ready.left input (.rules file project previous save) = ready.machine.now t := by
    rw [left, hrun]
  refine ⟨t.log, outcome, ?_⟩
  rw [hleft, hresult]
  rfl

/-! ## 4. Two runs -/

/-- Words after the command ask for the rules to be compared with those in a file, and perhaps to be
    saved there. -/
def Compares (words : List String) (previous : String) (save : Bool) : Prop :=
  ∃ options file, given? (CommandOption.table .rules) true words = some (options, [file]) ∧
    .help ∉ options ∧ (options.filterMap CommandOption.previous?).getLast? = some previous ∧
    decide (.save ∈ options) = save

theorem Compares.task {words : List String} {previous : String} {save : Bool}
    (h : Compares words previous save) {task : Task}
    (htask : Task.ofWords w .rules words = .ok task) :
    ∃ file project, task = .rules file project (some (.ofText previous)) save := by
  obtain ⟨options, file, hgiven, hhelp, hprevious, rfl⟩ := h
  obtain ⟨-, path, hpath, rfl⟩ := Task.of_given hgiven hhelp htask
  rw [hprevious] at hpath
  obtain ⟨p, hp, rfl⟩ := Except.map_eq_ok (x := pathIn w previous) hpath
  obtain rfl := pathIn_eq_ok hp
  exact ⟨_, _, rfl⟩

/-- **A run that compares** has come so far as its engine has told rules. -/
theorem run_compares {leading words : List String} (hleading : Leading leading) {previous : String}
    {save : Bool} (hasks : Compares words previous save) {input : String} {report : Report}
    (htold : w.Told (run w (leading ++ Command.rules.name :: words) input).started report) :
    ∃ ready records outcome, Reaches w leading ready ∧
      run w (leading ++ Command.rules.name :: words) input =
        Stage.conclude (ready.world.after ready.prepared.setup records) outcome
          (compared (ready.world.after ready.prepared.setup records) report.rules
            (some (.ofText previous)) save) := by
  obtain ⟨earlier, r, hstarted, -, -⟩ := id htold
  have hr : r ∈ (run w (leading ++ Command.rules.name :: words) input).started := by
    rw [hstarted]
    exact List.mem_append_right _ (List.mem_singleton_self r)
  obtain ⟨ready, hreaches, hr⟩ := reaches_of_started hleading hr
  obtain ⟨task, htask, -⟩ := hreaches.sound.of_started hr
  obtain ⟨file, project, rfl⟩ := hasks.task htask
  rw [run_reached hleading hreaches] at htold ⊢
  obtain ⟨records, outcome, hfinish⟩ := hreaches.sound.finish_rules htask htold
  exact ⟨ready, records, outcome, hreaches, hfinish⟩

/-- A run that saves rules and ends well leaves them in the file, if that can be read. -/
theorem run_saves {leading words : List String} (hleading : Leading leading) {previous : String}
    (hasks : Compares words previous true) {input : String} {report : Report}
    (htold : w.Told (run w (leading ++ Command.rules.name :: words) input).started report)
    {shown : String}
    (hshown : (run w (leading ++ Command.rules.name :: words) input).ending = .shown shown)
    {held : ByteArray} (hheld : (run w (leading ++ Command.rules.name :: words) input).files.read
      w.cwd (PartPath.ofText previous).text = .ok held) :
    World.loadJson
        { w with files := (run w (leading ++ Command.rules.name :: words) input).files }
        (.ofText previous) = .ok (some (.object (Rules.sorted report.rules))) := by
  obtain ⟨ready, records, outcome, hreaches, hrun⟩ := run_compares hleading hasks htold
  have hcwd := (ready.world.after_cwd ready.prepared.setup records).trans hreaches.sound.cwd
  rw [hrun] at hshown hheld ⊢
  generalize ready.world.after ready.prepared.setup records = after at *
  cases hcompared : compared after report.rules (some (.ofText previous)) true with
  | error fault =>
    rw [hcompared] at hshown
    exact absurd hshown (Ending.ofFault_ne_shown fault shown)
  | ok answer =>
    rw [hcompared] at hshown hheld
    obtain ⟨text, hwritten, htext⟩ := compared_save hcompared
    have hwrite := settle_saved hwritten hshown
    obtain ⟨earlier, r, -, -, outcome, -, hreports⟩ := htold
    have hsaved := loadJson_saved hreports.held.tidy htext hwrite (hcwd ▸ hheld)
    obtain ⟨content, text', hcontent, htext', hread⟩ := World.loadJson_eq_some.mp hsaved
    exact World.loadJson_eq_some.mpr ⟨content, text', hcwd ▸ hcontent, htext', hread⟩

/-- A run that compares with rules in a file shows the comparison, if the log spares the file. -/
theorem run_shows_comparison {leading words : List String} (hleading : Leading leading)
    {previous : String} (hasks : Compares words previous false) {input : String} {report : Report}
    {known : Entries Json}
    (hknown : w.loadJson (.ofText previous) = .ok (some (.object known)))
    (hspares : ∀ ready, Reaches w leading ready → ready.Spares (PartPath.ofText previous).text)
    (htold : w.Told (run w (leading ++ Command.rules.name :: words) input).started report) :
    (run w (leading ++ Command.rules.name :: words) input).Shows
      (shownComparison report.rules (Rules.changed known report.rules)) := by
  obtain ⟨ready, records, outcome, hreaches, hrun⟩ := run_compares hleading hasks htold
  have hcwd := hreaches.sound.cwd
  have hthere : World.loadJson (ready.world.after ready.prepared.setup records)
      (.ofText previous) = .ok (some (.object known)) := by
    obtain ⟨content, text, hcontent, htext, hread⟩ := World.loadJson_eq_some.mp hknown
    have hstaged := hreaches.retains.read hcontent
    have hsame := FileTree.read_of_find (hspares ready hreaches records)
    rw [hcwd, hstaged] at hsame
    refine World.loadJson_eq_some.mpr ⟨content, text, ?_, htext, hread⟩
    rw [World.after_cwd, hcwd]
    exact hsame
  rw [hrun, compared_eq hthere]
  exact finish_shows (writable_shownComparison _ _) outcome

/-- **Saved rules are found again.** Let a run save the rules that its engine reports in a file that
    can be read then. From then on the file holds just these rules, in the strict order of their
    ids. Whichever run compares with it later, in whatever world, as long as the file holds what was
    saved and the run neither keeps its log there nor moves a full one there: what it shows tells
    the ids that its own engine reports, and that they have changed exactly if they are not the
    saved ones. -/
theorem saved_rules_compared {leading words : List String} (hleading : Leading leading)
    {previous : String} (hasks : Compares words previous true) {input : String} {report : Report}
    (htold : w.Told (run w (leading ++ Command.rules.name :: words) input).started report)
    (hshown : ∃ text, (run w (leading ++ Command.rules.name :: words) input).ending = .shown text)
    (hheld : ∃ held, (run w (leading ++ Command.rules.name :: words) input).files.read w.cwd
      (PartPath.ofText previous).text = .ok held) :
    (∃ rules : Entries Json, World.loadJson
        { w with files := (run w (leading ++ Command.rules.name :: words) input).files }
        (.ofText previous) = .ok (some (.object rules)) ∧
      rules.Perm report.rules ∧ rules.names.Pairwise (· < ·)) ∧
    ∀ {later : World} {leading' words' : List String} {input' : String} {report' : Report},
      Leading leading' → Compares words' previous false →
      later.files.read later.cwd (PartPath.ofText previous).text =
        (run w (leading ++ Command.rules.name :: words) input).files.read w.cwd
          (PartPath.ofText previous).text →
      (∀ ready, Reaches later leading' ready → ready.Spares (PartPath.ofText previous).text) →
      later.Told (run later (leading' ++ Command.rules.name :: words') input').started report' →
      ∃ changed, (run later (leading' ++ Command.rules.name :: words') input').Shows
          (shownComparison report'.rules changed) ∧
        (changed = true ↔ ¬Rules.SameIds report.rules report'.rules) := by
  obtain ⟨shown, hshown⟩ := hshown
  obtain ⟨held, hheld⟩ := hheld
  have hloads := run_saves hleading hasks htold hshown hheld
  have hperm := Rules.sorted_perm report.rules
  have hnodup : report.rules.names.Nodup := by
    obtain ⟨earlier, r, -, -, outcome, -, hreports⟩ := htold
    exact hreports.nodup
  refine ⟨⟨_, hloads, hperm, Rules.sorted_strict hnodup⟩, ?_⟩
  intro later leading' words' input' report' hleading' hasks' hsame hspares htold'
  have hknown : later.loadJson (.ofText previous) =
      .ok (some (.object (Rules.sorted report.rules))) := by
    obtain ⟨content, text, hcontent, htext, hread⟩ := World.loadJson_eq_some.mp hloads
    exact World.loadJson_eq_some.mpr ⟨content, text, hsame.trans hcontent, htext, hread⟩
  refine ⟨_, run_shows_comparison hleading' hasks' hknown hspares htold', ?_⟩
  have hsame := Rules.SameIds.of_perm hperm
  rw [Rules.changed_iff]
  exact not_congr ⟨fun h id => (hsame id).symm.trans (h id), fun h id => (hsame id).trans (h id)⟩

/-! ## 5. Runs on one machine -/

/-- The report that a text holds, if it does. -/
def reportIn? (text : String) : Option Report :=
  match Json.read (trim text) with
  | .ok (.object reply) =>
    match Report.ofFields reply with
    | .ok report => some report
    | .bad _ => none
  | _ => none

theorem reports_of_reportIn? {text : String} {report : Report} (h : reportIn? text = some report)
    (stderr : String) : (Child.Outcome.finished 0 text stderr).Reports report := by
  unfold reportIn? at h
  split at h
  · rename_i reply hread
    split at h
    · cases h
      exact ⟨text, stderr, reply, rfl, hread, ‹_›⟩
    · cases h
  · cases h

/-- A machine with a bundled copy of the linter whose children print this. -/
def printing (text : String) : World :=
  { World.plain with answer := fun _ _ => .finished 0 text "" }

/-- Where one child was started and that was sent something, it runs an engine. -/
theorem one_started {w : World} {words : List String} {input : String}
    (hone : (run w words input).started.map (·.input.isSome) = [true]) :
    ∃ r, (run w words input).started = [r] ∧ r.RunsEngine := by
  obtain ⟨r, hstarted, hsent⟩ := List.map_eq_singleton_iff.mp hone
  have hr : r ∈ (run w words input).started := hstarted ▸ List.mem_singleton_self r
  exact ⟨r, hstarted, sent_runs_engine hr (Option.isSome_iff_ne_none.mp hsent)⟩

/-- It has told what it printed. -/
theorem told_printing {w : World} {text : String} (hhost : w.host = World.plain.host)
    (hprints : w.answer = (printing text).answer) {words : List String} {input : String}
    (hone : (run w words input).started.map (·.input.isSome) = [true]) {report : Report}
    (hreport : reportIn? text = some report) : w.Told (run w words input).started report := by
  obtain ⟨r, hstarted, hruns⟩ := one_started hone
  refine ⟨[], r, hstarted, hruns, .finished 0 text "", ?_, reports_of_reportIn? hreport ""⟩
  rw [hprints, hhost]
  exact Child.awaited_rehearsed rfl _ _

/-- What an engine with one rule prints; the rule's description is a carriage return. -/
def semiOnly : String := "\x7b\"rules\":\x7b\"semi\":\"\\r\"\x7d\x7d"

/-- What an engine with another rule prints. -/
def eqeqeqOnly : String := "\x7b\"rules\":\x7b\"eqeqeq\":0\x7d\x7d"

theorem ids_printed : (reportIn? semiOnly).map (·.rules.names) = some ["semi"] ∧
    (reportIn? eqeqeqOnly).map (·.rules.names) = some ["eqeqeq"] := by
  decide +kernel

/-- A run has started one child that was sent something, and has shown a text. -/
def Outcome.shownByOne? (outcome : Outcome) : Option String :=
  match outcome.started.map (·.input.isSome), outcome.ending with
  | [true], .shown text => some text
  | _, _ => none

theorem Outcome.of_shownByOne? {outcome : Outcome} {text : String}
    (h : outcome.shownByOne? = some text) :
    outcome.started.map (·.input.isSome) = [true] ∧ outcome.ending = .shown text := by
  unfold shownByOne? at h
  split at h
  · cases h
    exact ⟨‹_›, ‹_›⟩
  · cases h

/-- Words that ask for a comparison. -/
def comparing : List String := ["p/a.js", "--previous", "rules.json"]

theorem saving_asks : Compares (comparing ++ ["--save"]) "rules.json" true :=
  ⟨[.previous "rules.json", .save], "p/a.js", by decide, by decide, rfl, rfl⟩

theorem comparing_asks : Compares comparing "rules.json" false :=
  ⟨[.previous "rules.json"], "p/a.js", by decide, by decide, rfl, rfl⟩

/-- The run of an engine with one rule, which is saved. -/
@[irreducible] def saving : Outcome :=
  run (printing semiOnly) ([] ++ Command.rules.name :: (comparing ++ ["--save"])) ""

theorem saving_eq : run (printing semiOnly)
    ([] ++ Command.rules.name :: (comparing ++ ["--save"])) "" = saving := by
  unfold saving
  rfl

/-- The files with what that run has saved. -/
def savedFiles : FileTree :=
  World.plain.files.put ["rules.json"]
    (.file (encode "\x7b\n  \"semi\": \"\\r\"\n\x7d") true true)

theorem saving_shown : saving.shownByOne?.isSome = true ∧
    (saving.files.read "/" "rules.json").toOption.map (·.data) =
      (savedFiles.read "/" "rules.json").toOption.map (·.data) ∧
    (savedFiles.read "/" "rules.json").toOption.isSome = true := by
  decide +kernel

theorem held_saved :
    savedFiles.read "/" "rules.json" = saving.files.read "/" "rules.json" := by
  obtain ⟨-, hsame, hsome⟩ := saving_shown
  obtain ⟨content, hcontent⟩ := Option.isSome_iff_exists.mp hsome
  rw [hcontent] at hsame
  rw [FileTree.read_of_data hsame, Except.eq_ok_of_toOption hcontent]

/-- A machine with these files, in an environment. -/
def afterSaving (text : String) (env : Entries String) : World :=
  { printing text with files := savedFiles, env := env }

/-- The later run of an engine. -/
def comparison (text : String) (env : Entries String) : Outcome :=
  run (afterSaving text env) ([] ++ Command.rules.name :: comparing) ""

/-- An engine with another rule than the one that was saved is compared with it: the ids have
    changed. -/
theorem other_rule_compared : ∃ report report' : Report,
    (printing semiOnly).Told saving.started report ∧ report.rules.names = ["semi"] ∧
    (∃ rules : Entries Json, World.loadJson { printing semiOnly with files := saving.files }
        (.ofText "rules.json") = .ok (some (.object rules)) ∧ rules.Perm report.rules) ∧
    (afterSaving eqeqeqOnly []).Told (comparison eqeqeqOnly []).started report' ∧
    report'.rules.names = ["eqeqeq"] ∧
    (comparison eqeqeqOnly []).Shows (shownComparison report'.rules true) := by
  obtain ⟨report, hreport, hids⟩ := Option.map_eq_some_iff.mp ids_printed.1
  obtain ⟨report', hreport', hids'⟩ := Option.map_eq_some_iff.mp ids_printed.2
  obtain ⟨shown, hshown⟩ := Option.isSome_iff_exists.mp saving_shown.1
  obtain ⟨hone, hending⟩ := Outcome.of_shownByOne? hshown
  rw [← saving_eq] at hone hending
  have htold := told_printing (w := printing semiOnly) rfl rfl hone hreport
  have hone' : (comparison eqeqeqOnly []).started.map (·.input.isSome) = [true] := by
    decide +kernel
  have htold' := told_printing (w := afterSaving eqeqeqOnly []) rfl rfl hone' hreport'
  have hlog : keepsLog (afterSaving eqeqeqOnly []) [] = false := by decide +kernel
  have hleading : Leading [] := ⟨[], rfl⟩
  have hheld : ∃ held, saving.files.read (printing semiOnly).cwd
      (PartPath.ofText "rules.json").text = .ok held := by
    obtain ⟨held, hsaved⟩ := Option.isSome_iff_exists.mp saving_shown.2.2
    exact ⟨held, held_saved.symm.trans (Except.eq_ok_of_toOption hsaved)⟩
  obtain ⟨⟨rules, hloads, hperm, -⟩, hlater⟩ := saved_rules_compared hleading saving_asks htold
    ⟨shown, hending⟩ (saving_eq ▸ hheld)
  rw [saving_eq] at htold hloads hlater
  obtain ⟨changed, hshows, hchanged⟩ := hlater hleading comparing_asks held_saved
    (fun ready hready => ready.spares_of_unlogged (hready.unlogged hlog) _) htold'
  have hother : ¬Rules.SameIds report.rules report'.rules := by
    intro hsame
    have hsemi := (hsame "semi").mp (by rw [hids]; decide)
    rw [hids'] at hsemi
    exact absurd hsemi (by decide)
  obtain rfl := hchanged.mpr hother
  exact ⟨report, report', htold, hids, ⟨rules, hloads, hperm⟩, htold', hids', hshows⟩

/-- Variables that keep a log in the file with the rules. -/
def loggedThere : Entries String :=
  [("ESLINT_BRIDGE_LOGGING__FILE", "rules.json"), ("ESLINT_BRIDGE_LOGGING__LEVEL", "INFO")]

/-- **Not so if the log is kept in the file.** The same engine with the same rule is compared with
    what was saved, and the file holds that before the run; but by the time it is read the log has
    been added to it, and the rules are told to have changed. -/
theorem logged_rules_not_compared : ∃ report : Report,
    (printing semiOnly).Told saving.started report ∧ (∃ text, saving.ending = .shown text) ∧
    (afterSaving semiOnly loggedThere).files.read (afterSaving semiOnly loggedThere).cwd
        "rules.json" = saving.files.read (printing semiOnly).cwd "rules.json" ∧
    (afterSaving semiOnly loggedThere).Told (comparison semiOnly loggedThere).started report ∧
    (comparison semiOnly loggedThere).Shows (shownComparison report.rules true) := by
  obtain ⟨report, hreport, hids⟩ := Option.map_eq_some_iff.mp ids_printed.1
  obtain ⟨shown, hshown⟩ := Option.isSome_iff_exists.mp saving_shown.1
  obtain ⟨hone, hending⟩ := Outcome.of_shownByOne? hshown
  have hcompared : (comparison semiOnly loggedThere).shownByOne? =
      some "\x7b\n  \"rules\": [\n    \"semi\"\n  ],\n  \"changed\": true\n\x7d" := by
    decide +kernel
  obtain ⟨hone', hending'⟩ := Outcome.of_shownByOne? hcompared
  have htold' := told_printing (w := afterSaving semiOnly loggedThere) rfl rfl hone' hreport
  have hsorted : (Rules.sorted report.rules).names = ["semi"] := by
    have hperm := (Rules.sorted_perm report.rules).map Prod.fst
    exact List.perm_singleton.mp (hids ▸ hperm)
  refine ⟨report, ?_, ⟨shown, hending⟩, held_saved, htold', _, hending', ?_⟩
  · rw [← saving_eq] at hone ⊢
    exact told_printing (w := printing semiOnly) rfl rfl hone hreport
  · unfold shownComparison
    rw [hsorted]
    rfl

end LintHost.CommandLine
