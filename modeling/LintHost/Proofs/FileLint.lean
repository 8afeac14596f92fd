import LintHost.Proofs.Snapshot

/-!
# Linting a file

A lint reads its file, sends the text to an engine and, if it is asked to, puts what the engine has
made of it in its place. The text is that of the file with its line ends unified; what is put in its
place is written as it is. So a file with carriage returns loses them. While it runs, it tells things
to a log, which must not be this file.

* `Child.Request.Lints`: a child is asked to lint a text; `Job.started_lints`: so is that of a job;
* `Job.ends_told`: what a job returns is made of what the last child has told;
* `Text.unified`, `fixedText`: the text that is linted, and what takes the place of a text;
* `Stage.Sound.finish_lint`: what a lint leaves in the file, however it ends;
* `lint_keeps_text`: what is sent and what is left, over whole runs.
-/

namespace LintHost

open LintHost.Action

/-! ## 1. The request -/

/-- A child is asked to lint a text: so says its request where it is read. -/
def Child.Request.Lints (r : Child.Request) (text : String) : Prop :=
  ∃ input request, r.input = some input ∧ Json.read input = .ok (.object request) ∧
    Entries.get? "mode" request = some (.text "lint") ∧
    Entries.get? "text" request = some (.text text)

theorem Child.Request.Lints.unique {r : Child.Request} {text other : String} (h : r.Lints text)
    (hother : r.Lints other) : text = other := by
  obtain ⟨input, request, hinput, hread, -, htext⟩ := h
  obtain ⟨input', request', hinput', hread', -, htext'⟩ := hother
  cases hinput.symm.trans hinput'
  cases hread.symm.trans hread'
  cases htext.symm.trans htext'
  rfl

/-- **A job's engine is asked to lint the job's text**, if no rule of the job is there twice. -/
theorem Job.Calls.lints {w : World} {job : Job} {resolved : Job.Resolved} {r : Child.Request}
    (h : job.Calls w resolved r) (hrules : (Json.object job.rules).Tidy) :
    r.Lints job.contents := by
  obtain ⟨engine, -, hgiven, input, hinput, hwrite⟩ := h.input
  rw [← hgiven] at hrules
  exact ⟨input, _, hinput, Json.read_write hwrite (Engine.requestOf_tidy hrules), rfl, rfl⟩

namespace Job

variable {m : Machine} {job : Job} {policy : Policy}

/-- So are all engines that the job starts. -/
theorem started_lints (hrules : (Json.object job.rules).Tidy) {s : Session} (hs : s.started = [])
    {r : Child.Request} (hr : r ∈ ((job.run policy).run m s).2.started) (hruns : r.RunsEngine) :
    r.Lints job.contents := by
  have hpackage : Ends m (Started s.started (·.Lints job.contents))
      (Package.forDirectory (job.fileDir m.world) policy job.projectPath)
      (fun _ t => Started s.started (·.Lints job.contents) t ∧ True)
      (Started s.started (·.Lints job.contents)) :=
    (ends_forDirectory _ policy job.projectPath).mono (fun _ h => h) (fun _ _ h => ⟨h, trivial⟩)
      fun _ h => h
  have hjob := ends_job (B := fun _ => True) searches_started (fun _ _ h => h) job policy hpackage
    fun resolved t r log _ _ ht hr => ht.add rfl fun _ => hr.lints hrules
  obtain ⟨later, hlater, hlints⟩ := hjob.session (started_self _ s)
  rw [hlater, hs] at hr
  exact hlints r hr hruns

end Job

/-! ## 2. The reply -/

/-- A text escapes one half of a surrogate pair without the other half next to it. The first argument
    tells whether a first half stands right in front of the text. -/
def Json.loneHalf : Bool → List Char → Bool
  | first, '\\' :: 'u' :: a :: b :: c :: d :: rest =>
    match hex4? a b c d with
    | some n =>
      if isLowHalf n then !first || loneHalf false rest
      else first || loneHalf (isHighHalf n) rest
    | none => first || loneHalf false rest
  | first, '\\' :: _ :: rest => first || loneHalf false rest
  | first, _ :: rest => first || loneHalf false rest
  | first, [] => first

/-- A child has printed no half of a surrogate pair alone. -/
def Child.Outcome.Whole : Child.Outcome → Prop
  | .finished _ stdout _ => Json.loneHalf false stdout.toList = false
  | _ => True

namespace Job

variable {m : Machine} {job : Job} {policy : Policy}

/-- **What a job returns is made of what the last child has told**, and if that has told nothing the
    job fails. -/
theorem ends_told (hjob : job.type = "lint" ∨ job.type = "fix") (policy : Policy) :
    Ends m Idle (job.run policy)
      (fun reply t => ∃ report, m.world.Told t.started report ∧
        reply = job.resultOf report report.rules)
      (fun t => ∀ report, ¬m.world.Told t.started report) := by
  have hpackage : Ends m Idle (Package.forDirectory (job.fileDir m.world) policy job.projectPath)
      (fun _ t => Idle t ∧ True) Idle :=
    (ends_forDirectory _ policy job.projectPath).mono (fun _ h => h) (fun _ _ h => ⟨h, trivial⟩)
      fun _ h => h
  have hresolve := ends_resolve (B := fun _ => True) searches_started (fun _ _ h => h)
    (fun _ h => h) job policy hpackage
  rw [Job.lint_run hjob]
  refine (hresolve.mono (fun _ h => h) (fun _ _ h => h.1) fun _ h => h).untold.bind
    fun resolved => ?_
  rw [Job.lint_eq]
  have hsearches : Searches m (Same Idle) (Same Idle) := searches_started
  have hbuild := hsearches.options job.type policy job.rules resolved.fileDir resolved.config
  refine hbuild.keeps.untold.bind fun options => ⟨fun s hs => ?_⟩
  rw [run_context_bind]
  refine ((ends_call_told _ _ _ _).bind fun report => ⟨fun t htold => ?_⟩).outcome s hs
  -- What comes after the call tells something, if anything, and starts nothing.
  split
  · exact ⟨report, htold, rfl⟩
  · exact ⟨report, htold, rfl⟩

end Job

/-! ## 3. The text -/

/-- A text with its line ends unified. -/
def Text.unified (s : String) : String := String.ofList (unifyNewlines s.toList)

/-- **Exactly the texts without carriage returns** are left as they are. -/
theorem Text.unified_eq_self {s : String} : unified s = s ↔ '\r' ∉ s.toList := by
  rw [unified, ← String.toList_inj, String.toList_ofList, unifyNewlines_eq_self]

namespace CommandLine

open LintHost.Text

variable {m : Machine} {w : World} {s : Session} {policy : Policy} {file : PartPath}
  {project : Option String} {fix write stdin readable writable : Bool}
  {input contents held : String} {place : Location}

/-- What takes the place of a text that was linted: what the engine has made of it, if that is to be
    written and is another text. -/
def fixedText (fix write : Bool) (contents : String) (report : Report) : Option String :=
  if fix ∧ write then report.output.filter (· ≠ contents) else none

theorem fixedText_eq_some {report : Report} {text : String} :
    fixedText fix write contents report = some text ↔
      fix = true ∧ write = true ∧ report.output = some text ∧ text ≠ contents := by
  unfold fixedText
  split
  · rename_i h
    simp [h, Option.filter_eq_some_iff]
  · rename_i h
    simp only [reduceCtorEq, false_iff]
    exact fun hall => h ⟨hall.1, hall.2.1⟩

theorem replacement_output (report : Report) :
    (if fix ∧ write then replacement file contents
        ((lintJob file project fix contents).resultOf report report.rules).output else none) =
      (fixedText fix write contents report).map fun text => (file, text) := by
  unfold fixedText
  split
  · rename_i h
    obtain ⟨rfl, -⟩ := h
    have houtput : ((lintJob file project true contents).resultOf report report.rules).output =
        some (report.output.getD contents) := by
      simp [lintJob, Job.resultOf]
    rw [houtput]
    unfold replacement
    cases report.output with
    | none => simp
    | some text => by_cases htext : text = contents <;> simp [htext]
  · rfl

/-- The text that a file's task lints, where it stands on the input or the file can be read. -/
theorem perform_lint (hnow : m.now s = m.world)
    (hheld : stdin = false → m.world.files.read m.world.cwd file.text = .ok (encode held)) :
    ((Task.lint file project fix write stdin).perform policy input).run m s =
      (lintText policy file project fix write
        (unified (if stdin then input else held))).run m s := by
  unfold Task.perform
  dsimp only
  cases stdin with
  | true =>
    rw [if_pos rfl, if_pos rfl, pure_bind]
    rfl
  | false =>
    have htext : textOf m.world file = .ok (unified held) := by
      have hdecoded := ofFile?_eq_some.mpr ⟨held, rfl, (rfl : unified held = _)⟩
      unfold textOf
      rw [hheld rfl]
      simp only [LookupFault.lift, hdecoded]
    rw [if_neg Bool.false_ne_true, if_neg Bool.false_ne_true, run_now_bind, hnow, htext,
      run_bind_ok (run_ofExcept _ _)]

/-- A task whose file cannot be read fails before it does anything. -/
theorem perform_unread (hnow : m.now s = m.world) {why : LookupFault}
    (hheld : m.world.files.read m.world.cwd file.text = .error why) :
    ∃ fault, ((Task.lint file project fix write false).perform policy input).run m s =
      (.error fault, s) := by
  have htext : Fails (textOf m.world file) := by
    unfold textOf
    rw [hheld]
    cases hlift : LookupFault.lift file.text (Except.error why : Except LookupFault ByteArray) with
    | ok content => cases LookupFault.lift_eq_ok.mp hlift
    | error fault => cases fault <;> exact ⟨_, rfl⟩
  obtain ⟨fault, hfault⟩ := htext
  refine ⟨fault, ?_⟩
  unfold Task.perform
  dsimp only
  rw [if_neg Bool.false_ne_true, run_now_bind, hnow, hfault, run_bind_error (run_ofExcept _ _)]

/-- **What a lint is to write** is made of what the last child has told. -/
theorem ends_lintText (policy : Policy) (file : PartPath) (project : Option String)
    (fix write : Bool) (contents : String) :
    Ends m Idle (lintText policy file project fix write contents)
      (fun answer t => ∃ report, m.world.Told t.started report ∧
        answer.written = (fixedText fix write contents report).map fun text => (file, text))
      (fun t => ∀ report, ¬m.world.Told t.started report) := by
  have hjob := lintJob_type file project fix contents
  unfold lintText
  refine ((lintJob file project fix contents).ends_told hjob policy).bind fun reply =>
    .pure fun t htold => ?_
  obtain ⟨report, htold, rfl⟩ := htold
  exact ⟨report, htold, replacement_output report⟩

/-- **A task lints the text** on the input or in its file, or that file cannot be read and the task
    does nothing. -/
theorem perform_cases (policy : Policy) (input : String) (project : Option String)
    (fix write stdin : Bool) (hnow : m.now s = m.world)
    (hheld : m.world.files.Opens m.world.cwd file.text place
      (.file (encode held) readable writable)) :
    ((Task.lint file project fix write stdin).perform policy input).run m s =
        (lintText policy file project fix write
          (unified (if stdin then input else held))).run m s ∨
      ∃ fault, ((Task.lint file project fix write stdin).perform policy input).run m s =
        (.error fault, s) := by
  have hread : m.world.files.read m.world.cwd file.text =
      if readable then .ok (encode held) else .error .denied := by
    unfold FileTree.read FileTree.stat FileTree.statWith
    rw [hheld.found]
    cases readable <;> rfl
  cases stdin with
  | true => exact .inl (perform_lint hnow nofun)
  | false =>
    cases readable with
    | true => exact .inl (perform_lint hnow fun _ => hread)
    | false => exact .inr (perform_unread hnow hread)

/-- So what it is to write is made of what the last child has told. -/
theorem ends_perform (hnow : m.now s = m.world) (hs : Idle s)
    (hheld : m.world.files.Opens m.world.cwd file.text place
      (.file (encode held) readable writable)) :
    Action.Outcome (fun answer t => ∃ report, m.world.Told t.started report ∧
        answer.written = (fixedText fix write (unified (if stdin then input else held)) report).map
          fun text => (file, text))
      (fun t => ∀ report, ¬m.world.Told t.started report)
      (((Task.lint file project fix write stdin).perform policy input).run m s) := by
  rcases perform_cases policy input project fix write stdin hnow hheld with
    hlint | ⟨fault, hfault⟩
  · rw [hlint]
    exact (ends_lintText policy file project fix write _).outcome s hs
  · rw [hfault]
    exact hs.not_told

/-! ## 4. The file -/

/-- What an answer is to write stands in the file afterwards, and else what was there; a file that
    may not be written stays too, and that is told. -/
theorem settle_opens {answer : Answer} {outcome : Outcome} {given : Option String}
    (hwritten : answer.written = given.map fun text => (file, text))
    (hfiles : outcome.files = w.files)
    (hheld : w.files.Opens w.cwd file.text place (.file (encode held) readable writable)) :
    (settle w answer outcome).files.Opens w.cwd file.text place
        (.file (encode (if writable then given.getD held else held)) readable writable) ∧
      (writable = false → given ≠ none →
        (settle w answer outcome).ending = .ofFault (.ofLookup file.text .denied)) := by
  unfold settle
  rw [hwritten]
  cases given with
  | none =>
    dsimp only [Option.map]
    rw [finish_files, hfiles]
    refine ⟨?_, fun _ hne => absurd rfl hne⟩
    cases writable <;> exact hheld
  | some text =>
    dsimp only [Option.map]
    cases writable with
    | false =>
      have hwrite : w.files.write w.cwd file.text (encode text) = .error .denied := by
        unfold FileTree.write FileTree.writable
        rw [hheld.found]
        rfl
      rw [hwrite]
      refine ⟨?_, fun _ _ => rfl⟩
      show outcome.files.Opens _ _ _ _
      rw [hfiles]
      exact hheld
    | true =>
      have hsheet := FileTree.writable_of_opens hheld
      have hwrite := FileTree.write_eq_ok.mpr ⟨_, hsheet, (rfl : _ = w.files.fill _ (encode text))⟩
      rw [LookupFault.lift_eq_ok.mpr hwrite]
      dsimp only
      rw [finish_files]
      exact ⟨⟨FileTree.find_fill hsheet _, Node.isFile_file _ _ _⟩, nofun⟩

/-- A text takes the place of the one that was linted: the run is to fix the file and to write it,
    and the last child has told this text, which is another one. -/
def Replaces (w : World) (started : List Child.Request) (fix write : Bool)
    (contents text : String) : Prop :=
  fix = true ∧ write = true ∧ ∃ report, w.Told started report ∧ report.output = some text ∧
    text ≠ contents

theorem Replaces.told {started : List Child.Request} {text : String}
    (h : Replaces w started fix write contents text) : ∃ report, w.Told started report := by
  obtain ⟨-, -, report, htold, -⟩ := h
  exact ⟨report, htold⟩

theorem replaces_iff {started : List Child.Request} {report : Report}
    (htold : w.Told started report) {text : String} :
    Replaces w started fix write contents text ↔
      fixedText fix write contents report = some text := by
  rw [fixedText_eq_some]
  constructor
  · rintro ⟨hfix, hwrite, report', htold', htext⟩
    rw [htold.unique htold']
    exact ⟨hfix, hwrite, htext⟩
  · rintro ⟨hfix, hwrite, htext⟩
    exact ⟨hfix, hwrite, report, htold, htext⟩

/-- **What a lint leaves in the file**: the text that takes the place of the one that was linted,
    and what was there if none does or the file may not be written. -/
theorem Stage.Sound.finish_lint {ready : Stage} (h : ready.Sound w) {words : List String}
    (htask : Task.ofWords ready.world .lint words = .ok (.lint file project fix write stdin))
    (hheld : ready.world.files.Opens ready.world.cwd file.text place
      (.file (encode held) readable writable))
    (hspares : ready.Spares file.text) : ∃ given : Option String,
      (∀ text, given = some text ↔ Replaces w (ready.finish .lint words input).started fix write
        (unified (if stdin then input else held)) text) ∧
      (ready.finish .lint words input).files.Opens ready.world.cwd file.text place
        (.file (encode (if writable then given.getD held else held)) readable writable) ∧
      (writable = false → given ≠ none →
        (ready.finish .lint words input).ending = .ofFault (.ofLookup file.text .denied)) := by
  obtain ⟨outcome, hfiles, hstarted, hfinish⟩ := ready.finish_eq htask input
  -- What was told before the answer is settled stands in the log, which spares the file.
  have hleft : (ready.left input (.lint file project fix write stdin)).files.Opens
      ready.world.cwd file.text place (.file (encode held) readable writable) :=
    ⟨(hspares _).trans hheld.found, hheld.isFile⟩
  have hcwd : (ready.left input (.lint file project fix write stdin)).cwd = ready.world.cwd :=
    ready.world.after_cwd _ _
  have hends : Action.Outcome _ _ (ready.perform input (.lint file project fix write stdin)) :=
    ends_perform (ready.world.after_nil _) (started_self _ _) hheld
  rcases hrun : ready.perform input (.lint file project fix write stdin) with ⟨result, t⟩
  rw [hrun] at hends hstarted hfinish
  have htold (report : Report) : w.Told (ready.finish .lint words input).started report ↔
      ready.world.Told t.started report := by
    rw [hfinish, conclude_started, hstarted]
    unfold World.Told World.Reports
    rw [h.host, h.answer]
  cases result with
  | error fault =>
    refine ⟨none, fun text => iff_of_false nofun fun hreplaces => ?_, ?_,
      fun _ hne => absurd rfl hne⟩
    · obtain ⟨report, hreport⟩ := hreplaces.told
      exact hends report ((htold report).mp hreport)
    · rw [hfinish]
      show outcome.files.Opens _ _ _ _
      rw [hfiles]
      cases writable <;> exact hleft
  | ok answer =>
    obtain ⟨report, hreport, hwritten⟩ := hends
    refine ⟨_, fun text => (replaces_iff ((htold report).mpr hreport)).symm, ?_⟩
    rw [hfinish, ← hcwd]
    exact settle_opens hwritten hfiles (hcwd ▸ hleft)

/-! ## 5. The run -/

/-- Words after the command ask for a file to be linted, and tell whether it is to be fixed and
    written and whether the text stands on the input. -/
def AsksLint (words : List String) (file : String) (fix write stdin : Bool) : Prop :=
  ∃ options, given? (CommandOption.table .lint) true words = some (options, [file]) ∧
    .help ∉ options ∧ decide (.fix ∈ options) = fix ∧ decide (.write ∈ options) = write ∧
    decide (.stdin ∈ options) = stdin

theorem AsksLint.task {words : List String} {file : String}
    (h : AsksLint words file fix write stdin) {task : Task}
    (htask : Task.ofWords w .lint words = .ok task) :
    ∃ project, task = .lint (.ofText file) project fix write stdin := by
  obtain ⟨options, hgiven, hhelp, rfl, rfl, rfl⟩ := h
  obtain ⟨-, previous, -, rfl⟩ := Task.of_given hgiven hhelp htask
  exact ⟨_, rfl⟩

section Run

variable {leading words : List String} {file : String} (hleading : Leading leading)
  (hasks : AsksLint words file fix write stdin)
  (hheld : w.files.Opens w.cwd (PartPath.ofText file).text place
    (.file (encode held) readable writable))
include hleading hasks hheld

/-- **The engine of a lint is sent** the text on the input or in the file, with unified line
    ends. -/
theorem lint_sends {r : Child.Request}
    (hr : r ∈ (run w (leading ++ Command.lint.name :: words) input).started)
    (hruns : r.RunsEngine) : r.Lints (unified (if stdin then input else held)) := by
  obtain ⟨ready, hreaches, hr⟩ := reaches_of_started hleading hr
  have hsound := hreaches.sound
  obtain ⟨task, htask, hr⟩ := hsound.of_started hr
  obtain ⟨project, rfl⟩ := hasks.task htask
  have hthere := hreaches.retains _ _ _ _ hheld
  rw [← hsound.cwd] at hthere
  unfold Stage.perform at hr
  rcases perform_cases (m := ready.machine) (s := .start ready.prepared.context)
    ready.prepared.policy input project fix write stdin (ready.world.after_nil _) hthere with
    hlint | ⟨fault, hfault⟩
  · rw [hlint, lintText_started] at hr
    have htidy : (Json.object []).Tidy := .object List.nodup_nil nofun
    exact Job.started_lints htidy rfl hr hruns
  · rw [hfault] at hr
    cases hr

/-- **A lint leaves in its file** the text that takes the place of the one that was linted, and what
    was there if none does or the file may not be written. -/
theorem lint_leaves (input : String)
    (hspares : ∀ ready, Reaches w leading ready → ready.Spares (PartPath.ofText file).text) :
    ∃ given : Option String,
      (∀ text, given = some text ↔
        Replaces w (run w (leading ++ Command.lint.name :: words) input).started fix write
          (unified (if stdin then input else held)) text) ∧
      (run w (leading ++ Command.lint.name :: words) input).files.Opens w.cwd
        (PartPath.ofText file).text place
        (.file (encode (if writable then given.getD held else held)) readable writable) ∧
      (writable = false → given ≠ none →
        (run w (leading ++ Command.lint.name :: words) input).ending =
          .ofFault (.ofLookup (PartPath.ofText file).text .denied)) := by
  have hnone {started : List Child.Request} (hstarted : started = []) (text : String) :
      none = some text ↔ Replaces w started fix write (unified (if stdin then input else held))
        text := by
    refine iff_of_false nofun fun hreplaces => ?_
    obtain ⟨report, earlier, r, hcons, -⟩ := hreplaces.told
    rw [hstarted] at hcons
    simp at hcons
  rcases reaches_or_ends (w := w) hleading .lint words input with
    ⟨ready, hreaches⟩ | ⟨hstarted, hretains⟩
  · have hsound := hreaches.sound
    have hthere := hreaches.retains _ _ _ _ hheld
    rw [run_reached hleading hreaches, ← hsound.cwd]
    rw [← hsound.cwd] at hthere
    cases htask : Task.ofWords ready.world .lint words with
    | error ending =>
      -- The words after the command are not read, and nothing comes of them.
      unfold Stage.finish
      rw [htask]
      refine ⟨none, hnone hsound.started, ?_, fun _ hne => absurd rfl hne⟩
      dsimp only
      rw [hsound.files]
      cases writable <;> exact hthere
    | ok task =>
      obtain ⟨project, rfl⟩ := hasks.task htask
      exact hsound.finish_lint htask hthere (hspares ready hreaches)
  · refine ⟨none, hnone hstarted, ?_, fun _ hne => absurd rfl hne⟩
    cases writable <;> exact hretains _ _ _ _ hheld

/-- **A lint works on the text of its file**, as far as line ends go. Whatever the file holds,
    whichever options are given, whatever the engine tells and however the run ends: the engine is
    sent the text of the file or on the input with unified line ends, which is the file's own text
    exactly if that has no carriage return; a text that the engine has told takes the place of what
    the file held if it is another one and the run is to fix and to write, but where the file may
    not be written it stays and the run fails; and if there is no such text, the file holds what it
    has held. The log must leave the file alone. What becomes of a text with half of a surrogate
    pair is not told. -/
theorem lint_keeps_text
    (hspares : ∀ ready, Reaches w leading ready → ready.Spares (PartPath.ofText file).text)
    (input : String) (_hwhole : ∀ earlier r,
      (run w (leading ++ Command.lint.name :: words) input).started = earlier ++ [r] →
        (w.answer earlier r).Whole) :
    (∀ r ∈ (run w (leading ++ Command.lint.name :: words) input).started, r.RunsEngine →
      r.Lints (unified (if stdin then input else held))) ∧
    (stdin = false → (unified (if stdin then input else held) = held ↔ '\r' ∉ held.toList)) ∧
    (∀ text, Replaces w (run w (leading ++ Command.lint.name :: words) input).started fix write
        (unified (if stdin then input else held)) text →
      (writable = true →
        (run w (leading ++ Command.lint.name :: words) input).files.Opens w.cwd
          (PartPath.ofText file).text place (.file (encode text) readable true)) ∧
      (writable = false →
        (run w (leading ++ Command.lint.name :: words) input).files.Opens w.cwd
          (PartPath.ofText file).text place (.file (encode held) readable false) ∧
        (run w (leading ++ Command.lint.name :: words) input).ending =
          .ofFault (.ofLookup (PartPath.ofText file).text .denied))) ∧
    ((∀ text, ¬Replaces w (run w (leading ++ Command.lint.name :: words) input).started fix write
        (unified (if stdin then input else held)) text) →
      (run w (leading ++ Command.lint.name :: words) input).files.Opens w.cwd
        (PartPath.ofText file).text place (.file (encode held) readable writable)) := by
  obtain ⟨given, hgiven, hleft, hfails⟩ := lint_leaves hleading hasks hheld input hspares
  refine ⟨fun r hr hruns => lint_sends hleading hasks hheld hr hruns, ?_, fun text htext => ?_,
    fun hnone => ?_⟩
  · rintro rfl
    exact unified_eq_self
  · obtain rfl := (hgiven text).mpr htext
    constructor
    · rintro rfl
      exact hleft
    · rintro rfl
      exact ⟨hleft, hfails rfl nofun⟩
  · cases given with
    | none => cases writable <;> exact hleft
    | some text => exact absurd ((hgiven text).mp rfl) (hnone text)

end Run

/-! ## 6. Two files -/

/-- A machine with a bundled copy of the linter whose children print this, and with a file. -/
def holding (text reply : String) : World :=
  { printing reply with files := World.plain.files.put ["p", "a.js"] (.file (encode text) true true) }

theorem holding_opens (text reply : String) :
    (holding text reply).files.Opens (holding text reply).cwd (PartPath.ofText "p/a.js").text
      ["p", "a.js"] (.file (encode text) true true) := by
  have hfree : (World.plain.files.writable "/" "p/a.js").toOption.map
      (fun sheet => (sheet.place, sheet.readable)) = some (["p", "a.js"], true) := by
    decide +kernel
  have hpath : (PartPath.ofText "p/a.js").text = "p/a.js" := by decide +kernel
  obtain ⟨sheet, hsheet, hplace⟩ := Option.map_eq_some_iff.mp hfree
  obtain ⟨hplace, hreadable⟩ := Prod.mk.inj hplace
  have hfind := FileTree.find_fill (Except.eq_ok_of_toOption hsheet) (encode text)
  rw [FileTree.fill, hplace, hreadable] at hfind
  rw [hpath]
  exact ⟨hfind, Node.isFile_file _ _ _⟩

/-- What a lint of that file comes to. -/
def lintHeld (text reply : String) (words : List String) : Outcome :=
  run (holding text reply) ([] ++ Command.lint.name :: words) ""

/-- What an engine prints that has made another text of its own. -/
def outputB : String := "\x7b\"output\":\"b\"\x7d"

/-- Words that ask for a file to be fixed and written. -/
def fixing : List String := ["p/a.js", "--fix", "--write"]

theorem fixing_asks : AsksLint fixing "p/a.js" true true false :=
  ⟨[.fix, .write], by decide, by decide, rfl, rfl, rfl⟩

/-- The text of a file is sent to the engine, and what that makes of it stands in the file. -/
theorem line_feed_kept :
    (∃ r ∈ (lintHeld "\n" outputB fixing).started, r.RunsEngine ∧ r.Lints "\n") ∧
    (lintHeld "\n" outputB fixing).files.Opens "/" "p/a.js" ["p", "a.js"]
      (.file (encode "b") true true) := by
  have hprinted : (reportIn? outputB).map (·.output) = some (some "b") := by decide +kernel
  obtain ⟨report, hreport, houtput⟩ := Option.map_eq_some_iff.mp hprinted
  have hone : (lintHeld "\n" outputB fixing).started.map (·.input.isSome) = [true] := by
    decide +kernel
  have htold := told_printing (w := holding "\n" outputB) rfl rfl hone hreport
  obtain ⟨r, hstarted, hruns⟩ := one_started hone
  have hlog : keepsLog (holding "\n" outputB) [] = false := by decide +kernel
  have hwhole : Json.loneHalf false outputB.toList = false := by decide
  have hleading : Leading [] := ⟨[], rfl⟩
  obtain ⟨hsends, hexact, hwrites, -⟩ := lint_keeps_text hleading fixing_asks (holding_opens _ _)
    (fun ready hready => ready.spares_of_unlogged (hready.unlogged hlog) _) "" fun _ _ _ => hwhole
  have htext := (hexact rfl).mpr (by decide)
  rw [htext] at hsends hwrites
  have hr := hstarted ▸ List.mem_singleton_self r
  obtain ⟨hwritten, -⟩ := hwrites "b" ⟨rfl, rfl, report, htold, houtput, by decide⟩
  exact ⟨⟨r, hr, hruns, hsends r hr hruns⟩, hwritten rfl⟩

/-- **A file with other line ends is not sent as it is.** The file holds a carriage return in front
    of its line feed; the text that the engine is asked to lint has none. -/
theorem carriage_return_not_sent :
    (holding "\r\n" outputB).files.read "/" "p/a.js" = .ok (encode "\r\n") ∧
    ∃ r ∈ (lintHeld "\r\n" outputB ["p/a.js"]).started,
      r.RunsEngine ∧ r.Lints "\n" ∧ ¬r.Lints "\r\n" := by
  have hone : (lintHeld "\r\n" outputB ["p/a.js"]).started.map (·.input.isSome) = [true] := by
    decide +kernel
  obtain ⟨r, hstarted, hruns⟩ := one_started hone
  have hr := hstarted ▸ List.mem_singleton_self r
  have hleading : Leading [] := ⟨[], rfl⟩
  have hasks : AsksLint ["p/a.js"] "p/a.js" false false false :=
    ⟨[], by decide, nofun, rfl, rfl, rfl⟩
  have hopens := holding_opens "\r\n" outputB
  have hlints := lint_sends hleading hasks hopens hr hruns
  have htext : unified "\r\n" = "\n" := by decide
  rw [if_neg Bool.false_ne_true, htext] at hlints
  refine ⟨FileTree.read_eq_ok.mpr ⟨_, true, hopens⟩, r, hr, hruns, hlints, fun hother => ?_⟩
  exact absurd (hlints.unique hother) (by decide)

end CommandLine

end LintHost
