import LintHost.Proofs.DebugJob
import LintHost.Proofs.Fallback
import LintHost.Proofs.Inventory
import LintHost.Proofs.Reports

/-!
# How calls of an engine fail

A call of an engine declares its failures: they name the mode, say what went wrong and have details
for a host. This file classifies the ends of a child, each of which holds a report, is declared as
such a failure, or makes the call fail with something that is not declared; and it says which calls
fail before there is a child.

* `Child.Outcome.Declared`, `Child.Outcome.Undeclared`: the two ways in which an end is a failure;
  `Child.Outcome.cases`: there are no others;
* `World.Declares`, `World.Astray`: the same of a child that may not even be waited for;
  `Engine.reading_eq_error`: what an engine fails with over it;
* `Engine.Unsent`: why no child is started; `Engine.child_eq_error`: there are no other reasons;
* `Engine.Undeclared`, `Engine.Raises`: what a call fails with; `Engine.call_eq_error`: that is all,
  and `Engine.call_eq_ok`: else it returns what is reported;
* `Ask.perform_eq_ok`, `Ask.perform_eq_error`, `Adapter.lint_eq_ok`: the same of an adapter;
* `engine_calls_fail_declared_iff`: where all failures of a call are declared.
-/

namespace LintHost

open LintHost.Action

variable {w : World}

/-! ## 1. The end of a child -/

namespace Child.Outcome

/-- The end of a child is declared as a failure of the engine, in these words and with these
    details. -/
inductive Declared (program : String) (timeout : Value) : Child.Outcome → String → Entries Json → Prop
  /-- The child was not started. -/
  | unstartable (code : Nat) : Declared program timeout (.unstartable code)
      ("cannot start " ++ program ++ ": " ++ OsFault.message ⟨code, program⟩) []
  /-- It ended with another code than 0. -/
  | failed {code : Int} {stdout stderr : String} (hcode : code ≠ 0)
      (hflat : sniff stdout ≠ .error .tooDeep) :
      Declared program timeout (.finished code stdout stderr)
        ("node exited with code " ++ toString code) [("stderr", .text (Text.trim stderr))]
  /-- Its time ran out. -/
  | stopped {stdout stderr : Captured} {shown : String} (hshown : timeout.display? = some shown) :
      Declared program timeout (.timedOut stdout stderr)
        ("node exited with code " ++ toString timeoutCode)
        [("stderr", .text (Text.trim (stderr.asText ++ ("\n[TIMEOUT after " ++ shown ++ "s]"))))]
  /-- It printed no object. -/
  | unexpected {stdout stderr : String} (hflat : sniff stdout ≠ .error .tooDeep)
      (hother : ∀ reply, Json.read (Text.trim stdout) ≠ .ok (.object reply)) :
      Declared program timeout (.finished 0 stdout stderr) "unexpected output"
        [("stdout", .text (String.ofList (stdout.toList.take Engine.shownOutput)))]

/-- The end of a child makes a call fail with something else. -/
inductive Undeclared (timeout : Value) : Child.Outcome → Fault → Prop
  /-- It printed what is no text. -/
  | garbled : Undeclared timeout .garbled .notUtf8
  /-- It printed JSON that is nested too deep. -/
  | nested {code : Int} {stdout stderr : String} (hdeep : sniff stdout = .error .tooDeep) :
      Undeclared timeout (.finished code stdout stderr) .tooDeep
  /-- It printed an object that carries no report. -/
  | misshapen {stdout stderr : String} {reply : Entries Json} {issues : List Issue}
      (hreply : Json.read (Text.trim stdout) = .ok (.object reply))
      (hbad : Report.ofFields reply = .bad issues) :
      Undeclared timeout (.finished 0 stdout stderr) (.invalid issues)
  /-- Its time ran out, and the number of seconds is too long to be told. -/
  | untellable {stdout stderr : Captured} (hlong : timeout.display? = none) :
      Undeclared timeout (.timedOut stdout stderr) (.value .longInteger)

/-- **Every end holds a report or is a failure**, declared or not. -/
theorem cases (program : String) (timeout : Value) (outcome : Child.Outcome) :
    (∃ report, outcome.Reports report) ∨
      (∃ problem more, outcome.Declared program timeout problem more) ∨
      ∃ fault, outcome.Undeclared timeout fault := by
  cases outcome with
  | unstartable code => exact .inr (.inl ⟨_, _, .unstartable code⟩)
  | garbled => exact .inr (.inr ⟨_, .garbled⟩)
  | timedOut stdout stderr =>
    cases hshown : timeout.display? with
    | some shown => exact .inr (.inl ⟨_, _, .stopped hshown⟩)
    | none => exact .inr (.inr ⟨_, .untellable hshown⟩)
  | finished code stdout stderr =>
    by_cases hdeep : sniff stdout = .error .tooDeep
    · exact .inr (.inr ⟨_, .nested hdeep⟩)
    by_cases hcode : code = 0
    · subst hcode
      by_cases hobject : ∃ reply, Json.read (Text.trim stdout) = .ok (.object reply)
      · obtain ⟨reply, hreply⟩ := hobject
        cases hfields : Report.ofFields reply with
        | ok report => exact .inl ⟨report, stdout, stderr, reply, rfl, hreply, hfields⟩
        | bad issues => exact .inr (.inr ⟨_, .misshapen hreply hfields⟩)
      · exact .inr (.inl ⟨_, _, .unexpected hdeep fun reply h => hobject ⟨reply, h⟩⟩)
    · exact .inr (.inl ⟨_, _, .failed hcode hdeep⟩)

end Child.Outcome

/-- The child of a request that others were started before ends in a declared failure. -/
def World.Declares (w : World) (earlier : List Child.Request) (r : Child.Request)
    (program problem : String) (more : Entries Json) : Prop :=
  ∃ outcome, Child.awaited w.host r.timeout (w.answer earlier r) = .ok outcome ∧
    outcome.Declared program r.timeout problem more

/-- It ends in a failure that is not declared: it is not waited for, or its end is one. -/
def World.Astray (w : World) (earlier : List Child.Request) (r : Child.Request)
    (fault : Fault) : Prop :=
  Child.awaited w.host r.timeout (w.answer earlier r) = .error fault ∨
    ∃ outcome, Child.awaited w.host r.timeout (w.answer earlier r) = .ok outcome ∧
      outcome.Undeclared r.timeout fault

namespace Child

/-- That a child is not waited for is nothing the library reports. -/
theorem awaited_not_reported {host : Host} {timeout : Value} {outcome : Outcome} {fault : Fault}
    (h : awaited host timeout outcome = .error fault) : ¬fault.Reported := by
  rintro ⟨failure, rfl⟩
  unfold awaited at h
  split at h
  · cases h
  · unfold unwaited? at h
    grind

theorem sniff_eq_ok {stdout : String} (hflat : sniff stdout ≠ .error .tooDeep) :
    ∃ parsed, sniff stdout = .ok parsed := by
  cases hsniff : sniff stdout with
  | ok parsed => exact ⟨parsed, rfl⟩
  | error fault =>
    rw [sniff_fault hsniff] at hsniff
    exact absurd hsniff hflat

theorem Result.ofOutcome_finished {r : Request} {code : Int} {stdout stderr : String}
    (hflat : sniff stdout ≠ .error .tooDeep) :
    ∃ parsed, sniff stdout = .ok parsed ∧ ofOutcome r (.finished code stdout stderr) =
      .ok (.ok ⟨r.command, r.cwd, code, stdout, stderr, parsed⟩) := by
  obtain ⟨parsed, hsniff⟩ := sniff_eq_ok hflat
  refine ⟨parsed, hsniff, ?_⟩
  unfold ofOutcome
  dsimp only
  rw [hsniff]
  rfl

theorem timeoutNote_shown {timeout : Value} {shown : String} (h : timeout.display? = some shown) :
    timeoutNote timeout = .ok ("\n[TIMEOUT after " ++ shown ++ "s]") := by
  unfold timeoutNote
  rw [h]

theorem timeoutNote_long {timeout : Value} (h : timeout.display? = none) :
    timeoutNote timeout = .error (.value .longInteger) := by
  unfold timeoutNote
  rw [h]

end Child

namespace Engine

variable {context : Context} {engine : Engine} {mode : Mode} {text : String} {file : Option String}
  {r : Child.Request} {outcome : Child.Outcome}

theorem replyOf_failed (program : String) {result : Child.Result} (hcode : result.code ≠ 0) :
    replyOf mode program (.ok result) = .error (failure mode
      ("node exited with code " ++ toString result.code)
      [("stderr", .text (Text.trim result.stderr))]) := by
  rw [replyOf, if_pos hcode]

theorem replyOf_unexpected (program : String) {result : Child.Result} (hcode : result.code = 0)
    (hother : ∀ reply, result.parsed ≠ some (.object reply)) :
    replyOf mode program (.ok result) = .error (failure mode "unexpected output"
      [("stdout", .text (String.ofList (result.stdout.toList.take shownOutput)))]) := by
  rw [replyOf, if_neg (not_not_intro hcode)]
  split
  · rename_i reply hreply
    exact absurd hreply (hother reply)
  · rfl

variable {earlier : List Child.Request}

/-- Once a child was waited for, its outcome is read. -/
theorem reading_awaited (h : Child.awaited w.host r.timeout (w.answer earlier r) = .ok outcome) :
    reading w context mode earlier r = (Child.Result.ofOutcome r outcome >>= fun result =>
      replyOf mode context.nodeExecutable.shown result >>= fun reply =>
        (Report.ofFields reply).toExcept) := by
  unfold reading Child.ended
  rw [h]
  rfl

/-- What is declared is what the call fails with. -/
theorem reading_declared {program problem : String} {more : Entries Json}
    (hprogram : r.command.headD "" = program) (hnode : context.nodeExecutable = .text program)
    (h : w.Declares earlier r program problem more) :
    reading w context mode earlier r = .error (failure mode problem more) := by
  obtain ⟨outcome, hawaited, h⟩ := h
  rw [reading_awaited hawaited]
  cases h with
  | unstartable code =>
    rw [Child.Result.ofOutcome, hprogram, hnode]
    rfl
  | failed hcode hflat =>
    obtain ⟨parsed, -, hresult⟩ := Child.Result.ofOutcome_finished hflat
    rw [hresult, Except.ok_bind, replyOf_failed _ hcode]
    rfl
  | stopped hshown =>
    rw [Child.Result.ofOutcome, Child.timeoutNote_shown hshown]
    rfl
  | unexpected hflat hother =>
    obtain ⟨parsed, hsniff, hresult⟩ := Child.Result.ofOutcome_finished hflat
    have hnone : ∀ reply, parsed ≠ some (.object reply) := by
      rintro reply rfl
      exact hother reply (Child.sniff_object.mp hsniff)
    rw [hresult, Except.ok_bind, replyOf_unexpected _ rfl hnone]
    rfl

/-- And so is what is not. -/
theorem reading_astray {fault : Fault} (h : w.Astray earlier r fault) :
    reading w context mode earlier r = .error fault := by
  rcases h with hunwaited | ⟨outcome, hawaited, h⟩
  · unfold reading Child.ended
    rw [hunwaited]
    rfl
  rw [reading_awaited hawaited]
  unfold Child.Result.ofOutcome
  cases h with
  | garbled => rfl
  | nested hdeep =>
    dsimp only
    rw [hdeep]
    rfl
  | misshapen hreply hbad =>
    dsimp only
    rw [Child.sniff_object.mpr hreply]
    exact Checked.toExcept_eq_error.mpr ⟨_, hbad, rfl⟩
  | untellable hlong =>
    dsimp only
    rw [Child.timeoutNote_long hlong]
    rfl

/-- **What an engine fails with over the end of a child.** -/
theorem reading_eq_error {program : String} (hprogram : r.command.headD "" = program)
    (hnode : context.nodeExecutable = .text program) {fault : Fault} :
    reading w context mode earlier r = .error fault ↔
      (∃ problem more, w.Declares earlier r program problem more ∧
        fault = failure mode problem more) ∨ w.Astray earlier r fault := by
  constructor
  · intro h
    cases hawaited : Child.awaited w.host r.timeout (w.answer earlier r) with
    | error other =>
      have hastray : w.Astray earlier r other := .inl hawaited
      rw [reading_astray hastray] at h
      cases h
      exact .inr hastray
    | ok outcome =>
      rcases outcome.cases program r.timeout with
        ⟨report, hreports⟩ | ⟨problem, more, hdeclared⟩ | ⟨other, hundeclared⟩
      · rw [reading_iff.mpr ⟨outcome, hawaited, hreports⟩] at h
        cases h
      · have hdeclares : w.Declares earlier r program problem more := ⟨outcome, hawaited, hdeclared⟩
        rw [reading_declared hprogram hnode hdeclares] at h
        exact .inl ⟨problem, more, hdeclares, (Except.error.inj h).symm⟩
      · have hastray : w.Astray earlier r other := .inr ⟨outcome, hawaited, hundeclared⟩
        rw [reading_astray hastray] at h
        cases h
        exact .inr hastray
  · rintro (⟨problem, more, hdeclares, rfl⟩ | hastray)
    · exact reading_declared hprogram hnode hdeclares
    · exact reading_astray hastray

/-! ## 2. The call -/

/-- Why a call starts no child: the rules that the engine was constructed with cannot be written, the
    program is no text, or no process can be given the program, the working directory and the
    environment. -/
inductive Unsent (w : World) (context : Context) (engine : Engine) : Fault → Prop
  | longInteger (hlong : (Json.object engine.options.rules).allInts Json.shortInt = false) :
      Unsent w context engine (.value .longInteger)
  | nested (hshort : (Json.object engine.options.rules).allInts Json.shortInt = true)
      (hdeep : Json.depthLimit < (Json.object engine.options.rules).depth + 2) :
      Unsent w context engine .tooDeep
  | program (hshort : (Json.object engine.options.rules).allInts Json.shortInt = true)
      (hflat : (Json.object engine.options.rules).depth + 2 ≤ Json.depthLimit)
      (hother : ∀ node, context.nodeExecutable ≠ .text node) :
      Unsent w context engine .wrongType
  | refused {node : String} {fault : Fault}
      (hshort : (Json.object engine.options.rules).allInts Json.shortInt = true)
      (hflat : (Json.object engine.options.rules).depth + 2 ≤ Json.depthLimit)
      (hnode : context.nodeExecutable = .text node)
      (hrefused : engine.refusal? w node = some fault) : Unsent w context engine fault

theorem sendable_or_unsent (w : World) (context : Context) (engine : Engine) :
    engine.Sendable w context ∨ ∃ fault, Unsent w context engine fault := by
  cases hints : (Json.object engine.options.rules).allInts Json.shortInt with
  | false => exact .inr ⟨_, .longInteger hints⟩
  | true =>
    by_cases hdepth : (Json.object engine.options.rules).depth + 2 ≤ Json.depthLimit
    · by_cases hnode : ∃ node, context.nodeExecutable = .text node
      · obtain ⟨node, hnode⟩ := hnode
        cases hrefused : engine.refusal? w node with
        | none => exact .inl ⟨⟨node, hnode, hrefused⟩, hints, hdepth⟩
        | some fault => exact .inr ⟨_, .refused hints hdepth hnode hrefused⟩
      · exact .inr ⟨_, .program hints hdepth fun node h => hnode ⟨node, h⟩⟩
    · exact .inr ⟨_, .nested hints (Nat.lt_of_not_le hdepth)⟩

variable {s : Session} {fault : Fault}

theorem child_unsent (h : engine.Unsent w context fault) :
    engine.child w context mode text file = .error fault := by
  have hints := requestOf_allInts engine mode text file
  have hdepth := requestOf_depth engine mode text file
  have hwritten (hshort : (Json.object engine.options.rules).allInts Json.shortInt = true)
      (hflat : (Json.object engine.options.rules).depth + 2 ≤ Json.depthLimit) :
      ∃ input, Json.write Json.wire (engine.requestOf mode text file) = .ok input := by
    have hwritable := (requestOf_writable engine mode text file).mpr ⟨hshort, hflat⟩
    cases hwrite : Json.write Json.wire (engine.requestOf mode text file) with
    | error refusal => exact absurd hwritable ((Json.write_fails _ _).mp ⟨refusal, hwrite⟩)
    | ok input => exact ⟨input, rfl⟩
  unfold child
  cases h with
  | longInteger hlong =>
    rw [Json.write_long _ (hints.trans hlong)]
    rfl
  | nested hshort hdeep =>
    rw [Json.write_deep _ (hints.trans hshort) (hdepth ▸ hdeep)]
    rfl
  | program hshort hflat hother =>
    obtain ⟨input, hwrite⟩ := hwritten hshort hflat
    rw [hwrite]
    cases hnode : context.nodeExecutable with
    | text node => exact absurd hnode (hother node)
    | _ => rfl
  | @refused node _ hshort hflat hnode hrefused =>
    obtain ⟨input, hwrite⟩ := hwritten hshort hflat
    have hsame : Child.refusal? w.host ⟨[node, "-e", script], Child.directory w engine.cwd,
        some engine.env, context.timeout, some input⟩ = some fault := hrefused
    rw [hwrite, hnode, words_text]
    dsimp only
    rw [hsame]

/-- **Why there is no child** is why nothing is sent. -/
theorem child_eq_error :
    engine.child w context mode text file = .error fault ↔ engine.Unsent w context fault := by
  refine ⟨fun h => ?_, child_unsent⟩
  rcases sendable_or_unsent w context engine with hsend | ⟨other, hunsent⟩
  · have hchild : ∃ r, engine.child w context mode text file = .ok r := child_isOk_iff.mpr hsend
    obtain ⟨r, hr⟩ := hchild
    rw [h] at hr
    cases hr
  · rw [child_unsent hunsent] at h
    cases h
    exact hunsent

/-- A call fails with something that is not declared: no child is started, or the child ends so. -/
def Undeclared (w : World) (s : Session) (engine : Engine) (mode : Mode) (text : String)
    (file : Option String) (fault : Fault) : Prop :=
  engine.Unsent w s.context fault ∨
    ∃ r, engine.child w s.context mode text file = .ok r ∧ w.Astray s.started r fault

/-- What a call fails with: the failure that is declared, or something else. -/
def Raises (w : World) (s : Session) (engine : Engine) (mode : Mode) (text : String)
    (file : Option String) (fault : Fault) : Prop :=
  (∃ r program problem more, engine.child w s.context mode text file = .ok r ∧
      s.context.nodeExecutable = .text program ∧ w.Declares s.started r program problem more ∧
      fault = failure mode problem more) ∨
    engine.Undeclared w s mode text file fault

/-- **What a call fails with.** -/
theorem call_eq_error :
    ((engine.call mode text file).run w s).1 = .error fault ↔
      engine.Raises w s mode text file fault := by
  cases hchild : engine.child w s.context mode text file with
  | error refusal =>
    have hunsent := child_eq_error.mp hchild
    obtain ⟨log, hrun⟩ := call_refused (m := w) hchild
    rw [hrun]
    constructor
    · intro h
      cases h
      exact .inr (.inl hunsent)
    · rintro (⟨r, -, -, -, hr, -⟩ | hother | ⟨r, hr, -⟩)
      · rw [hchild] at hr
        cases hr
      · rw [child_unsent hother] at hchild
        cases hchild
        rfl
      · rw [hchild] at hr
        cases hr
  | ok r =>
    obtain ⟨log, hrun⟩ := call_sent (m := w) hchild
    obtain ⟨program, input, hnode, -, -, hr⟩ := child_eq_ok.mp hchild
    have hprogram : r.command.headD "" = program := by
      rw [hr]
      rfl
    rw [hrun, reading_eq_error hprogram hnode]
    constructor
    · rintro (⟨problem, more, hdeclares, rfl⟩ | hastray)
      · exact .inl ⟨r, program, problem, more, hchild, hnode, hdeclares, rfl⟩
      · exact .inr (.inr ⟨r, hchild, hastray⟩)
    · rintro (⟨r', program', problem, more, hr', hnode', hdeclares, rfl⟩ | hunsent | ⟨r', hr', h⟩)
      · cases hchild.symm.trans hr'
        cases hnode.symm.trans hnode'
        exact .inl ⟨problem, more, hdeclares, rfl⟩
      · rw [child_unsent hunsent] at hchild
        cases hchild
      · cases hchild.symm.trans hr'
        exact .inr h

end Engine

/-- **What a call returns**: what the end of its child reports. -/
theorem Engine.call_eq_ok {engine : Engine} {mode : Engine.Mode} {text : String}
    {file : Option String} {s : Session} {report : Report} :
    ((engine.call mode text file).run w s).1 = .ok report ↔
      ∃ r, engine.child w s.context mode text file = .ok r ∧
        w.Reports s.started r report := by
  cases hchild : engine.child w s.context mode text file with
  | error fault =>
    obtain ⟨log, hrun⟩ := call_refused (m := w) hchild
    rw [hrun]
    exact iff_of_false nofun nofun
  | ok r =>
    obtain ⟨log, hrun⟩ := call_sent (m := w) hchild
    rw [hrun, reading_iff]
    simp

/-! ## 3. Asking and linting -/

namespace Ask

variable {adapter : Adapter} {engine : Engine} {ask : Ask} {s : Session}

/-- **What asking comes to**: what is remembered, or what the end of a child reports. -/
theorem perform_eq_ok {rules : Entries Json} {after : Adapter} :
    ((ask.perform adapter engine).run w s).1 = .ok (rules, after) ↔
      (ask.remembered adapter engine = some rules ∧ after = adapter) ∨
      ask.remembered adapter engine = none ∧ ∃ r report,
        engine.child w s.context ask.mode ask.text ask.file = .ok r ∧
        w.Reports s.started r report ∧ rules = report.rules ∧
        after = adapter.remember engine.number report.rules := by
  cases hknown : ask.remembered adapter engine with
  | some known =>
    rw [perform_remembered hknown]
    simp [eq_comm]
  | none =>
    rw [perform_eq_call hknown, run_map]
    simp only [reduceCtorEq, false_and, true_and, false_or]
    constructor
    · intro h
      obtain ⟨report, hcall, hsettled⟩ := Except.map_eq_ok h
      obtain ⟨r, hchild, hreports⟩ := Engine.call_eq_ok.mp hcall
      cases hsettled
      exact ⟨r, report, hchild, hreports, rfl, rfl⟩
    · rintro ⟨r, report, hchild, hreports, rfl, rfl⟩
      rw [Engine.call_eq_ok.mpr ⟨r, hchild, hreports⟩]
      rfl

/-- **What asking fails with.** -/
theorem perform_eq_error {fault : Fault} :
    ((ask.perform adapter engine).run w s).1 = .error fault ↔
      ask.remembered adapter engine = none ∧
        engine.Raises w s ask.mode ask.text ask.file fault := by
  cases hknown : ask.remembered adapter engine with
  | some known =>
    rw [perform_remembered hknown]
    exact iff_of_false nofun fun h => nomatch h.1
  | none =>
    rw [perform_eq_call hknown, run_map, ← Engine.call_eq_error, and_iff_right rfl]
    exact Except.map_eq_error

end Ask

/-- Linting is asking; what is returned is the whole report. -/
theorem Adapter.lint_eq_ok {adapter after : Adapter} {engine : Engine} {text file : String}
    {report : Report} {s : Session} :
    ((adapter.lint engine text file).run w s).1 = .ok (report, after) ↔
      ∃ r, engine.child w s.context .lint text (some file) = .ok r ∧
        w.Reports s.started r report ∧
        after = adapter.remember engine.number report.rules := by
  have hlint : adapter.lint engine text file = (fun report =>
      (report, adapter.remember engine.number report.rules)) <$>
        engine.call .lint text (some file) := (map_eq_pure_bind _ _).symm
  rw [hlint, run_map]
  constructor
  · intro h
    obtain ⟨told, hcall, hsettled⟩ := Except.map_eq_ok h
    obtain ⟨r, hchild, hreports⟩ := Engine.call_eq_ok.mp hcall
    cases hsettled
    exact ⟨r, hchild, hreports, rfl⟩
  · rintro ⟨r, hchild, hreports, rfl⟩
    rw [Engine.call_eq_ok.mpr ⟨r, hchild, hreports⟩]
    rfl

theorem Engine.Unsent.not_reported {context : Context} {engine : Engine} {fault : Fault}
    (h : engine.Unsent w context fault) : ¬fault.Reported := by
  cases h with
  | refused _ _ _ hrefused => exact Child.refusal?_not_reported hrefused
  | _ => exact fun ⟨_, h⟩ => nomatch h

theorem World.Astray.not_reported {earlier : List Child.Request} {r : Child.Request} {fault : Fault}
    (h : w.Astray earlier r fault) : ¬fault.Reported := by
  rcases h with hunwaited | ⟨outcome, -, h⟩
  · exact Child.awaited_not_reported hunwaited
  · rintro ⟨failure, rfl⟩
    cases h

/-- What is not declared is no failure that the library reports on its own account. -/
theorem Engine.Undeclared.not_reported {engine : Engine} {mode : Engine.Mode} {text : String}
    {file : Option String} {s : Session} {fault : Fault}
    (h : engine.Undeclared w s mode text file fault) : ¬fault.Reported := by
  rcases h with hunsent | ⟨r, -, hastray⟩
  · exact hunsent.not_reported
  · exact hastray.not_reported

/-- A failure on the desk leaves all but the session as it was. -/
theorem Desk.step_fails {desk : Desk} {number : Nat} {engine : Engine} {ask : Ask}
    (hengine : desk.engine? number = some engine)
    (h : Fails ((ask.perform desk.adapter engine).run w desk.session).1) :
    (desk.step (w, .ask number ask)).1 =
      { desk with session := ((ask.perform desk.adapter engine).run w desk.session).2 } := by
  obtain ⟨fault, hfault⟩ := h
  rw [step, hengine]
  dsimp only
  rcases hrun : (ask.perform desk.adapter engine).run w desk.session with ⟨result, t⟩
  rw [hrun] at hfault
  obtain rfl : result = .error fault := hfault
  rfl

/-- **Calls of an engine fail with declared failures exactly where nothing undeclared comes up.**
    For every engine, in every session, whatever it is asked and however the child ends:

    * asking comes to the remembered rules, or to what the end of the child reports, which is
      remembered; a lint comes to the whole report;
    * it fails with the declared failure over the end of the child, or with something undeclared: no
      child is started, or it is not waited for, or its output is no text or nested too deep, or it is
      an object that carries no report, or its time ran out and cannot be told;
    * so all failures are the engine's exactly if nothing undeclared comes up;
    * a failure leaves the adapter, with all that is remembered, the context and the cache as they
      were;
    * a job whose options are put together fails with what its lint fails with. -/
theorem engine_calls_fail_declared_iff (w : World) (s : Session) (adapter : Adapter)
    (engine : Engine) (ask : Ask) :
    let asked := (ask.perform adapter engine).run w s
    (∀ rules after, asked.1 = .ok (rules, after) ↔
      (ask.remembered adapter engine = some rules ∧ after = adapter) ∨
      ask.remembered adapter engine = none ∧ ∃ r report,
        engine.child w s.context ask.mode ask.text ask.file = .ok r ∧
        w.Reports s.started r report ∧ rules = report.rules ∧
        after = adapter.remember engine.number report.rules) ∧
    (∀ text file report after, ((adapter.lint engine text file).run w s).1 = .ok (report, after) ↔
      ∃ r, engine.child w s.context .lint text (some file) = .ok r ∧
        w.Reports s.started r report ∧
        after = adapter.remember engine.number report.rules) ∧
    (∀ fault, asked.1 = .error fault ↔ ask.remembered adapter engine = none ∧
      engine.Raises w s ask.mode ask.text ask.file fault) ∧
    ((∀ fault, asked.1 = .error fault →
        ∃ problem more, fault = Engine.failure ask.mode problem more) ↔
      (ask.remembered adapter engine = none →
        ∀ fault, ¬engine.Undeclared w s ask.mode ask.text ask.file fault)) ∧
    (∀ (desk : Desk) number, desk.session = s → desk.adapter = adapter →
      desk.engine? number = some engine → Fails asked.1 →
      (desk.step (w, .ask number ask)).1 = { desk with session := asked.2 } ∧
        asked.2.context = s.context ∧ asked.2.cache = s.cache) ∧
    ∀ (job : Job) (policy : Policy) (before t : Session) (resolved : Job.Resolved)
      (options : Engine.Options), job.type = "lint" ∨ job.type = "fix" →
      (job.resolve policy).run w before = (.ok resolved, t) →
      (Engine.Options.build job.type policy job.rules resolved.fileDir resolved.config).run w t =
        (.ok options, s) →
      engine = resolved.engine t.context options →
      ask = .lint job.contents resolved.working.relativePath →
      ∀ fault, ((job.run policy).run w before).1 = .error fault ↔ asked.1 = .error fault := by
  intro asked
  refine ⟨fun rules after => Ask.perform_eq_ok, fun text file report after => Adapter.lint_eq_ok,
    fun fault => Ask.perform_eq_error, ⟨fun h hnone fault hundeclared => ?_, fun h fault hfault => ?_⟩,
    ?_, ?_⟩
  · obtain ⟨problem, more, hfault⟩ := h fault (Ask.perform_eq_error.mpr ⟨hnone, .inr hundeclared⟩)
    exact hundeclared.not_reported ⟨_, hfault⟩
  · obtain ⟨hnone, ⟨-, -, problem, more, -, -, -, hdeclared⟩ | hundeclared⟩ :=
      Ask.perform_eq_error.mp hfault
    · exact ⟨problem, more, hdeclared⟩
    · exact absurd hundeclared (h hnone fault)
  · rintro desk number rfl rfl hengine hfails
    exact ⟨Desk.step_fails hengine hfails, ask.perform_frame desk.session⟩
  · rintro job policy before t resolved options htype hresolve hbuild rfl rfl fault
    -- A lint remembers nothing, so that asking is the call.
    have hasked : asked.1 = .error fault ↔
        (((resolved.engine t.context options).call .lint job.contents
          (some resolved.working.relativePath)).run w s).1 = .error fault := by
      rw [Engine.call_eq_error]
      exact Ask.perform_eq_error.trans (and_iff_right rfl)
    rw [hasked, (Job.run_call htype hresolve hbuild).1]
    exact Except.map_eq_error

/-! ## 4. Children that print something else -/

/-- A machine with a project whose children print this and end well. -/
def World.printing (stdout : String) : World :=
  { World.plain with answer := fun _ _ => .finished 0 stdout "" }

/-- The issues that an operation fails with. -/
def issuesOf {α : Type} : Except Fault α → List Issue
  | .error (.invalid issues) => issues
  | _ => []

/-- A child prints an object whose messages are no list: the failure is not declared. -/
theorem numbered_messages_undeclared : ∃ fault,
    (((Job.inProject "lint").run .standard).run (World.printing "\x7b\"messages\": 5\x7d")
      (.start (.ofEnv []))).1 = .error fault ∧ ¬fault.Reported := by
  have hissues : issuesOf (((Job.inProject "lint").run .standard).run
      (World.printing "\x7b\"messages\": 5\x7d") (.start (.ofEnv []))).1 =
        [⟨[.field "messages"], .listType⟩] := by decide +kernel
  unfold issuesOf at hissues
  split at hissues
  · rename_i issues hresult
    exact ⟨_, hresult, fun ⟨_, h⟩ => nomatch h⟩
  · cases hissues

/-- A child prints no object: the job fails, and says so. -/
theorem printed_prose_declared : ∃ problem more,
    (((Job.inProject "lint").run .standard).run (World.printing "oops") (.start (.ofEnv []))).1 =
      .error (Engine.failure .lint problem more) := by
  have hstarts : (Job.inProject "lint").starts? (.printing "oops") (.start (.ofEnv [])) = true := by
    decide +kernel
  obtain ⟨resolved, t, options, t', r, hresolve, hbuild, hchild⟩ := Job.stages_of_starts? hstarts
  have hsniff : Child.sniff "oops" = .ok none := rfl
  have hread : Json.read (Text.trim "oops") = .error .malformed := rfl
  have hflat : Child.sniff "oops" ≠ .error .tooDeep := fun h => nomatch hsniff.symm.trans h
  have hother (reply : Entries Json) : Json.read (Text.trim "oops") ≠ .ok (.object reply) :=
    fun h => nomatch hread.symm.trans h
  have hend (timeout : Value) (fault : Fault) :
      ¬(Child.Outcome.finished 0 "oops" "").Undeclared timeout fault := by
    intro h
    generalize houtcome : Child.Outcome.finished 0 "oops" "" = outcome at h
    cases h <;> cases houtcome
    · exact hflat ‹_›
    · exact hother _ ‹_›
  have hwaits (r : Child.Request) : Child.awaited (World.printing "oops").host r.timeout
      ((World.printing "oops").answer t'.started r) = .ok (.finished 0 "oops" "") :=
    Child.awaited_rehearsed rfl _ _
  obtain ⟨-, -, hraises, hdeclared, -, hjob⟩ := engine_calls_fail_declared_iff (.printing "oops") t'
    (.new resolved.package) (resolved.engine t.context options)
    (.lint "" resolved.working.relativePath)
  have hfails := hjob (Job.inProject "lint") .standard _ t resolved options (.inl rfl) hresolve
    hbuild rfl rfl
  have hnone (fault : Fault) : ¬Engine.Undeclared (.printing "oops") t'
      (resolved.engine t.context options) .lint "" (some resolved.working.relativePath) fault := by
    rintro (hunsent | ⟨r', -, hundeclared⟩)
    · exact nomatch hchild.symm.trans (Engine.child_unsent hunsent)
    · rcases hundeclared with hunwaited | ⟨outcome, hawaited, hundeclared⟩
      · exact nomatch (hwaits r').symm.trans hunwaited
      · obtain rfl := Except.ok.inj ((hwaits r').symm.trans hawaited)
        exact hend _ fault hundeclared
  obtain ⟨program, -, hnode, -⟩ := Engine.child_eq_ok.mp hchild
  have hasked := (hraises _).mpr ⟨rfl, .inl ⟨r, program, _, _, hchild, hnode,
    ⟨_, hwaits r, .unexpected hflat hother⟩, rfl⟩⟩
  obtain ⟨problem, more, hfailure⟩ := hdeclared.mpr (fun _ => hnone) _ hasked
  exact ⟨problem, more, hfailure ▸ (hfails _).mpr hasked⟩

end LintHost
