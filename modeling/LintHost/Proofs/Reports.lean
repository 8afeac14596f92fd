import LintHost.Proofs.JsonRead
import LintHost.Proofs.Records
import LintHost.Proofs.Trimming
import LintHost.Proofs.Usable

/-!
# What engines report

The report of a call is what its child printed: a JSON object between blanks, after an end with
code 0. This file says it of the child alone, without the steps of a call, and has what hosts rely
on when they compare the rules of reports.

* `Rules.SameIds`: two inventories have the same ids; `Rules.changed_iff`: whether they do;
* `Rules.sorted_perm`, `Rules.sorted_strict`: what sorting does to an inventory;
* `Report.Carries`: a report is what an object says; `Report.ofFields_eq_ok`: it is read from that;
* `Child.Outcome.Reports`: the end of a child holds a report; `Engine.reading_iff`: it is what the
  engine reads from it; `World.Told`: it is the end of the last of some children, and
  `ends_call_told`: it is what a call returns;
* `Child.Outcome.Reports.held`: the rules of a report can be written, each under one id.
-/

namespace LintHost

/-! ## 1. Inventories -/

namespace Rules

/-- Two inventories have the same ids. -/
def SameIds (rules other : Entries Json) : Prop := ∀ id, id ∈ rules.names ↔ id ∈ other.names

theorem SameIds.refl (rules : Entries Json) : SameIds rules rules := fun _ => Iff.rfl

theorem SameIds.of_perm {rules other : Entries Json} (h : rules.Perm other) :
    SameIds rules other := fun _ => (h.map Prod.fst).mem_iff

theorem changed_eq_false_iff {current new : Entries Json} :
    changed current new = false ↔ SameIds current new := by
  simp only [changed, Bool.not_eq_false', Bool.and_eq_true, List.all_eq_true, Entries.has_iff]
  exact ⟨fun h id => ⟨h.1 id, h.2 id⟩, fun h => ⟨fun id => (h id).mp, fun id => (h id).mpr⟩⟩

/-- Inventories are changed exactly if they have not the same ids, whichever way round. -/
theorem changed_iff {current new : Entries Json} :
    changed current new = true ↔ ¬SameIds current new := by
  rw [← changed_eq_false_iff, Bool.not_eq_false]

theorem sorted_perm (rules : Entries Json) : (sorted rules).Perm rules := List.mergeSort_perm ..

/-- The ids of a sorted inventory increase strictly, if none was there twice. -/
theorem sorted_strict {rules : Entries Json} (h : rules.names.Nodup) :
    (sorted rules).names.Pairwise (· < ·) := by
  have hle : (sorted rules).Pairwise fun a b => decide (a.1 ≤ b.1) = true := by
    refine List.pairwise_mergeSort (fun a b c hab hbc => ?_) (fun a b => ?_) rules
    · exact decide_eq_true (String.le_trans (of_decide_eq_true hab) (of_decide_eq_true hbc))
    · simpa using String.le_total a.1 b.1
  have hnames : (sorted rules).names.Pairwise (· ≤ ·) :=
    List.pairwise_map.mpr (hle.imp of_decide_eq_true)
  have hnodup : (sorted rules).names.Nodup := ((sorted_perm rules).map Prod.fst).nodup_iff.mpr h
  exact (hnames.and hnodup).imp fun h => Std.lt_of_le_of_ne h.1 h.2

end Rules

/-! ## 2. Output that is an object -/

namespace Text

theorem isBlank_of_json {c : Char} (h : Json.isBlank c = true) : isBlank c = true := by
  simp only [Json.isBlank, Bool.or_eq_true, decide_eq_true_eq] at h
  rcases h with ((rfl | rfl) | rfl) | rfl <;> decide

end Text

namespace Json

theorem number_not_object {negative : Bool} {cs rest : List Char} {entries : Entries Json} :
    number negative cs ≠ .ok (.object entries, rest) := by
  intro h
  unfold number at h
  split at h
  · cases h
  · dsimp only at h
    split at h
    · split at h <;> cases h
    · cases h

theorem scalar_not_object {cs rest : List Char} {entries : Entries Json} :
    scalar cs ≠ .ok (.object entries, rest) := by
  intro h
  unfold scalar at h
  split at h
  · obtain ⟨⟨s, more⟩, -, h⟩ := Except.bind_eq_ok h
    cases h
  all_goals first
    | cases h
    | exact number_not_object h

/-- Only a brace begins an object. -/
theorem value_object {fuel room : Nat} {cs rest : List Char} {entries : Entries Json}
    (h : value fuel room cs = .ok (.object entries, rest)) : ∃ more, cs = '\x7b' :: more := by
  unfold value at h
  split at h
  · cases h
  · split at h
    · cases h
    · split at h
      · cases h
      · obtain ⟨⟨js, more⟩, -, h⟩ := Except.bind_eq_ok h
        cases h
  · exact ⟨_, rfl⟩
  · exact absurd h scalar_not_object

end Json

namespace Child

/-- Output is sniffed as an object exactly if it is one between blanks. -/
theorem sniff_object {stdout : String} {reply : Entries Json} :
    sniff stdout = .ok (some (.object reply)) ↔
      Json.read (Text.trim stdout) = .ok (.object reply) := by
  constructor
  · intro h
    unfold sniff at h
    dsimp only at h
    split at h
    · exact Json.attempt_eq_some.mp h
    · exact Json.attempt_eq_some.mp h
    · cases h
  · intro h
    have hread := h
    unfold Json.read Json.readChars at hread
    obtain ⟨⟨j, rest⟩, hvalue, hread⟩ := Except.bind_eq_ok hread
    have hobject : j = .object reply := by
      dsimp only at hread
      split at hread
      · exact Except.ok.inj hread
      · cases hread
    subst hobject
    have hhead : ∀ c, (Text.trim stdout).toList.head? = some c → Json.isBlank c = false := by
      intro c hc
      rw [Text.trim, String.toList_ofList] at hc
      exact Bool.eq_false_iff.mpr fun hblank =>
        absurd (Text.isBlank_of_json hblank) (by simp [Text.head_trimWhere hc])
    rw [Json.skip_eq_self hhead] at hvalue
    obtain ⟨more, hbrace⟩ := Json.value_object hvalue
    unfold sniff
    dsimp only
    rw [hbrace]
    exact Json.attempt_eq_some.mpr h

end Child

/-! ## 3. Reports -/

/-- A report is what a JSON object says: its messages are objects, its output is a text or null, its
    rules are an object, and what it does not say is nothing. -/
structure Report.Carries (reply : Entries Json) (report : Report) : Prop where
  messages : reply.get? "messages" = none ∧ report.messages = [] ∨
    reply.get? "messages" = some (.list (report.messages.map .object))
  output : (reply.get? "output").getD .null = .ofText? report.output
  rules : reply.get? "rules" = none ∧ report.rules = [] ∨
    reply.get? "rules" = some (.object report.rules)

/-- **The report that is read from an object** is what it says. -/
theorem Report.ofFields_eq_ok {reply : Entries Json} {report : Report} :
    ofFields reply = .ok report ↔ Carries reply report := by
  unfold ofFields
  rw [Checked.seq_eq_ok]
  constructor
  · rintro ⟨_, rules, hparts, hrules, rfl⟩
    obtain ⟨_, output, hpart, houtput, rfl⟩ := Checked.seq_eq_ok.mp hparts
    obtain ⟨messages, hmessages, rfl⟩ := Checked.map_eq_ok.mp hpart
    simp only [Record.field_eq_ok, Record.objects_eq_ok, Record.object_eq_ok,
      exists_eq_right] at hmessages hrules
    exact ⟨hmessages, Record.field_text?.mp houtput, hrules⟩
  · rintro ⟨hmessages, houtput, hrules⟩
    refine ⟨_, report.rules, Checked.seq_eq_ok.mpr ⟨_, report.output, Checked.map_eq_ok.mpr
      ⟨report.messages, ?_, rfl⟩, Record.field_text?.mpr houtput, rfl⟩, ?_, rfl⟩
    · simpa only [Record.field_eq_ok, Record.objects_eq_ok, exists_eq_right] using hmessages
    · simpa only [Record.field_eq_ok, Record.object_eq_ok, exists_eq_right] using hrules

/-- The end of a child holds a report: it has ended with code 0 after it has printed, between
    blanks, a JSON object that is the report. -/
def Child.Outcome.Reports (outcome : Child.Outcome) (report : Report) : Prop :=
  ∃ stdout stderr reply, outcome = .finished 0 stdout stderr ∧
    Json.read (Text.trim stdout) = .ok (.object reply) ∧ Report.ofFields reply = .ok report

theorem Engine.replyOf_eq_ok {mode : Engine.Mode} {program : String}
    {result : Except OsFault Child.Result} {reply : Entries Json} :
    replyOf mode program result = .ok reply ↔
      ∃ r, result = .ok r ∧ r.code = 0 ∧ r.parsed = some (.object reply) := by
  cases result with
  | error fault => simp [replyOf]
  | ok r =>
    unfold replyOf
    by_cases hcode : r.code = 0
    · cases hparsed : r.parsed with
      | none => simp [hcode, hparsed]
      | some j => cases j <;> simp [hcode, hparsed]
    · simp [hcode]

/-- The child of a request that others were started before is waited for, and its end holds a
    report. -/
def World.Reports (w : World) (earlier : List Child.Request) (r : Child.Request)
    (report : Report) : Prop :=
  ∃ outcome, Child.awaited w.host r.timeout (w.answer earlier r) = .ok outcome ∧
    outcome.Reports report

/-- **What an engine reads from the end of a child is what is reported there.** -/
theorem Engine.reading_iff {w : World} {context : Context} {mode : Engine.Mode}
    {earlier : List Child.Request} {r : Child.Request} {report : Report} :
    reading w context mode earlier r = .ok report ↔ w.Reports earlier r report := by
  constructor
  · intro h
    obtain ⟨result, hended, h⟩ := Except.bind_eq_ok h
    obtain ⟨outcome, hawaited, houtcome⟩ := Except.bind_eq_ok hended
    obtain ⟨reply, hreply, hreport⟩ := Except.bind_eq_ok h
    obtain ⟨result, rfl, hcode, hparsed⟩ := replyOf_eq_ok.mp hreply
    have hfields := Checked.toExcept_eq_ok.mp hreport
    refine ⟨outcome, hawaited, ?_⟩
    cases outcome with
    | unstartable code => cases houtcome
    | garbled => cases houtcome
    | finished code stdout stderr =>
      obtain ⟨parsed, hsniff, houtcome⟩ := Except.bind_eq_ok houtcome
      cases houtcome
      obtain rfl : code = 0 := hcode
      obtain rfl : parsed = some (.object reply) := hparsed
      exact ⟨stdout, stderr, reply, rfl, Child.sniff_object.mp hsniff, hfields⟩
    | timedOut stdout stderr =>
      obtain ⟨note, -, houtcome⟩ := Except.bind_eq_ok houtcome
      cases houtcome
      cases hparsed
  · rintro ⟨_, hawaited, stdout, stderr, reply, rfl, hread, hfields⟩
    have hsniff := Child.sniff_object.mpr hread
    unfold reading Child.ended
    rw [hawaited, Except.ok_bind, Child.Result.ofOutcome, hsniff]
    exact Checked.toExcept_eq_ok.mpr hfields

theorem Child.Outcome.Reports.unique {outcome : Child.Outcome} {report other : Report}
    (h : outcome.Reports report) (hother : outcome.Reports other) : report = other := by
  obtain ⟨stdout, stderr, reply, rfl, hread, hfields⟩ := h
  obtain ⟨stdout', stderr', reply', houtcome, hread', hfields'⟩ := hother
  cases houtcome
  rw [hread] at hread'
  cases hread'
  rw [hfields] at hfields'
  exact Checked.ok.inj hfields'

theorem World.Reports.unique {w : World} {earlier : List Child.Request} {r : Child.Request}
    {report other : Report} (h : w.Reports earlier r report)
    (hother : w.Reports earlier r other) : report = other := by
  obtain ⟨outcome, hawaited, h⟩ := h
  obtain ⟨outcome', hawaited', hother⟩ := hother
  obtain rfl := Except.ok.inj (hawaited.symm.trans hawaited')
  exact h.unique hother

/-- **What a call does**: unless it starts nothing and fails, it starts an engine and returns what is
    reported at its end. -/
theorem Engine.call_told {m : Machine} (engine : Engine) (mode : Engine.Mode) (text : String)
    (file : Option String) (s : Session) :
    (((engine.call mode text file).run m s).2.started = s.started ∧
        Fails ((engine.call mode text file).run m s).1) ∨
      ∃ r, ((engine.call mode text file).run m s).2.started = s.started ++ [r] ∧ r.RunsEngine ∧
        ∀ report, ((engine.call mode text file).run m s).1 = .ok report ↔
          m.world.Reports s.started r report := by
  cases hchild : engine.child m.world s.context mode text file with
  | error fault =>
    obtain ⟨log, hrun⟩ := call_refused hchild
    rw [hrun]
    exact .inl ⟨rfl, fault, rfl⟩
  | ok r =>
    obtain ⟨log, hrun⟩ := call_sent hchild
    rw [hrun]
    exact .inr ⟨r, rfl, child_runs_engine hchild, fun report => reading_iff⟩

/-- The last of some children was an engine that was waited for, and its end holds this report. -/
def World.Told (w : World) (started : List Child.Request) (report : Report) : Prop :=
  ∃ earlier r, started = earlier ++ [r] ∧ r.RunsEngine ∧ w.Reports earlier r report

theorem World.Told.unique {w : World} {started : List Child.Request} {report other : Report}
    (h : w.Told started report) (hother : w.Told started other) : report = other := by
  obtain ⟨earlier, r, rfl, -, hreports⟩ := h
  obtain ⟨earlier', r', hstarted, -, hreports'⟩ := hother
  obtain ⟨rfl, hr⟩ := List.append_inj' hstarted rfl
  cases hr
  exact hreports.unique hreports'

/-- No engine was started. -/
abbrev Idle (s : Session) : Prop := Started [] (fun _ => False) s

theorem Idle.not_told {w : World} {s : Session} (h : Idle s) (report : Report) :
    ¬w.Told s.started report := by
  rintro ⟨earlier, r, hr, hruns, -⟩
  obtain ⟨later, hlater, hnone⟩ := h
  rw [hlater, List.nil_append] at hr
  exact hnone r (hr ▸ List.mem_append_right _ (List.mem_singleton_self r)) hruns

/-- What starts no engine fails, if it does, with nothing told. -/
theorem Action.Ends.untold {m : Machine} {α : Type} {x : Action α}
    (h : Ends m Idle x (fun _ => Idle) Idle) :
    Ends m Idle x (fun _ => Idle) (fun t => ∀ report, ¬m.world.Told t.started report) :=
  h.mono (fun _ h => h) (fun _ _ h => h) fun _ h => h.not_told

/-- Where no engine was started before, a call returns what the last child has told. -/
theorem ends_call_told {m : Machine} (engine : Engine) (mode : Engine.Mode) (text : String)
    (file : Option String) :
    Action.Ends m Idle (engine.call mode text file)
      (fun report t => m.world.Told t.started report)
      (fun t => ∀ report, ¬m.world.Told t.started report) := by
  refine ⟨fun s hs => ?_⟩
  have htold := engine.call_told (m := m) mode text file s
  rcases hcall : (engine.call mode text file).run m s with ⟨result, t⟩
  rw [hcall] at htold
  rcases htold with ⟨hstarted, fault, rfl⟩ | ⟨r, hstarted, hruns, hreports⟩
  · have hnone := hs.not_told (w := m.world)
    rw [← hstarted] at hnone
    exact hnone
  · cases result with
    | ok report => exact ⟨s.started, r, hstarted, hruns, (hreports report).mp rfl⟩
    | error fault =>
      rintro report ⟨earlier, r', hr', -, hreports'⟩
      obtain ⟨rfl, hr⟩ := List.append_inj' (hstarted.symm.trans hr') rfl
      cases hr
      exact nomatch (hreports report).mpr hreports'

/-! ## 4. The rules of a report -/

/-- **The rules of a report can be written**, with room to spare for the reply that they stood in,
    and none has an id that another one has. -/
theorem Child.Outcome.Reports.held {outcome : Child.Outcome} {report : Report}
    (h : outcome.Reports report) : (Json.object report.rules).Held (Json.depthLimit - 1) := by
  obtain ⟨stdout, stderr, reply, rfl, hread, hfields⟩ := h
  rcases (Report.ofFields_eq_ok.mp hfields).rules with ⟨-, hnone⟩ | hsome
  · rw [hnone]
    exact ⟨.object List.nodup_nil nofun, rfl, by decide⟩
  · have hreply := Json.read_held hread
    cases hreply.tidy with
    | object hnames hentries =>
      exact hreply.of_entry ((Entries.mem_iff_get? hnames).mpr hsome)

theorem Child.Outcome.Reports.nodup {outcome : Child.Outcome} {report : Report}
    (h : outcome.Reports report) : report.rules.names.Nodup := by
  cases h.held.tidy with
  | object hnames hentries => exact hnames

end LintHost
