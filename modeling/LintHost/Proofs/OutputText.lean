import LintHost.Proofs.EngineFaults
import LintHost.Proofs.JsonEnd
import LintHost.Proofs.Trimming

/-!
# Output that is read

What a child has printed is looked at only if it begins as an object or a list does, once the blanks
at its ends are off. This file says that nothing is lost by that, and nothing else is taken.

* `Json.read_trim`: an object or a list between blanks is read from the trimmed text too;
* `Json.read_one`: with more behind it, it is not read;
* `Child.sniff_eq_some_iff`: what is read from output;
* `Child.parsed_output_iff`: what comes back with the result of a child.
-/

namespace LintHost

open LintHost.Action

/-! ## 1. Trimming -/

namespace Text

/-- The text of a container is what trimming leaves of it. -/
theorem trimWhere_bracketed {before body after : List Char} (hbody : Json.Bracketed body)
    (hbefore : ∀ c ∈ before, Json.isBlank c = true)
    (hafter : ∀ c ∈ after, Json.isBlank c = true) :
    trimWhere isBlank (before ++ (body ++ after)) = body := by
  have hwide {cs : List Char} (h : ∀ c ∈ cs, Json.isBlank c = true) :
      ∀ c ∈ cs, isBlank c = true := fun c hc => isBlank_of_json (h c hc)
  obtain ⟨inner, rfl | rfl⟩ := hbody
  · exact trimWhere_framed (hwide hbefore) (hwide hafter) rfl rfl
  · exact trimWhere_framed (hwide hbefore) (hwide hafter) rfl rfl

end Text

namespace Json

variable {s : String} {j : Json}

/-- **An object or a list between blanks** is read from the trimmed text too. -/
theorem read_trim (h : read s = .ok j) (hj : ¬j.IsScalar) : read (Text.trim s) = .ok j := by
  obtain ⟨before, body, after, hs, hbefore, hafter, hbody, hspells⟩ := readChars_container h hj
  have hread := readChars_spells hj (List.forall_mem_nil _) hbody hspells []
  rw [List.nil_append, List.append_nil] at hread
  rw [read, Text.trim, String.toList_ofList, hs, Text.trimWhere_bracketed hbody hbefore hafter,
    hread]
  rfl

/-- With more than blanks behind it an object or a list is no document. -/
theorem read_behind (h : read s = .ok j) (hj : ¬j.IsScalar) {more : String}
    (hmore : more.toList.all isBlank = false) : read (s ++ more) = .error .malformed := by
  have hno : ¬more.toList.all isBlank = true := by
    rw [hmore]
    exact Bool.false_ne_true
  rw [read, String.toList_append, readChars_behind h hj, if_neg hno]

/-- Of a text and of the same with more than blanks behind it, one at most is read as an object or a
    list. -/
theorem read_one {t : String} {j' : Json} {more : String} (h : read s = .ok j) (hj : ¬j.IsScalar)
    (hmore : more.toList.all isBlank = false) (hpart : t = s ++ more ∨ s = t ++ more)
    (ht : read t = .ok j') : j'.IsScalar := by
  by_contra hj'
  rcases hpart with rfl | rfl
  · rw [read_behind h hj hmore] at ht
    cases ht
  · rw [read_behind ht hj' hmore] at h
    cases h

/-- The trimmed text of an object or a list begins with its bracket. -/
theorem trim_opens (h : read (Text.trim s) = .ok j) (hj : ¬j.IsScalar) :
    ∃ more, (Text.trim s).toList = '[' :: more ∨ (Text.trim s).toList = '\x7b' :: more := by
  obtain ⟨before, body, after, hs, hbefore, -, ⟨inner, hbody⟩, -⟩ := readChars_container h hj
  cases before with
  | nil =>
    rcases hbody with rfl | rfl
    · exact ⟨_, .inl hs⟩
    · exact ⟨_, .inr hs⟩
  | cons c before =>
    -- a blank cannot come first in trimmed text
    have hfirst : (Text.trimWhere Text.isBlank s.toList).head? = some c := by
      rw [Text.trim, String.toList_ofList] at hs
      rw [hs]
      rfl
    have hblank := Text.isBlank_of_json (hbefore c List.mem_cons_self)
    rw [Text.head_trimWhere hfirst] at hblank
    cases hblank

theorem read_opens {c : Char} {more : List Char} (hc : c = '[' ∨ c = '\x7b')
    (hs : s.toList = c :: more) (h : read s = .ok j) : ¬j.IsScalar := by
  have hskip : skip (c :: more) = c :: more := by
    rcases hc with rfl | rfl <;> rfl
  rw [read, hs, readChars, hskip] at h
  obtain ⟨⟨j', rest⟩, hvalue, h⟩ := Except.bind_eq_ok h
  dsimp only at h
  split at h
  · cases h
    exact not_scalar_of_opens hc hvalue
  · cases h

end Json

/-! ## 2. Results -/

namespace Child

variable {stdout : String} {v : Json}

/-- **What is read from output** is what the trimmed output is read as, if that is an object or a
    list. -/
theorem sniff_eq_some_iff : sniff stdout = .ok (some v) ↔
    Json.read (Text.trim stdout) = .ok v ∧ ¬v.IsScalar := by
  constructor
  · intro h
    unfold sniff at h
    dsimp only at h
    split at h
    · rename_i hopens
      have hread := Json.attempt_eq_some.mp h
      exact ⟨hread, Json.read_opens (.inr rfl) hopens hread⟩
    · rename_i hopens
      have hread := Json.attempt_eq_some.mp h
      exact ⟨hread, Json.read_opens (.inl rfl) hopens hread⟩
    · cases h
  · rintro ⟨hread, hv⟩
    unfold sniff
    dsimp only
    obtain ⟨more, hopens | hopens⟩ := Json.trim_opens hread hv
    · rw [hopens]
      exact Json.attempt_eq_some.mpr hread
    · rw [hopens]
      exact Json.attempt_eq_some.mpr hread

theorem sniff_deep (h : sniff stdout = .error .tooDeep) :
    Json.read (Text.trim stdout) = .error .tooDeep := by
  unfold sniff at h
  dsimp only at h
  split at h
  · exact (Json.attempt_eq_error.mp h).1
  · exact (Json.attempt_eq_error.mp h).1
  · cases h

/-- **What a result carries** besides the output: what that is read as, if the child has ended. -/
theorem Result.parsed_iff {r : Request} {outcome : Outcome} :
    (∃ result, ofOutcome r outcome = .ok (.ok result) ∧ result.parsed = some v) ↔
      ∃ code stdout stderr, outcome = .finished code stdout stderr ∧
        Json.read (Text.trim stdout) = .ok v ∧ ¬v.IsScalar := by
  cases outcome with
  | unstartable code =>
    refine iff_of_false (fun ⟨result, h, _⟩ => ?_) fun ⟨_, _, _, h, _⟩ => nomatch h
    cases h
  | garbled =>
    refine iff_of_false (fun ⟨result, h, _⟩ => ?_) fun ⟨_, _, _, h, _⟩ => nomatch h
    cases h
  | timedOut stdout stderr =>
    refine iff_of_false (fun ⟨result, h, hparsed⟩ => ?_) fun ⟨_, _, _, h, _⟩ => nomatch h
    obtain ⟨note, -, h⟩ := Except.bind_eq_ok h
    cases h
    cases hparsed
  | finished code stdout stderr =>
    constructor
    · rintro ⟨result, h, hparsed⟩
      obtain ⟨parsed, hsniff, h⟩ := Except.bind_eq_ok h
      cases h
      obtain rfl : parsed = some v := hparsed
      exact ⟨code, stdout, stderr, rfl, sniff_eq_some_iff.mp hsniff⟩
    · rintro ⟨code, stdout, stderr, ⟨⟩, hread⟩
      refine ⟨⟨r.command, r.cwd, code, stdout, stderr, some v⟩, ?_, rfl⟩
      rw [ofOutcome, sniff_eq_some_iff.mpr hread]
      rfl

/-- Output that is read as it is comes with the result. -/
theorem Result.ofOutcome_read {r : Request} {code : Int} {stderr : String}
    (hread : Json.read stdout = .ok v) (hv : ¬v.IsScalar) :
    ofOutcome r (.finished code stdout stderr) =
      .ok (.ok ⟨r.command, r.cwd, code, stdout, stderr, some v⟩) := by
  rw [ofOutcome, sniff_eq_some_iff.mpr ⟨Json.read_trim hread hv, hv⟩]
  rfl

/-- There is a result of a child whose time has run out exactly if the time can be told. -/
theorem Result.exists_ofOutcome_timedOut {r : Request} {stdout stderr : Captured} :
    (∃ result, ofOutcome r (.timedOut stdout stderr) = .ok (.ok result)) ↔
      r.timeout.display?.isSome = true := by
  rw [ofOutcome]
  cases hshown : r.timeout.display? with
  | none =>
    rw [timeoutNote_long hshown]
    refine iff_of_false (fun hresult => ?_) Bool.false_ne_true
    obtain ⟨result, hresult⟩ := hresult
    cases hresult
  | some shown =>
    rw [timeoutNote_shown hshown]
    exact iff_of_true ⟨_, rfl⟩ rfl

/-! ## 3. A child -/

/-- The child of a request that others were started before is started and waited for, and this is its
    end. -/
def ComesTo (w : World) (earlier : List Request) (r : Request) (outcome : Outcome) : Prop :=
  refusal? w.host r = none ∧ awaited w.host r.timeout (w.answer earlier r) = .ok outcome

section ComesTo

variable {w : World} {earlier : List Request} {r : Request} {outcome : Outcome}

theorem ComesTo.unique {other : Outcome} (h : ComesTo w earlier r outcome)
    (hother : ComesTo w earlier r other) : outcome = other :=
  Except.ok.inj (h.2.symm.trans hother.2)

/-- The caller gets what the end means. -/
theorem ComesTo.reply_eq (h : ComesTo w earlier r outcome) :
    reply w earlier r = Result.ofOutcome r outcome := by
  rw [reply_accepted h.1, ended, h.2]
  rfl

/-- A caller who gets something gets what the end means. -/
theorem comesTo_of_reply {result : Except OsFault Result} (h : reply w earlier r = .ok result) :
    ∃ outcome, ComesTo w earlier r outcome ∧ Result.ofOutcome r outcome = .ok result := by
  cases hrefusal : refusal? w.host r with
  | some fault =>
    rw [reply_refused hrefusal] at h
    cases h
  | none =>
    rw [reply_accepted hrefusal] at h
    obtain ⟨outcome, hawaited, houtcome⟩ := Except.bind_eq_ok h
    exact ⟨outcome, ⟨hrefusal, hawaited⟩, houtcome⟩

theorem comesTo_rehearsed (h : w.host.rehearsed = true) (earlier : List Request) (r : Request) :
    ComesTo w earlier r (w.answer earlier r) := ⟨if_pos h, awaited_rehearsed h _ _⟩

end ComesTo

/-- **Nothing is lost, and nothing else is taken.** Of what comes back when a command is run:

    * a value comes with the result exactly if the child has ended and its output, the blanks at the
      ends taken off, is the document of that value, an object or a list;
    * if the child has ended and its output is not nested too deep, there is a result; where the
      output as it is would be read as an object or a list, that comes with it; and no value comes
      with it where more than blanks stands behind such a document, or where more than blanks is
      missing from one;
    * if the child's time has run out no value comes with the result, and there is a result exactly
      if the time can be told;
    * if no child was started, or it was not waited for, there is no result. -/
theorem parsed_output_iff {w : World} {command : List Value} {words : List String}
    (hwords : words? command = some words) (cwd : Option String) (env : Option (Entries String))
    (timeout : Value) (input : Option String) (s : Session) :
    let ended := ((run command cwd env timeout input).run w s).1
    let comesTo := ComesTo w s.started ⟨words, directory w cwd, env, timeout, input⟩
    (∀ v, (∃ result, ended = .ok (.ok result) ∧ result.parsed = some v) ↔
      ∃ code stdout stderr, comesTo (.finished code stdout stderr) ∧
        Json.read (Text.trim stdout) = .ok v ∧ ¬v.IsScalar) ∧
    (∀ code stdout stderr, comesTo (.finished code stdout stderr) →
      (Json.read (Text.trim stdout) ≠ .error .tooDeep → ∃ parsed,
        ended = .ok (.ok ⟨words, directory w cwd, code, stdout, stderr, parsed⟩)) ∧
      (∀ v, Json.read stdout = .ok v → ¬v.IsScalar →
        ended = .ok (.ok ⟨words, directory w cwd, code, stdout, stderr, some v⟩)) ∧
      ∀ document more v, Json.read document = .ok v → ¬v.IsScalar →
        more.toList.all Json.isBlank = false →
        Text.trim stdout = document ++ more ∨ document = Text.trim stdout ++ more →
        ∀ result, ended = .ok (.ok result) → result.parsed = none) ∧
    (∀ stdout stderr, comesTo (.timedOut stdout stderr) →
      ((∃ result, ended = .ok (.ok result)) ↔ timeout.display?.isSome = true) ∧
      ∀ result, ended = .ok (.ok result) → result.parsed = none) ∧
    ((∀ outcome, ¬comesTo outcome) → ∀ result, ended ≠ .ok result) := by
  intro ended comesTo
  let r : Request := ⟨words, directory w cwd, env, timeout, input⟩
  obtain ⟨log, hrun⟩ := run_words (w := w) hwords cwd env timeout input s
  have hended : ended = reply w s.started r := congrArg Prod.fst hrun
  have hparsed (v : Json) : (∃ result, ended = .ok (.ok result) ∧ result.parsed = some v) ↔
      ∃ code stdout stderr, comesTo (.finished code stdout stderr) ∧
        Json.read (Text.trim stdout) = .ok v ∧ ¬v.IsScalar := by
    rw [hended]
    constructor
    · rintro ⟨result, hresult, hvalue⟩
      obtain ⟨outcome, hcomes, houtcome⟩ := comesTo_of_reply hresult
      obtain ⟨code, stdout, stderr, rfl, hread⟩ := Result.parsed_iff.mp ⟨result, houtcome, hvalue⟩
      exact ⟨code, stdout, stderr, hcomes, hread⟩
    · rintro ⟨code, stdout, stderr, hcomes, hread⟩
      rw [ComesTo.reply_eq hcomes]
      exact Result.parsed_iff.mpr ⟨code, stdout, stderr, rfl, hread⟩
  refine ⟨hparsed, fun code stdout stderr hfinished => ⟨fun hflat => ?_, fun v hread hv => ?_,
    fun document more v hread hv hmore hpart result hresult =>
      Option.eq_none_iff_forall_ne_some.mpr fun v' hvalue => ?_⟩,
    fun stdout stderr htimedOut => ⟨?_, fun result hresult =>
      Option.eq_none_iff_forall_ne_some.mpr fun v' hvalue => ?_⟩, fun hnever result hresult => ?_⟩
  · have hdeep : sniff stdout ≠ .error .tooDeep := fun hdeep => hflat (sniff_deep hdeep)
    obtain ⟨parsed, -, hresult⟩ := Result.ofOutcome_finished (r := r) hdeep
    exact ⟨parsed, by rw [hended, ComesTo.reply_eq hfinished, hresult]⟩
  · rw [hended, ComesTo.reply_eq hfinished]
    exact Result.ofOutcome_read hread hv
  · obtain ⟨code', stdout', stderr', hfinished', hread', hv'⟩ :=
      (hparsed v').mp ⟨result, hresult, hvalue⟩
    cases hfinished.unique hfinished'
    exact hv' (Json.read_one hread hv hmore hpart hread')
  · rw [hended, ComesTo.reply_eq htimedOut]
    exact Result.exists_ofOutcome_timedOut
  · obtain ⟨code', stdout', stderr', hfinished, -⟩ := (hparsed v').mp ⟨result, hresult, hvalue⟩
    cases htimedOut.unique hfinished
  · obtain ⟨outcome, hcomes, -⟩ := comesTo_of_reply (hended.symm.trans hresult)
    exact hnever outcome hcomes

end Child

/-! ## 4. A list, and two of them -/

/-- A list between blanks that JSON does not know is read; two lists are not, nor is one that was
    not written to its end. -/
theorem printed_list_parsed :
    let ended (stdout : String) := ((Child.run [.text "node"] none none .null none).run
      (World.printing stdout) (.start (.ofEnv []))).1
    (∃ result, ended "\u00a0[[]]\n" = .ok (.ok result) ∧
      result.parsed = some (.list [.list []])) ∧
    (∀ result, ended "[1] [1]" = .ok (.ok result) → result.parsed = none) ∧
    ∀ result, ended "[1" = .ok (.ok result) → result.parsed = none := by
  intro ended
  have hwords : Child.words? [.text "node"] = some ["node"] := rfl
  have hone : Json.read "[1]" = .ok (.list [.int 1]) := rfl
  have hall (stdout : String) := Child.parsed_output_iff (w := .printing stdout) hwords none none
    .null none (.start (.ofEnv []))
  have hlist : Json.read (Text.trim "\u00a0[[]]\n") = .ok (.list [.list []]) := rfl
  have htwo : Text.trim "[1] [1]" = "[1]" ++ " [1]" := rfl
  have hpart : "[1]" = Text.trim "[1" ++ "]" := rfl
  have hcomes (stdout : String) : Child.ComesTo (.printing stdout) []
      ⟨["node"], Child.directory (.printing stdout) none, none, .null, none⟩
      (.finished 0 stdout "") := Child.comesTo_rehearsed rfl [] _
  exact ⟨((hall _).1 _).mpr ⟨0, _, "", hcomes _, hlist, id⟩,
    ((hall _).2.1 0 _ "" (hcomes _)).2.2 _ _ _ hone id (by decide) (.inl htwo),
    ((hall _).2.1 0 _ "" (hcomes _)).2.2 _ _ _ hone id (by decide) (.inr hpart)⟩

end LintHost
