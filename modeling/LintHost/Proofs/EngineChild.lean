import LintHost.Proofs.EngineFile

/-!
# The child of a call

Whether a call of an engine starts a child, which one, and what comes of it, is fixed by the engine,
the context and what is asked for. This file says it once, so that no later theory follows the steps
of a call again.

* `Engine.child`: the child that a call starts, or why it starts none;
* `Engine.Sendable`: a call starts one; neither the mode nor the text nor the file matter;
* `Engine.reading`: the report that is read from the end of a child;
* `Engine.call_refused`, `Engine.call_sent`: the two ways in which a call runs.
-/

namespace LintHost

open LintHost.Action LintHost.Path

variable {m : Machine} {w : World}

/-! ## 1. Writing requests -/

namespace Json

/-- A value can be written unless an integer in it is too long or it is nested too deep. -/
def Writable (j : Json) : Prop := j.allInts shortInt = true ∧ j.depth ≤ depthLimit

instance (j : Json) : Decidable j.Writable := inferInstanceAs (Decidable (_ ∧ _))

theorem write_fails (style : Style) (j : Json) : Fails (write style j) ↔ ¬j.Writable := by
  unfold write Writable
  cases hints : j.allInts shortInt with
  | false =>
    refine ⟨fun _ h => ?_, fun _ => ⟨_, rfl⟩⟩
    exact absurd h.1 Bool.false_ne_true
  | true =>
    by_cases hdepth : depthLimit < j.depth
    · rw [Bool.not_true, if_neg Bool.false_ne_true, if_pos hdepth]
      exact ⟨fun _ h => absurd h.2 (Nat.not_le_of_lt hdepth), fun _ => ⟨_, rfl⟩⟩
    · rw [Bool.not_true, if_neg Bool.false_ne_true, if_neg hdepth, fails_ok]
      exact ⟨False.elim, fun h => h ⟨rfl, Nat.le_of_not_lt hdepth⟩⟩

theorem write_long {j : Json} (style : Style) (h : j.allInts shortInt = false) :
    write style j = .error .longInteger := by
  unfold write
  rw [h]
  rfl

theorem write_deep {j : Json} (style : Style) (hints : j.allInts shortInt = true)
    (hdepth : depthLimit < j.depth) : write style j = .error .tooDeep := by
  unfold write
  rw [hints, Bool.not_true, if_neg Bool.false_ne_true, if_pos hdepth]

theorem writable_of_write {style : Style} {j : Json} {text : String}
    (h : write style j = .ok text) :
    j.Writable := by
  by_contra hno
  obtain ⟨fault, hfault⟩ := (write_fails style j).mpr hno
  rw [hfault] at h
  cases h

theorem allInts_texts (p : Int → Bool) : ∀ texts : List String,
    allInts.allInList p (texts.map .text) = true
  | [] => rfl
  | t :: rest => by
    rw [List.map_cons, allInts.allInList, allInts_texts p rest]
    rfl

theorem depth_texts : ∀ texts : List String, depth.depthList (texts.map .text) = 0
  | [] => rfl
  | t :: rest => by
    rw [List.map_cons, depth.depthList, depth_texts rest]
    rfl

/-- An object of values that are not nested much can be written. -/
theorem writable_object {entries : Entries Json}
    (h : ∀ entry ∈ entries, entry.2.allInts shortInt = true ∧ entry.2.depth ≤ 1) :
    (object entries).Writable := by
  have hall : allInts.allInEntries shortInt entries = true ∧
      depth.depthEntries entries ≤ 1 := by
    induction entries with
    | nil => exact ⟨rfl, Nat.zero_le 1⟩
    | cons e rest ih =>
      obtain ⟨⟨hints, hdepth⟩, hrest⟩ := List.forall_mem_cons.mp h
      obtain ⟨hints', hdepth'⟩ := ih hrest
      refine ⟨?_, Nat.max_le.mpr ⟨hdepth, hdepth'⟩⟩
      rw [allInts.allInEntries, hints, hints']
      rfl
  refine ⟨hall.1, ?_⟩
  rw [depth]
  exact Nat.le_trans (Nat.succ_le_succ hall.2) (by decide)

theorem allInts_append (p : Int → Bool) (entries more : List (String × Json)) :
    allInts.allInEntries p (entries ++ more) =
      (allInts.allInEntries p entries && allInts.allInEntries p more) := by
  induction entries with
  | nil => rfl
  | cons e rest ih => rw [List.cons_append, allInts.allInEntries, allInts.allInEntries, ih,
      Bool.and_assoc]

theorem depth_append (entries more : List (String × Json)) :
    depth.depthEntries (entries ++ more) =
      max (depth.depthEntries entries) (depth.depthEntries more) := by
  induction entries with
  | nil => exact (Nat.zero_max _).symm
  | cons e rest ih => rw [List.cons_append, depth.depthEntries, depth.depthEntries, ih,
      Nat.max_assoc]

end Json

namespace Engine

theorem Options.optional_plain (name : String) (given : Option String) :
    (∀ p, Json.allInts.allInEntries p (optional name given) = true) ∧
      Json.depth.depthEntries (optional name given) = 0 := by
  unfold optional
  split <;> exact ⟨fun _ => rfl, rfl⟩

theorem Options.request_allInts (p : Int → Bool) (options : Options) :
    options.request.allInts p = (Json.object options.rules).allInts p := by
  obtain ⟨hignore, -⟩ := optional_plain "ignorePath" options.ignorePath
  obtain ⟨hconfig, -⟩ := optional_plain "configFile" options.configFile
  have htexts := Json.allInts_texts p options.rulePaths
  rw [request, Json.allInts, Json.allInts_append, Json.allInts_append, hignore, hconfig]
  simp [Json.allInts, Json.allInts.allInEntries, Json.ofTexts, htexts]

theorem Options.request_depth (options : Options) :
    options.request.depth = (Json.object options.rules).depth + 1 := by
  obtain ⟨-, hignore⟩ := optional_plain "ignorePath" options.ignorePath
  obtain ⟨-, hconfig⟩ := optional_plain "configFile" options.configFile
  have htexts := Json.depth_texts options.rulePaths
  rw [request, Json.depth, Json.depth_append, Json.depth_append, hignore, hconfig]
  simp [Json.depth, Json.depth.depthEntries, Json.ofTexts, htexts]

theorem requestOf_allInts (engine : Engine) (mode : Mode) (text : String) (file : Option String) :
    (engine.requestOf mode text file).allInts Json.shortInt =
      (Json.object engine.options.rules).allInts Json.shortInt := by
  rw [← Options.request_allInts]
  cases file <;> simp [requestOf, Json.allInts, Json.allInts.allInEntries, Json.ofText?]

theorem requestOf_depth (engine : Engine) (mode : Mode) (text : String) (file : Option String) :
    (engine.requestOf mode text file).depth = (Json.object engine.options.rules).depth + 2 := by
  have hdepth : (engine.requestOf mode text file).depth = engine.options.request.depth + 1 := by
    cases file <;> simp [requestOf, Json.depth, Json.depth.depthEntries, Json.ofText?]
  rw [hdepth, Options.request_depth]

/-- Whether the request of a call can be written is up to the rules that the engine was constructed
    with: they stand two containers below the request. -/
theorem requestOf_writable (engine : Engine) (mode : Mode) (text : String)
    (file : Option String) : (engine.requestOf mode text file).Writable ↔
      (Json.object engine.options.rules).allInts Json.shortInt = true ∧
        (Json.object engine.options.rules).depth + 2 ≤ Json.depthLimit := by
  rw [Json.Writable, requestOf_allInts, requestOf_depth]

/-! ## 2. The child -/

/-- The child that a call starts, or why it starts none. -/
def child (w : World) (context : Context) (engine : Engine) (mode : Mode) (text : String)
    (file : Option String) : Except Fault Child.Request :=
  match Json.write Json.wire (engine.requestOf mode text file) with
  | .error fault => .error (.ofJsonWriter fault)
  | .ok input =>
    match Child.words? [context.nodeExecutable, .text "-e", .text script] with
    | none => .error .wrongType
    | some words =>
      let request : Child.Request :=
        ⟨words, Child.directory w engine.cwd, some engine.env, context.timeout, some input⟩
      match Child.refusal? w.host request with
      | some fault => .error fault
      | none => .ok request

/-- Why no process can be given this program and the engine's working directory and environment. -/
def refusal? (w : World) (node : String) (engine : Engine) : Option Fault :=
  Child.refusal? w.host ⟨[node, "-e", script], Child.directory w engine.cwd, some engine.env, .null,
    none⟩

/-- A process can be given them. -/
def Fits (w : World) (node : String) (engine : Engine) : Prop := engine.refusal? w node = none

theorem fits_rehearsed {w : World} (h : w.host.rehearsed = true) (node : String) (engine : Engine) :
    engine.Fits w node := if_pos h

/-- Calls of an engine start a child: the context's program is a text, the rules that the engine was
    constructed with can be written, and a process can be given the rest. -/
structure Sendable (w : World) (context : Context) (engine : Engine) : Prop where
  program : ∃ node, context.nodeExecutable = .text node ∧ engine.Fits w node
  integers : (Json.object engine.options.rules).allInts Json.shortInt = true
  nesting : (Json.object engine.options.rules).depth + 2 ≤ Json.depthLimit

variable {context : Context} {engine : Engine} {mode : Mode} {text : String} {file : Option String}

theorem words_text (node : String) :
    Child.words? [.text node, .text "-e", .text script] = some [node, "-e", script] := rfl

/-- **All that is in a child**: the program and the time are the context's, the request is what is
    asked for, and the rest is the engine's. -/
theorem child_eq_ok {r : Child.Request} : engine.child w context mode text file = .ok r ↔
    ∃ node input, context.nodeExecutable = .text node ∧ engine.Fits w node ∧
      Json.write Json.wire (engine.requestOf mode text file) = .ok input ∧
      r = ⟨[node, "-e", script], Child.directory w engine.cwd, some engine.env, context.timeout,
        some input⟩ := by
  constructor
  · intro h
    unfold child at h
    split at h
    · cases h
    · rename_i input hinput
      split at h
      · cases h
      · rename_i words hwords
        cases hnode : context.nodeExecutable with
        | text node =>
          rw [hnode, words_text] at hwords
          cases hwords
          dsimp only at h
          split at h
          · cases h
          · cases h
            exact ⟨node, input, rfl, ‹_›, hinput, rfl⟩
        | _ =>
          rw [hnode] at hwords
          cases hwords
  · rintro ⟨node, input, hnode, hfits, hinput, rfl⟩
    have hrefusal : Child.refusal? w.host ⟨[node, "-e", script], Child.directory w engine.cwd,
        some engine.env, context.timeout, some input⟩ = none := hfits
    unfold child
    rw [hinput, hnode, words_text]
    dsimp only
    rw [hrefusal]

/-- **Whether a call starts a child** does not depend on the mode, the text or the file. -/
theorem child_isOk_iff : (∃ r, engine.child w context mode text file = .ok r) ↔
    engine.Sendable w context := by
  constructor
  · rintro ⟨r, hr⟩
    obtain ⟨node, input, hnode, hfits, hinput, -⟩ := child_eq_ok.mp hr
    obtain ⟨hints, hdepth⟩ := (requestOf_writable engine mode text file).mp
      (Json.writable_of_write hinput)
    exact ⟨⟨node, hnode, hfits⟩, hints, hdepth⟩
  · rintro ⟨⟨node, hnode, hfits⟩, hints, hdepth⟩
    have hwritable := (requestOf_writable engine mode text file).mpr ⟨hints, hdepth⟩
    cases hwrite : Json.write Json.wire (engine.requestOf mode text file) with
    | ok input => exact ⟨_, child_eq_ok.mpr ⟨node, input, hnode, hfits, hwrite, rfl⟩⟩
    | error fault => exact absurd hwritable ((Json.write_fails _ _).mp ⟨fault, hwrite⟩)

theorem child_runs_engine {r : Child.Request}
    (h : engine.child w context mode text file = .ok r) : r.RunsEngine := by
  obtain ⟨node, _, _, _, _, rfl⟩ := child_eq_ok.mp h
  exact ⟨node, rfl⟩

/-! ## 3. The call -/

/-- The report that is read from the end of a child that others were started before. -/
def reading (w : World) (context : Context) (mode : Mode) (earlier : List Child.Request)
    (r : Child.Request) : Except Fault Report := do
  let result ← Child.ended w earlier r
  let reply ← replyOf mode context.nodeExecutable.shown result
  (Report.ofFields reply).toExcept

/-- A call that starts no child leaves everything as it is but the log. -/
theorem call_refused {s : Session} {fault : Fault}
    (h : engine.child m.world s.context mode text file = .error fault) :
    ∃ log, (engine.call mode text file).run m s = (.error fault, { s with log := log }) := by
  unfold child at h
  unfold call
  rw [run_context_bind]
  cases hwrite : Json.write Json.wire (engine.requestOf mode text file) with
  | error refusal =>
    rw [hwrite] at h
    cases h
    exact ⟨s.log, rfl⟩
  | ok input =>
    rw [hwrite] at h
    dsimp only at h
    cases hwords : Child.words? [s.context.nodeExecutable, .text "-e", .text script] with
    | none =>
      rw [hwords] at h
      cases h
      exact ⟨s.log, run_bind_error (Child.run_other hwords ..)⟩
    | some words =>
      rw [hwords] at h
      obtain ⟨message, hrun⟩ := Child.run_words_now (m := m) hwords engine.cwd (some engine.env)
        s.context.timeout (some input) s
      dsimp only at h hrun
      cases hrefusal : Child.refusal? m.world.host ⟨words, Child.directory m.world engine.cwd,
          some engine.env, s.context.timeout, some input⟩ with
      | none =>
        rw [hrefusal] at h
        cases h
      | some refusal =>
        rw [hrefusal] at h
        cases h
        rw [Child.reply_refused hrefusal, Child.launched_refused hrefusal, List.append_nil] at hrun
        exact ⟨_, run_bind_error hrun⟩

/-- **Any other call starts its child** and reads the report from its end; of the session the
    children and the log change. -/
theorem call_sent {s : Session} {r : Child.Request}
    (h : engine.child m.world s.context mode text file = .ok r) :
    ∃ log, (engine.call mode text file).run m s =
      (reading m.world s.context mode s.started r,
        { s with started := s.started ++ [r], log := log }) := by
  obtain ⟨node, input, hnode, hfits, hinput, rfl⟩ := child_eq_ok.mp h
  have hwords := words_text node
  rw [← hnode] at hwords
  obtain ⟨message, hrun⟩ := Child.run_words_now (m := m) hwords engine.cwd (some engine.env)
    s.context.timeout (some input) s
  generalize s.log ++ [_] = log at hrun
  generalize hr : (⟨[node, "-e", script], Child.directory m.world engine.cwd, some engine.env,
    s.context.timeout, some input⟩ : Child.Request) = r at hrun
  have hrefusal : Child.refusal? m.world.host r = none := by
    rw [← hr]
    exact hfits
  rw [Child.reply_accepted hrefusal, Child.launched_accepted hrefusal] at hrun
  unfold call reading
  rw [run_context_bind, hinput]
  cases hresult : Child.ended m.world s.started r with
  | error fault =>
    rw [hresult] at hrun
    exact ⟨log, run_bind_error hrun⟩
  | ok result =>
    rw [hresult] at hrun
    dsimp only
    rw [run_bind_ok hrun, Except.ok_bind]
    cases hreply : replyOf mode s.context.nodeExecutable.shown result with
    | error fault => exact ⟨log, run_bind_error (run_ofExcept _ _)⟩
    | ok reply =>
      let message := "ESLint " ++ mode.name ++ " finished in 0.00s"
      refine ⟨log ++ [⟨source, Log.Level.debug.number, message⟩], ?_⟩
      rw [run_bind_ok (run_ofExcept _ _), run_bind_ok (run_tell _ _ _ _), run_ofExcept]
      rfl

/-- The children of a call: the one that it starts, if it starts one. -/
theorem call_started (engine : Engine) (mode : Mode) (text : String) (file : Option String)
    (s : Session) : ((engine.call mode text file).run m s).2.started =
      s.started ++ (engine.child m.world s.context mode text file).toOption.toList := by
  cases hchild : engine.child m.world s.context mode text file with
  | error fault =>
    obtain ⟨log, hrun⟩ := call_refused hchild
    rw [hrun]
    exact (List.append_nil _).symm
  | ok r =>
    obtain ⟨log, hrun⟩ := call_sent hchild
    rw [hrun]
    rfl

end Engine

end LintHost
