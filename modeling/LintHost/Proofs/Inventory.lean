import LintHost.Proofs.EngineChild

/-!
# The rules that an adapter remembers

An adapter remembers, engine by engine, the rules of the last call that has succeeded. This file
follows an adapter through whatever is done with it: engines are constructed and let go, asked and
asked again, and children end as they like. Engines are told apart by the number that each gets when
it is constructed, never by what they were constructed with.

* `Ask`: what an engine can be asked, and how such a call runs;
* `Desk`: an adapter with the engines that are held, and all that can be done with them;
* `Told`, `lastTold`: what the calls came to, and the last rules among that for an engine;
* `Desk.Keeps`: what is remembered of a held engine is what its calls have told last;
* `adapter_remembers_per_engine`: when the rules of an engine are asked for again.
-/

namespace LintHost

open LintHost.Action

variable {w : World}

/-! ## 1. What an adapter remembers -/

namespace Adapter

theorem known_remember_other (adapter : Adapter) {number other : Nat} (h : other ≠ number)
    (rules : Entries Json) :
    (adapter.remember number rules).known? other = adapter.known? other := by
  have hrest := List.lookup_filter_ne h adapter.reported
  unfold remember known?
  rw [List.lookup_cons, beq_false_of_ne h]
  exact hrest

theorem known_forget_other (adapter : Adapter) {number other : Nat} (h : other ≠ number) :
    (adapter.forget number).known? other = adapter.known? other :=
  List.lookup_filter_ne h adapter.reported

theorem known_forget_self (adapter : Adapter) (number : Nat) :
    (adapter.forget number).known? number = none := by
  refine List.lookup_eq_none_iff.mpr fun entry hentry => ?_
  have hne : entry.1 ≠ number := of_decide_eq_true (List.mem_filter.mp hentry).2
  exact bne_iff_ne.mpr hne.symm

end Adapter

/-! ## 2. Asking an engine -/

/-- What an engine can be asked. -/
inductive Ask
  | lint (text file : String)
  | rules

namespace Ask

/-- The mode of the call. -/
def mode : Ask → Engine.Mode
  | lint .. => .lint
  | rules => .rules

/-- The text that the call sends. -/
def text : Ask → String
  | lint text _ => text
  | rules => ""

/-- The file that the call names. -/
def file : Ask → Option String
  | lint _ file => some file
  | rules => none

/-- What is remembered of an engine, if that is enough of an answer. -/
def remembered (adapter : Adapter) (engine : Engine) : Ask → Option (Entries Json)
  | lint .. => none
  | rules => adapter.known? engine.number

/-- Asks an engine; the rules that are reported, and the adapter after that. -/
def perform (adapter : Adapter) (engine : Engine) : Ask → Action (Entries Json × Adapter)
  | lint text file => do
    let (report, adapter) ← adapter.lint engine text file
    return (report.rules, adapter)
  | rules => adapter.rules engine

variable {adapter : Adapter} {engine : Engine}

/-- What a report means for the adapter. -/
def settle (adapter : Adapter) (engine : Engine) (report : Report) : Entries Json × Adapter :=
  (report.rules, adapter.remember engine.number report.rules)

/-- Where nothing is remembered, asking is a call. -/
theorem perform_eq_call {ask : Ask} (h : ask.remembered adapter engine = none) :
    ask.perform adapter engine =
      settle adapter engine <$> engine.call ask.mode ask.text ask.file := by
  rw [map_eq_pure_bind]
  cases ask with
  | lint text file =>
    rw [perform, Adapter.lint, bind_assoc]
    rfl
  | rules =>
    unfold perform Adapter.rules
    rw [show adapter.known? engine.number = none from h]
    rfl

/-- Where something is, no child is started. -/
theorem perform_remembered {ask : Ask} {rules : Entries Json}
    (h : ask.remembered adapter engine = some rules) (s : Session) :
    (ask.perform adapter engine).run w s = (.ok (rules, adapter), s) := by
  cases ask with
  | lint text file => cases h
  | rules =>
    unfold perform Adapter.rules
    rw [show adapter.known? engine.number = some rules from h]
    rfl

variable {s : Session} {ask : Ask}

/-- What cannot be sent is not asked; nothing changes but the log. -/
theorem perform_refused (h : ask.remembered adapter engine = none)
    (hsend : ¬engine.Sendable w s.context) :
    ∃ fault log, (ask.perform adapter engine).run w s = (.error fault, { s with log := log }) := by
  cases hchild : engine.child w s.context ask.mode ask.text ask.file with
  | ok r => exact absurd (Engine.child_isOk_iff.mp ⟨r, hchild⟩) hsend
  | error fault =>
    obtain ⟨log, hcall⟩ := Engine.call_refused (m := w) hchild
    refine ⟨fault, log, ?_⟩
    rw [perform_eq_call h, run_map, hcall]
    rfl

/-- **Asking starts one child**, and what is read from its end settles the answer and the
    adapter. -/
theorem perform_sent (h : ask.remembered adapter engine = none) {r : Child.Request}
    (hchild : engine.child w s.context ask.mode ask.text ask.file = .ok r) :
    ∃ log, (ask.perform adapter engine).run w s =
      ((Engine.reading w s.context ask.mode s.started r).map (settle adapter engine),
        { s with started := s.started ++ [r], log := log }) := by
  obtain ⟨log, hcall⟩ := Engine.call_sent (m := w) hchild
  refine ⟨log, ?_⟩
  rw [perform_eq_call h, run_map, hcall]

/-- Asking changes nothing of the session but the children and the log. -/
theorem perform_frame (ask : Ask) (s : Session) :
    ((ask.perform adapter engine).run w s).2.context = s.context ∧
      ((ask.perform adapter engine).run w s).2.cache = s.cache := by
  cases hknown : ask.remembered adapter engine with
  | some rules =>
    rw [perform_remembered hknown]
    exact ⟨rfl, rfl⟩
  | none =>
    cases hchild : engine.child w s.context ask.mode ask.text ask.file with
    | error fault =>
      obtain ⟨log, hcall⟩ := Engine.call_refused (m := w) hchild
      rw [perform_eq_call hknown, run_map, hcall]
      exact ⟨rfl, rfl⟩
    | ok r =>
      obtain ⟨log, hrun⟩ := perform_sent hknown hchild
      rw [hrun]
      exact ⟨rfl, rfl⟩

/-- However an engine answers, the answer is remembered of it, and of no other engine anything
    changes. -/
theorem perform_answered {rules : Entries Json} {after : Adapter} {s' : Session}
    (h : (ask.perform adapter engine).run w s = (.ok (rules, after), s')) :
    after.package = adapter.package ∧ after.known? engine.number = some rules ∧
      ∀ other, other ≠ engine.number → after.known? other = adapter.known? other := by
  cases hknown : ask.remembered adapter engine with
  | some known =>
    rw [perform_remembered hknown] at h
    cases h
    cases ask with
    | lint text file => cases hknown
    | rules => exact ⟨rfl, hknown, fun _ _ => rfl⟩
  | none =>
    rw [perform_eq_call hknown, run_map] at h
    cases hreport : ((engine.call ask.mode ask.text ask.file).run w s).1 with
    | error fault =>
      rw [hreport] at h
      cases h
    | ok report =>
      rw [hreport] at h
      cases h
      exact ⟨rfl, Adapter.known_remember _ _ _, fun _ h => Adapter.known_remember_other _ h _⟩

end Ask

/-! ## 3. The desk -/

/-- What was told about an engine: its rules, or that it failed. -/
structure Told where
  number : Nat
  rules : Except Fault (Entries Json)

/-- The rules that were told last about an engine. -/
def lastTold (number : Nat) (told : List Told) : Option (Entries Json) :=
  told.reverse.findSome? fun t => if t.number = number then t.rules.toOption else none

/-- An adapter with the engines that are held, how many were constructed in all, and the session of
    the context. -/
structure Desk where
  session : Session
  adapter : Adapter
  engines : List Engine
  constructed : Nat

/-- What can be done with it. -/
inductive Desk.Call
  /-- An engine is constructed. -/
  | construct (options : Engine.Options)
  /-- An engine is asked. -/
  | ask (number : Nat) (ask : Ask)
  /-- An engine is let go. -/
  | drop (number : Nat)
  /-- Whatever else is done has left this session. -/
  | elsewhere (session : Session)

namespace Desk

/-- An adapter that nothing was done with. -/
def start (package : Package) (session : Session) : Desk := ⟨session, .new package, [], 0⟩

/-- The engine with a number, if it is held. -/
def engine? (desk : Desk) (number : Nat) : Option Engine :=
  desk.engines.find? (·.number = number)

/-- What an answer leaves, and what it tells. -/
def answered (desk : Desk) (number : Nat) :
    Except Fault (Entries Json × Adapter) × Session → Desk × List Told
  | (.ok (rules, adapter), s) => ({ desk with session := s, adapter }, [⟨number, .ok rules⟩])
  | (.error fault, s) => ({ desk with session := s }, [⟨number, .error fault⟩])

/-- What a call leaves in the world of the moment, and what it tells. Nobody asks an engine that is
    not held. -/
def step (desk : Desk) : World × Call → Desk × List Told
  | (w, .construct options) =>
    match (desk.adapter.construct desk.constructed options).run w desk.session with
    | (.ok engine, s) => ({ desk with
        session := s, engines := desk.engines ++ [engine], constructed := desk.constructed + 1 }, [])
    | (.error _, s) => ({ desk with session := s }, [])
  | (w, .ask number ask) =>
    match desk.engine? number with
    | none => (desk, [])
    | some engine => desk.answered number ((ask.perform desk.adapter engine).run w desk.session)
  | (_, .drop number) => ({ desk with
      adapter := desk.adapter.forget number
      engines := desk.engines.filter (·.number ≠ number) }, [])
  | (_, .elsewhere session) => ({ desk with session }, [])

/-- What calls leave, of which each may have failed, and what they tell in order. -/
def run (desk : Desk) : List (World × Call) → Desk × List Told
  | [] => (desk, [])
  | call :: rest =>
    let (next, told) := desk.step call
    let (last, more) := next.run rest
    (last, told ++ more)

end Desk

/-! ## 4. What was told last -/

section LastTold

variable {number : Nat} {told : List Told}

theorem lastTold_add (t : Told) : lastTold number (told ++ [t]) =
    (if t.number = number then t.rules.toOption else none).or (lastTold number told) := by
  unfold lastTold
  rw [List.reverse_append, List.findSome?_append, List.reverse_singleton, List.findSome?_singleton]

theorem lastTold_append {more : List Told}
    (h : ∀ t ∈ more, t.number = number → Fails t.rules) :
    lastTold number (told ++ more) = lastTold number told := by
  unfold lastTold
  rw [List.reverse_append, List.findSome?_append]
  have hnone : more.reverse.findSome?
      (fun t => if t.number = number then t.rules.toOption else none) = none := by
    refine List.findSome?_eq_none_iff.mpr fun t ht => ?_
    split
    · rename_i hnumber
      obtain ⟨fault, hfault⟩ := h t (List.mem_reverse.mp ht) hnumber
      rw [hfault]
      rfl
    · rfl
  rw [hnone, Option.none_or]

/-- The last success for an engine, however the calls after it have failed. -/
theorem lastTold_success {earlier later : List Told} {rules : Entries Json}
    (h : ∀ t ∈ later, t.number = number → Fails t.rules) :
    lastTold number (earlier ++ ⟨number, .ok rules⟩ :: later) = some rules := by
  rw [List.append_cons, lastTold_append h, lastTold_add, if_pos rfl]
  rfl

theorem lastTold_none (h : ∀ rules, (⟨number, .ok rules⟩ : Told) ∉ told) :
    lastTold number told = none := by
  have hnone : lastTold number ([] ++ told) = lastTold number [] := by
    refine lastTold_append fun t ht hnumber => ?_
    subst hnumber
    obtain ⟨number, rules⟩ := t
    cases rules with
    | ok rules => exact absurd ht (h rules)
    | error fault => exact ⟨fault, rfl⟩
  exact hnone

theorem lastTold_some {rules : Entries Json} (h : (⟨number, .ok rules⟩ : Told) ∈ told) :
    ∃ last, lastTold number told = some last := by
  refine Option.isSome_iff_exists.mp (List.findSome?_isSome_iff.mpr ?_)
  exact ⟨_, List.mem_reverse.mpr h, by simp [Except.toOption]⟩

end LastTold

/-! ## 5. What is remembered -/

namespace Desk

/-- **What is remembered of a held engine is what its calls have told last**; held engines have
    different numbers, and none of those yet to be given is in use. -/
structure Keeps (desk : Desk) (told : List Told) : Prop where
  remembered : ∀ engine ∈ desk.engines,
    desk.adapter.known? engine.number = lastTold engine.number told
  distinct : ∀ engine ∈ desk.engines, ∀ other ∈ desk.engines,
    engine.number = other.number → engine = other
  given : ∀ engine ∈ desk.engines, engine.number < desk.constructed
  unheard : ∀ t ∈ told, t.number < desk.constructed
  unknown : ∀ number, desk.constructed ≤ number → desk.adapter.known? number = none

variable {desk : Desk} {told : List Told}

theorem keeps_start (package : Package) (session : Session) :
    (start package session).Keeps [] where
  remembered := fun _ h => nomatch h
  distinct := fun _ h => nomatch h
  given := fun _ h => nomatch h
  unheard := fun _ h => nomatch h
  unknown := fun _ _ => rfl

theorem engine?_eq_some {number : Nat} {engine : Engine} (h : desk.engine? number = some engine) :
    engine ∈ desk.engines ∧ engine.number = number :=
  ⟨List.mem_of_find?_eq_some h, by simpa using List.find?_some h⟩

theorem Keeps.elsewhere (h : desk.Keeps told) (session : Session) :
    Keeps { desk with session } told := { h with }

/-- A new engine gets the next number, of which nothing was told yet. -/
theorem Keeps.construct (h : desk.Keeps told) (session : Session) {engine : Engine}
    (hengine : engine.number = desk.constructed) :
    Keeps { desk with
      session
      engines := desk.engines ++ [engine]
      constructed := desk.constructed + 1 } told where
  remembered := by
    intro held hheld
    rcases List.mem_append.mp hheld with hheld | hheld
    · exact h.remembered held hheld
    · obtain rfl := List.mem_singleton.mp hheld
      have hnone : lastTold held.number told = none := by
        refine lastTold_none fun rules hrules => ?_
        have hlt : held.number < desk.constructed := h.unheard _ hrules
        omega
      rw [hnone]
      exact h.unknown _ (Nat.le_of_eq hengine.symm)
  distinct := by
    intro held hheld other hother hsame
    rcases List.mem_append.mp hheld with hold | hnew
    · rcases List.mem_append.mp hother with hold' | hnew'
      · exact h.distinct held hold other hold' hsame
      · obtain rfl := List.mem_singleton.mp hnew'
        have hlt := h.given held hold
        omega
    · obtain rfl := List.mem_singleton.mp hnew
      rcases List.mem_append.mp hother with hold' | hnew'
      · have hlt := h.given other hold'
        omega
      · exact (List.mem_singleton.mp hnew').symm
  given := by
    intro held hheld
    show held.number < desk.constructed + 1
    rcases List.mem_append.mp hheld with hheld | hheld
    · exact Nat.lt_succ_of_lt (h.given held hheld)
    · obtain rfl := List.mem_singleton.mp hheld
      omega
  unheard := fun t ht => Nat.lt_succ_of_lt (h.unheard t ht)
  unknown := fun number hnumber => h.unknown number (Nat.le_of_succ_le hnumber)

/-- An engine that is let go takes what is remembered of it along, and nothing else. -/
theorem Keeps.drop (h : desk.Keeps told) (number : Nat) :
    Keeps { desk with
      adapter := desk.adapter.forget number
      engines := desk.engines.filter (·.number ≠ number) } told where
  remembered := by
    intro held hheld
    obtain ⟨hmem, hother⟩ := List.mem_filter.mp hheld
    have hne : held.number ≠ number := of_decide_eq_true hother
    rw [← h.remembered held hmem]
    exact Adapter.known_forget_other _ hne
  distinct := fun held hheld other hother =>
    h.distinct held (List.mem_filter.mp hheld).1 other (List.mem_filter.mp hother).1
  given := fun held hheld => h.given held (List.mem_filter.mp hheld).1
  unheard := h.unheard
  unknown := by
    intro other hother
    by_cases hne : other = number
    · subst hne
      exact Adapter.known_forget_self _ _
    · exact (Adapter.known_forget_other _ hne).trans (h.unknown other hother)

/-- A failure changes nothing that is remembered. -/
theorem Keeps.failed (h : desk.Keeps told) (session : Session) {number : Nat}
    (hnumber : number < desk.constructed) (fault : Fault) :
    Keeps { desk with session } (told ++ [⟨number, .error fault⟩]) where
  remembered := by
    intro held hheld
    rw [lastTold_append fun t ht _ => ⟨fault, by rw [List.mem_singleton.mp ht]⟩]
    exact h.remembered held hheld
  distinct := h.distinct
  given := h.given
  unheard := by
    intro t ht
    rcases List.mem_append.mp ht with ht | ht
    · exact h.unheard t ht
    · rw [List.mem_singleton.mp ht]
      exact hnumber
  unknown := h.unknown

/-- A success changes what is remembered of the engine that was asked. -/
theorem Keeps.succeeded (h : desk.Keeps told) (session : Session) {number : Nat}
    (hnumber : number < desk.constructed) {rules : Entries Json} {adapter : Adapter}
    (hknown : adapter.known? number = some rules)
    (hothers : ∀ other, other ≠ number → adapter.known? other = desk.adapter.known? other) :
    Keeps { desk with session, adapter } (told ++ [⟨number, .ok rules⟩]) where
  remembered := by
    intro held hheld
    show adapter.known? held.number = _
    rw [lastTold_add]
    by_cases hheld' : held.number = number
    · rw [hheld', hknown, if_pos rfl]
      rfl
    · rw [hothers _ hheld', if_neg (Ne.symm hheld'), Option.none_or]
      exact h.remembered held hheld
  distinct := h.distinct
  given := h.given
  unheard := by
    intro t ht
    rcases List.mem_append.mp ht with ht | ht
    · exact h.unheard t ht
    · rw [List.mem_singleton.mp ht]
      exact hnumber
  unknown := by
    intro other hother
    have hother : desk.constructed ≤ other := hother
    have hne : other ≠ number := by omega
    exact (hothers other hne).trans (h.unknown other hother)

/-- **One call**, whatever comes of it. -/
theorem Keeps.step (h : desk.Keeps told) (call : World × Call) :
    (desk.step call).1.Keeps (told ++ (desk.step call).2) := by
  obtain ⟨w, call⟩ := call
  cases call with
  | construct options =>
    let engine : Engine := ⟨desk.constructed, desk.adapter.package, options,
      desk.session.context.cwd, desk.session.context.env⟩
    have hnumber : engine.number = desk.constructed := rfl
    have hkeeps := h.construct desk.session hnumber
    rw [← List.append_nil told] at hkeeps
    exact hkeeps
  | elsewhere session =>
    rw [Desk.step, List.append_nil]
    exact h.elsewhere session
  | drop number =>
    rw [Desk.step, List.append_nil]
    exact h.drop number
  | ask number ask =>
    rw [Desk.step]
    cases hengine : desk.engine? number with
    | none =>
      dsimp only
      rw [List.append_nil]
      exact h
    | some engine =>
      obtain ⟨hmem, hnumber⟩ := engine?_eq_some hengine
      have hgiven : number < desk.constructed := hnumber ▸ h.given engine hmem
      dsimp only
      rcases hrun : (ask.perform desk.adapter engine).run w desk.session with ⟨result, session⟩
      cases result with
      | error fault => exact h.failed session hgiven fault
      | ok answer =>
        obtain ⟨rules, adapter⟩ := answer
        obtain ⟨-, hknown, hothers⟩ := Ask.perform_answered hrun
        rw [hnumber] at hknown hothers
        exact h.succeeded session hgiven hknown hothers

/-- **Any number of calls.** -/
theorem Keeps.run (h : desk.Keeps told) (calls : List (World × Call)) :
    (desk.run calls).1.Keeps (told ++ (desk.run calls).2) := by
  induction calls generalizing desk told with
  | nil =>
    rw [Desk.run, List.append_nil]
    exact h
  | cons call rest ih =>
    have hrest := ih (h.step call)
    rw [List.append_assoc] at hrest
    exact hrest

/-- The call is for the engine with this number. -/
def Call.Names (number : Nat) : Call → Prop
  | .ask other _ | .drop other => other = number
  | .construct _ | .elsewhere _ => False

/-- Asking changes neither which engines are held nor the context. -/
theorem step_ask (desk : Desk) (w : World) (number : Nat) (ask : Ask) :
    (desk.step (w, .ask number ask)).1.engines = desk.engines ∧
      (desk.step (w, .ask number ask)).1.session.context = desk.session.context := by
  rw [step]
  cases desk.engine? number with
  | none => exact ⟨rfl, rfl⟩
  | some engine =>
    have hcontext : ((ask.perform desk.adapter engine).run w desk.session).2.context =
      desk.session.context := (ask.perform_frame desk.session).1
    rcases hrun : (ask.perform desk.adapter engine).run w desk.session with ⟨result, session⟩
    rw [hrun] at hcontext
    dsimp only
    rw [hrun]
    cases result <;> exact ⟨rfl, hcontext⟩

/-- A call that fails leaves the adapter as it was. -/
theorem step_failed {number : Nat} {ask : Ask} {fault : Fault}
    (h : ⟨number, .error fault⟩ ∈ (desk.step (w, .ask number ask)).2) :
    (desk.step (w, .ask number ask)).1.adapter = desk.adapter := by
  rw [step] at h ⊢
  cases hengine : desk.engine? number with
  | none => rfl
  | some engine =>
    rw [hengine] at h
    dsimp only at h ⊢
    rcases hrun : (ask.perform desk.adapter engine).run w desk.session with ⟨result, session⟩
    rw [hrun] at h
    cases result with
    | error fault => rfl
    | ok answer => cases List.mem_singleton.mp h

/-- What is done with other engines leaves an engine held and what is remembered of it. -/
theorem step_spares {call : World × Call} {engine : Engine} (hmem : engine ∈ desk.engines)
    (h : ¬call.2.Names engine.number) :
    engine ∈ (desk.step call).1.engines ∧
      (desk.step call).1.adapter.known? engine.number = desk.adapter.known? engine.number := by
  obtain ⟨w, call⟩ := call
  cases call with
  | construct options => exact ⟨List.mem_append_left _ hmem, rfl⟩
  | elsewhere session => exact ⟨hmem, rfl⟩
  | drop number =>
    have hne : engine.number ≠ number := fun e => h e.symm
    exact ⟨List.mem_filter.mpr ⟨hmem, decide_eq_true hne⟩, Adapter.known_forget_other _ hne⟩
  | ask number ask =>
    rw [step]
    cases hasked : desk.engine? number with
    | none => exact ⟨hmem, rfl⟩
    | some asked =>
      have hne : engine.number ≠ asked.number := fun e =>
        h ((engine?_eq_some hasked).2.symm.trans e.symm)
      dsimp only
      rcases hrun : (ask.perform desk.adapter asked).run w desk.session with ⟨result, session⟩
      cases result with
      | error fault => exact ⟨hmem, rfl⟩
      | ok answer => exact ⟨hmem, (Ask.perform_answered hrun).2.2 _ hne⟩

theorem run_spares {engine : Engine} : ∀ {calls : List (World × Call)} {desk : Desk},
    engine ∈ desk.engines → (∀ call ∈ calls, ¬call.2.Names engine.number) →
    engine ∈ (desk.run calls).1.engines ∧
      (desk.run calls).1.adapter.known? engine.number = desk.adapter.known? engine.number
  | [], _, hmem, _ => ⟨hmem, rfl⟩
  | call :: rest, desk, hmem, h => by
    obtain ⟨hheld, hknown⟩ := step_spares hmem (h call List.mem_cons_self)
    obtain ⟨hheld', hknown'⟩ := run_spares hheld fun other (hother : other ∈ rest) =>
      h other (List.mem_cons_of_mem _ hother)
    exact ⟨hheld', hknown'.trans hknown⟩

end Desk

/-! ## 6. Asking for the rules -/

namespace Desk.Keeps

variable {desk : Desk} {told : List Told} {engine : Engine}

/-- Where a call has succeeded before, no child is started. -/
theorem rules_remembered (h : desk.Keeps told) (hmem : engine ∈ desk.engines)
    {rules : Entries Json} (hlast : lastTold engine.number told = some rules) :
    (desk.adapter.rules engine).run w desk.session = (.ok (rules, desk.adapter), desk.session) := by
  have hknown : Ask.rules.remembered desk.adapter engine = some rules :=
    (h.remembered engine hmem).trans hlast
  exact Ask.perform_remembered hknown desk.session

/-- Where none has, the engine is asked, if it can be. -/
theorem rules_asked (h : desk.Keeps told) (hmem : engine ∈ desk.engines)
    (hlast : lastTold engine.number told = none) {r : Child.Request}
    (hchild : engine.child w desk.session.context .rules "" none = .ok r) :
    ∃ log, (desk.adapter.rules engine).run w desk.session =
      ((Engine.reading w desk.session.context .rules desk.session.started r).map
          fun report => (report.rules, desk.adapter.remember engine.number report.rules),
        { desk.session with started := desk.session.started ++ [r], log := log }) := by
  have hunknown : Ask.rules.remembered desk.adapter engine = none :=
    (h.remembered engine hmem).trans hlast
  exact Ask.perform_sent hunknown hchild

theorem rules_refused (h : desk.Keeps told) (hmem : engine ∈ desk.engines)
    (hlast : lastTold engine.number told = none)
    (hsend : ¬engine.Sendable w desk.session.context) :
    ∃ fault log, (desk.adapter.rules engine).run w desk.session =
      (.error fault, { desk.session with log := log }) := by
  have hunknown : Ask.rules.remembered desk.adapter engine = none :=
    (h.remembered engine hmem).trans hlast
  exact Ask.perform_refused hunknown hsend

/-- **No child is started** exactly where some call on the engine has succeeded or where nothing can
    be sent. -/
theorem rules_childless_iff (h : desk.Keeps told) (hmem : engine ∈ desk.engines) :
    ((desk.adapter.rules engine).run w desk.session).2.started = desk.session.started ↔
      (∃ rules, ⟨engine.number, .ok rules⟩ ∈ told) ∨
        ¬engine.Sendable w desk.session.context := by
  by_cases htold : ∃ rules, (⟨engine.number, .ok rules⟩ : Told) ∈ told
  · obtain ⟨rules, hrules⟩ := htold
    obtain ⟨last, hlast⟩ := lastTold_some hrules
    rw [h.rules_remembered hmem hlast]
    exact iff_of_true rfl (.inl ⟨rules, hrules⟩)
  · have hlast : lastTold engine.number told = none :=
      lastTold_none fun rules hrules => htold ⟨rules, hrules⟩
    by_cases hsend : engine.Sendable w desk.session.context
    · obtain ⟨r, hr⟩ := Engine.child_isOk_iff.mpr hsend
      obtain ⟨log, hrun⟩ := h.rules_asked hmem hlast hr
      rw [hrun]
      refine iff_of_false (fun hsame => ?_) (not_or.mpr ⟨htold, fun hno => hno hsend⟩)
      simp at hsame
    · obtain ⟨fault, log, hrun⟩ := h.rules_refused hmem hlast hsend
      rw [hrun]
      exact iff_of_true rfl (.inr hsend)

end Desk.Keeps

/-- **An adapter remembers the rules engine by engine.** After any calls on a new adapter, whatever
    they have come to, of every engine that is still held:

    * asking for its rules starts no child exactly if a call on it has succeeded or nothing can be
      sent for it;
    * if one has, the answer is what the last of them has told;
    * if none has, one child is started in the mode for rules, and what is read from its end is the
      answer and is remembered, or nothing is;
    * a call that fails leaves the adapter as it was;
    * calls on other engines leave the engine and what is remembered of it alone;
    * other engines have other numbers, whatever they were constructed with. -/
theorem adapter_remembers_per_engine (package : Package) (session : Session)
    (calls : List (World × Desk.Call)) :
    let desk := ((Desk.start package session).run calls).1
    let told := ((Desk.start package session).run calls).2
    ∀ engine ∈ desk.engines,
      (∀ w : World, ((desk.adapter.rules engine).run w desk.session).2.started =
          desk.session.started ↔
        (∃ rules, ⟨engine.number, .ok rules⟩ ∈ told) ∨
          ¬engine.Sendable w desk.session.context) ∧
      (∀ (w : World) earlier later rules, told = earlier ++ ⟨engine.number, .ok rules⟩ :: later →
        (∀ t ∈ later, t.number = engine.number → Fails t.rules) →
        (desk.adapter.rules engine).run w desk.session =
          (.ok (rules, desk.adapter), desk.session)) ∧
      (∀ w : World, (∀ rules, ⟨engine.number, .ok rules⟩ ∉ told) →
        engine.Sendable w desk.session.context →
        ∃ r input log, r.RunsEngine ∧ r.input = some input ∧
          Json.write Json.wire (engine.requestOf .rules "" none) = .ok input ∧
          (desk.adapter.rules engine).run w desk.session =
            ((Engine.reading w desk.session.context .rules desk.session.started r).map
                fun report => (report.rules, desk.adapter.remember engine.number report.rules),
              { desk.session with started := desk.session.started ++ [r], log := log })) ∧
      (∀ w number ask fault, ⟨number, .error fault⟩ ∈ (desk.step (w, .ask number ask)).2 →
        (desk.step (w, .ask number ask)).1.adapter = desk.adapter) ∧
      (∀ more, (∀ call ∈ more, ¬call.2.Names engine.number) →
        engine ∈ (desk.run more).1.engines ∧
          (desk.run more).1.adapter.known? engine.number = desk.adapter.known? engine.number) ∧
      ∀ other ∈ desk.engines, other ≠ engine → other.number ≠ engine.number := by
  intro desk told engine hmem
  have hkeeps : desk.Keeps told := by
    have hrun := (Desk.keeps_start package session).run calls
    rwa [List.nil_append] at hrun
  refine ⟨fun w => hkeeps.rules_childless_iff hmem, fun w earlier later rules htold hlater => ?_,
    fun w hnone hsend => ?_, fun w number ask fault hfault => Desk.step_failed hfault,
    fun more hmore => Desk.run_spares hmem hmore, fun other hother hne hnumber => ?_⟩
  · have hlast : lastTold engine.number told = some rules := by
      rw [htold]
      exact lastTold_success hlater
    exact hkeeps.rules_remembered hmem hlast
  · have hchild : ∃ r, engine.child w desk.session.context .rules "" none = .ok r :=
      Engine.child_isOk_iff.mpr hsend
    obtain ⟨r, hr⟩ := hchild
    obtain ⟨node, input, -, -, hinput, hchild⟩ := Engine.child_eq_ok.mp hr
    obtain ⟨log, hrun⟩ := hkeeps.rules_asked hmem (lastTold_none hnone) hr
    refine ⟨r, input, log, Engine.child_runs_engine hr, ?_, hinput, hrun⟩
    rw [hchild]
  · exact hne (hkeeps.distinct other hother engine hmem hnumber)

/-- A copy of the linter in the project `/p`. -/
def Package.inProject : Package :=
  ⟨⟨"/p/node_modules/eslint", .localProject⟩, "eslint", none, "/p/node_modules/eslint/index.js"⟩

/-- Options with an integer that no request can hold. -/
def Engine.Options.unsendable : Engine.Options :=
  { Engine.Options.standard with rules := [("a", .int (Number.tenTo Number.digitLimit))] }

theorem Json.shortInt_limit {limit : Nat} (h : limit = Number.tenTo Number.digitLimit) :
    shortInt limit = false := by
  rw [shortInt, Int.natAbs_natCast, h]
  exact decide_eq_false (Nat.lt_irrefl _)

theorem Json.allInts_single {p : Int → Bool} {n : Int} (h : p n = false) (name : String) :
    (Json.object [(name, .int n)]).allInts p = false := by
  simp [allInts, allInts.allInEntries, h]

theorem Desk.unsendable_asks_nobody (package : Package) (session : Session)
    {options : Engine.Options} (h : (Json.object options.rules).allInts Json.shortInt = false) :
    let run := (Desk.start package session).run [(w, .construct options)]
    run.2 = [] ∧ ∃ engine ∈ run.1.engines, ∃ fault log,
      (run.1.adapter.rules engine).run w run.1.session =
        (.error fault, { run.1.session with log := log }) := by
  intro run
  let engine : Engine := ⟨0, package, options, session.context.cwd, session.context.env⟩
  have hunknown : Ask.rules.remembered (.new package) engine = none := rfl
  refine ⟨rfl, engine, List.mem_singleton_self _, Ask.perform_refused hunknown fun hsend => ?_⟩
  exact Bool.false_ne_true (h.symm.trans hsend.integers)

/-- An engine with such options was never asked before, and still no child is started for it. -/
theorem unsendable_rules_start_no_child :
    let run := (Desk.start .inProject (.start (.ofEnv []))).run [(.bare, .construct .unsendable)]
    run.2 = [] ∧ ∃ engine ∈ run.1.engines, ∃ fault log,
      (run.1.adapter.rules engine).run World.bare run.1.session =
        (.error fault, { run.1.session with log := log }) :=
  Desk.unsendable_asks_nobody .inProject (.start (.ofEnv []))
    (Json.allInts_single (Json.shortInt_limit rfl) "a")

/-- A machine whose first child reports one rule, whose second fails and whose others report another
    rule. -/
def World.reporting : World :=
  { World.bare with answer := fun earlier _ =>
      match earlier.length with
      | 0 => .finished 0 "\x7b\"rules\": \x7b\"semi\": \x7b\x7d\x7d\x7d" ""
      | 1 => .finished 1 "" ""
      | _ => .finished 0 "\x7b\"rules\": \x7b\"eqeqeq\": \x7b\x7d\x7d\x7d" "" }

/-- Two engines with equal options, of which the first lints twice. -/
def Desk.twinCalls : List (World × Desk.Call) :=
  [(.reporting, .construct .standard), (.reporting, .construct .standard),
    (.reporting, .ask 0 (.lint "" "a.js")), (.reporting, .ask 0 (.lint "" "a.js"))]

/-- What that leaves and tells on that machine. -/
def Desk.twins : Desk × List Told := (Desk.start .inProject (.start (.ofEnv []))).run twinCalls

/-- The rule names that calls have told, call by call. -/
def Told.names (t : Told) : Nat × Option (List String) :=
  (t.number, t.rules.toOption.map Entries.names)

theorem Told.names_some {t : Told} {number : Nat} {names : List String}
    (h : t.names = (number, some names)) :
    ∃ rules, t = ⟨number, .ok rules⟩ ∧ Entries.names rules = names := by
  obtain ⟨n, result⟩ := t
  obtain ⟨rfl, hnames⟩ := Prod.mk.inj h
  cases result with
  | error fault => cases hnames
  | ok rules => exact ⟨rules, rfl, Option.some.inj hnames⟩

theorem Told.names_none {t : Told} {number : Nat} (h : t.names = (number, none)) :
    t.number = number ∧ Fails t.rules := by
  obtain ⟨n, result⟩ := t
  obtain ⟨rfl, hnames⟩ := Prod.mk.inj h
  cases result with
  | error fault => exact ⟨rfl, fault, rfl⟩
  | ok rules => cases hnames

theorem twins_held : Desk.twins.1.engines =
      [⟨0, .inProject, .standard, none, []⟩, ⟨1, .inProject, .standard, none, []⟩] ∧
    Desk.twins.1.session.context = .ofEnv [] := by
  simp only [Desk.twins, Desk.twinCalls, Desk.run, (Desk.step_ask _ _ _ _).1,
    (Desk.step_ask _ _ _ _).2]
  exact ⟨rfl, rfl⟩

theorem twins_told : Desk.twins.2.map Told.names = [(0, some ["semi"]), (0, none)] := by
  decide +kernel

/-- The first still has the rules of its first call, and a child is started for those of the
    second. -/
theorem twins_rules : ∃ first ∈ Desk.twins.1.engines, ∃ second ∈ Desk.twins.1.engines,
    first.options = second.options ∧ first.number ≠ second.number ∧
    (∃ rules, Entries.names rules = ["semi"] ∧
      (Desk.twins.1.adapter.rules first).run World.reporting Desk.twins.1.session =
        (.ok (rules, Desk.twins.1.adapter), Desk.twins.1.session)) ∧
    ∃ r, r.RunsEngine ∧
      ((Desk.twins.1.adapter.rules second).run World.reporting Desk.twins.1.session).2.started =
        Desk.twins.1.session.started ++ [r] := by
  obtain ⟨hengines, hcontext⟩ := twins_held
  let first : Engine := ⟨0, .inProject, .standard, none, []⟩
  let second : Engine := ⟨1, .inProject, .standard, none, []⟩
  have hfirst : first ∈ Desk.twins.1.engines := by
    rw [hengines]
    exact List.mem_cons_self
  have hsecond : second ∈ Desk.twins.1.engines := by
    rw [hengines]
    exact List.mem_cons_of_mem _ List.mem_cons_self
  have hreport := adapter_remembers_per_engine .inProject (.start (.ofEnv [])) Desk.twinCalls
  rw [← Desk.twins] at hreport
  obtain ⟨-, hremembered, -⟩ := hreport first hfirst
  obtain ⟨-, -, hasked, -⟩ := hreport second hsecond
  -- Both calls that have told something were calls on the first engine.
  obtain ⟨success, rest, htold, hsuccess, hrest⟩ := List.map_eq_cons_iff.mp twins_told
  obtain ⟨failure, others, rfl, hfailure, hnone⟩ := List.map_eq_cons_iff.mp hrest
  obtain rfl := List.map_eq_nil_iff.mp hnone
  obtain ⟨rules, rfl, hrules⟩ := Told.names_some hsuccess
  obtain ⟨hnumber, hfails⟩ := Told.names_none hfailure
  have hfirst' := hremembered .reporting [] [failure] rules htold fun t ht _ => by
    rw [List.mem_singleton.mp ht]
    exact hfails
  have hnever : ∀ rules, (⟨second.number, .ok rules⟩ : Told) ∉ Desk.twins.2 := by
    intro rules hmem
    rw [htold] at hmem
    rcases List.mem_cons.mp hmem with h | h
    · cases h
    · rw [← List.mem_singleton.mp h] at hnumber
      cases hnumber
  have hsend : second.Sendable .reporting Desk.twins.1.session.context := by
    rw [hcontext]
    exact ⟨⟨"node", rfl, Engine.fits_rehearsed rfl ..⟩, rfl, by decide⟩
  obtain ⟨r, -, log, hruns, -, -, hsecond'⟩ := hasked .reporting hnever hsend
  refine ⟨first, hfirst, second, hsecond, rfl, by decide, ⟨rules, hrules, hfirst'⟩, r, hruns, ?_⟩
  rw [hsecond']

end LintHost
