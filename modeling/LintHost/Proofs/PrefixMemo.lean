import LintHost.Proofs.NodePrefix
import LintHost.Proofs.Trimming

/-!
# The package manager's prefix over whole runs

Contexts that share a cache share the prefix of global packages. A failure to get it is reported and
forgotten, and the next who needs it asks again; an answer is kept, and nobody asks any more. This
file follows sequences of operations on several contexts, and says when that is so: whenever the
package manager can be asked and what it prints can be read.

* `Turn`: one operation in such a sequence; `Turn.Step`: what it may do about the prefix;
* `Npm.Memoized`: what a whole sequence may do about it;
* `prefix_memoized_iff`: every sequence does just that exactly if whoever has to ask can do so and
  every answer can be read.
-/

namespace LintHost

open LintHost.Action

/-! ## 1. One turn -/

/-- An operation, the machine it is carried out on and the session it starts from. -/
structure Turn where
  world : World
  operation : Operation
  before : Session

namespace Turn

/-- What the operation ends with. -/
def finish (t : Turn) : Except Fault Operation.Answer × Session :=
  t.operation.perform.run t.world t.before

/-- The result of the operation. -/
def result (t : Turn) : Except Fault Operation.Answer := t.finish.1

/-- The session after it. -/
def after (t : Turn) : Session := t.finish.2

/-- The children that it starts. -/
def children (t : Turn) : List Child.Request := t.after.started.drop t.before.started.length

/-- It needs the prefix. -/
def Needs (t : Turn) : Prop := t.operation.Needs t.world t.before

/-- It ends with what comes of a prefix. -/
def Uses (t : Turn) (under : String) : Prop :=
  t.operation.Uses t.world t.before under t.finish

/-- None of its children asks for the prefix. -/
def Silent (t : Turn) : Prop := ∀ r ∈ t.children, ¬r.AsksPrefix

/-- The first of its children asks for the prefix, and ends so; none after it asks again. -/
def Asks (t : Turn) (outcome : Child.Outcome) : Prop :=
  ∃ r later, t.children = r :: later ∧ r.AsksPrefix ∧
    t.world.answer t.before.started r = outcome ∧ ∀ r' ∈ later, ¬r'.AsksPrefix

/-- The package manager can be asked, if the operation has to, and what it prints can be read. -/
structure Readable (t : Turn) : Prop where
  /-- A process can be given the environment that the operation asks in. -/
  sent : t.Needs → t.before.cache.nodePrefix = none → Child.refusal? t.world.host
    (Npm.request t.world (t.operation.asksIn t.world t.before)) = none
  printed : ∀ outcome, t.Asks outcome → ¬Npm.Unreadable outcome

/-- **What an operation may do about the prefix**, which is known or not before it and after it.
    If it does not need the prefix or the prefix is known, it asks nobody, and uses what is known.
    Else it asks: where no prefix is told, it fails, says so and leaves it unknown; a prefix that is
    told is known from then on, and used. -/
inductive Step (t : Turn) : Option String → Option String → Prop
  | idle {known : Option String} (hneeds : t.Needs → known ≠ none) (hsilent : t.Silent)
    (huses : ∀ under, known = some under → t.Needs → t.Uses under) : Step t known known
  | refused {outcome : Child.Outcome} {fault : Fault} (hneeds : t.Needs) (hasks : t.Asks outcome)
    (hfails : ∀ found, ¬Npm.Succeeds outcome found) (hfault : Npm.Refusal t.world fault)
    (hresult : t.result = .error fault) : Step t none none
  | told {outcome : Child.Outcome} {found : String} (hneeds : t.Needs) (hasks : t.Asks outcome)
    (hfound : Npm.Succeeds outcome found) (huses : t.Uses found) : Step t none (some found)

variable {t : Turn}

theorem children_eq {later : List Child.Request}
    (h : t.after.started = t.before.started ++ later) : t.children = later := by
  rw [children, h, List.drop_left]

theorem silent_of_quiet (h : Npm.Quiet t.before t.after) : t.Silent := by
  obtain ⟨later, hlater, hsilent⟩ := h.started
  rw [Silent, children_eq hlater]
  exact hsilent

theorem Silent.not_asks (h : t.Silent) (outcome : Child.Outcome) : ¬t.Asks outcome := by
  rintro ⟨r, later, hchildren, hr, -⟩
  exact h r (by simp [hchildren]) hr

theorem Asks.unique {outcome outcome' : Child.Outcome} (h : t.Asks outcome)
    (h' : t.Asks outcome') : outcome = outcome' := by
  obtain ⟨r, later, hchildren, -, houtcome, -⟩ := h
  obtain ⟨r', later', hchildren', -, houtcome', -⟩ := h'
  rw [hchildren] at hchildren'
  obtain ⟨rfl, -⟩ := List.cons.inj hchildren'
  exact houtcome.symm.trans houtcome'

/-- **A turn that has nothing to ask**: it does not need the prefix, or the prefix is known. -/
theorem idle (h : t.Needs → t.before.cache.nodePrefix ≠ none) :
    t.after.cache.nodePrefix = t.before.cache.nodePrefix ∧ t.Silent ∧
      ∀ under, t.before.cache.nodePrefix = some under → t.Needs → t.Uses under := by
  by_cases hneeds : t.Needs
  · obtain ⟨s₁, -, hconsults⟩ := Operation.consults_of_needs hneeds
    obtain ⟨known, hknown⟩ := Option.ne_none_iff_exists'.mp (h hneeds)
    have hrun := Npm.nodePrefix_known (m := t.world) (hconsults.known.trans hknown)
    obtain ⟨hquiet, huses⟩ := hconsults.answered known s₁ hrun
    have hbefore : Npm.Quiet t.before t.after :=
      (Npm.Quiet.of_eq hconsults.known hconsults.started).trans hquiet
    refine ⟨hbefore.nodePrefix, silent_of_quiet hbefore, fun under hunder _ => ?_⟩
    obtain rfl : known = under := Option.some.inj (hknown.symm.trans hunder)
    exact huses
  · have hquiet : Npm.Quiet t.before t.after := Operation.quiet_of_spares hneeds
    exact ⟨hquiet.nodePrefix, silent_of_quiet hquiet, fun _ _ h => absurd h hneeds⟩

section Asking

variable (hneeds : t.Needs) (hnone : t.before.cache.nodePrefix = none)
include hneeds hnone

/-- **A turn that has to ask and cannot** fails with the reason, and learns nothing. -/
theorem unsent {refusal : Fault} (h : Child.refusal? t.world.host
    (Npm.request t.world (t.operation.asksIn t.world t.before)) = some refusal) :
    t.Silent ∧ t.after.cache.nodePrefix = none := by
  obtain ⟨s₁, henv, hconsults⟩ := Operation.consults_of_needs hneeds
  obtain ⟨log, hrun⟩ := Npm.nodePrefix_unknown (w := t.world) (hconsults.known.trans hnone)
  rw [henv, hconsults.started, Npm.told_of_unforeseen (.refused h), Child.launched_refused h] at hrun
  have hfinish : t.finish = _ := hconsults.refused refusal _ hrun
  have hchildren : t.children = [] := children_eq (by rw [after, hfinish])
  refine ⟨?_, ?_⟩
  · rw [Silent, hchildren]
    exact fun _ h => nomatch h
  · rw [after, hfinish]
    rfl

/-- **A turn that asks**: the answer cannot be read, or it is a step. -/
theorem asking (hsent : Child.refusal? t.world.host
    (Npm.request t.world (t.operation.asksIn t.world t.before)) = none) :
    ∃ outcome, t.Asks outcome ∧
      ((Npm.Unreadable outcome ∧ (∃ fault, ¬fault.Reported ∧ t.result = .error fault) ∧
          t.after.cache.nodePrefix = none) ∨
        ¬Npm.Unreadable outcome ∧ t.Step none t.after.cache.nodePrefix) := by
  obtain ⟨s₁, henv, hconsults⟩ := Operation.consults_of_needs hneeds
  rw [← henv] at hsent
  obtain ⟨log, hrun⟩ := Npm.nodePrefix_unknown (w := t.world) (hconsults.known.trans hnone)
  rw [hconsults.started, Child.launched_accepted hsent] at hrun
  let r : Child.Request := Npm.request t.world s₁.context.env
  have hr : r.AsksPrefix := Npm.request_asks s₁.context.env
  refine ⟨t.world.answer t.before.started r, ?_⟩
  have failed {fault : Fault}
      (hfault : Npm.told t.world t.before.started s₁.context.env = .error fault) :
      t.Asks (t.world.answer t.before.started r) ∧ t.result = .error fault ∧
        t.after.cache.nodePrefix = none := by
    rw [hfault] at hrun
    have hfinish : t.finish = _ := hconsults.refused fault _ hrun
    have hchildren : t.children = [r] := children_eq (by rw [after, hfinish])
    refine ⟨⟨r, [], hchildren, hr, rfl, fun _ h => nomatch h⟩, ?_, ?_⟩
    · rw [result, hfinish]
    · rw [after, hfinish]
      rfl
  rcases Npm.told_cases t.before.started hsent with
    ⟨hunread, fault, hfault, htold⟩ | ⟨hread, found, hfound, htold⟩ |
      ⟨hread, hfails, fault, hfault, htold⟩
  · obtain ⟨hasks, hresult, hafter⟩ := failed htold
    exact ⟨hasks, .inl ⟨hunread, ⟨fault, hfault, hresult⟩, hafter⟩⟩
  · rw [htold] at hrun
    obtain ⟨hquiet, huses⟩ := hconsults.answered found _ hrun
    obtain ⟨later, hlater, hsilent⟩ := hquiet.started
    have hchildren : t.children = r :: later := by
      refine children_eq ?_
      rw [after, finish, hlater]
      simp [r]
    have hasks : t.Asks (t.world.answer t.before.started r) :=
      ⟨r, later, hchildren, hr, rfl, hsilent⟩
    have hknown : t.after.cache.nodePrefix = some found := hquiet.nodePrefix
    rw [hknown]
    exact ⟨hasks, .inr ⟨hread, .told hneeds hasks hfound huses⟩⟩
  · obtain ⟨hasks, hresult, hafter⟩ := failed htold
    rw [hafter]
    exact ⟨hasks, .inr ⟨hread, .refused hneeds hasks hfails hfault hresult⟩⟩

end Asking

/-- **A turn is a step**, unless it cannot ask or the answer cannot be read. -/
theorem step_of_readable (h : t.Readable) :
    t.Step t.before.cache.nodePrefix t.after.cache.nodePrefix := by
  by_cases hidle : t.Needs → t.before.cache.nodePrefix ≠ none
  · obtain ⟨hafter, hsilent, huses⟩ := idle hidle
    rw [hafter]
    exact .idle hidle hsilent huses
  · obtain ⟨hneeds, hknown⟩ := Classical.not_imp.mp hidle
    have hnone : t.before.cache.nodePrefix = none := not_ne_iff.mp hknown
    obtain ⟨outcome, hasks, ⟨hunread, -⟩ | ⟨-, hstep⟩⟩ :=
      asking hneeds hnone (h.sent hneeds hnone)
    · exact absurd hunread (h.printed outcome hasks)
    · rw [hnone]
      exact hstep

/-- A turn whose answer cannot be read fails with that, and learns nothing. -/
theorem unread {outcome : Child.Outcome} (hasks : t.Asks outcome)
    (hunread : Npm.Unreadable outcome) :
    (∃ fault, ¬fault.Reported ∧ t.result = .error fault) ∧ t.after.cache.nodePrefix = none := by
  by_cases hidle : t.Needs → t.before.cache.nodePrefix ≠ none
  · exact absurd hasks ((idle hidle).2.1.not_asks outcome)
  · obtain ⟨hneeds, hknown⟩ := Classical.not_imp.mp hidle
    have hnone : t.before.cache.nodePrefix = none := not_ne_iff.mp hknown
    cases hsent : Child.refusal? t.world.host
        (Npm.request t.world (t.operation.asksIn t.world t.before)) with
    | some refusal => exact absurd hasks ((unsent hneeds hnone hsent).1.not_asks outcome)
    | none =>
      obtain ⟨outcome', hasks', ⟨-, hend⟩ | ⟨hread, -⟩⟩ := asking hneeds hnone hsent
      · exact hend
      · rw [hasks'.unique hasks] at hread
        exact absurd hunread hread

/-- What a step makes of the package manager's answer. -/
theorem Step.of_asks {known known' : Option String} (h : t.Step known known')
    {outcome : Child.Outcome} (hasks : t.Asks outcome) :
    ((∀ found, ¬Npm.Succeeds outcome found) ∧ known' = none ∧
      ∃ fault, Npm.Refusal t.world fault ∧ t.result = .error fault) ∨
    ∃ found, Npm.Succeeds outcome found ∧ known' = some found ∧ t.Uses found := by
  cases h with
  | idle _ hsilent _ => exact absurd hasks (hsilent.not_asks outcome)
  | refused _ hasks' hfails hfault hresult =>
    rw [hasks'.unique hasks] at hfails
    exact .inl ⟨hfails, rfl, _, hfault, hresult⟩
  | told _ hasks' hfound huses =>
    rw [hasks'.unique hasks] at hfound
    exact .inr ⟨_, hfound, rfl, huses⟩

end Turn

/-! ## 2. Sequences of turns -/

/-- The package manager tells a prefix in this turn. -/
def Turn.Learns (t : Turn) (found : String) : Prop :=
  ∃ outcome, t.Asks outcome ∧ Npm.Succeeds outcome found

namespace Npm

/-- **What a sequence of operations does about the prefix**, which nobody knows at its beginning. -/
structure Memoized (turns : List Turn) : Prop where
  /-- Who does not need the prefix neither asks for it nor changes what is known. -/
  spared : ∀ t ∈ turns, ¬t.Needs →
    t.Silent ∧ t.after.cache.nodePrefix = t.before.cache.nodePrefix
  /-- Who needs it asks, as long as none before was told one, whoever has failed. -/
  asked : ∀ earlier t later, turns = earlier ++ t :: later → t.Needs →
    (∀ t' ∈ earlier, ∀ found, ¬t'.Learns found) → ∃ outcome, t.Asks outcome
  /-- Who asks and is told none reports that, and nothing is remembered. -/
  refused : ∀ t ∈ turns, ∀ outcome, t.Asks outcome → (∀ found, ¬Succeeds outcome found) →
    t.after.cache.nodePrefix = none ∧ ∃ fault, Refusal t.world fault ∧ t.result = .error fault
  /-- A prefix that is told is remembered and used, and from then on nobody asks again, forgets it
      or uses another one. -/
  told : ∀ earlier t later, turns = earlier ++ t :: later → ∀ found, t.Learns found →
    t.after.cache.nodePrefix = some found ∧ t.Uses found ∧ ∀ t' ∈ later,
      t'.Silent ∧ t'.after.cache.nodePrefix = some found ∧ (t'.Needs → t'.Uses found)

/-- Each turn is a step from what is known before it. -/
def Follows : Option String → List Turn → Prop
  | _, [] => True
  | known, t :: rest => t.before.cache.nodePrefix = known ∧
    t.Step known t.after.cache.nodePrefix ∧ Follows t.after.cache.nodePrefix rest

theorem Succeeds.unique {outcome : Child.Outcome} {found found' : String}
    (h : Succeeds outcome found) (h' : Succeeds outcome found') : found = found' := by
  obtain ⟨stdout, stderr, rfl, hfound, -⟩ := h
  obtain ⟨stdout', stderr', houtcome, hfound', -⟩ := h'
  obtain ⟨-, rfl, -⟩ := Child.Outcome.finished.inj houtcome
  rw [← hfound, hfound']

section Follows

variable {t : Turn} {later : List Turn}

/-- One turn out of many. -/
theorem Follows.turn : ∀ (earlier : List Turn) {known : Option String},
    Follows known (earlier ++ t :: later) →
      t.Step t.before.cache.nodePrefix t.after.cache.nodePrefix ∧
        Follows t.after.cache.nodePrefix later
  | [], _, h => by
    obtain ⟨hbefore, hstep, hlater⟩ := h
    rw [hbefore]
    exact ⟨hstep, hlater⟩
  | _ :: earlier, _, h => Follows.turn earlier h.2.2

/-- What nobody was told, nobody knows. -/
theorem Follows.unknown : ∀ (earlier : List Turn), Follows none (earlier ++ t :: later) →
    (∀ t' ∈ earlier, ∀ found, ¬t'.Learns found) → t.before.cache.nodePrefix = none
  | [], h, _ => h.1
  | t' :: earlier, h, hnone => by
    obtain ⟨-, hstep, hrest⟩ := h
    have hafter : t'.after.cache.nodePrefix = none := by
      generalize t'.after.cache.nodePrefix = known at hstep
      cases hstep with
      | idle => rfl
      | refused => rfl
      | told _ hasks hfound _ =>
        exact absurd ⟨_, hasks, hfound⟩ (hnone t' List.mem_cons_self _)
    rw [hafter] at hrest
    exact Follows.unknown earlier hrest fun u hu => hnone u (List.mem_cons_of_mem _ hu)

/-- What is known stays known and is used, and nobody asks. -/
theorem Follows.settled {found : String} : ∀ {turns : List Turn}, Follows (some found) turns →
    ∀ t ∈ turns,
      t.Silent ∧ t.after.cache.nodePrefix = some found ∧ (t.Needs → t.Uses found)
  | [], _, _, ht => nomatch ht
  | u :: rest, h, t, ht => by
    obtain ⟨-, hstep, hrest⟩ := h
    generalize hafter : u.after.cache.nodePrefix = known at hstep hrest
    cases hstep with
    | idle _ hsilent huses =>
      rcases List.mem_cons.mp ht with rfl | ht
      · exact ⟨hsilent, hafter, huses found rfl⟩
      · exact Follows.settled hrest t ht

end Follows

/-- Turns that are steps from an unknown prefix on treat it as they should. -/
theorem Follows.memoized {turns : List Turn} (h : Follows none turns)
    (hreadable : ∀ t ∈ turns, t.Readable) : Memoized turns where
  spared := fun t _ hspares => by
    obtain ⟨hafter, hsilent, -⟩ := Turn.idle fun hneeds => absurd hneeds hspares
    exact ⟨hsilent, hafter⟩
  asked := fun earlier t later hturns hneeds hnone => by
    subst hturns
    have hbefore := Follows.unknown earlier h hnone
    have hsent := (hreadable t (by simp)).sent hneeds hbefore
    obtain ⟨outcome, hasks, -⟩ := Turn.asking hneeds hbefore hsent
    exact ⟨outcome, hasks⟩
  refused := fun t ht outcome hasks hfails => by
    obtain ⟨earlier, later, rfl⟩ := List.append_of_mem ht
    rcases (Follows.turn earlier h).1.of_asks hasks with ⟨-, hafter, hresult⟩ | ⟨found, hfound, -⟩
    · exact ⟨hafter, hresult⟩
    · exact absurd hfound (hfails found)
  told := fun earlier t later hturns found hlearns => by
    subst hturns
    obtain ⟨outcome, hasks, hfound⟩ := hlearns
    obtain ⟨hstep, hlater⟩ := Follows.turn earlier h
    rcases hstep.of_asks hasks with ⟨hfails, -⟩ | ⟨found', hfound', hafter, huses⟩
    · exact absurd hfound (hfails found)
    · obtain rfl := hfound.unique hfound'
      rw [hafter] at hlater
      exact ⟨hafter, huses, hlater.settled⟩

/-- If the prefix is treated as it should be, whoever has to ask can do so: nobody has told a prefix
    that would be known by then, so there would be a child. -/
theorem Memoized.sent {turns : List Turn} (h : Memoized turns) {t : Turn} (ht : t ∈ turns)
    (hneeds : t.Needs) (hnone : t.before.cache.nodePrefix = none) :
    Child.refusal? t.world.host
      (Npm.request t.world (t.operation.asksIn t.world t.before)) = none := by
  by_contra hno
  obtain ⟨refusal, hrefusal⟩ := Option.ne_none_iff_exists'.mp hno
  obtain ⟨hsilent, hafter⟩ := Turn.unsent hneeds hnone hrefusal
  obtain ⟨earlier, later, hturns⟩ := List.append_of_mem ht
  by_cases hlearned : ∃ t' ∈ earlier, ∃ found, t'.Learns found
  · obtain ⟨t', ht', found, hlearns⟩ := hlearned
    obtain ⟨before, between, rfl⟩ := List.append_of_mem ht'
    have hsplit : turns = before ++ t' :: (between ++ t :: later) := by
      rw [hturns, List.append_assoc, List.cons_append]
    obtain ⟨-, -, hlater⟩ := h.told before t' _ hsplit found hlearns
    have hknown := (hlater t (List.mem_append_right _ List.mem_cons_self)).2.1
    rw [hafter] at hknown
    cases hknown
  · obtain ⟨outcome, hasks⟩ := h.asked earlier t later hturns hneeds fun t' ht' found hlearns =>
      hlearned ⟨t', ht', found, hlearns⟩
    exact hsilent.not_asks outcome hasks

/-- And every answer can be read: what would be reported or remembered is not. -/
theorem Memoized.printed {turns : List Turn} (h : Memoized turns) {t : Turn} (ht : t ∈ turns)
    {outcome : Child.Outcome} (hasks : t.Asks outcome) : ¬Unreadable outcome := by
  intro hunread
  obtain ⟨⟨fault, hfault, hresult⟩, hafter⟩ := Turn.unread hasks hunread
  by_cases hfound : ∃ found, Succeeds outcome found
  · obtain ⟨found, hfound⟩ := hfound
    obtain ⟨earlier, later, hturns⟩ := List.append_of_mem ht
    have hknown := (h.told earlier t later hturns found ⟨outcome, hasks, hfound⟩).1
    rw [hafter] at hknown
    cases hknown
  · obtain ⟨-, other, ⟨reason, more, rfl⟩, hreported⟩ :=
      h.refused t ht outcome hasks (not_exists.mp hfound)
    rw [hresult] at hreported
    cases hreported
    exact hfault ⟨_, rfl⟩

end Npm

namespace Fleet

variable {ι : Type} [DecidableEq ι]

/-- Operations of a fleet that shares a cache, one after the other: each on one of the contexts, and
    on whatever the machine is by then. -/
def turns (fleet : Fleet ι Unit) : List (World × ι × Operation) → List Turn
  | [] => []
  | (w, i, operation) :: rest =>
    let turn : Turn := ⟨w, operation, fleet.session () i⟩
    turn :: (fleet.after () i turn.after).turns rest

theorem follows_of_readable : ∀ (steps : List (World × ι × Operation)) {fleet : Fleet ι Unit},
    (∀ t ∈ fleet.turns steps, t.Readable) →
      Npm.Follows (fleet.caches ()).nodePrefix (fleet.turns steps)
  | [], _, _ => trivial
  | (w, i, operation) :: rest, fleet, h => by
    let turn : Turn := ⟨w, operation, fleet.session () i⟩
    have hcache : (fleet.after () i turn.after).caches () = turn.after.cache := by
      show Function.update fleet.caches () turn.after.cache () = turn.after.cache
      rw [Function.update_self]
    obtain ⟨hturn, hrest⟩ := List.forall_mem_cons.mp h
    have hfollows := follows_of_readable rest hrest
    rw [hcache] at hfollows
    exact ⟨rfl, turn.step_of_readable hturn, hfollows⟩

/-- **The prefix is asked for and remembered as it should be exactly if whoever has to ask can do so
    and every answer can be read**: for contexts that share a cache without a prefix, for every
    sequence of operations and however the package manager answers. -/
theorem prefix_memoized_iff (fleet : Fleet ι Unit) (h : (fleet.caches ()).nodePrefix = none)
    (steps : List (World × ι × Operation)) :
    Npm.Memoized (fleet.turns steps) ↔ ∀ t ∈ fleet.turns steps, t.Readable := by
  refine ⟨fun hmemoized t ht => ⟨hmemoized.sent ht, fun _ => hmemoized.printed ht⟩,
    fun hreadable => ?_⟩
  have hfollows := follows_of_readable steps hreadable
  rw [h] at hfollows
  exact hfollows.memoized hreadable

end Fleet

/-! ## 3. Two package managers -/

/-- A machine whose first child fails; the package manager knows a prefix from then on. -/
def World.hesitant : World := { World.bare with
  answer := fun
    | [], _ => .finished 1 "" ""
    | _ :: _, _ => .finished 0 "/usr\n" "" }

theorem World.hesitant_readable (earlier : List Child.Request) (r : Child.Request) :
    ¬Npm.Unreadable (hesitant.answer earlier r) := by
  rintro (houtcome | ⟨code, stdout, stderr, houtcome, hdeep⟩)
  · cases earlier <;> cases houtcome
  cases earlier with
  | nil =>
    obtain ⟨-, rfl, -⟩ := Child.Outcome.finished.inj houtcome
    have hflat : Child.sniff "" = .ok none := rfl
    rw [hflat] at hdeep
    cases hdeep
  | cons =>
    obtain ⟨-, rfl, -⟩ := Child.Outcome.finished.inj houtcome
    have hflat : Child.sniff "/usr\n" = .ok none := rfl
    rw [hflat] at hdeep
    cases hdeep

/-- The first context is told none, the second one is told a prefix, and the first uses it. -/
theorem hesitant_prefix_memoized :
    let fleet : Fleet Bool Unit := Fleet.start fun _ => .ofEnv []
    let turns := fleet.turns [(.hesitant, true, .nodePrefix), (.hesitant, false, .nodePrefix),
      (.hesitant, true, .locate none { Policy.standard with useGlobal := true } none)]
    (fleet.caches ()).nodePrefix = none ∧ Npm.Memoized turns ∧
      turns.map (fun t => (t.children.length, t.after.cache.nodePrefix)) =
        [(1, none), (1, some "/usr"), (0, some "/usr")] := by
  intro fleet turns
  have hreadable : ∀ t ∈ turns, t.Readable := by
    intro t ht
    have hworld : t.world = .hesitant := by
      rcases List.mem_cons.mp ht with rfl | ht
      · rfl
      · rcases List.mem_cons.mp ht with rfl | ht
        · rfl
        · rw [List.mem_singleton.mp ht]
    refine ⟨fun _ _ => ?_, ?_⟩
    · rw [hworld]
      exact if_pos rfl
    · rintro outcome ⟨r, later, -, -, rfl, -⟩
      rw [hworld]
      exact World.hesitant_readable _ r
  exact ⟨rfl, (Fleet.prefix_memoized_iff fleet rfl _).mpr hreadable, by decide +kernel⟩

theorem Child.sniff_nested {n : Nat} (h : Json.depthLimit < n) :
    sniff (Json.nested n) = .error .tooDeep := by
  have hblank : ∀ c ∈ (Json.nested n).toList, Text.isBlank c = false := by
    intro c hc
    rw [Json.nested, String.toList_ofList] at hc
    rcases List.mem_append.mp hc with hc | hc
    · rw [List.eq_of_mem_replicate hc]
      decide
    · rw [List.eq_of_mem_replicate hc]
      decide
  have htrim : Text.trim (Json.nested n) = Json.nested n := by
    rw [Text.trim, Text.trimWhere_eq_self hblank, String.ofList_toList]
  obtain ⟨cs, hchars, -⟩ := Json.nested_chars h
  have hopens : (Json.nested n).toList = '[' :: (List.replicate Json.depthLimit '[' ++ cs) := hchars
  have hdeep : Json.attempt (Json.nested n) = .error .tooDeep :=
    Json.attempt_eq_error.mpr ⟨Json.read_nested h, rfl⟩
  unfold sniff
  dsimp only
  rw [htrim]
  split
  · exact hdeep
  · exact hdeep
  · rename_i hother
    exact absurd hopens (hother _)

/-- A machine whose package manager fails and prints lists in lists. -/
def World.nesting (n : Nat) : World := { World.bare with
  answer := fun _ _ => .finished 1 (Json.nested n) "" }

/-- A package manager that fails and prints too many lists in lists is not reported. -/
theorem nested_prefix_not_memoized :
    let turns := (Fleet.start fun _ : Unit => Context.ofEnv []).turns
      [(.nesting 3000, (), .nodePrefix)]
    ¬Npm.Memoized turns ∧
      ∃ t, turns = [t] ∧ ∃ fault, ¬fault.Reported ∧ t.result = .error fault := by
  intro turns
  let t : Turn := ⟨.nesting 3000, .nodePrefix, Session.start (.ofEnv [])⟩
  have hturns : turns = [t] := rfl
  have hsent : Child.refusal? t.world.host
      (Npm.request t.world (t.operation.asksIn t.world t.before)) = none := if_pos rfl
  obtain ⟨outcome, hasks, -⟩ := Turn.asking (t := t) trivial rfl hsent
  have hdeep : Npm.Overflows outcome := by
    obtain ⟨r, later, -, -, rfl, -⟩ := hasks
    exact ⟨1, Json.nested 3000, "", rfl, Child.sniff_nested (by decide)⟩
  obtain ⟨⟨fault, hfault, hresult⟩, -⟩ := Turn.unread hasks (.inr hdeep)
  refine ⟨fun hmemoized => ?_, t, hturns, fault, hfault, hresult⟩
  exact hmemoized.printed (by simp [hturns]) hasks (.inr hdeep)

end LintHost
