import LintHost.Proofs.CleanPath
import LintHost.Proofs.CopyFaults

/-!
# Copies that are replaced

A project's own copy that is missing or unusable is replaced by the bundled one; the global copy
never is. This file says what loading a copy gives, as a function of the world and of what the
session remembers, and from that when the replacement keeps its promise.

* `localCopy`, `globalCopy`: the copy that a policy without or with the global mode gets
  (`load_local`, `load_global`, `forDirectory_local`, `forDirectory_global`);
* `Npm.Unforeseen`: what is a fault where the package manager is asked for a prefix, though not one
  that is told about;
* `Package.Readable`: a copy whose files are no fault;
* `Fault.Foreseen`: the faults that the global mode tells about;
* `broken_copy_replaced_iff`: a broken copy is replaced, and a global one told about, exactly if
  nothing on the way to it and none of its files is a fault.
-/

namespace LintHost

open LintHost.Action LintHost.Path

variable {w : World}

/-! ## 1. What a session recalls -/

/-- Where the bundled copy lies for a session. -/
def NodeTools.recalled (w : World) (s : Session) : Except Fault String :=
  match s.cache.bundledPath with
  | some path => .ok path
  | none => bundled w s.context.nodeToolsDir

theorem NodeTools.bundledPath_result (s : Session) : (bundledPath.run w s).1 = recalled w s := by
  unfold recalled
  cases hm : s.cache.bundledPath with
  | some path => rw [bundledPath_known hm]
  | none => rw [bundledPath_unknown hm]

/-- The package manager's prefix for a session. -/
def Npm.recalled (w : World) (s : Session) : Except Fault String :=
  match s.cache.nodePrefix with
  | some known => .ok known
  | none => told w s.started s.context.env

theorem Npm.nodePrefix_result (s : Session) : (nodePrefix.run w s).1 = recalled w s := by
  unfold recalled
  cases hm : s.cache.nodePrefix with
  | some known => rw [nodePrefix_known hm]
  | none =>
    obtain ⟨log, hrun⟩ := nodePrefix_unknown (w := w) hm
    rw [hrun]

theorem Child.sniff_fault {stdout : String} {fault : Fault} (h : sniff stdout = .error fault) :
    fault = .tooDeep := by
  unfold sniff at h
  dsimp only at h
  split at h
  · exact (Json.attempt_eq_error.mp h).2
  · exact (Json.attempt_eq_error.mp h).2
  · cases h

/-- A request is refused for what it is, which is nobody's failure. -/
theorem Child.refusal?_not_reported {host : Host} {sent : Request} {fault : Fault}
    (h : refusal? host sent = some fault) : ¬fault.Reported := by
  rintro ⟨failure, rfl⟩
  unfold refusal? at h
  repeat' split at h
  all_goals cases h

/-- A child without a time limit is waited for. -/
theorem Child.awaited_unlimited (host : Host) (outcome : Outcome) :
    awaited host .null outcome = .ok outcome := by
  have hwait : unwaited? host .null = none := by
    unfold unwaited?
    split <;> rfl
  cases outcome with
  | unstartable code => rfl
  | finished | garbled | timedOut => simp only [awaited, hwait]

/-- A result that tells no prefix is told about. -/
theorem Npm.reading_fault {command : List String} {result : Except OsFault Child.Result}
    {fault : Fault} (h : reading command result = .error fault) :
    ∃ command reason more, fault = .reported (.npmPrefix command reason more) := by
  unfold reading at h
  cases result with
  | error refusal =>
    obtain rfl := Except.error.inj h
    exact ⟨_, _, _, rfl⟩
  | ok result =>
    unfold prefixOf at h
    dsimp only at h
    split at h
    · rename_i failure hfailure
      obtain rfl := Except.error.inj h
      split at hfailure
      · obtain rfl := Except.error.inj hfailure
        exact ⟨_, _, _, rfl⟩
      · split at hfailure
        · obtain rfl := Except.error.inj hfailure
          exact ⟨_, _, _, rfl⟩
        · cases hfailure
    · cases h

/-- Where the package manager is asked in an environment, after other children, this fault arises,
    though not because it tells no prefix. -/
inductive Npm.Unforeseen (w : World) (earlier : List Child.Request) (env : Entries String) :
    Fault → Prop
  /-- No process can be given the request. -/
  | refused {fault : Fault} (h : Child.refusal? w.host (request w env) = some fault) :
      Unforeseen w earlier env fault
  /-- What it prints is no text. -/
  | garbled (hsent : Child.refusal? w.host (request w env) = none)
      (h : w.answer earlier (request w env) = .garbled) : Unforeseen w earlier env .notUtf8
  /-- What it prints is JSON that is nested too deep to be followed. -/
  | nesting (hsent : Child.refusal? w.host (request w env) = none) {code : Int}
      {stdout stderr : String} (hend : w.answer earlier (request w env) = .finished code stdout stderr)
      (h : Child.sniff stdout = .error .tooDeep) : Unforeseen w earlier env .tooDeep

section Told

variable {earlier : List Child.Request} {env : Entries String} {fault : Fault}

theorem Npm.Unforeseen.not_reported (h : Unforeseen w earlier env fault) : ¬fault.Reported := by
  cases h with
  | refused h => exact Child.refusal?_not_reported h
  | garbled => rintro ⟨failure, h⟩; cases h
  | nesting => rintro ⟨failure, h⟩; cases h

/-- What a request that is not refused comes to is read from the end of its child. -/
theorem Npm.told_sent (hsent : Child.refusal? w.host (request w env) = none) :
    told w earlier env =
      Child.Result.ofOutcome (request w env) (w.answer earlier (request w env)) >>=
        reading (command w.host.platform) := by
  have hawaited : Child.awaited w.host (request w env).timeout (w.answer earlier (request w env)) =
      .ok (w.answer earlier (request w env)) := Child.awaited_unlimited _ _
  rw [told, Child.reply_accepted hsent, Child.ended, hawaited, Except.ok_bind]

theorem Npm.told_of_unforeseen (h : Unforeseen w earlier env fault) :
    told w earlier env = .error fault := by
  cases h with
  | refused h => rw [told, Child.reply_refused h, Except.error_bind]
  | garbled hsent h =>
    rw [told_sent hsent, h]
    rfl
  | nesting hsent hend h =>
    rw [told_sent hsent, hend, Child.Result.ofOutcome, h]
    rfl

/-- The package manager says where the prefix is, or why not, unless something else is a fault. -/
theorem Npm.told_fault (h : told w earlier env = .error fault) :
    (∃ command reason more, fault = .reported (.npmPrefix command reason more)) ∨
      Unforeseen w earlier env fault := by
  cases hsent : Child.refusal? w.host (request w env) with
  | some refusal =>
    rw [told, Child.reply_refused hsent] at h
    cases h
    exact .inr (.refused hsent)
  | none =>
    rw [told_sent hsent] at h
    cases hend : w.answer earlier (request w env) with
    | unstartable code =>
      rw [hend, Child.Result.ofOutcome, Except.ok_bind] at h
      exact .inl (reading_fault h)
    | garbled =>
      rw [hend] at h
      cases h
      exact .inr (.garbled hsent hend)
    | timedOut stdout stderr =>
      have hnote : Child.timeoutNote (request w env).timeout = .ok "\n[TIMEOUT after Nones]" := rfl
      rw [hend, Child.Result.ofOutcome, hnote, Except.ok_bind, pure_bind] at h
      exact .inl (reading_fault h)
    | finished code stdout stderr =>
      rw [hend, Child.Result.ofOutcome] at h
      cases hsniff : Child.sniff stdout with
      | ok parsed =>
        rw [hsniff] at h
        exact .inl (reading_fault h)
      | error deep =>
        rw [hsniff] at h
        cases h
        obtain rfl := Child.sniff_fault hsniff
        exact .inr (.nesting hsent hend hsniff)

end Told

/-- Pointing the search path elsewhere leaves the tools alone. -/
theorem Context.pointedAt_nodeToolsDir (c : Context) (modulesDir : Option String) :
    (c.pointedAt modulesDir).nodeToolsDir = c.nodeToolsDir := by
  unfold pointedAt
  split <;> rfl

namespace Package

/-! ## 2. What loading gives -/

/-- Where a policy without the global mode expects its own copy. -/
def localCandidate (w : World) (modulesDir : Option String) (policy : Policy)
    (project : Option String) : Except Fault (Origin × Option String) :=
  match policy.localModules with
  | none | some "" =>
    match modulesDir with
    | none | some "" => .ok (.localProject, none)
    | some dir => .ok (.localProject, some (join dir "eslint"))
  | some dir => (clean w.host.homes w.env dir).map fun given =>
    (.advanced,
      some (join (if isAbsolute given then given else join (project.getD "") given) "eslint"))

theorem candidate_local {policy : Policy} (hlocal : policy.useGlobal = false)
    (modulesDir project : Option String) (s : Session) :
    (candidate modulesDir policy project).run w s =
      (localCandidate w modulesDir policy project, s) := by
  have ofModules : (match modulesDir with
      | none | some "" => (pure (Origin.localProject, none) : Action (Origin × Option String))
      | some dir => pure (.localProject, some (join dir "eslint"))).run w s =
      (match modulesDir with
        | none | some "" => .ok (Origin.localProject, none)
        | some dir => .ok (.localProject, some (join dir "eslint")), s) := by
    split <;> rfl
  unfold candidate localCandidate
  rw [if_neg (by rw [hlocal]; decide)]
  cases policy.localModules with
  | none => exact ofModules
  | some dir =>
    by_cases hempty : dir = ""
    · rw [hempty]
      exact ofModules
    · have hrun := run_cleanPath (w := w) dir s
      simp only
      cases hclean : clean w.host.homes w.env dir with
      | error fault => exact run_bind_error (hclean ▸ hrun)
      | ok given =>
        rw [hclean] at hrun
        rw [run_bind_ok hrun]
        simp only [Except.map]
        split <;> rfl

theorem localCandidate_origin {modulesDir project : Option String} {policy : Policy}
    {expected : Origin × Option String}
    (h : localCandidate w modulesDir policy project = .ok expected) :
    expected.1 = .localProject ∨ expected.1 = .advanced := by
  unfold localCandidate at h
  split at h
  · split at h <;> cases h <;> exact .inl rfl
  · split at h <;> cases h <;> exact .inl rfl
  · obtain ⟨given, -, rfl⟩ := Except.map_eq_ok h
    exact .inr rfl

/-- Where the own copy is expected can be told, unless the policy names nobody's directory. -/
theorem localCandidate_fails_iff (modulesDir : Option String) (policy : Policy)
    (project : Option String) :
    Fails (localCandidate w modulesDir policy project) ↔
      NamesNobody (policy.localModules.getD "").toList := by
  unfold localCandidate
  split
  · rename_i hnone
    rw [hnone]
    split <;> exact iff_of_false not_fails_ok fun h => nomatch h.1
  · rename_i hempty
    rw [hempty]
    split <;> exact iff_of_false not_fails_ok fun h => nomatch h.1
  · rename_i dir _ hdir
    rw [hdir, Option.getD_some]
    cases hclean : clean w.host.homes w.env dir with
    | error fault => exact iff_of_true ⟨fault, rfl⟩ (clean_eq_error_iff.mp hclean).1
    | ok given =>
      refine iff_of_false not_fails_ok fun h => ?_
      have hfault : clean w.host.homes w.env dir = .error (.value .embeddedNull) :=
        clean_eq_error_iff.mpr ⟨h, rfl⟩
      exact nomatch hclean.symm.trans hfault

/-- A copy that was read, or what becomes of one that is unusable. -/
def orElse (loaded : Except Fault (Except String Package))
    (replace : String → Except Fault Package) : Except Fault Package :=
  match loaded with
  | .error fault => .error fault
  | .ok (.ok package) => .ok package
  | .ok (.error reason) => replace reason

/-- The bundled copy for a session. -/
def bundledCopy (w : World) (s : Session) : Except Fault Package := do
  let path ← NodeTools.recalled w s
  orElse (loadFrom w ⟨path, .bundled⟩) fun reason => .error (unusable path bundledDamaged reason)

/-- The copy for a policy without the global mode: its own if that is there and usable, or else the
    bundled one. -/
def localCopy (w : World) (s : Session) (modulesDir : Option String) (policy : Policy)
    (project : Option String) : Except Fault Package := do
  let (origin, expected) ← localCandidate w modulesDir policy project
  match present? w expected with
  | some path => orElse (loadFrom w ⟨path, origin⟩) fun _ => bundledCopy w s
  | none => bundledCopy w s

/-- The prefix of the global copy for a session. -/
def globalPrefix (w : World) (s : Session) (policy : Policy) : Except Fault String := do
  let given ← clean w.host.homes w.env (policy.globalPath.getD "")
  if given = "" then Npm.recalled w s else return given

/-- Where the global copy under a prefix is. -/
def globalInstallation (w : World) (under : String) : Except Fault Installation :=
  match present? w (some (globalCandidate w under)) with
  | some path => .ok ⟨path, .global⟩
  | none => .error (.reported (.package (globalCandidate w under) globalMissing []))

/-- The global copy under a prefix. -/
def globalCopyUnder (w : World) (under : String) : Except Fault Package :=
  match present? w (some (globalCandidate w under)) with
  | some path =>
    orElse (loadFrom w ⟨path, .global⟩) fun reason => .error (unusable path globalUnloadable reason)
  | none => .error (.reported (.package (globalCandidate w under) globalMissing []))

theorem globalCopyUnder_eq (w : World) (under : String) :
    globalCopyUnder w under = globalInstallation w under >>= fun copy =>
      orElse (loadFrom w copy) fun reason =>
        .error (unusable copy.path globalUnloadable reason) := by
  unfold globalCopyUnder globalInstallation
  cases present? w (some (globalCandidate w under)) with
  | none => rw [Except.error_bind]
  | some path => rw [Except.ok_bind]

theorem globalInstallation_origin {under : String} {copy : Installation}
    (h : globalInstallation w under = .ok copy) : copy.origin = .global := by
  unfold globalInstallation at h
  split at h
  · cases h
    rfl
  · cases h

/-- The copy for a policy with the global mode. -/
def globalCopy (w : World) (s : Session) (policy : Policy) : Except Fault Package :=
  globalPrefix w s policy >>= globalCopyUnder w

section Global

variable {policy : Policy} (hglobal : policy.useGlobal = true) (modulesDir project : Option String)
  (s : Session)
include hglobal

/-- A prefix that the policy gives is used. -/
theorem candidate_given {given : String}
    (hgiven : clean w.host.homes w.env (policy.globalPath.getD "") = .ok given)
    (hnonempty : given ≠ "") :
    (candidate modulesDir policy project).run w s =
      (.ok (.global, some (globalCandidate w given)), s) := by
  have hrun := run_cleanPath (w := w) (policy.globalPath.getD "") s
  rw [hgiven] at hrun
  unfold candidate
  rw [if_pos hglobal, run_bind_ok hrun]
  dsimp only
  rw [if_neg hnonempty]
  rfl

/-- Where it gives none, the package manager is asked. -/
theorem candidate_asking (hnone : clean w.host.homes w.env (policy.globalPath.getD "") = .ok "") :
    (candidate modulesDir policy project).run w s =
      ((Npm.nodePrefix.run w s).1.map fun under => (.global, some (globalCandidate w under)),
        (Npm.nodePrefix.run w s).2) := by
  have hrun := run_cleanPath (w := w) (policy.globalPath.getD "") s
  rw [hnone] at hrun
  unfold candidate
  rw [if_pos hglobal, run_bind_ok hrun]
  dsimp only
  rw [if_pos rfl]
  rcases hrun : Npm.nodePrefix.run w s with ⟨result, s'⟩
  cases result with
  | error fault => exact run_bind_error hrun
  | ok under => exact run_bind_ok hrun

/-- What cannot be cleaned is no prefix. -/
theorem candidate_nobody {fault : Fault}
    (h : clean w.host.homes w.env (policy.globalPath.getD "") = .error fault) :
    (candidate modulesDir policy project).run w s = (.error fault, s) := by
  have hrun := run_cleanPath (w := w) (policy.globalPath.getD "") s
  rw [h] at hrun
  unfold candidate
  rw [if_pos hglobal]
  exact run_bind_error hrun

theorem candidate_global :
    ∃ s', (candidate modulesDir policy project).run w s =
      ((globalPrefix w s policy).map fun under =>
        (.global, some (globalCandidate w under)), s') := by
  unfold globalPrefix
  cases hgiven : clean w.host.homes w.env (policy.globalPath.getD "") with
  | error fault =>
    exact ⟨s, candidate_nobody hglobal modulesDir project s hgiven⟩
  | ok given =>
    rw [Except.ok_bind]
    split
    · rename_i hempty
      subst hempty
      refine ⟨(Npm.nodePrefix.run w s).2, ?_⟩
      rw [candidate_asking hglobal modulesDir project s hgiven, Npm.nodePrefix_result]
    · rename_i hsome
      exact ⟨s, candidate_given hglobal modulesDir project s hgiven hsome⟩

end Global

theorem loadBundled_result (s : Session) : (loadBundled.run w s).1 = bundledCopy w s := by
  unfold loadBundled bundledCopy
  refine run_bind_result (Prod.ext (NodeTools.bundledPath_result s) rfl) fun path => ?_
  rw [run_read_bind]
  cases hload : loadFrom w ⟨path, .bundled⟩ with
  | error fault =>
    rw [run_bind_error (run_ofExcept _ _)]
    rfl
  | ok loaded =>
    rw [run_bind_ok (run_ofExcept _ _)]
    cases loaded <;> rfl

/-- The bundled copy depends on little of a session. -/
theorem bundledCopy_congr {s t : Session} (hpath : s.cache.bundledPath = t.cache.bundledPath)
    (htools : s.context.nodeToolsDir = t.context.nodeToolsDir) :
    bundledCopy w s = bundledCopy w t := by
  have hrecalled : NodeTools.recalled w s = NodeTools.recalled w t := by
    rw [NodeTools.recalled, NodeTools.recalled, hpath, htools]
  rw [bundledCopy, bundledCopy, hrecalled]

/-- What becomes of a copy that was located, where an unusable one is replaced by `replace`. -/
theorem load_located {modulesDir project : Option String} {policy : Policy} {s s' : Session}
    {copy : Installation} {replace : String → Except Fault Package}
    (hlocate : (locate modulesDir policy project).run w s = (.ok copy, s'))
    (hreplace : ∀ reason, replace reason = match copy.origin with
      | .global => .error (unusable copy.path globalUnloadable reason)
      | .bundled => .error (unusable copy.path bundledDamaged reason)
      | .localProject | .advanced => bundledCopy w s') :
    ((load modulesDir policy project).run w s).1 = orElse (loadFrom w copy) replace := by
  unfold load
  rw [run_bind_ok hlocate, run_read_bind]
  cases hload : loadFrom w copy with
  | error fault =>
    rw [run_bind_error (run_ofExcept _ _)]
    rfl
  | ok loaded =>
    rw [run_bind_ok (run_ofExcept _ _)]
    cases loaded with
    | ok package => rfl
    | error reason =>
      show _ = replace reason
      rw [hreplace]
      obtain ⟨path, origin⟩ := copy
      have again : ((do
          Action.tell source .warning ("Could not load ESLint from " ++ path ++ " (" ++ reason ++
            "), using bundled copy")
          loadBundled).run w s').1 = bundledCopy w s' := by
        rw [run_bind_ok (run_tell _ _ _ _), loadBundled_result]
        exact bundledCopy_congr rfl rfl
      cases origin with
      | global => rfl
      | bundled => rfl
      | localProject => exact again
      | advanced => exact again

theorem load_unlocated {modulesDir project : Option String} {policy : Policy} {s s' : Session}
    {fault : Fault} (hlocate : (locate modulesDir policy project).run w s = (.error fault, s')) :
    (load modulesDir policy project).run w s = (.error fault, s') := by
  unfold load
  exact run_bind_error hlocate

theorem localCopy_congr {s t : Session} {modulesDir project : Option String} {policy : Policy}
    (h : bundledCopy w s = bundledCopy w t) :
    localCopy w s modulesDir policy project = localCopy w t modulesDir policy project := by
  unfold localCopy
  rw [h]

theorem locate_unexpected {modulesDir project : Option String} {policy : Policy} {s s' : Session}
    {fault : Fault} (h : (candidate modulesDir policy project).run w s = (.error fault, s')) :
    (locate modulesDir policy project).run w s = (.error fault, s') := by
  unfold locate
  exact run_bind_error h

/-- A copy that is there where the policy expects it is located. -/
theorem locate_present {modulesDir project : Option String} {policy : Policy} {s s' : Session}
    {origin : Origin} {expected : Option String} {path : String}
    (hcandidate : (candidate modulesDir policy project).run w s = (.ok (origin, expected), s'))
    (hpresent : present? w expected = some path) :
    (locate modulesDir policy project).run w s = (.ok ⟨path, origin⟩, { s' with
      log := s'.log ++ [⟨source, Log.Level.debug.number,
        "Using " ++ origin.text ++ " ESLint at " ++ path⟩] }) := by
  unfold locate
  rw [run_bind_ok hcandidate]
  dsimp only
  rw [run_read_bind]
  simp only [hpresent]
  rw [run_bind_ok (run_tell _ _ _ _)]
  rfl

/-- Without the global mode, a copy that is not there is replaced by the bundled one. -/
theorem locate_absent {modulesDir project : Option String} {policy : Policy} {s s' : Session}
    {origin : Origin} {expected : Option String} (hlocal : policy.useGlobal = false)
    (hcandidate : (candidate modulesDir policy project).run w s = (.ok (origin, expected), s'))
    (hpresent : present? w expected = none) :
    (locate modulesDir policy project).run w s =
      (NodeTools.bundledPath >>= fun path => do
        Action.tell source .info ("No " ++ origin.text ++ " ESLint at " ++
          expected.getD "None" ++ ", using bundled copy")
        return ⟨path, .bundled⟩ : Action Installation).run w s' := by
  unfold locate
  rw [run_bind_ok hcandidate]
  dsimp only
  rw [run_read_bind]
  simp only [hpresent, hlocal]
  rfl

/-- **Loading without the global mode.** -/
theorem load_local {policy : Policy} (hlocal : policy.useGlobal = false)
    (modulesDir project : Option String) (s : Session) :
    ((load modulesDir policy project).run w s).1 = localCopy w s modulesDir policy project := by
  have hcandidate := candidate_local (w := w) hlocal modulesDir project s
  unfold localCopy
  cases hexpected : localCandidate w modulesDir policy project with
  | error fault =>
    rw [hexpected] at hcandidate
    rw [load_unlocated (locate_unexpected hcandidate)]
    rfl
  | ok found =>
  have horigin := localCandidate_origin hexpected
  rw [hexpected] at hcandidate
  obtain ⟨origin, expected⟩ := found
  dsimp only [Except.ok_bind] at horigin ⊢
  cases hpresent : present? w expected with
  | some path =>
    have hlocate := locate_present hcandidate hpresent
    refine load_located hlocate fun reason => ?_
    rcases horigin with rfl | rfl <;> exact bundledCopy_congr rfl rfl
  | none =>
    -- locating asks for the bundled path, and the copy is then read from there
    have hpath := NodeTools.bundledPath_result (w := w) s
    rcases hrun : NodeTools.bundledPath.run w s with ⟨result, s'⟩
    rw [hrun] at hpath
    unfold bundledCopy
    rw [← hpath]
    have hlocate := locate_absent hlocal hcandidate hpresent
    cases result with
    | error fault =>
      rw [run_bind_error hrun] at hlocate
      rw [load_unlocated hlocate]
      rfl
    | ok path =>
      rw [run_bind_ok hrun, run_bind_ok (run_tell _ _ _ _)] at hlocate
      rw [Except.ok_bind]
      exact load_located hlocate fun _ => rfl

/-- **Locating with the global mode.** -/
theorem locate_global {policy : Policy} (hglobal : policy.useGlobal = true)
    (modulesDir project : Option String) (s : Session) :
    ((locate modulesDir policy project).run w s).1 =
      globalPrefix w s policy >>= globalInstallation w := by
  obtain ⟨s', hcandidate⟩ := candidate_global (w := w) hglobal modulesDir project s
  cases hunder : globalPrefix w s policy with
  | error fault =>
    rw [hunder, Except.map] at hcandidate
    rw [locate_unexpected hcandidate, Except.error_bind]
  | ok under =>
    rw [hunder, Except.map] at hcandidate
    rw [Except.ok_bind]
    unfold globalInstallation
    generalize globalCandidate w under = candidate at hcandidate ⊢
    cases hpresent : present? w (some candidate) with
    | some path => rw [locate_present hcandidate hpresent]
    | none =>
      have hlocate : (locate modulesDir policy project).run w s =
          (.error (.reported (.package candidate globalMissing [])), s') := by
        unfold locate
        rw [run_bind_ok hcandidate]
        dsimp only
        rw [run_read_bind]
        simp only [hpresent, hglobal]
        rfl
      rw [hlocate]

/-- **Loading with the global mode.** -/
theorem load_global {policy : Policy} (hglobal : policy.useGlobal = true)
    (modulesDir project : Option String) (s : Session) :
    ((load modulesDir policy project).run w s).1 = globalCopy w s policy := by
  have hlocate := locate_global (w := w) hglobal modulesDir project s
  have hcopy : globalCopy w s policy =
      (globalPrefix w s policy >>= globalInstallation w) >>= fun copy =>
        orElse (loadFrom w copy) fun reason =>
          .error (unusable copy.path globalUnloadable reason) := by
    unfold globalCopy
    cases globalPrefix w s policy with
    | error fault => rfl
    | ok under => rw [Except.ok_bind, Except.ok_bind, globalCopyUnder_eq]
  rw [hcopy, ← hlocate]
  rcases hrun : (locate modulesDir policy project).run w s with ⟨result, s'⟩
  rw [hrun] at hlocate
  dsimp only at hlocate ⊢
  cases result with
  | error fault => rw [load_unlocated hrun, Except.error_bind]
  | ok copy =>
    obtain ⟨under, -, hunder⟩ := Except.bind_eq_ok hlocate.symm
    rw [Except.ok_bind]
    refine load_located hrun fun reason => ?_
    rw [globalInstallation_origin hunder]

/-- The copy for the files of a directory is loaded in a session whose search path was refreshed. -/
theorem forDirectory_run (fileDir : String) (policy : Policy) (project : Option String)
    (s : Session) : ∃ memo,
    (∃ fault, ((Finder.find fileDir ["node_modules/eslint"]).run w s).1 = .error fault ∧
      (forDirectory fileDir policy project).run w s =
        (.error fault, { s with cache := { s.cache with finder := memo } })) ∨
    ∃ found log, ((Finder.find fileDir ["node_modules/eslint"]).run w s).1 = .ok found ∧
      (forDirectory fileDir policy project).run w s =
        (load (found.map directory) policy project).run w { s with
          context := s.context.pointedAt (found.map directory),
          cache := { s.cache with finder := memo }, log := log } := by
  obtain ⟨memo, hmemo⟩ :=
    Finder.find_session (m := w) fileDir ["node_modules/eslint"] s
  rcases hfind : (Finder.find fileDir ["node_modules/eslint"]).run w s with ⟨result, s'⟩
  rw [hfind] at hmemo
  dsimp only at hmemo
  refine ⟨memo, ?_⟩
  unfold forDirectory
  cases result with
  | error fault =>
    refine .inl ⟨fault, rfl, ?_⟩
    rw [run_bind_error hfind, hmemo]
  | ok found =>
    obtain ⟨log, hrefresh⟩ := refresh_run (m := w) (found.map directory) s'
    refine .inr ⟨found, log, rfl, ?_⟩
    rw [run_bind_ok hfind]
    dsimp only
    rw [run_bind_ok hrefresh, hmemo]

theorem forDirectory_local {policy : Policy} (hlocal : policy.useGlobal = false)
    (fileDir : String) (project : Option String) (s : Session) :
    ((forDirectory fileDir policy project).run w s).1 =
      ((Finder.find fileDir ["node_modules/eslint"]).run w s).1 >>= fun found =>
        localCopy w s (found.map directory) policy project := by
  obtain ⟨memo, ⟨fault, hfind, hrun⟩ | ⟨found, log, hfind, hrun⟩⟩ :=
    forDirectory_run (w := w) fileDir policy project s
  · rw [hrun, hfind]
    rfl
  · rw [hrun, hfind, load_local hlocal]
    refine localCopy_congr (bundledCopy_congr rfl ?_)
    exact Context.pointedAt_nodeToolsDir s.context (found.map directory)

theorem forDirectory_global {policy : Policy} (hglobal : policy.useGlobal = true)
    (fileDir : String) (project : Option String) (s : Session) :
    ((forDirectory fileDir policy project).run w s).1 =
      ((Finder.find fileDir ["node_modules/eslint"]).run w s).1 >>= fun found =>
        globalCopy w { s with context := s.context.pointedAt (found.map directory) } policy := by
  obtain ⟨memo, ⟨fault, hfind, hrun⟩ | ⟨found, log, hfind, hrun⟩⟩ :=
    forDirectory_run (w := w) fileDir policy project s
  · rw [hrun, hfind]
    rfl
  · rw [hrun, hfind, load_global hglobal]
    rfl

/-! ## 3. Broken copies -/

/-- The policy's own copy, if a directory stands where it is expected. -/
def ownCopy (w : World) (modulesDir : Option String) (policy : Policy) (project : Option String) :
    Except Fault (Option String) :=
  (localCandidate w modulesDir policy project).map fun (_, expected) => present? w expected

/-- The files of a copy, if there is one, are no fault. -/
def Readable (w : World) (copy? : Option String) : Prop :=
  ∀ path, copy? = some path → ∀ fault, ¬Unforeseen w path fault

/-- The policy does not name its own copy by a user that nobody can be, and the files of that copy
    are no fault. -/
structure LocalReadable (w : World) (modulesDir : Option String) (policy : Policy)
    (project : Option String) : Prop where
  named : ¬NamesNobody (policy.localModules.getD "").toList
  copy : ∀ own, ownCopy w modulesDir policy project = .ok own → Readable w own

/-- The policy does not name the prefix by a user that nobody can be; if the package manager has to
    be asked for it, that is no fault; and under the prefix the files of the global copy are none. -/
structure GlobalReadable (w : World) (s : Session) (policy : Policy) : Prop where
  named : ¬NamesNobody (policy.globalPath.getD "").toList
  asked : policy.globalPath.getD "" = "" → s.cache.nodePrefix = none →
    ∀ fault, ¬Npm.Unforeseen w s.started s.context.env fault
  copy : ∀ under, globalPrefix w s policy = .ok under →
    Readable w (present? w (some (globalCandidate w under)))

end Package

/-- The faults that the global mode tells about: no usable copy, or no prefix. -/
def Fault.Foreseen (fault : Fault) : Prop :=
  (∃ path message more, fault = .reported (.package path message more)) ∨
    ∃ command reason more, fault = .reported (.npmPrefix command reason more)

theorem Fault.Foreseen.reported {fault : Fault} (h : fault.Foreseen) : fault.Reported := by
  rcases h with ⟨path, message, more, rfl⟩ | ⟨command, reason, more, rfl⟩
  · exact ⟨_, rfl⟩
  · exact ⟨_, rfl⟩

namespace Package

/-- A copy that is replaced if it is unusable is there after all, unless its files are a fault. -/
theorem orElse_ok_iff {copy : Installation} {other : Except Fault Package}
    (hother : ∃ package, other = .ok package) :
    (∃ package, orElse (loadFrom w copy) (fun _ => other) = .ok package) ↔
      ∀ fault, ¬Unforeseen w copy.path fault := by
  simp only [← loadFrom_eq_error_iff]
  cases loadFrom w copy with
  | error fault => exact ⟨fun ⟨_, h⟩ => (nomatch h), fun h => absurd rfl (h fault)⟩
  | ok loaded =>
    refine ⟨fun _ _ h => (nomatch h), fun _ => ?_⟩
    cases loaded with
    | ok package => exact ⟨package, rfl⟩
    | error reason => exact hother

theorem localCopy_ok_iff {s : Session} {policy : Policy} {modulesDir project : Option String}
    (hbundled : ∃ package, bundledCopy w s = .ok package) :
    (∃ package, localCopy w s modulesDir policy project = .ok package) ↔
      LocalReadable w modulesDir policy project := by
  have hnobody := localCandidate_fails_iff (w := w) modulesDir policy project
  unfold localCopy
  cases hexpected : localCandidate w modulesDir policy project with
  | error fault =>
    rw [hexpected] at hnobody
    exact iff_of_false nofun fun h => h.named (hnobody.mp ⟨fault, rfl⟩)
  | ok found =>
    have hown : ownCopy w modulesDir policy project = .ok (present? w found.2) := by
      rw [ownCopy, hexpected, Except.map]
    rw [hexpected] at hnobody
    have hlocal : LocalReadable w modulesDir policy project ↔ Readable w (present? w found.2) :=
      ⟨fun h => h.copy _ hown, fun h =>
        ⟨fun hno => not_fails_ok (hnobody.mpr hno), fun own hown' => by
          rw [← Except.ok.inj (hown.symm.trans hown')]
          exact h⟩⟩
    obtain ⟨origin, expected⟩ := found
    rw [hlocal, Except.ok_bind]
    unfold Readable
    dsimp only
    cases present? w expected with
    | none => exact ⟨fun _ _ h => (nomatch h), fun _ => hbundled⟩
    | some path =>
      dsimp only
      rw [orElse_ok_iff hbundled]
      exact ⟨fun h path' hpath => Option.some.inj hpath ▸ h, fun h => h path rfl⟩

/-- A global copy that is told about if it is unusable has no other faults, unless its files are a
    fault. -/
theorem globalCopyUnder_foreseen_iff {under : String} :
    (∀ fault, globalCopyUnder w under = .error fault → fault.Foreseen) ↔
      Readable w (present? w (some (globalCandidate w under))) := by
  unfold globalCopyUnder Readable
  generalize globalCandidate w under = candidate
  cases present? w (some candidate) with
  | none =>
    refine ⟨fun _ _ h => (nomatch h), fun _ fault h => ?_⟩
    obtain rfl := Except.error.inj h
    exact .inl ⟨_, _, _, rfl⟩
  | some path =>
    dsimp only
    constructor
    · rintro h path' hpath fault hunforeseen
      obtain rfl := Option.some.inj hpath
      have hload : loadFrom w ⟨path, .global⟩ = .error fault :=
        loadFrom_eq_error_iff.mpr hunforeseen
      exact hunforeseen.not_reported (h fault (by rw [hload]; rfl)).reported
    · intro h fault hfault
      cases hload : loadFrom w ⟨path, .global⟩ with
      | error other => exact absurd (.of_loadFrom hload) (h path rfl other)
      | ok loaded =>
        rw [hload] at hfault
        cases loaded with
        | ok package => cases hfault
        | error reason =>
          cases hfault
          exact .inl ⟨_, _, _, rfl⟩

/-- Where the prefix is a fault that nobody is told about, the policy names it by a user that nobody
    can be, or asking the package manager is one. -/
theorem globalPrefix_fault {s : Session} {policy : Policy} {fault : Fault}
    (h : globalPrefix w s policy = .error fault) (hfault : ¬fault.Foreseen) :
    NamesNobody (policy.globalPath.getD "").toList ∨
      policy.globalPath.getD "" = "" ∧ s.cache.nodePrefix = none ∧
        Npm.Unforeseen w s.started s.context.env fault := by
  unfold globalPrefix at h
  cases hgiven : clean w.host.homes w.env (policy.globalPath.getD "") with
  | error nobody => exact .inl (clean_eq_error_iff.mp hgiven).1
  | ok given =>
    rw [hgiven, Except.ok_bind] at h
    split at h
    · rename_i hempty
      subst hempty
      unfold Npm.recalled at h
      split at h
      · cases h
      · rename_i hnone
        refine .inr ⟨clean_eq_empty_iff.mp hgiven, hnone, ?_⟩
        exact (Npm.told_fault h).resolve_left fun htold => hfault (.inr htold)
    · cases h

/-- Such a fault comes out. -/
theorem globalPrefix_unforeseen {s : Session} {policy : Policy} {fault : Fault}
    (hgiven : policy.globalPath.getD "" = "") (hknown : s.cache.nodePrefix = none)
    (h : Npm.Unforeseen w s.started s.context.env fault) :
    globalPrefix w s policy = .error fault := by
  have hclean : clean w.host.homes w.env (policy.globalPath.getD "") = .ok "" :=
    clean_eq_empty_iff.mpr hgiven
  rw [globalPrefix, hclean, Except.ok_bind, if_pos rfl, Npm.recalled, hknown]
  exact Npm.told_of_unforeseen h

theorem globalCopy_foreseen_iff {s : Session} {policy : Policy} :
    (∀ fault, globalCopy w s policy = .error fault → fault.Foreseen) ↔
      GlobalReadable w s policy := by
  unfold globalCopy
  constructor
  · intro h
    refine ⟨fun hnobody => ?_, fun hgiven hknown fault hfault => ?_, fun under hunder => ?_⟩
    · have hunder : globalPrefix w s policy = .error (.value .embeddedNull) := by
        rw [globalPrefix, clean_eq_error_iff.mpr ⟨hnobody, rfl⟩, Except.error_bind]
      obtain ⟨failure, hreported⟩ := (h _ (by rw [hunder, Except.error_bind])).reported
      cases hreported
    · have hunder := globalPrefix_unforeseen hgiven hknown hfault
      exact hfault.not_reported (h fault (by rw [hunder, Except.error_bind])).reported
    · rw [hunder, Except.ok_bind] at h
      exact globalCopyUnder_foreseen_iff.mp h
  · intro h fault hfault
    cases hunder : globalPrefix w s policy with
    | error other =>
      rw [hunder] at hfault
      obtain rfl := Except.error.inj hfault
      by_contra hno
      rcases globalPrefix_fault hunder hno with hnobody | ⟨hgiven, hknown, hunforeseen⟩
      · exact h.named hnobody
      · exact h.asked hgiven hknown other hunforeseen
    | ok under =>
      rw [hunder, Except.ok_bind] at hfault
      exact globalCopyUnder_foreseen_iff.mpr (h.copy under hunder) fault hfault

end Package

theorem Finder.search_fault {cwd : String} {files : FileTree} {names : List String} {p : PartPath}
    {fault : Fault} (h : search files cwd names p = .error fault) : ¬fault.Reported := by
  obtain ⟨directory, -, hdirectory⟩ := firstSome_mem h nofun
  obtain ⟨name, -, hprobe⟩ := firstSome_mem hdirectory nofun
  unfold probe at hprobe
  split at hprobe
  · cases hprobe
  · cases hprobe
  · cases hprobe
    exact Fault.not_reported_ofLookup _ _

/-- Looking upwards never fails on the library's own account. -/
theorem Finder.find_fault {start : String} {names : List String} {s : Session} {fault : Fault}
    (h : ((find start names).run w s).1 = .error fault) : ¬fault.Reported := by
  cases hm : s.cache.finder.lookup (key w start names) with
  | some found =>
    rw [find_known hm] at h
    cases h
  | none =>
    rw [find_unknown hm] at h
    dsimp only at h
    rw [fresh] at h
    exact search_fault h

namespace Package

/-- **A broken copy is replaced, and a global one told about, exactly if its files are no fault.**
    Without the global mode, where the bundled copy loads, some copy is loaded exactly if neither
    the path that the policy gives nor anything in the files of the policy's own copy is a fault; a
    directory's copy has to be looked for as well. With it the faults that come out are those that
    tell about the global copy or its prefix, exactly if neither the prefix nor the global copy's
    files are a fault. -/
theorem broken_copy_replaced_iff (w : World) (s : Session) (policy : Policy)
    (project : Option String) :
    (policy.useGlobal = false → (∃ package, (loadBundled.run w s).1 = .ok package) →
      (∀ modulesDir, (∃ package, ((load modulesDir policy project).run w s).1 = .ok package) ↔
        LocalReadable w modulesDir policy project) ∧
      ∀ fileDir, (∃ package, ((forDirectory fileDir policy project).run w s).1 = .ok package) ↔
        ∃ found, ((Finder.find fileDir ["node_modules/eslint"]).run w s).1 = .ok found ∧
          LocalReadable w (found.map directory) policy project) ∧
    (policy.useGlobal = true →
      (∀ modulesDir, (∀ fault, ((load modulesDir policy project).run w s).1 = .error fault →
        fault.Foreseen) ↔ GlobalReadable w s policy) ∧
      ∀ fileDir, (∀ fault, ((forDirectory fileDir policy project).run w s).1 = .error fault →
        fault.Foreseen) ↔
        ∃ found, ((Finder.find fileDir ["node_modules/eslint"]).run w s).1 = .ok found ∧
          GlobalReadable w { s with context := s.context.pointedAt (found.map directory) }
            policy) := by
  constructor
  · intro hlocal hbundled
    rw [loadBundled_result] at hbundled
    refine ⟨fun modulesDir => ?_, fun fileDir => ?_⟩
    · rw [load_local hlocal]
      exact localCopy_ok_iff hbundled
    · rw [forDirectory_local hlocal]
      cases hfind : ((Finder.find fileDir ["node_modules/eslint"]).run w s).1 with
      | error fault => exact ⟨fun ⟨_, h⟩ => (nomatch h), fun ⟨found, h, _⟩ => nomatch h⟩
      | ok found =>
        rw [Except.ok_bind, localCopy_ok_iff hbundled]
        exact ⟨fun h => ⟨found, rfl, h⟩, fun ⟨found', h, hreadable⟩ => Except.ok.inj h ▸ hreadable⟩
  · intro hglobal
    refine ⟨fun modulesDir => ?_, fun fileDir => ?_⟩
    · rw [load_global hglobal]
      exact globalCopy_foreseen_iff
    · rw [forDirectory_global hglobal]
      cases hfind : ((Finder.find fileDir ["node_modules/eslint"]).run w s).1 with
      | error fault =>
        exact ⟨fun h => absurd (h fault rfl).reported (Finder.find_fault hfind),
          fun ⟨found, h, _⟩ => nomatch h⟩
      | ok found =>
        rw [Except.ok_bind, globalCopy_foreseen_iff]
        exact ⟨fun h => ⟨found, rfl, h⟩, fun ⟨found', h, hreadable⟩ => Except.ok.inj h ▸ hreadable⟩

/-! ## 4. A machine with a broken copy -/

/-- A machine with a project in `/p` whose copy of the linter has this manifest and no entry point,
    and with a usable copy among the bundled tools. -/
def brokenMachine (manifest : ByteArray) : World :=
  { World.bare with
    files := ((FileTree.empty.add ["p", "node_modules", "eslint", "package.json"]
      (.file manifest true true)).add ["tools", "node_modules", "eslint", "package.json"]
      (.file "\x7b\x7d".toUTF8 true true)).add ["tools", "node_modules", "eslint", "index.js"]
      (.file .empty true true) }

/-- The policy of someone who wants the copy of the project `/p` for all files. -/
def everywhere : Policy := { Policy.standard with useGlobal := true, globalPath := some "/p" }

theorem readable_of_isOk {path : String} (h : (loadFrom w ⟨path, .global⟩).isOk = true) :
    Readable w (some path) := by
  intro path' hpath fault hfault
  obtain rfl := Option.some.inj hpath
  rw [loadFrom_eq_error_iff.mpr hfault] at h
  cases h

/-- A manifest that is no text ends the load, though a bundled copy is there. -/
theorem garbled_copy_not_replaced :
    (∃ package, (loadBundled.run (brokenMachine ⟨#[0xff]⟩) (.start (.ofEnv []))).1 =
      .ok package) ∧
    ((load (some "/p/node_modules") .standard (some "/p")).run (brokenMachine ⟨#[0xff]⟩)
      (.start (.ofEnv []))).1 = .error .notUtf8 :=
  ⟨exists_of_isOk (by decide +kernel), rfl⟩

/-- A manifest that is a list is replaced, and told about in the global mode. -/
theorem listed_copy_replaced :
    (∃ package, ((load (some "/p/node_modules") .standard (some "/p")).run
      (brokenMachine "[]".toUTF8) (.start (.ofEnv []))).1 = .ok package) ∧
    ∀ fault, ((load none everywhere none).run (brokenMachine "[]".toUTF8)
      (.start (.ofEnv []))).1 = .error fault → fault.Foreseen := by
  have hlisted : Readable (brokenMachine "[]".toUTF8) (some "/p/node_modules/eslint") :=
    readable_of_isOk (by decide +kernel)
  have hexpected : localCandidate (brokenMachine "[]".toUTF8) (some "/p/node_modules") .standard
      (some "/p") = .ok (.localProject, some "/p/node_modules/eslint") := rfl
  have hthere : present? (brokenMachine "[]".toUTF8) (some "/p/node_modules/eslint") =
      some "/p/node_modules/eslint" := rfl
  constructor
  · refine (((broken_copy_replaced_iff _ _ .standard _).1 rfl ?_).1 _).mpr ⟨by decide, ?_⟩
    · exact exists_of_isOk (by decide +kernel)
    · intro own hown
      rw [ownCopy, hexpected, Except.map] at hown
      dsimp only at hown
      rw [hthere] at hown
      exact Except.ok.inj hown ▸ hlisted
  · refine (((broken_copy_replaced_iff _ _ everywhere none).2 rfl).1 none).mpr
      ⟨by decide, nofun, ?_⟩
    intro under hunder
    obtain rfl := Except.ok.inj hunder
    exact hlisted

end Package

end LintHost
