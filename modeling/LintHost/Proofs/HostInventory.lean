import LintHost.Proofs.DebugJob
import LintHost.Proofs.Reports

/-!
# The inventory that a host holds

A host keeps an inventory of rules. It sends it along with every job that lints or fixes, and takes
over the one that comes back, if one does. Files and engines may be others for every job, jobs may
fail, and the session may be used for anything else in between. However that goes, the host has the
ids that the engine of the last successful job has reported.

* `Keeper`: a host with its inventory, and what it can do; `Sending`: a job that was sent;
* `Job.returned`: a job that returns has started an engine, which reports what the reply is made of;
* `Sending.InStep`: the inventory before and after one job;
* `inventory_in_step`: the inventory throughout any run.
-/

namespace LintHost

open LintHost.Action

variable {w : World}

/-! ## 1. A host -/

/-- A host: the session of its context, and the inventory that it holds. -/
structure Keeper where
  session : Session
  held : Entries Json

/-- What it can do. -/
inductive Keeper.Call
  /-- A job lints or fixes; its type and the rules that it knows are the host's affair. -/
  | job (fix : Bool) (job : Job) (policy : Policy)
  /-- Whatever else is done has left this session. -/
  | elsewhere (session : Session)

/-- A job that was sent in the world of that moment: the host before and after it, and its
    result. -/
structure Sending where
  world : World
  before : Keeper
  result : Except Fault Job.Reply
  after : Keeper

namespace Keeper

/-- The job as it is sent: with the inventory that is held. -/
def toSend (host : Keeper) (fix : Bool) (job : Job) : Job :=
  { job with type := if fix then "fix" else "lint", knownRules := host.held }

/-- The inventory after a job: the one that has come back, or the old one. -/
def taken (host : Keeper) : Except Fault Job.Reply → Entries Json
  | .ok reply => reply.updatedRules.getD host.held
  | .error _ => host.held

/-- What a call leaves, and the job that was sent, if one was. -/
def step (host : Keeper) : World × Call → Keeper × List Sending
  | (w, .job fix job policy) =>
    let (result, session) := ((host.toSend fix job).run policy).run w host.session
    let after : Keeper := ⟨session, host.taken result⟩
    (after, [⟨w, host, result, after⟩])
  | (_, .elsewhere session) => ({ host with session }, [])

/-- What calls leave, and the jobs that were sent in order. -/
def run (host : Keeper) : List (World × Call) → Keeper × List Sending
  | [] => (host, [])
  | call :: rest =>
    let (next, sent) := host.step call
    let (last, more) := next.run rest
    (last, sent ++ more)

theorem run_cons (host : Keeper) (call : World × Call) (rest : List (World × Call)) :
    host.run (call :: rest) = (((host.step call).1.run rest).1,
      (host.step call).2 ++ ((host.step call).1.run rest).2) := rfl

end Keeper

/-! ## 2. A job that returns -/

/-- **A job that returns** has started the engine last, and its reply is made of what the end of
    that child reports. -/
theorem Job.returned {job : Job} (hjob : job.type = "lint" ∨ job.type = "fix") {policy : Policy}
    {s t : Session} {reply : Job.Reply} (h : (job.run policy).run w s = (.ok reply, t)) :
    ∃ later r report, t.started = s.started ++ later ++ [r] ∧ r.RunsEngine ∧
      w.Reports (s.started ++ later) r report ∧
      reply = job.resultOf report report.rules := by
  obtain ⟨resolved, u, options, u', hresolve, hbuild⟩ := Job.stages_of_run hjob h
  obtain ⟨⟨later, hlater, -⟩, -⟩ := job.resolve_silent (m := w) policy s
  have hframe := (Engine.Options.build_frame (m := w) job.type policy job.rules resolved.fileDir
    resolved.config u).2
  rw [hresolve] at hlater
  rw [hbuild] at hframe
  have hstarted : u'.started = s.started ++ later := hframe.trans hlater
  obtain ⟨hresult, hchildren⟩ := Job.run_call hjob hresolve hbuild
  rw [h] at hresult hchildren
  obtain ⟨report, hcall, hreply⟩ := Except.map_eq_ok hresult.symm
  rcases Engine.call_told (m := w) _ .lint job.contents (some resolved.working.relativePath) u' with
    ⟨-, fault, hfault⟩ | ⟨r, hr, hruns, hreports⟩
  · rw [hcall] at hfault
    cases hfault
  · rw [hstarted] at hr hreports
    exact ⟨later, r, report, hchildren.trans hr, hruns, (hreports report).mp hcall, hreply.symm⟩

/-! ## 3. One job -/

namespace Sending

/-- The job's engine has reported: it is the last child that the job has started, and its end holds
    the report. -/
def Reported (sending : Sending) (report : Report) : Prop :=
  ∃ later r, sending.after.session.started =
      sending.before.session.started ++ later ++ [r] ∧ r.RunsEngine ∧
    sending.world.Reports (sending.before.session.started ++ later) r report

/-- **What a job does to the inventory**: nothing if it fails. If it returns, its engine has
    reported, and the ids that are held are those of the report. An inventory comes back unless the
    ids were those already, and it is all that was reported, in the strict order of the ids. -/
structure InStep (sending : Sending) : Prop where
  failed : Fails sending.result → sending.after.held = sending.before.held
  returned : ∀ reply, sending.result = .ok reply → ∃ report, sending.Reported report ∧
    Rules.SameIds sending.after.held report.rules ∧
    (reply.updatedRules = none ↔ Rules.SameIds sending.before.held report.rules) ∧
    ∀ rules, reply.updatedRules = some rules →
      rules.Perm report.rules ∧ rules.names.Pairwise (· < ·)

end Sending

namespace Keeper

/-- What a report means for the inventory of a host that has sent its own along. -/
theorem taken_report (host : Keeper) (fix : Bool) (job : Job) {report : Report}
    (hnodup : report.rules.names.Nodup) :
    let reply := (host.toSend fix job).resultOf report report.rules
    Rules.SameIds (host.taken (.ok reply)) report.rules ∧
      (reply.updatedRules = none ↔ Rules.SameIds host.held report.rules) ∧
      ∀ rules, reply.updatedRules = some rules →
        rules.Perm report.rules ∧ rules.names.Pairwise (· < ·) := by
  intro reply
  have hupdated : reply.updatedRules =
      if Rules.changed host.held report.rules then some (Rules.sorted report.rules) else none := rfl
  have htaken : host.taken (.ok reply) = reply.updatedRules.getD host.held := rfl
  rw [htaken, hupdated]
  by_cases hchanged : Rules.changed host.held report.rules = true
  · rw [if_pos hchanged]
    have hperm := Rules.sorted_perm report.rules
    refine ⟨.of_perm hperm, iff_of_false (fun h => nomatch h) (Rules.changed_iff.mp hchanged), ?_⟩
    rintro rules ⟨⟩
    exact ⟨hperm, Rules.sorted_strict hnodup⟩
  · rw [if_neg hchanged]
    have hsame := Rules.changed_eq_false_iff.mp (Bool.eq_false_iff.mpr hchanged)
    exact ⟨hsame, iff_of_true rfl hsame, fun _ h => nomatch h⟩

/-- A job that was sent, by how it has run. -/
theorem in_step_of_run {host : Keeper} {fix : Bool} {job : Job} {policy : Policy}
    {result : Except Fault Job.Reply} {session : Session}
    (h : ((host.toSend fix job).run policy).run w host.session = (result, session)) :
    Sending.InStep ⟨w, host, result, ⟨session, host.taken result⟩⟩ := by
  cases result with
  | error fault => exact ⟨fun _ => rfl, fun _ h => nomatch h⟩
  | ok reply =>
    refine ⟨fun hfails => absurd hfails not_fails_ok, fun _ hreply => ?_⟩
    obtain rfl := Except.ok.inj hreply
    have htype : (host.toSend fix job).type = "lint" ∨ (host.toSend fix job).type = "fix" := by
      cases fix
      · exact .inl rfl
      · exact .inr rfl
    obtain ⟨later, r, report, hstarted, hruns, hreports, rfl⟩ := Job.returned htype h
    have ⟨_, _, hend⟩ := hreports
    exact ⟨report, ⟨later, r, hstarted, hruns, hreports⟩, host.taken_report fix job hend.nodup⟩

theorem step_in_step (host : Keeper) (call : World × Call) :
    ∀ sending ∈ (host.step call).2, sending.InStep := by
  obtain ⟨w, call⟩ := call
  cases call with
  | job fix job policy =>
    intro sending hsending
    obtain rfl := List.mem_singleton.mp hsending
    exact in_step_of_run rfl
  | elsewhere session => exact fun _ h => absurd h List.not_mem_nil

/-! ## 4. A run -/

/-- A call in which no job returns leaves the inventory as it is. -/
theorem step_held {host : Keeper} {call : World × Call}
    (h : ∀ sending ∈ (host.step call).2, Fails sending.result) :
    (host.step call).1.held = host.held := by
  obtain ⟨w, call⟩ := call
  cases call with
  | job fix job policy =>
    obtain ⟨fault, hfault⟩ := h _ (List.mem_singleton_self _)
    exact congrArg host.taken hfault
  | elsewhere session => rfl

theorem run_held {host : Keeper} {calls : List (World × Call)}
    (h : ∀ sending ∈ (host.run calls).2, Fails sending.result) :
    (host.run calls).1.held = host.held := by
  induction calls generalizing host with
  | nil => rfl
  | cons call rest ih =>
    rw [run_cons] at h ⊢
    obtain ⟨hfirst, hrest⟩ := List.forall_mem_append.mp h
    exact (ih hrest).trans (step_held hfirst)

/-- The inventory after a run is that after the last job that has returned in it. -/
theorem run_last {host : Keeper} {calls : List (World × Call)} {earlier later : List Sending}
    {sending : Sending} (h : (host.run calls).2 = earlier ++ sending :: later)
    (hlater : ∀ next ∈ later, Fails next.result) :
    (host.run calls).1.held = sending.after.held := by
  induction calls generalizing host earlier with
  | nil => simp [run] at h
  | cons call rest ih =>
    rw [run_cons] at h ⊢
    obtain ⟨w, call⟩ := call
    cases call with
    | job fix job policy =>
      cases earlier with
      | nil =>
        obtain ⟨rfl, rfl⟩ := List.cons.inj h
        exact run_held hlater
      | cons first earlier => exact ih (List.cons.inj h).2
    | elsewhere session => exact ih h

theorem run_in_step (host : Keeper) (calls : List (World × Call)) :
    ∀ sending ∈ (host.run calls).2, sending.InStep := by
  induction calls generalizing host with
  | nil => exact fun _ h => absurd h List.not_mem_nil
  | cons call rest ih =>
    rw [run_cons]
    exact List.forall_mem_append.mpr ⟨host.step_in_step call, ih _⟩

end Keeper

/-- **The inventory of a host stays in step with its engines.** Every job of a run keeps it in step;
    and after the run the host holds what the last job that has returned left it, or what it held at
    first if none has. -/
theorem inventory_in_step (host : Keeper) (calls : List (World × Keeper.Call)) :
    let run := host.run calls
    (∀ sending ∈ run.2, sending.InStep) ∧
    (∀ earlier sending later, run.2 = earlier ++ sending :: later →
      (∀ next ∈ later, Fails next.result) → run.1.held = sending.after.held) ∧
    ((∀ sending ∈ run.2, Fails sending.result) → run.1.held = host.held) :=
  ⟨host.run_in_step calls, fun _ _ _ h hlater => Keeper.run_last h hlater, Keeper.run_held⟩

/-- A machine whose first child reports two rules, whose second fails and whose others report one of
    the two. -/
def World.drifting : World :=
  { World.plain with answer := fun earlier _ =>
      match earlier.length with
      | 0 => .finished 0 "\x7b\"rules\": \x7b\"semi\": 1, \"eqeqeq\": \x7b\x7d\x7d\x7d" ""
      | 1 => .finished 1 "" ""
      | _ => .finished 0 "\x7b\"rules\": \x7b\"semi\": \x7b\x7d\x7d\x7d" "" }

/-- A host that holds the two rules sends four jobs on one file, which fix and lint in turn. -/
def Keeper.fourJobs : Keeper × List Sending :=
  let host : Keeper := ⟨.start (.ofEnv []), [("eqeqeq", .null), ("semi", .null)]⟩
  host.run ([true, false, true, false].map fun fix =>
    (.drifting, .job fix (.inProject "lint") .standard))

/-- What a job has done: the ids before it, those that came back, and those after it. -/
def Sending.ids (sending : Sending) : List String × Option (List String) × List String :=
  (sending.before.held.names,
    sending.result.toOption.bind fun reply => reply.updatedRules.map Entries.names,
    sending.after.held.names)

theorem four_jobs_ids : Keeper.fourJobs.2.map Sending.ids =
    [(["eqeqeq", "semi"], none, ["eqeqeq", "semi"]),
      (["eqeqeq", "semi"], none, ["eqeqeq", "semi"]), (["eqeqeq", "semi"], some ["semi"], ["semi"]),
      (["semi"], none, ["semi"])] := by
  decide +kernel

/-- Nothing comes back while the ids are the same, or when the job fails; then the one rule does. -/
theorem four_jobs_in_step :
    (∀ sending ∈ Keeper.fourJobs.2, sending.InStep) ∧ Keeper.fourJobs.1.held.names = ["semi"] := by
  obtain ⟨hsteps, hlast, -⟩ := inventory_in_step
    ⟨.start (.ofEnv []), [("eqeqeq", .null), ("semi", .null)]⟩
    ([true, false, true, false].map fun fix => (.drifting, .job fix (.inProject "lint") .standard))
  rw [← Keeper.fourJobs] at hsteps hlast
  obtain ⟨earlier, last, hrun, -, hids⟩ := List.map_eq_append_iff.mp
    (four_jobs_ids.trans (List.append_assoc [_] [_, _] [_]).symm)
  obtain ⟨sending, rfl, hsending⟩ := List.map_eq_singleton_iff.mp hids
  refine ⟨hsteps, ?_⟩
  rw [hlast earlier sending [] hrun fun _ h => absurd h List.not_mem_nil]
  exact (Prod.mk.inj (Prod.mk.inj hsending).2).2

end LintHost
