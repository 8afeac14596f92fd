import LintHost.Proofs.ChildEnv
import LintHost.Proofs.Inventory

/-!
# What an engine keeps

Jobs on one context come between the moment an engine is constructed and the moment it is called.
They point the search path elsewhere and note other working directories. This file shows that none
of that reaches an engine: its children get what the context held at the first moment.

* `Bench.engines_run`: whatever is done with a context, its engines stay as they are;
* `Bench.Call.Asks`: a call that asks an engine;
* `engine_keeps_surroundings`: what the children of such a call get.
-/

namespace LintHost

open LintHost.Action LintHost.Path

variable {w : World}

/-! ## 1. Engines stay -/

namespace Bench

/-- One call adds engines at most. -/
theorem engines_after (bench : Bench) (step : World × Call) :
    ∃ more, (bench.after step).engines = bench.engines ++ more := by
  obtain ⟨w, call⟩ := step
  cases call with
  | operation | query | refresh => exact ⟨[], (List.append_nil _).symm⟩
  | construct adapter number options => exact ⟨_, rfl⟩
  | lint place adapter text file =>
    refine ⟨[], ?_⟩
    rw [after, List.append_nil]
    cases bench.engines[place]? <;> rfl
  | rules place adapter =>
    refine ⟨[], ?_⟩
    rw [after, List.append_nil]
    cases bench.engines[place]? <;> rfl

/-- So do any number of calls. -/
theorem engines_run (bench : Bench) (steps : List (World × Call)) :
    ∃ more, (bench.run steps).engines = bench.engines ++ more := by
  induction steps generalizing bench with
  | nil => exact ⟨[], (List.append_nil _).symm⟩
  | cons step rest ih =>
    obtain ⟨more, hmore⟩ := bench.engines_after step
    obtain ⟨later, hlater⟩ := ih (bench.after step)
    refine ⟨more ++ later, ?_⟩
    rw [← List.append_assoc, ← hmore]
    exact hlater

/-- An engine stays at its place. -/
theorem engine_stays {bench : Bench} {place : Nat} {engine : Engine}
    (h : bench.engines[place]? = some engine) (steps : List (World × Call)) :
    (bench.run steps).engines[place]? = some engine := by
  obtain ⟨more, hmore⟩ := bench.engines_run steps
  have hlt : place < bench.engines.length := (List.getElem?_eq_some_iff.mp h).1
  rw [hmore, List.getElem?_append_left hlt]
  exact h

/-! ## 2. Asking an engine -/

/-- The call lints with the engine at a place or asks for its rules. -/
def Call.Asks (place : Nat) : Call → Prop
  | .lint other _ _ _ | .rules other _ => other = place
  | .operation _ | .query _ | .refresh _ | .construct _ _ _ => False

/-- **The children of such a call**: the engine's, if it starts one, or none. -/
theorem asks_started {bench : Bench} {place : Nat} {engine : Engine}
    (h : bench.engines[place]? = some engine) {call : Call} (hcall : call.Asks place) :
    (bench.after (w, call)).session.started = bench.session.started ∨
      ∃ mode text file, (bench.after (w, call)).session.started = bench.session.started ++
        (engine.child w bench.session.context mode text file).toOption.toList := by
  cases call with
  | operation | query | refresh | construct => exact hcall.elim
  | lint other adapter text file =>
    obtain rfl : other = place := hcall
    refine .inr ⟨.lint, text, some file, ?_⟩
    rw [after, h]
    show ((adapter.lint engine text file).run w bench.session).2.started = _
    rw [Adapter.lint, ← map_eq_pure_bind, run_map]
    exact engine.call_started .lint text (some file) bench.session
  | rules other adapter =>
    obtain rfl : other = place := hcall
    rw [after, h]
    show ((adapter.rules engine).run w bench.session).2.started = _ ∨ ∃ mode text file,
      ((adapter.rules engine).run w bench.session).2.started = _
    unfold Adapter.rules
    cases hknown : adapter.known? engine.number with
    | some known => exact .inl rfl
    | none =>
      refine .inr ⟨.rules, "", none, ?_⟩
      dsimp only
      rw [← map_eq_pure_bind, run_map]
      exact engine.call_started .rules "" none bench.session

end Bench

/-- What a child gets from an engine that was constructed at a moment: the environment and, if one
    was set, the working directory of that moment's context, the path of the adapter's package and
    the options. -/
structure Child.Request.GetsFrom (w : World) (moment : Context) (package : Package)
    (options : Engine.Options) (r : Child.Request) : Prop where
  env : r.env = some moment.env
  cwd : ∀ directory, moment.cwd = some directory → directory ≠ "" →
    r.cwd = absolute w.cwd directory
  request : ∃ request input, r.input = some input ∧ Json.write Json.wire request = .ok input ∧
    request.get? "eslintPath" = some (.text package.path) ∧
    request.get? "options" = some options.request

theorem Engine.child_gets {moment context : Context} {package : Package} {options : Engine.Options}
    {number : Nat} {mode : Mode} {text : String} {file : Option String} {r : Child.Request}
    (h : child w context ⟨number, package, options, moment.cwd, moment.env⟩ mode text file =
      .ok r) : r.GetsFrom w moment package options := by
  obtain ⟨node, input, -, -, hinput, rfl⟩ := child_eq_ok.mp h
  refine ⟨rfl, fun directory hdirectory hne => ?_, _, input, rfl, hinput, rfl, rfl⟩
  show Child.directory w moment.cwd = _
  rw [hdirectory, Child.directory, Option.getD_some, if_neg hne]

/-- **An engine keeps the surroundings that it was constructed in.** After any calls on the context,
    whatever they were and however they ended, it stands where it stood, and whoever asks it starts
    one child at most, which gets what the context held when the engine was constructed. -/
theorem engine_keeps_surroundings (bench : Bench) (moment : World) (adapter : Adapter)
    (number : Nat) (options : Engine.Options) (between : List (World × Bench.Call)) (w : World)
    (call : Bench.Call) (hcall : call.Asks bench.engines.length) :
    let constructed := bench.after (moment, .construct adapter number options)
    let before := constructed.run between
    let after := before.after (w, call)
    ∃ later, after.session.started = before.session.started ++ later ∧ later.length ≤ 1 ∧
      ∀ r ∈ later, r.GetsFrom w bench.session.context adapter.package options := by
  intro constructed before after
  let engine : Engine := ⟨number, adapter.package, options, bench.session.context.cwd,
    bench.session.context.env⟩
  have hplaced : constructed.engines[bench.engines.length]? = some engine :=
    List.getElem?_concat_length
  have hstays : before.engines[bench.engines.length]? = some engine :=
    Bench.engine_stays hplaced between
  rcases Bench.asks_started (w := w) hstays hcall with hnone | ⟨mode, text, file, hlater⟩
  · exact ⟨[], by rw [List.append_nil, hnone], Nat.zero_le 1, fun r hr => (nomatch hr)⟩
  · refine ⟨_, hlater, ?_, fun r hr => Engine.child_gets (Except.mem_toOption.mp hr)⟩
    cases engine.child w before.session.context mode text file with
    | error fault => exact Nat.zero_le 1
    | ok r => exact Nat.le_refl 1

/-- On the machine with two projects: the copy and the working directory for `/p` are resolved. -/
def Bench.inFirst : Bench :=
  (Bench.start .withNode .empty).run
    [(.twoProjects, .operation (.forDirectory "/p" .standard none)),
      (.twoProjects, .operation (.workplace "/p" "/p/a.js" .standard none))]

/-- An engine is constructed then, and a job for `/q` comes before it is called. -/
def Bench.backAgain : Bench :=
  (Bench.inFirst.after (.twoProjects, .construct (.new .inProject) 0 .standard)).run
    [(.twoProjects, .operation (.job (.check "/q/b.js") .standard))]

/-- Where a child runs and where it looks for modules. -/
def Child.Request.setting (r : Child.Request) : String × Option String := (r.cwd, r.nodePath?)

/-- The engine for `/p` still runs in `/p`, with the modules of `/p`, when the context is at
    `/q`. -/
theorem first_project_kept :
    (Bench.Call.lint 0 (.new .inProject) "" "a.js").Asks Bench.inFirst.engines.length ∧
    Bench.backAgain.session.context.cwd = some "/q" ∧
    ∃ later, (Bench.backAgain.after
        (.twoProjects, .lint 0 (.new .inProject) "" "a.js")).session.started =
          Bench.backAgain.session.started ++ later ∧
      later.map Child.Request.setting = [("/p", some "/p/node_modules")] ∧
      ∀ r ∈ later, r.GetsFrom .twoProjects Bench.inFirst.session.context .inProject .standard := by
  have hasks : (Bench.Call.lint 0 (.new .inProject) "" "a.js").Asks
      Bench.inFirst.engines.length := rfl
  obtain ⟨later, hlater, -, hgets⟩ := engine_keeps_surroundings .inFirst .twoProjects
    (.new .inProject) 0 .standard [(.twoProjects, .operation (.job (.check "/q/b.js") .standard))]
    .twoProjects _ hasks
  rw [← Bench.backAgain] at hlater
  have hrun : (Bench.backAgain.session.context.cwd, Bench.backAgain.session.started.length,
      ((Bench.backAgain.after (.twoProjects, .lint 0 (.new .inProject) "" "a.js")
        ).session.started.drop 1).map Child.Request.setting) =
      (some "/q", 1, [("/p", some "/p/node_modules")]) := by decide +kernel
  obtain ⟨hcontext, hrest⟩ := Prod.mk.inj hrun
  obtain ⟨hone, hlast⟩ := Prod.mk.inj hrest
  refine ⟨hasks, hcontext, later, hlater, ?_, hgets⟩
  rw [hlater, ← hone, List.drop_left] at hlast
  exact hlast

end LintHost
