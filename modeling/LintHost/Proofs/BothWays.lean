import LintHost.Proofs.OneOption

/-!
# Texts from a variable and from an argument

An option may be given as a variable or as an argument. What an argument holds is kept as it is, but
what a variable holds is read first: a word for yes or no and whatever reads as a number is not kept
as a text. So the two ways come to the same for a text that is neither, and for other texts only
where loading fails anyway.

* `Value.Plain`: a text that a variable keeps; `spelled_eq_text_iff`;
* `argumentsGive?_put`: what arguments give with one of them set;
* `Settings.Agree`: settings that hold the same;
* `Loader.text_both_ways_iff`: where a variable and an argument come to the same.
-/

namespace LintHost

/-! ## 1. Plain texts -/

namespace Value

/-- A text that is no word for yes or no and does not read as a number. -/
structure Plain (s : String) : Prop where
  word : truthWord? s = none
  integer : Number.readInt? s = none
  number : Number.readFloat? s = none

/-- A text stands for itself exactly if it is plain. -/
theorem spelled_eq_text_iff {s t : String} : spelled s = .text t ↔ Plain s ∧ s = t := by
  unfold spelled
  split
  · rename_i hword
    exact iff_of_false nofun fun h => nomatch hword.symm.trans h.1.word
  · rename_i hinteger
    exact iff_of_false nofun fun h => nomatch hinteger.symm.trans h.1.integer
  · rename_i hnumber
    exact iff_of_false nofun fun h => nomatch hnumber.symm.trans h.1.number
  · rename_i hword hinteger hnumber
    exact ⟨fun h => ⟨⟨hword, hinteger, hnumber⟩, text.inj h⟩, fun h => congrArg text h.2⟩

end Value

/-! ## 2. Arguments -/

namespace Settings

variable {o : Setting} {a : String} {v : Value}

theorem argumentsGive?_cons (argument : String × Value) (arguments : Entries Value) (o : Setting) :
    argumentsGive? (argument :: arguments) o =
      (argumentsGive? arguments o).or (argumentGives? o argument) := by
  unfold argumentsGive?
  rw [List.reverse_cons, List.findSome?_append, List.findSome?_singleton]

theorem argumentGives?_self (hname : argumentNames.lookup a = some o) (hv : v ≠ .null) :
    argumentGives? o (a, v) = some v := by
  unfold argumentGives?
  cases v with
  | null => exact absurd rfl hv
  | _ => exact if_pos hname

theorem argumentGives?_other (hname : argumentNames.lookup a = some o) {other : Setting}
    (hother : other ≠ o) (v : Value) : argumentGives? other (a, v) = none := by
  unfold argumentGives?
  cases v with
  | null => rfl
  | _ => exact if_neg fun h => hother (Option.some.inj (h.symm.trans hname))

/-- Setting one argument gives its option, and leaves the others. -/
theorem argumentsGive?_put (hname : argumentNames.lookup a = some o) (hv : v ≠ .null)
    (arguments : Entries Value) :
    (argumentsGive? arguments o = none → argumentsGive? (arguments.put a v) o = some v) ∧
      ∀ other ≠ o, argumentsGive? arguments other = argumentsGive? (arguments.put a v) other := by
  have hself := argumentGives?_self hname hv
  have hothers {other : Setting} (hother : other ≠ o) := argumentGives?_other hname hother
  induction arguments with
  | nil =>
    refine ⟨fun _ => ?_, fun other hother => ?_⟩
    · rw [Entries.put, argumentsGive?_cons, hself]
      rfl
    · rw [Entries.put, argumentsGive?_cons, hothers hother]
      rfl
  | cons argument rest ih =>
    obtain ⟨n, b⟩ := argument
    by_cases hn : n = a
    · subst hn
      rw [Entries.put, if_pos rfl]
      refine ⟨fun h => ?_, fun other hother => ?_⟩
      · rw [argumentsGive?_cons] at h ⊢
        rw [(Option.or_eq_none_iff.mp h).1, hself]
        rfl
      · rw [argumentsGive?_cons, argumentsGive?_cons, hothers hother, hothers hother]
    · rw [Entries.put, if_neg hn]
      refine ⟨fun h => ?_, fun other hother => ?_⟩
      · rw [argumentsGive?_cons] at h ⊢
        rw [ih.1 (Option.or_eq_none_iff.mp h).1]
        rfl
      · rw [argumentsGive?_cons, argumentsGive?_cons, ih.2 other hother]

/-- Settings that hold the same, and of which the same routines were taken away. -/
structure Agree (a b : Settings) : Prop where
  value : a.value = b.value
  gone : ∀ r, r ∈ a.gone ↔ r ∈ b.gone

theorem SameBut.agree {a b : Settings} (h : SameBut o a b) (ho : a.value o = b.value o) :
    Agree a b := by
  refine ⟨funext fun other => ?_, h.gone⟩
  by_cases hother : other = o
  · rw [hother, ho]
  · exact h.value other hother

theorem Agree.alike {a b : Settings} (h : Agree a b) : Alike a b :=
  ⟨fun _ _ => congrFun h.value _, fun _ _ => congrArg listOf (congrFun h.value _), h.gone⟩

end Settings

/-! ## 3. Loading -/

namespace Loader

open LintHost.Settings

variable {w : World} {x v : String} {o : Setting}

/-- Where one load read a text for an option and the other kept it, they end in the same way exactly
    if the text is plain, or if both fail with the same fault. -/
theorem accepted_both_ways_iff {one other : Except Fault Settings}
    (h : Paired (fun a b => SameBut o a b ∧ a.value o = .spelled v ∧ b.value o = .text v) one other) :
    Paired Agree (one >>= accepted) (other >>= accepted) ↔ Value.Plain v ∨
      ∃ fault, (one >>= accepted) = .error fault ∧ (other >>= accepted) = .error fault := by
  cases h with
  | error fault => exact iff_of_true (.error fault) (.inr ⟨fault, rfl, rfl⟩)
  | @ok a b h =>
    obtain ⟨hbut, hspelled, htext⟩ := h
    rw [Except.ok_bind, Except.ok_bind]
    constructor
    · intro hpaired
      rcases paired_iff.mp hpaired with ⟨a', b', ha, hb, hagree⟩ | hfault
      · -- what was accepted is what was given, so the text was kept both times
        obtain ⟨-, rfl⟩ := accepted_eq_ok ha
        obtain ⟨-, rfl⟩ := accepted_eq_ok hb
        have hkept := hspelled.symm.trans ((congrFun hagree.value o).trans htext)
        exact .inl (Value.spelled_eq_text_iff.mp hkept).1
      · exact .inr hfault
    · rintro (hplain | hfault)
      · have hkept := Value.spelled_eq_text_iff.mpr ⟨hplain, rfl⟩
        have hagree := hbut.agree (hspelled.trans (hkept.trans htext.symm))
        exact hagree.alike.accepted fun _ => hagree
      · exact paired_iff.mpr (.inr hfault)

/-- **A text comes to the same from a variable and from an argument**, all other sources being equal,
    exactly if it is plain, or if loading fails both times with the same fault. The other sources
    are equal if no argument and no variable further on sets the option, and if the file of variables
    has nothing to do with the variable. -/
theorem text_both_ways_iff {request : Request} {loading : Loading} {earlier later : Entries String}
    {a : String} (hargument : argumentNames.lookup a = some o)
    (hvariable : variableKey? x = some o.key) (huse : request.useEnv = true)
    (harguments : argumentsGive? request.arguments o = none)
    (hlater : ∀ entry ∈ later, variableKey? entry.1 ≠ some o.key)
    (hfile : ∀ text, variableText w (request.envFile.getD w.host.envFile) = .ok text →
      EnvFile.LeavesAside (earlier ++ later) text x ∧
        ∀ setting ∈ (EnvFile.statements text).1, variableKey? setting.1 = some o.key →
          setting.1 = x) :
    let byVariable := ((load request).run w
      { loading with env := earlier ++ (x, v) :: later }).1
    let byArgument := ((load { request with arguments := request.arguments.put a (.text v) }).run w
      { loading with env := earlier ++ later }).1
    Paired Agree byVariable byArgument ↔ Value.Plain v ∨
      ∃ fault, byVariable = .error fault ∧ byArgument = .error fault := by
  intro byVariable byArgument
  have htext : Value.text v ≠ .null := by
    intro h
    cases h
  have hput := argumentsGive?_put hargument htext request.arguments
  have henv : Entries.erase x (earlier ++ (x, v) :: later) = Entries.erase x (earlier ++ later) := by
    simp [Entries.erase]
  have hhas : Entries.has x (earlier ++ (x, v) :: later) = true :=
    Entries.has_iff.mpr (by simp [Entries.names])
  have haside (text : String)
      (htext : variableText w (request.envFile.getD w.host.envFile) = .ok text) :
      EnvFile.LeavesAside (earlier ++ (x, v) :: later) text x := by
    refine ⟨(hfile text htext).1.unmentioned, fun value hvalue => ?_⟩
    cases hhas.symm.trans (EnvFile.mem_fresh hvalue).1
  have hmerged := @merged_paired w _ _ x o request
    { request with arguments := request.arguments.put a (.text v) } hvariable henv
    (fun text htext => ⟨haside text htext, (hfile text htext).1⟩)
    (paired_self (SameBut.refl o) _) rfl rfl hput.2
  have hvalues : Paired (fun s s' => SameBut o s s' ∧ s.value o = .spelled v ∧ s'.value o = .text v)
      (merged w (earlier ++ (x, v) :: later) request)
      (merged w (earlier ++ later)
        { request with arguments := request.arguments.put a (.text v) }) := by
    refine hmerged.mono fun s s' h => ?_
    obtain ⟨hbut, hs, hs'⟩ := h
    refine ⟨hbut, ?_, ?_⟩
    · obtain ⟨sections, asked, -, hasked, hvalue, -⟩ := merged_layers hs
      have hasked := environmentGives?_asked huse hasked fun text htext setting hsetting hkey =>
        (hfile text htext).2 setting hsetting hkey ▸ hhas
      rw [hvalue, harguments, hasked, environmentGives?_last hvariable hlater]
      rfl
    · obtain ⟨sections, asked, -, -, hvalue, -⟩ := merged_layers hs'
      rw [hvalue, hput.1 harguments]
      rfl
  have hone : byVariable = merged w (earlier ++ (x, v) :: later) request >>= accepted :=
    load_result ..
  have hother : byArgument = merged w (earlier ++ later)
      { request with arguments := request.arguments.put a (.text v) } >>= accepted := load_result ..
  rw [hone, hother]
  exact accepted_both_ways_iff hvalues

/-- A machine whose file of variables sets the level. -/
def levelMachine : World :=
  { World.bare with
    files := FileTree.empty.add [".env"]
      (.file "ESLINT_BRIDGE_LOGGING__LEVEL=info\n".toUTF8 true true) }

/-- A program's path is no number, and comes to the same both ways. -/
theorem program_both_ways :
    Paired Agree
      ((load ⟨none, true, [("log_file", .text "x.log")], none⟩).run levelMachine
        (.start [("HOME", "/root"), ("ESLINT_BRIDGE_ENGINE__NODE_EXECUTABLE", "/opt/node"),
          ("ESLINT_BRIDGE_ENGINE__TIMEOUT_S", "9")])).1
      ((load ⟨none, true, [("log_file", .text "x.log"), ("node_executable", .text "/opt/node")],
        none⟩).run levelMachine
        (.start [("HOME", "/root"), ("ESLINT_BRIDGE_ENGINE__TIMEOUT_S", "9")])).1 := by
  have htext : variableText levelMachine "/.env" = .ok "ESLINT_BRIDGE_LOGGING__LEVEL=info\n" := by
    rfl
  have hstatements : (EnvFile.statements "ESLINT_BRIDGE_LOGGING__LEVEL=info\n").1 =
      [("ESLINT_BRIDGE_LOGGING__LEVEL", some "info")] := by
    decide +kernel
  have hplain : Value.Plain "/opt/node" := ⟨by decide, by decide, by decide⟩
  refine (@text_both_ways_iff levelMachine "ESLINT_BRIDGE_ENGINE__NODE_EXECUTABLE" "/opt/node"
    .nodeExecutable ⟨none, true, [("log_file", .text "x.log")], none⟩ (.start [])
    [("HOME", "/root")] [("ESLINT_BRIDGE_ENGINE__TIMEOUT_S", "9")] "node_executable"
    rfl (by decide) rfl rfl (by decide) fun text h => ?_).mpr (.inl hplain)
  obtain rfl := Except.ok.inj (htext.symm.trans h)
  refine ⟨⟨?_, fun value hvalue => ?_⟩, ?_⟩
  · rw [hstatements, List.forall_mem_singleton]
    exact fun value hvalue => Option.some.inj hvalue ▸ (by decide)
  · -- the file sets another variable
    obtain ⟨-, setting, hsetting, hname⟩ := EnvFile.mem_fresh hvalue
    rw [hstatements, List.mem_singleton] at hsetting
    rw [hsetting] at hname
    exact absurd hname (by decide)
  · rw [hstatements, List.forall_mem_singleton]
    exact fun hkey => absurd hkey (by decide)

/-- A level of digits is a number from a variable, which has no case, and no level from an
    argument. -/
theorem numeric_level_both_ways :
    let byVariable := ((load ⟨none, true, [], none⟩).run World.bare
      (.start [("ESLINT_BRIDGE_LOGGING__LEVEL", "5")])).1
    let byArgument := ((load ⟨none, true, [("log_level", .text "5")], none⟩).run World.bare
      (.start [])).1
    byVariable = .error .missingFeature ∧
      byArgument = .error (.reported (rejection ["Invalid log level: 5"])) ∧
        ¬Paired Agree byVariable byArgument := by
  intro byVariable byArgument
  have hvariable : byVariable = .error .missingFeature := rfl
  have hargument : byArgument = .error (.reported (rejection ["Invalid log level: 5"])) := rfl
  refine ⟨hvariable, hargument, fun h => ?_⟩
  rw [hvariable, hargument] at h
  cases h

end Loader

end LintHost
