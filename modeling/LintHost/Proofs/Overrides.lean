import LintHost.Proofs.SettingNames

/-!
# What the environment and the arguments give

The variables of an environment are collected by section first and set afterwards, the arguments one
by one. For each option the outcome is the same as for any source that sets one thing after the
other: what the last of them gives that gives anything, and else what was there before.

* `foldl_last`, `foldl_value`: the last one counts;
* `groups_get`: what is collected from an environment;
* `environmentGives?`, `argumentsGive?`: what an environment and arguments give for an option;
* `withEnvironment_value`, `withEnvironment_gone`, `withArguments_value`: that is what they set.
-/

namespace LintHost.Settings

/-! ## 1. The last one counts -/

section Last

variable {σ α β : Type}

/-- **The last one counts**: where each part puts in place what it gives, there is in the end what
    the last part gives that gives anything. -/
theorem foldl_last {step : σ → α → σ} {gives : α → Option β} (look : σ → Option β)
    (hstep : ∀ state part, look (step state part) = (gives part).or (look state)) (parts : List α)
    (state : σ) :
    look (parts.foldl step state) = (parts.reverse.findSome? gives).or (look state) := by
  induction parts generalizing state with
  | nil => rfl
  | cons part parts ih =>
    rw [List.foldl_cons, ih, hstep, List.reverse_cons, List.findSome?_append,
      List.findSome?_singleton, Option.or_assoc]

variable {step : Settings → α → Settings}

/-- The last one counts for an option, which always holds something. -/
theorem foldl_value {gives : α → Option Value} {o : Setting}
    (hstep : ∀ settings part,
      (step settings part).value o = (gives part).getD (settings.value o))
    (parts : List α) (settings : Settings) :
    (parts.foldl step settings).value o =
      (parts.reverse.findSome? gives).getD (settings.value o) := by
  have hlook (settings : Settings) (part : α) :
      some ((step settings part).value o) = (gives part).or (some (settings.value o)) := by
    rw [hstep, Option.or_some]
  have hlast := foldl_last (fun settings : Settings => some (settings.value o)) hlook parts settings
  rw [Option.or_some] at hlast
  exact Option.some.inj hlast

/-- A routine is taken away if any part takes it away. -/
theorem foldl_gone {takes : α → Prop} {r : Routine}
    (hstep : ∀ settings part, r ∈ (step settings part).gone ↔ takes part ∨ r ∈ settings.gone)
    (parts : List α) (settings : Settings) :
    r ∈ (parts.foldl step settings).gone ↔ (∃ part ∈ parts, takes part) ∨ r ∈ settings.gone := by
  induction parts generalizing settings with
  | nil => simp
  | cons part parts ih =>
    rw [List.foldl_cons, ih, hstep, or_left_comm, ← or_assoc]
    simp only [List.mem_cons, exists_eq_or_imp]

end Last

/-! ## 2. Variables by section -/

theorem groupVariable_get (groups : Entries (Entries Value)) (name value s option : String) :
    ((groupVariable groups name value).get? s).bind (Entries.get? option) =
      (if variableTarget? name = some (s, option) then some (.spelled value) else none).or
        ((groups.get? s).bind (Entries.get? option)) := by
  unfold groupVariable
  cases htarget : variableTarget? name with
  | none => simp
  | some target =>
    obtain ⟨s', option'⟩ := target
    by_cases hs : s' = s
    · subst hs
      rw [Entries.get?_put_self, Option.bind_some]
      by_cases hoption : option' = option
      · subst hoption
        simp [Entries.get?_put_self]
      · rw [Entries.get?_put_ne (Ne.symm hoption), if_neg (by simp [hoption]), Option.none_or]
        cases groups.get? s' <;> rfl
    · rw [Entries.get?_put_ne (Ne.symm hs), if_neg (by simp [hs]), Option.none_or]

/-- **What is collected from an environment** under a section and an option is what the last
    variable gives that names them. -/
theorem groups_get (env : Entries String) (s option : String) :
    ((groups env).get? s).bind (Entries.get? option) =
      env.reverse.findSome? fun entry =>
        if variableTarget? entry.1 = some (s, option) then some (.spelled entry.2) else none := by
  have hstep (groups : Entries (Entries Value)) (entry : String × String) :=
    groupVariable_get groups entry.1 entry.2 s option
  have hlast := foldl_last (fun groups => (Entries.get? s groups).bind (Entries.get? option))
    hstep env []
  exact hlast.trans (Option.or_none ..)

/-- Options collected by section: no section is there twice, and no option in a section. -/
structure Grouped (groups : Entries (Entries Value)) : Prop where
  sections : groups.names.Nodup
  options : ∀ s options, groups.get? s = some options → options.names.Nodup

theorem Grouped.variable {groups : Entries (Entries Value)} (h : Grouped groups)
    (name value : String) : Grouped (groupVariable groups name value) := by
  unfold groupVariable
  split
  · rename_i s option _
    refine ⟨Entries.nodup_put h.sections, fun s' options hget => ?_⟩
    by_cases hs : s' = s
    · subst hs
      rw [Entries.get?_put_self] at hget
      obtain rfl := Option.some.inj hget
      refine Entries.nodup_put ?_
      cases hold : groups.get? s' with
      | none => exact List.nodup_nil
      | some old => exact h.options s' old hold
    · rw [Entries.get?_put_ne hs] at hget
      exact h.options s' options hget
  · exact h

theorem grouped_groups (env : Entries String) : Grouped (groups env) := by
  unfold groups
  generalize hstart : ([] : Entries (Entries Value)) = start
  have hgrouped : Grouped start := hstart ▸ ⟨List.nodup_nil, nofun⟩
  clear hstart
  induction env generalizing start with
  | nil => exact hgrouped
  | cons entry env ih => exact ih _ (hgrouped.variable entry.1 entry.2)

/-- Going through all that is collected finds what is under a section and an option. -/
theorem Grouped.last {groups : Entries (Entries Value)} (h : Grouped groups) (s option : String) :
    (groups.reverse.findSome? fun group => group.2.reverse.findSome? fun e =>
      if group.1 = s ∧ e.1 = option then some e.2 else none) =
        (groups.get? s).bind (Entries.get? option) := by
  rw [← Entries.findSome?_reverse h.sections, ← List.head?_filterMap, ← List.head?_filterMap]
  refine congrArg List.head? (List.filterMap_congr fun group hmem => ?_)
  obtain ⟨s', options⟩ := group
  dsimp only
  by_cases hs : s' = s
  · have hget := (Entries.mem_iff_get? h.sections).mp (List.mem_reverse.mp hmem)
    have hlast : options.reverse.findSome? (fun e => if e.1 = option then some e.2 else none) =
        options.get? option :=
      (Entries.findSome?_reverse (h.options s' options hget)).trans (Option.bind_fun_some _)
    simpa [hs] using hlast
  · simp [hs]

/-! ## 3. The environment -/

/-- What a variable says about an option. -/
def variableGives? (o : Setting) (entry : String × String) : Option Value :=
  if variableKey? entry.1 = some o.key then some (.spelled entry.2) else none

/-- What an environment says about an option: the last variable that says anything counts. -/
def environmentGives? (env : Entries String) (o : Setting) : Option Value :=
  env.reverse.findSome? (variableGives? o)

theorem assignAll_value (settings : Settings) (s : String) (options : Entries Value)
    (o : Setting) :
    (settings.assignAll s options).value o =
      (options.reverse.findSome? fun e =>
        if s = o.inSection.name ∧ e.1 = o.name then some e.2 else none).getD
          (settings.value o) := by
  refine foldl_value (fun settings e => ?_) options settings
  obtain ⟨name, v⟩ := e
  rw [assign_value]
  split <;> rfl

theorem assignAll_gone (settings : Settings) (s : String) (options : Entries Value) (r : Routine) :
    r ∈ (settings.assignAll s options).gone ↔
      (∃ e ∈ options, s = r.inSection.name ∧ e.1 = r.name) ∨ r ∈ settings.gone :=
  foldl_gone (fun settings e => assign_gone settings s e.1 e.2 r) options settings

/-- **An environment sets** each option to what the last variable that names it says. -/
theorem withEnvironment_value (settings : Settings) (env : Entries String) (o : Setting) :
    (settings.withEnvironment env).value o =
      (environmentGives? env o).getD (settings.value o) := by
  -- the last option of the last section that has it; each is there once, so it can be looked up
  have hlast := foldl_value (fun settings group => assignAll_value settings group.1 group.2 o)
    (groups env) settings
  rw [(grouped_groups env).last, groups_get] at hlast
  simp only [names_setting_iff] at hlast
  exact hlast

/-- The routines that variables take away. -/
theorem withEnvironment_gone (settings : Settings) (env : Entries String) (r : Routine) :
    r ∈ (settings.withEnvironment env).gone ↔
      (∃ entry ∈ env, variableKey? entry.1 = some r.key) ∨ r ∈ settings.gone := by
  have hgone := foldl_gone (fun settings group => assignAll_gone settings group.1 group.2 r)
    (groups env) settings
  refine hgone.trans (or_congr_left ?_)
  -- both sides ask whether anything is found, once in what was collected and once in the variables
  have hlast := congrArg Option.isSome ((grouped_groups env).last r.inSection.name r.name)
  rw [groups_get, Bool.eq_iff_iff, List.findSome?_isSome_iff, List.findSome?_isSome_iff] at hlast
  simpa [names_routine_iff, List.findSome?_isSome_iff] using hlast

/-! ## 4. The arguments -/

/-- What an argument says about an option; null says nothing. -/
def argumentGives? (o : Setting) (argument : String × Value) : Option Value :=
  match argument.2 with
  | .null => none
  | v => if argumentNames.lookup argument.1 = some o then some v else none

/-- What arguments say about an option. -/
def argumentsGive? (arguments : Entries Value) (o : Setting) : Option Value :=
  arguments.reverse.findSome? (argumentGives? o)

theorem withArgument_cases (settings : Settings) (name : String) (v : Value) :
    settings.withArgument name v = settings ∧ (∀ o, argumentGives? o (name, v) = none) ∨
      ∃ option, settings.withArgument name v = settings.put option v ∧
        ∀ o, argumentGives? o (name, v) = if o = option then some v else none := by
  unfold withArgument argumentGives?
  dsimp only
  cases argumentNames.lookup name with
  | none => exact .inl (by cases v <;> exact ⟨rfl, fun o => rfl⟩)
  | some option =>
    cases v with
    | null => exact .inl ⟨rfl, fun o => rfl⟩
    | _ => exact .inr ⟨option, rfl, fun o => by simp [eq_comm]⟩

/-- **Arguments set** each option to what the last argument that names it says. -/
theorem withArguments_value (settings : Settings) (arguments : Entries Value) (o : Setting) :
    (settings.withArguments arguments).value o =
      (argumentsGive? arguments o).getD (settings.value o) := by
  refine foldl_value (fun settings part => ?_) arguments settings
  obtain ⟨name, v⟩ := part
  dsimp only
  rcases withArgument_cases settings name v with ⟨hstep, hgives⟩ | ⟨option, hstep, hgives⟩
  · rw [hgives, hstep]
    rfl
  · rw [hgives, hstep, put_value]
    split <;> rfl

/-- No argument takes a routine away. -/
theorem withArguments_gone (settings : Settings) (arguments : Entries Value) :
    (settings.withArguments arguments).gone = settings.gone := by
  unfold withArguments
  induction arguments generalizing settings with
  | nil => rfl
  | cons argument arguments ih =>
    obtain ⟨name, v⟩ := argument
    rw [List.foldl_cons, ih]
    dsimp only
    rcases withArgument_cases settings name v with ⟨hstep, -⟩ | ⟨option, hstep, -⟩
    · rw [hstep]
    · rw [hstep]
      rfl

end LintHost.Settings
