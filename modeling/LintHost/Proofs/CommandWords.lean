import LintHost.CommandLine.Run
import LintHost.Proofs.Results

/-!
# What the words of a command line ask for

The words in front of a command are read without those after it, and each command reads its own.
This file says what either come to, for whatever order and spelling the words may have.

* `Table.Gives`, `gives_of_givenAfter`: options that are given are options of the table;
* `Leading`, `run_command`: words in front of a command, and the run of that command;
* `Command.Asks`: words ask for a file, a project and fixes;
* `Task.of_ofWords`, `Task.ofWords_ok`: the task that such words name.
-/

namespace LintHost.CommandLine

section Words

variable {α : Type} {table : Table α}

/-! ## 1. Where options come from -/

/-- An option is one that something in a table stands for. -/
inductive Meaning.Gives : Meaning α → α → Prop
  | alone (a : α) : Gives (.alone a) a
  | valued (of : String → α) (s : String) : Gives (.valued of) (of s)

/-- An option is one of a table. -/
def Table.Gives (table : Table α) (a : α) : Prop :=
  ∃ entry ∈ table, entry.2.Gives a

/-- What was read holds options of a table, the one that waits for a value included. -/
structure Within (table : Table α) (given : List α) (waiting : Option (String → α)) : Prop where
  given : ∀ a ∈ given, Table.Gives table a
  waiting : ∀ of ∈ waiting, ∀ s, Table.Gives table (of s)

theorem Table.gives_of_lookup {name : String} {meaning : Meaning α} {a : α}
    (h : table.lookup name = some meaning) (hgives : meaning.Gives a) : table.Gives a := by
  obtain ⟨before, later, htable, -⟩ := List.lookup_eq_some_iff.mp h
  exact ⟨(name, meaning), by simp [htable], hgives⟩

theorem within_cluster : ∀ {cs : List Char} {given : List α} {waiting : Option (String → α)},
    cluster? table cs = some (given, waiting) → Within table given waiting
  | [], _, _, h => by
    cases h
    exact ⟨nofun, nofun⟩
  | c :: cs, given, waiting, h => by
    unfold cluster? at h
    split at h
    · cases h
    · rename_i a hmeaning
      obtain ⟨⟨as, waiting'⟩, hrest, h⟩ := Option.map_eq_some_iff.mp h
      cases h
      obtain ⟨hgiven, hwaiting⟩ := within_cluster hrest
      exact ⟨List.forall_mem_cons.mpr ⟨table.gives_of_lookup hmeaning (.alone a), hgiven⟩, hwaiting⟩
    · rename_i of hmeaning
      have hof (s : String) := table.gives_of_lookup hmeaning (.valued of s)
      split at h
      · cases h
        exact ⟨nofun, fun _ h s => Option.some.inj h ▸ hof s⟩
      · cases h
        exact ⟨List.forall_mem_singleton.mpr (hof _), nofun⟩

theorem within_named {cs : List Char} {given : List α} {waiting : Option (String → α)}
    (h : named? table cs = some (given, waiting)) : Within table given waiting := by
  unfold named? at h
  dsimp only at h
  split at h
  · rename_i a hmeaning _
    cases h
    exact ⟨List.forall_mem_singleton.mpr (table.gives_of_lookup hmeaning (.alone a)), nofun⟩
  · rename_i of hmeaning _
    cases h
    exact ⟨nofun, fun _ h s => Option.some.inj h ▸ table.gives_of_lookup hmeaning (.valued of s)⟩
  · rename_i of _ hmeaning _
    cases h
    exact ⟨List.forall_mem_singleton.mpr (table.gives_of_lookup hmeaning (.valued of _)), nofun⟩
  · cases h
  · cases h

theorem within_read {word : String} {given : List α} {waiting : Option (String → α)}
    (h : Word.read? table word = some (.options given waiting)) : Within table given waiting := by
  unfold Word.read? at h
  split at h
  · cases h
  · obtain ⟨⟨as, waiting'⟩, hnamed, h⟩ := Option.map_eq_some_iff.mp h
    cases h
    exact within_named hnamed
  · obtain ⟨⟨as, waiting'⟩, hcluster, h⟩ := Option.map_eq_some_iff.mp h
    cases h
    exact within_cluster hcluster
  · cases h

theorem gives_of_none : ∀ of ∈ (none : Option (String → α)), ∀ s, table.Gives (of s) := nofun

/-- **All options that are given are options of the table.** -/
theorem gives_of_givenAfter {mixed : Bool} : ∀ {words : List String} {waiting : Option (String → α)}
    {given : List α} {others : List String},
    (∀ of ∈ waiting, ∀ s, table.Gives (of s)) →
    givenAfter? table mixed waiting words = some (given, others) → ∀ a ∈ given, table.Gives a
  | [], none, _, _, _, h => by
    cases h
    exact nofun
  | [], some of, _, _, _, h => by cases h
  | word :: words, some of, _, _, hwaiting, h => by
    obtain ⟨⟨as, others⟩, hrest, h⟩ := Option.map_eq_some_iff.mp h
    cases h
    exact List.forall_mem_cons.mpr ⟨hwaiting of rfl word, gives_of_givenAfter gives_of_none hrest⟩
  | word :: words, none, _, _, _, h => by
    unfold givenAfter? at h
    split at h
    · cases h
    · cases h
      exact nofun
    · split at h
      · obtain ⟨⟨as, others⟩, hrest, h⟩ := Option.map_eq_some_iff.mp h
        cases h
        exact gives_of_givenAfter gives_of_none hrest
      · cases h
        exact nofun
    · rename_i given waiting hread
      obtain ⟨⟨as, others⟩, hrest, h⟩ := Option.map_eq_some_iff.mp h
      cases h
      obtain ⟨hgiven, hwaiting⟩ := within_read hread
      exact List.forall_mem_append.mpr ⟨hgiven, gives_of_givenAfter hwaiting hrest⟩

/-! ## 2. The words in front of a command -/

theorem givenAfter_append {word : String} (hword : Word.read? table word = some .plain)
    (rest : List String) : ∀ {words : List String} {waiting : Option (String → α)} {given : List α},
    givenAfter? table false waiting words = some (given, []) →
    givenAfter? table false waiting (words ++ word :: rest) = some (given, word :: rest)
  | [], none, _, h => by
    cases h
    rw [List.nil_append, givenAfter?, hword]
    rfl
  | [], some of, _, h => by cases h
  | first :: words, some of, _, h => by
    obtain ⟨⟨as, others⟩, hrest, h⟩ := Option.map_eq_some_iff.mp h
    cases h
    rw [List.cons_append, givenAfter?, givenAfter_append hword rest hrest]
    rfl
  | first :: words, none, given, h => by
    unfold givenAfter? at h
    rw [List.cons_append, givenAfter?]
    cases hfirst : Word.read? table first with
    | none =>
      rw [hfirst] at h
      cases h
    | some read =>
      rw [hfirst] at h
      cases read with
      | stop =>
        cases h
        rfl
      | plain => cases h
      | options as waiting =>
        obtain ⟨⟨bs, others⟩, hrest, h⟩ := Option.map_eq_some_iff.mp h
        cases h
        dsimp only
        rw [givenAfter_append hword rest hrest]
        rfl

end Words

theorem Command.name_plain (command : Command) :
    Word.read? GlobalOption.table command.name = some .plain := by
  cases command <;> rfl

theorem Command.named?_name (command : Command) : named? command.name = some command := by
  cases command <;> rfl

/-- Words in front of a command: options and their values, and nothing else. -/
def Leading (words : List String) : Prop :=
  ∃ options, given? GlobalOption.table false words = some (options, [])

theorem Globals.ofWords_append {w : World} {leading : List String} (h : Leading leading)
    (command : Command) (words : List String) :
    Globals.ofWords w (leading ++ command.name :: words) =
      (Globals.ofWords w leading).map fun (globals, _) => (globals, command.name :: words) := by
  obtain ⟨options, hoptions⟩ := h
  have happend : given? GlobalOption.table false (leading ++ command.name :: words) =
      some (options, command.name :: words) := givenAfter_append command.name_plain words hoptions
  unfold Globals.ofWords
  rw [happend, hoptions]
  dsimp only
  split
  · rfl
  · cases (options.filterMap GlobalOption.config?).getLast?.mapM (pathIn w) <;> rfl

/-- **A run of a command**: the words in front of it are read by themselves. -/
theorem run_command {w : World} {leading : List String} (h : Leading leading) (command : Command)
    (words : List String) (input : String) : run w (leading ++ command.name :: words) input =
      match Globals.ofWords w leading with
      | .error ending => ⟨ending, "", w.files, [], []⟩
      | .ok (globals, _) => runCommand w globals command words input := by
  unfold run
  rw [Globals.ofWords_append h]
  cases Globals.ofWords w leading with
  | error ending => rfl
  | ok read =>
    dsimp only [Except.map]
    rw [Except.ok_bind, Command.ofWords, Command.named?_name]
    rfl

/-! ## 3. The words after a command -/

/-- Words after a command ask for a file, of a project if one is named, and perhaps for fixes. -/
def Command.Asks (command : Command) (words : List String) (file : String)
    (project : Option String) (fix : Bool) : Prop :=
  ∃ options, given? (CommandOption.table command) true words = some (options, [file]) ∧
    .help ∉ options ∧ (options.filterMap CommandOption.project?).getLast? = project ∧
    decide (.fix ∈ options) = fix

/-- Only one command has an option that names a file with an earlier inventory. -/
theorem CommandOption.previous_none {command : Command} (hcommand : command ≠ .rules)
    {option : CommandOption} (h : (table command).Gives option) : option.previous? = none := by
  obtain ⟨⟨name, meaning⟩, hentry, hgives⟩ := h
  cases hgives with
  | alone =>
    cases option with
    | previous path => cases command <;> simp [table, ownTable, projectTable] at hentry hcommand
    | _ => rfl
  | valued of s =>
    have hproject : of = .project := by
      cases command <;> simp [table, ownTable, projectTable] at hentry hcommand <;> grind
    rw [hproject]
    rfl

theorem pathIn_eq_ok {w : World} {word : String} {p : PartPath} (h : pathIn w word = .ok p) :
    p = .ofText word := by
  unfold pathIn at h
  split at h
  · cases h
  · exact (Except.ok.inj h).symm
  · split at h
    · exact (Except.ok.inj h).symm
    · cases h

namespace Task

variable {w : World} {command : Command} {words : List String} {file : String}
  {project : Option String} {fix : Bool}

/-- A task that was read is that of the options that were given, about the file that was. -/
theorem of_given {options : List CommandOption}
    (hgiven : given? (CommandOption.table command) true words = some (options, [file]))
    (hhelp : .help ∉ options) {task : Task} (h : ofWords w command words = .ok task) :
    pathIn w file = .ok (.ofText file) ∧ ∃ previous,
      (options.filterMap CommandOption.previous?).getLast?.mapM (pathIn w) = .ok previous ∧
        task = of command options previous (.ofText file) := by
  unfold ofWords at h
  rw [hgiven] at h
  dsimp only at h
  rw [if_neg hhelp] at h
  obtain ⟨previous, hprevious, h⟩ := Except.bind_eq_ok h
  obtain ⟨p, hp, h⟩ := Except.bind_eq_ok h
  obtain rfl := pathIn_eq_ok hp
  exact ⟨hp, previous, hprevious, (Except.ok.inj h).symm⟩

/-- A task that was read is about the file that is asked for, and that is open if it is there. -/
theorem of_ofWords (hasks : command.Asks words file project fix) {task : Task}
    (h : ofWords w command words = .ok task) : pathIn w file = .ok (.ofText file) ∧
      ∃ options previous, task = of command options previous (.ofText file) ∧
        (options.filterMap CommandOption.project?).getLast? = project ∧
        decide (.fix ∈ options) = fix := by
  obtain ⟨options, hgiven, hhelp, hproject, hfix⟩ := hasks
  obtain ⟨hfile, previous, -, htask⟩ := of_given hgiven hhelp h
  exact ⟨hfile, options, previous, htask, hproject, hfix⟩

theorem of_lintWords (hasks : Command.lint.Asks words file project fix) {task : Task}
    (h : ofWords w .lint words = .ok task) : pathIn w file = .ok (.ofText file) ∧
      ∃ write stdin, task = .lint (.ofText file) project fix write stdin := by
  obtain ⟨hfile, options, previous, rfl, rfl, rfl⟩ := of_ofWords hasks h
  exact ⟨hfile, _, _, rfl⟩

theorem of_rulesWords (hasks : Command.rules.Asks words file project fix) {task : Task}
    (h : ofWords w .rules words = .ok task) :
    ∃ previous save, task = .rules (.ofText file) project previous save := by
  obtain ⟨-, options, previous, rfl, rfl, -⟩ := of_ofWords hasks h
  exact ⟨previous, _, rfl⟩

/-- **The words are read** if that file may be, unless an earlier inventory can be asked for. -/
theorem ofWords_given (hcommand : command ≠ .rules) {options : List CommandOption}
    (hgiven : given? (CommandOption.table command) true words = some (options, [file]))
    (hhelp : .help ∉ options) (hfile : pathIn w file = .ok (.ofText file)) :
    ofWords w command words = .ok (of command options none (.ofText file)) := by
  have hgives := gives_of_givenAfter gives_of_none hgiven
  have hprevious : options.filterMap CommandOption.previous? = [] :=
    List.filterMap_eq_nil_iff.mpr fun option hoption =>
      CommandOption.previous_none hcommand (hgives option hoption)
  unfold ofWords
  rw [hgiven]
  dsimp only
  rw [if_neg hhelp, hprevious, List.getLast?_nil, Option.mapM_none, hfile]
  rfl

theorem ofWords_ok (hcommand : command ≠ .rules) (hasks : command.Asks words file project fix)
    (hfile : pathIn w file = .ok (.ofText file)) : ∃ options,
      ofWords w command words = .ok (of command options none (.ofText file)) ∧
        (options.filterMap CommandOption.project?).getLast? = project ∧
        decide (.fix ∈ options) = fix := by
  obtain ⟨options, hgiven, hhelp, hproject, hfix⟩ := hasks
  exact ⟨options, ofWords_given hcommand hgiven hhelp hfile, hproject, hfix⟩

theorem ofWords_locate (hasks : Command.locate.Asks words file project fix)
    (hfile : pathIn w file = .ok (.ofText file)) :
    ofWords w .locate words = .ok (.locate (.ofText file) project) := by
  obtain ⟨options, htask, rfl, -⟩ := ofWords_ok (by decide) hasks hfile
  exact htask

theorem ofWords_context (hasks : Command.context.Asks words file project fix)
    (hfile : pathIn w file = .ok (.ofText file)) :
    ofWords w .context words = .ok (.context (.ofText file) project) := by
  obtain ⟨options, htask, rfl, -⟩ := ofWords_ok (by decide) hasks hfile
  exact htask

theorem ofWords_options (hasks : Command.options.Asks words file project fix)
    (hfile : pathIn w file = .ok (.ofText file)) :
    ofWords w .options words = .ok (.options (.ofText file) fix) := by
  obtain ⟨options, htask, -, rfl⟩ := ofWords_ok (by decide) hasks hfile
  exact htask

end Task

end LintHost.CommandLine
