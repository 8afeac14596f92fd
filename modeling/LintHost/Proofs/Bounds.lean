import LintHost.Proofs.LoadFaults
import Mathlib.Data.List.Perm.Subperm

/-!
# What checking settings enforces

Settings of the right kinds are accepted exactly if nothing is wrong with them, and else all that is
wrong is told, one entry for each violation and section by section. What is compared is whether a
number is below its bound; a NaN is not below anything, and so passes for a number of any size.

* `Binary64.AtLeast`, `Value.AtLeast`: a number is not below a bound, but has its place in the order;
* `Violation`, `Settings.Violates`: what can be wrong, and what is;
* `Settings.Judged`: checking tells just what is wrong;
* `Settings.problems_eq`: what checking finds;
* `Loader.bounds_enforced_iff`: settings are judged except where a NaN is compared or something has
  too many digits to be told.
-/

namespace LintHost

open LintHost.Number (twoTo)
open LintHost.Text (upper)

/-! ## 1. Numbers and their bounds -/

/-- A number is at least the integer `n`; NaN is at least nothing. -/
def Binary64.AtLeast (x : Binary64) (n : Int) : Prop :=
  match x with
  | .nan => False
  | .infinite negative => negative = false
  | .finite negative rank => n * (twoTo 1074 : Nat) ≤ signedUnits negative rank.val

theorem Binary64.ltInt_eq_false_iff {x : Binary64} {n : Int} :
    x.ltInt n = false ↔ x.AtLeast n ∨ x = .nan := by
  cases x with
  | nan => simp [ltInt]
  | infinite negative => simp [ltInt, AtLeast]
  | finite negative rank =>
    rw [ltInt, decide_eq_false_iff_not, Int.not_lt]
    simp only [AtLeast, reduceCtorEq, or_false]

namespace Value

/-- A value is a number and at least an integer. -/
def AtLeast : Value → Int → Prop
  | .bool b, bound => bound ≤ if b then 1 else 0
  | .int n, bound => bound ≤ n
  | .float x, bound => x.AtLeast bound
  | _, _ => False

/-- A value is not below a bound exactly if it is at least that, or a NaN. -/
theorem below_false_iff {v : Value} {bound : Int} :
    Settings.below v bound = .ok false ↔ v.AtLeast bound ∨ v = .float .nan := by
  cases v with
  | bool b => cases b <;> simp [Settings.below, intWorth?, AtLeast]
  | int n => simp [Settings.below, intWorth?, AtLeast]
  | float x => simp [Settings.below, AtLeast, Binary64.ltInt_eq_false_iff]
  | _ => simp [Settings.below, intWorth?, AtLeast]

theorem not_atLeast_nan {bound : Int} : ¬(Value.float .nan).AtLeast bound := id

/-- Whether a value is a truth value. -/
def isFlag : Value → Bool
  | .bool _ => true
  | _ => false

theorem isFlag_iff {v : Value} : v.isFlag = true ↔ ∃ b, v = .bool b := by
  cases v with
  | bool b => exact iff_of_true rfl ⟨b, rfl⟩
  | _ => exact iff_of_false nofun fun ⟨_, h⟩ => nomatch h

end Value

/-! ## 2. Violations -/

/-- Something that can be wrong with settings. -/
inductive Violation
  /-- An option for a truth value holds something else. -/
  | flag (o : Setting)
  /-- An entry of the directories with rules is empty. -/
  | emptyDirectory (place : Nat)
  /-- The program has no name. -/
  | noProgram
  | belowBound (o : Setting) (bound : Int)
  | unknownLevel
deriving DecidableEq

/-- The section that something is wrong in. -/
def Violation.inSection : Violation → Section
  | .flag o | .belowBound o _ => o.inSection
  | .emptyDirectory _ => .policy
  | .noProgram => .engine
  | .unknownLevel => .logging

namespace Settings

/-- The options for truth values that are checked. -/
def flags : List Setting := [.useGlobal, .disableIgnore]

/-- What is wrong with settings. -/
inductive Violates (settings : Settings) : Violation → Prop
  | flag {o : Setting} (ho : o ∈ flags) (h : ∀ b, settings.value o ≠ .bool b) :
    Violates settings (.flag o)
  | emptyDirectory {dirs : List String} {place : Nat}
      (hdirs : settings.value .rulesDirs = .list (dirs.map .text))
      (h : dirs[place]? = some "") : Violates settings (.emptyDirectory place)
  | noProgram (h : settings.value .nodeExecutable = .text "") : Violates settings .noProgram
  | belowBound {o : Setting} {bound : Int} (ho : (o, bound) ∈ bounds)
      (h : ¬(settings.value o).AtLeast bound) : Violates settings (.belowBound o bound)
  | unknownLevel {s : String} (hlevel : settings.value .logLevel = .text s)
      (h : upper s ∉ levels) : Violates settings .unknownLevel

/-- What is told of a violation. -/
def told (settings : Settings) : Violation → String
  | .flag o => o.name ++ " must be a boolean, got " ++ (settings.value o).literal
  | .emptyDirectory _ => Setting.rulesDirs.name ++ " contains an empty entry"
  | .noProgram => Setting.nodeExecutable.name ++ " must not be empty"
  | .belowBound .logMaxBytes _ => "max_bytes too small: " ++ (settings.value .logMaxBytes).shown
  | .belowBound o bound =>
    o.name ++ " must be >= " ++ toString bound ++ ", got " ++ (settings.value o).shown
  | .unknownLevel => "Invalid log level: " ++ (settings.value .logLevel).shown

/-- The end of checking settings with these violations. -/
def verdict (settings : Settings) (found : List Violation) : Except Fault Unit :=
  if found.isEmpty then .ok () else .error (.reported (rejection (found.map settings.told)))

/-- Checking tells just what is wrong: it accepts the settings if that is nothing, and else reports
    each violation by one entry, section by section. -/
def Judged (settings : Settings) : Prop :=
  ∃ found : List Violation, found.Nodup ∧ (∀ v, v ∈ found ↔ settings.Violates v) ∧
    found = Section.all.flatMap (fun s => found.filter (·.inSection = s)) ∧
    settings.check = settings.verdict found

/-- Settings whose options hold what they are declared to, the flags apart, which are checked. -/
structure Kinded (settings : Settings) : Prop where
  routines : settings.gone = []
  directories : ∃ dirs : List String, settings.value .rulesDirs = .list (dirs.map .text)
  program : ∃ s, settings.value .nodeExecutable = .text s
  numbers : ∀ entry ∈ bounds, (settings.value entry.1).isNumber = true
  level : ∃ s, settings.value .logLevel = .text s

/-- Settings with something that cannot be told about them. -/
inductive Untellable (settings : Settings) : Prop
  /-- A number below its bound has too many digits. -/
  | number {o : Setting} {bound n : Int} (ho : (o, bound) ∈ bounds)
      (hvalue : settings.value o = .int n) (hn : n < bound)
      (h : (Value.int n).showable = false)
  /-- What stands for a truth value has too many digits. -/
  | flag {o : Setting} (ho : o ∈ flags) (h : (settings.value o).showable = false)

/-- Settings that checking does not do justice to. -/
inductive Misjudged (settings : Settings) : Prop
  /-- A NaN is held against a bound. -/
  | nan {o : Setting} {bound : Int} (ho : (o, bound) ∈ bounds)
      (h : settings.value o = .float .nan)
  | untellable (h : settings.Untellable)

variable {settings : Settings}

/-! ## 3. What checking finds -/

/-- The directories with rules, if they are a list. -/
def directories (settings : Settings) : List String :=
  (listOf (settings.value .rulesDirs)).toOption.getD []

/-- Whether checking takes notice of a violation. -/
def notices (settings : Settings) : Violation → Bool
  | .flag o => !(settings.value o).isFlag
  | .emptyDirectory place => settings.directories[place]? = some ""
  | .noProgram => !(settings.value .nodeExecutable).truthy
  | .belowBound o bound => (below (settings.value o) bound).toOption.getD false
  | .unknownLevel => (namesLevel (settings.value .logLevel)).toOption.any (!·)

/-- What checking looks for in a section, in order. -/
def soughtIn (settings : Settings) : Section → List Violation
  | .policy => flags.map .flag ++ (List.range settings.directories.length).map .emptyDirectory
  | .engine => [.noProgram, .belowBound .timeout 1]
  | .logging => [.unknownLevel, .belowBound .logMaxBytes 1024, .belowBound .logBackups 0]

/-- What checking finds in a section. -/
def foundIn (settings : Settings) (s : Section) : List Violation :=
  (settings.soughtIn s).filter settings.notices

/-- What checking finds. -/
def found (settings : Settings) : List Violation := Section.all.flatMap settings.foundIn

/-- What is told of violations that are sought, as far as they are noticed. -/
def toldOf (settings : Settings) (sought : List Violation) : List String :=
  (sought.filter settings.notices).map settings.told

theorem toldOf_append (sought more : List Violation) :
    settings.toldOf (sought ++ more) = settings.toldOf sought ++ settings.toldOf more := by
  simp [toldOf]

theorem toldOf_singleton (v : Violation) :
    settings.toldOf [v] = if settings.notices v then [settings.told v] else [] := by
  unfold toldOf
  cases h : settings.notices v <;> simp [h]

theorem boolProblem_eq {o : Setting} (h : (settings.value o).showable = true) :
    settings.boolProblem o = .ok (settings.toldOf [.flag o]) := by
  rw [toldOf_singleton, notices]
  unfold boolProblem
  split
  · rename_i b hb
    rw [hb]
    rfl
  · rename_i hother
    have hflag : (settings.value o).isFlag = false :=
      Bool.eq_false_iff.mpr fun hflag => (Value.isFlag_iff.mp hflag).elim hother
    rw [Value.literal?, if_pos h, hflag]
    rfl

theorem directories_eq {dirs : List String}
    (h : settings.value .rulesDirs = .list (dirs.map .text)) : settings.directories = dirs := by
  unfold directories
  rw [h, listOf_texts]
  rfl

/-- There are as many empty entries as places of empty entries. -/
theorem length_emptyPlaces (dirs : List String) :
    ((List.range dirs.length).filter fun place => dirs[place]? = some "").length =
      (dirs.filter (· = "")).length := by
  induction dirs with
  | nil => rfl
  | cons dir dirs ih =>
    rw [List.length_cons, List.range_succ_eq_map, List.filter_cons, List.filter_map, List.filter_cons]
    by_cases hdir : dir = "" <;> simpa [hdir, Function.comp_def] using ih

theorem emptyDirectories_eq {dirs : List String}
    (h : settings.value .rulesDirs = .list (dirs.map .text)) :
    ((dirs.filter (· = "")).map fun _ => Setting.rulesDirs.name ++ " contains an empty entry") =
      settings.toldOf ((List.range settings.directories.length).map .emptyDirectory) := by
  have htold : settings.told ∘ Violation.emptyDirectory =
    fun _ => Setting.rulesDirs.name ++ " contains an empty entry" := rfl
  have hnotices : settings.notices ∘ Violation.emptyDirectory =
      fun place => decide (dirs[place]? = some "") := by
    funext place
    rw [← directories_eq h]
    rfl
  rw [toldOf, List.filter_map, List.map_map, htold, hnotices, directories_eq h, List.map_const',
    List.map_const', length_emptyPlaces]

theorem below_of_number {v : Value} {bound : Int} (h : v.isNumber = true) :
    ∃ wrong, below v bound = .ok wrong :=
  not_fails_iff.mp fun hfails => Bool.false_ne_true ((below_fails_iff.mp hfails).symm.trans h)

/-- Holding a number against its bound, where what is wrong can be told. -/
theorem boundProblem_eq {α : Type} {f : List String → Except Fault α} {o : Setting} {bound : Int}
    {text : String} (hkinds : settings.Kinded) (htell : ¬settings.Untellable)
    (ho : (o, bound) ∈ bounds)
    (htold : settings.told (.belowBound o bound) = text ++ (settings.value o).shown) :
    (below (settings.value o) bound >>= fun wrong =>
      problemIf wrong ((shownText (settings.value o)).map (text ++ ·)) >>= f) =
      f (settings.toldOf [.belowBound o bound]) := by
  obtain ⟨wrong, hwrong⟩ := below_of_number (hkinds.numbers _ ho)
  have hnotices : settings.notices (.belowBound o bound) = wrong := by
    rw [notices, hwrong]
    rfl
  rw [hwrong, Except.ok_bind, toldOf_singleton, hnotices]
  cases wrong with
  | false => rfl
  | true =>
    have hshown : (settings.value o).showable = true := by
      by_contra h
      obtain ⟨n, hvalue, hn, h⟩ :=
        (below_unshowable_iff hwrong).mp ⟨rfl, Bool.not_eq_true _ ▸ h⟩
      exact htell (.number ho hvalue hn h)
    rw [problemIf, if_pos rfl, shownText, Value.display?, if_pos hshown, if_pos rfl, htold]
    rfl

theorem available_eq (h : settings.gone = []) (r : Routine) : settings.available r = .ok () := by
  rw [available, h, if_neg List.not_mem_nil]

theorem policyProblems_eq (hkinds : settings.Kinded)
    (hflags : ∀ o ∈ flags, (settings.value o).showable = true) :
    settings.policyProblems = .ok (settings.toldOf (settings.soughtIn .policy)) := by
  obtain ⟨dirs, hdirs⟩ := hkinds.directories
  have hfirst := boolProblem_eq (hflags .useGlobal (by decide))
  have hsecond := boolProblem_eq (hflags .disableIgnore (by decide))
  unfold policyProblems
  rw [available_eq hkinds.routines, hfirst, hsecond, hdirs, listOf_texts]
  simp only [Except.ok_bind, emptyDirectories_eq hdirs, ← toldOf_append]
  rfl

theorem engineProblems_eq (hkinds : settings.Kinded) (htell : ¬settings.Untellable) :
    settings.engineProblems = .ok (settings.toldOf (settings.soughtIn .engine)) := by
  have hfirst : problemIf (!(settings.value .nodeExecutable).truthy)
      (.ok "node_executable must not be empty") = .ok (settings.toldOf [.noProgram]) := by
    rw [toldOf_singleton, notices, problemIf]
    split <;> rfl
  unfold engineProblems
  rw [available_eq hkinds.routines, Except.ok_bind, hfirst, Except.ok_bind]
  exact (boundProblem_eq hkinds htell (by decide) rfl).trans
    (congrArg Except.ok (toldOf_append _ _).symm)

/-- Asking for a level, where what stands for it can be told. -/
theorem levelProblem_eq {named : Bool} (hnamed : namesLevel (settings.value .logLevel) = .ok named)
    (hshown : (settings.value .logLevel).showable = true) :
    problemIf (!named) ((shownText (settings.value .logLevel)).map ("Invalid log level: " ++ ·)) =
      .ok (settings.toldOf [.unknownLevel]) := by
  rw [toldOf_singleton, notices, hnamed, problemIf, shownText, Value.display?, if_pos hshown]
  cases named with
  | true => rfl
  | false => rfl

theorem loggingProblems_eq (hkinds : settings.Kinded) (htell : ¬settings.Untellable) :
    settings.loggingProblems = .ok (settings.toldOf (settings.soughtIn .logging)) := by
  obtain ⟨level, hlevel⟩ := hkinds.level
  have hnamed : namesLevel (settings.value .logLevel) = .ok (decide (upper level ∈ levels)) := by
    rw [hlevel, namesLevel]
  have hfirst := levelProblem_eq hnamed (by rw [hlevel]; rfl)
  unfold loggingProblems
  dsimp only
  rw [available_eq hkinds.routines, Except.ok_bind, hnamed, Except.ok_bind, hfirst, Except.ok_bind]
  refine (boundProblem_eq hkinds htell (by decide) rfl).trans ?_
  refine (boundProblem_eq hkinds htell (by decide) rfl).trans ?_
  rw [← toldOf_append, ← toldOf_append]
  rfl

/-- What checking finds in settings is what it notices, section by section. -/
theorem problems_eq (hkinds : settings.Kinded) (htell : ¬settings.Untellable) :
    settings.problems = .ok (settings.found.map settings.told) := by
  unfold problems
  rw [policyProblems_eq hkinds fun o ho => Bool.not_eq_false _ ▸ fun h => htell (.flag ho h),
    engineProblems_eq hkinds htell, loggingProblems_eq hkinds htell]
  simp only [Except.ok_bind, found, foundIn, toldOf, Section.all, List.flatMap_cons,
    List.flatMap_nil, List.append_nil, List.map_append, List.append_assoc]
  rfl

/-! ## 4. What is found -/

theorem mem_found {v : Violation} :
    v ∈ settings.found ↔ ∃ s, v ∈ settings.soughtIn s ∧ settings.notices v = true := by
  have hall (s : Section) : s ∈ Section.all := by cases s <;> decide
  simp only [found, foundIn, List.mem_flatMap, List.mem_filter, hall, true_and]

/-- What is sought at all. -/
theorem sought_iff {v : Violation} : (∃ s, v ∈ settings.soughtIn s) ↔
    match v with
    | .flag o => o ∈ flags
    | .emptyDirectory place => place < settings.directories.length
    | .belowBound o bound => (o, bound) ∈ bounds
    | .noProgram | .unknownLevel => True := by
  have hsections {p : Section → Prop} :
      (∃ s, p s) ↔ p .policy ∨ p .engine ∨ p .logging := by
    constructor
    · rintro ⟨s, h⟩
      cases s with
      | policy => exact .inl h
      | engine => exact .inr (.inl h)
      | logging => exact .inr (.inr h)
    · rintro (h | h | h) <;> exact ⟨_, h⟩
  rw [hsections]
  cases v <;> simp [soughtIn, bounds]

/-- A number is noticed unless it is at least its bound, or no number. -/
theorem notices_bound_iff (hkinds : settings.Kinded) {o : Setting} {bound : Int}
    (ho : (o, bound) ∈ bounds) : settings.notices (.belowBound o bound) = true ↔
      ¬((settings.value o).AtLeast bound ∨ settings.value o = .float .nan) := by
  rw [← Value.below_false_iff, notices]
  obtain ⟨wrong, hwrong⟩ := below_of_number (hkinds.numbers _ ho)
  rw [hwrong, Except.ok.injEq, Bool.not_eq_false]
  rfl

theorem notices_noProgram_iff {program : String}
    (h : settings.value .nodeExecutable = .text program) :
    settings.notices .noProgram = true ↔ program = "" := by
  rw [notices, h, Value.truthy, Bool.not_eq_true', bne_eq_false_iff_eq]

theorem notices_unknownLevel_iff {level : String} (h : settings.value .logLevel = .text level) :
    settings.notices .unknownLevel = true ↔ upper level ∉ levels := by
  rw [notices, h, namesLevel]
  exact Bool.not_eq_true' _ ▸ decide_eq_false_iff_not

/-- Checking finds what is wrong, numbers apart that are no numbers. -/
theorem mem_found_iff (hkinds : settings.Kinded) {v : Violation} :
    v ∈ settings.found ↔ settings.Violates v ∧
      ∀ o bound, v = .belowBound o bound → settings.value o ≠ .float .nan := by
  rw [mem_found, exists_and_right, sought_iff]
  cases v with
  | flag o =>
    rw [notices, Bool.not_eq_true', ← Bool.not_eq_true, Value.isFlag_iff, not_exists]
    exact ⟨fun ⟨ho, h⟩ => ⟨.flag ho h, nofun⟩, fun ⟨.flag ho h, _⟩ => ⟨ho, h⟩⟩
  | emptyDirectory place =>
    obtain ⟨dirs, hdirs⟩ := hkinds.directories
    simp only [notices, directories_eq hdirs, decide_eq_true_eq]
    constructor
    · rintro ⟨-, h⟩
      exact ⟨.emptyDirectory hdirs h, nofun⟩
    · rintro ⟨hviolates, -⟩
      cases hviolates with
      | emptyDirectory hdirs' h =>
        rw [← (directories_eq hdirs).symm.trans (directories_eq hdirs')] at h
        exact ⟨(List.getElem?_eq_some_iff.mp h).1, h⟩
  | noProgram =>
    obtain ⟨program, hprogram⟩ := hkinds.program
    rw [notices_noProgram_iff hprogram, true_and]
    constructor
    · rintro rfl
      exact ⟨.noProgram hprogram, nofun⟩
    · rintro ⟨hviolates, -⟩
      cases hviolates with
      | noProgram h => exact Value.text.inj (hprogram.symm.trans h)
  | belowBound o bound =>
    constructor
    · rintro ⟨ho, h⟩
      have hnot := (notices_bound_iff hkinds ho).mp h
      refine ⟨.belowBound ho (hnot ∘ .inl), fun o' bound' heq hnan => hnot (.inr ?_)⟩
      rwa [(Violation.belowBound.inj heq).1]
    · rintro ⟨hviolates, hnan⟩
      cases hviolates with
      | belowBound ho h =>
        exact ⟨ho, (notices_bound_iff hkinds ho).mpr (not_or.mpr ⟨h, hnan _ _ rfl⟩)⟩
  | unknownLevel =>
    obtain ⟨level, hlevel⟩ := hkinds.level
    rw [notices_unknownLevel_iff hlevel, true_and]
    constructor
    · intro h
      exact ⟨.unknownLevel hlevel h, nofun⟩
    · rintro ⟨hviolates, -⟩
      cases hviolates with
      | unknownLevel hlevel' h => rwa [Value.text.inj (hlevel.symm.trans hlevel')]

/-- What is sought in a section is wrong in that section. -/
theorem inSection_of_sought {s : Section} {v : Violation} (h : v ∈ settings.soughtIn s) :
    v.inSection = s := by
  cases s with
  | policy =>
    rcases List.mem_append.mp h with h | h
    · obtain ⟨o, ho, rfl⟩ := List.mem_map.mp h
      have hflags : ∀ o ∈ flags, o.inSection = .policy := by decide
      exact hflags o ho
    · obtain ⟨place, -, rfl⟩ := List.mem_map.mp h
      rfl
  | engine =>
    revert v
    simp only [soughtIn, List.forall_mem_cons]
    decide
  | logging =>
    revert v
    simp only [soughtIn, List.forall_mem_cons]
    decide

theorem nodup_soughtIn (s : Section) : (settings.soughtIn s).Nodup := by
  cases s with
  | policy =>
    refine List.Nodup.append (by decide) ?_ ?_
    · exact List.nodup_range.map fun _ _ h => Violation.emptyDirectory.inj h
    · intro v hflag hplace
      obtain ⟨_, -, rfl⟩ := List.mem_map.mp hflag
      obtain ⟨_, -, h⟩ := List.mem_map.mp hplace
      cases h
  | engine => exact (by decide : [Violation.noProgram, .belowBound .timeout 1].Nodup)
  | logging =>
    exact (by decide :
      [Violation.unknownLevel, .belowBound .logMaxBytes 1024, .belowBound .logBackups 0].Nodup)

theorem nodup_found (settings : Settings) : settings.found.Nodup := by
  refine List.nodup_flatMap.mpr ⟨fun s _ => (nodup_soughtIn s).filter _, ?_⟩
  have hsections : Section.all.Pairwise (· ≠ ·) := by decide
  refine hsections.imp fun hne v hv hv' => hne ?_
  rw [← inSection_of_sought (List.mem_of_mem_filter hv),
    inSection_of_sought (List.mem_of_mem_filter hv')]

/-- What is found comes section by section. -/
theorem found_sections (settings : Settings) :
    settings.found = Section.all.flatMap fun s => settings.found.filter (·.inSection = s) := by
  have hsection (s : Section) : settings.found.filter (·.inSection = s) = settings.foundIn s := by
    have hother {s' : Section} (hne : s' ≠ s) :
        (settings.foundIn s').filter (·.inSection = s) = [] := by
      refine List.filter_eq_nil_iff.mpr fun v hv h => hne ?_
      rw [← inSection_of_sought (List.mem_of_mem_filter hv), of_decide_eq_true h]
    have hself : (settings.foundIn s).filter (·.inSection = s) = settings.foundIn s :=
      List.filter_eq_self.mpr fun v hv =>
        decide_eq_true (inSection_of_sought (List.mem_of_mem_filter hv))
    rw [found, List.filter_flatMap, Section.all]
    cases s <;> simp [hother, hself]
  simp only [hsection]
  rfl

/-! ## 5. What is judged -/

theorem check_eq (hkinds : settings.Kinded) (htell : ¬settings.Untellable) :
    settings.check = settings.verdict settings.found := by
  unfold check verdict
  rw [problems_eq hkinds htell, Except.ok_bind, List.isEmpty_map]
  rfl

theorem verdict_ne_foreign {found : List Violation} {fault : Fault} (h : ¬fault.Reported) :
    settings.verdict found ≠ .error fault := by
  unfold verdict
  split
  · exact nofun
  · intro heq
    exact h ⟨_, (Except.error.inj heq).symm⟩

/-- The entries of a rejection can be read off its details. -/
theorem rejection_inj {told told' : List String} (h : rejection told = rejection told') :
    told = told' := by
  have hmore := (Failure.configuration.inj h).2.2
  have htexts := (Prod.mk.inj (List.cons.inj hmore).1).2
  exact List.map_injective_iff.mpr (fun _ _ => Json.text.inj) (Json.list.inj htexts)

/-- A verdict tells as many entries as there are violations. -/
theorem length_of_verdict {found found' : List Violation}
    (h : settings.verdict found = settings.verdict found') : found.length = found'.length := by
  unfold verdict at h
  cases found with
  | nil =>
    cases found' with
    | nil => rfl
    | cons _ _ => cases h
  | cons _ _ =>
    cases found' with
    | nil => cases h
    | cons _ _ =>
      have htold := rejection_inj (Fault.reported.inj (Except.error.inj h))
      rw [← List.length_map settings.told, htold, List.length_map]

theorem Untellable.uncheckable (h : settings.Untellable) : settings.Uncheckable := by
  cases h with
  | number ho hvalue hn h => exact .number ho (.inr ⟨_, hvalue, hn, h⟩)
  | flag ho h => exact .flag ho h

/-- Settings are judged unless they are misjudged. -/
theorem judged_iff (hkinds : settings.Kinded) : settings.Judged ↔ ¬settings.Misjudged := by
  constructor
  · rintro ⟨found, hnodup, hmem, -, hcheck⟩ hmisjudged
    by_cases htell : settings.Untellable
    · -- then finding out what is wrong fails, and nothing is reported
      obtain ⟨fault, hfault⟩ := problems_fails_iff.mpr htell.uncheckable
      have hcheck' : settings.check = .error fault := by
        unfold check
        rw [hfault]
        rfl
      exact verdict_ne_foreign (foreign_problems settings fault hfault) (hcheck.symm.trans hcheck')
    · cases hmisjudged with
      | untellable h => exact htell h
      | nan ho hnan =>
        -- no more is found than is wrong, but just as much is told, so the NaN is found as well
        have hlength := length_of_verdict ((check_eq hkinds htell).symm.trans hcheck)
        have hsubset : settings.found ⊆ found :=
          fun v hv => (hmem v).mpr ((mem_found_iff hkinds).mp hv).1
        have hperm := ((nodup_found settings).subperm hsubset).perm_of_length_le
          hlength.ge
        have hviolates := hperm.mem_iff.mpr
          ((hmem _).mpr (.belowBound ho (hnan ▸ Value.not_atLeast_nan)))
        exact ((mem_found_iff hkinds).mp hviolates).2 _ _ rfl hnan
  · intro h
    refine ⟨settings.found, nodup_found settings, fun v => ?_, found_sections settings,
      check_eq hkinds fun htell => h (.untellable htell)⟩
    rw [mem_found_iff hkinds, and_iff_left_iff_imp]
    rintro hviolates o bound rfl hnan
    cases hviolates with
    | belowBound ho _ => exact h (.nan ho hnan)

theorem problemIf_nil {wrong : Bool} {text : Except Fault String}
    (h : problemIf wrong text = .ok []) : wrong = false := by
  cases wrong with
  | false => rfl
  | true => cases text <;> cases h

theorem timeout_of_nil (h : settings.engineProblems = .ok []) :
    below (settings.value .timeout) 1 = .ok false := by
  obtain ⟨-, -, h⟩ := Except.bind_eq_ok h
  obtain ⟨first, -, h⟩ := Except.bind_eq_ok h
  obtain ⟨wrong, hwrong, h⟩ := Except.bind_eq_ok h
  obtain ⟨second, hsecond, h⟩ := Except.bind_eq_ok h
  obtain ⟨-, rfl⟩ := List.append_eq_nil_iff.mp (Except.ok.inj h)
  rw [hwrong, problemIf_nil hsecond]

theorem sizes_of_nil (h : settings.loggingProblems = .ok []) :
    below (settings.value .logMaxBytes) 1024 = .ok false ∧
      below (settings.value .logBackups) 0 = .ok false := by
  obtain ⟨-, -, h⟩ := Except.bind_eq_ok h
  obtain ⟨named, -, h⟩ := Except.bind_eq_ok h
  obtain ⟨first, -, h⟩ := Except.bind_eq_ok h
  obtain ⟨small, hsmall, h⟩ := Except.bind_eq_ok h
  obtain ⟨second, hsecond, h⟩ := Except.bind_eq_ok h
  obtain ⟨few, hfew, h⟩ := Except.bind_eq_ok h
  obtain ⟨third, hthird, h⟩ := Except.bind_eq_ok h
  have hnil : first ++ second ++ third = [] := Except.ok.inj h
  obtain ⟨hfirst, rfl⟩ := List.append_eq_nil_iff.mp hnil
  obtain ⟨-, rfl⟩ := List.append_eq_nil_iff.mp hfirst
  rw [hsmall, hfew, problemIf_nil hsecond, problemIf_nil hthird]
  exact ⟨rfl, rfl⟩

/-- Numbers that were accepted are not below their bounds. -/
theorem bounds_of_check (hcheck : settings.check = .ok ()) {o : Setting} {bound : Int}
    (ho : (o, bound) ∈ bounds) : below (settings.value o) bound = .ok false := by
  obtain ⟨-, hengine, hlogging⟩ := sections_of_check hcheck
  simp only [bounds, List.mem_cons, List.not_mem_nil, or_false, Prod.mk.injEq] at ho
  rcases ho with ⟨rfl, rfl⟩ | ⟨rfl, rfl⟩ | ⟨rfl, rfl⟩
  · exact timeout_of_nil hengine
  · exact (sizes_of_nil hlogging).1
  · exact (sizes_of_nil hlogging).2

end Settings

/-! ## 6. Loaded settings -/

namespace Loader

open LintHost.Settings

variable {w : World}

/-- **Checking judges settings of the right kinds unless a NaN is held against a bound or something
    has too many digits to be told**, and a number that was loaded is at least its bound unless it is
    a NaN. -/
theorem bounds_enforced_iff {settings : Settings} (hkinds : settings.Kinded) :
    (settings.Judged ↔ ¬settings.Misjudged) ∧
      ∀ {request : Request} {loading : Loading} {loaded : Settings},
        ((load request).run w loading).1 = .ok loaded → ∀ entry ∈ bounds,
          ((loaded.value entry.1).AtLeast entry.2 ↔ loaded.value entry.1 ≠ .float .nan) := by
  refine ⟨judged_iff hkinds, fun {request loading loaded} hload entry hentry => ?_⟩
  rw [load_result] at hload
  obtain ⟨settings', -, haccepted⟩ := Except.bind_eq_ok hload
  obtain ⟨hcheck, rfl⟩ := accepted_eq_ok haccepted
  have hbelow := Value.below_false_iff.mp (bounds_of_check hcheck hentry)
  refine ⟨fun h hnan => ?_, fun h => hbelow.resolve_right h⟩
  rw [hnan] at h
  exact Value.not_atLeast_nan h

/-- Settings with an empty entry, no program, no time and a level that is none. -/
def poorSettings : Settings :=
  (((Settings.standard.put .rulesDirs (.list [.text "rules", .text ""])).put
    .nodeExecutable (.text "")).put .timeout (.float .zero)).put .logLevel (.text "loud")

example : poorSettings.found =
    [.emptyDirectory 1, .noProgram, .belowBound .timeout 1, .unknownLevel] := by
  decide +kernel

/-- A machine without files whose environment sets how long a child may take. -/
def timedMachine (time : String) : World :=
  { World.bare with env := [("ESLINT_BRIDGE_ENGINE__TIMEOUT_S", time)] }

/-- The settings that are loaded on such a machine. -/
def timedSettings (time : String) : Settings :=
  Settings.standard.withEnvironment (timedMachine time).env

/-- Such settings are judged, and a timeout that can be loaded is at least its bound. -/
theorem poor_settings_judged : poorSettings.Kinded ∧ poorSettings.Judged ∧
    ((load ⟨none, true, [], none⟩).run (timedMachine "30") (.start (timedMachine "30").env)).1 =
      .ok (timedSettings "30") ∧ ((timedSettings "30").value .timeout).AtLeast 1 := by
  have hkinds : poorSettings.Kinded :=
    ⟨rfl, ⟨["rules", ""], rfl⟩, ⟨_, rfl⟩, by decide, ⟨_, rfl⟩⟩
  have hload : ((load ⟨none, true, [], none⟩).run (timedMachine "30")
      (.start (timedMachine "30").env)).1 = .ok (timedSettings "30") := rfl
  have hbounds {o : Setting} {bound : Int} (ho : (o, bound) ∈ bounds) :
      poorSettings.value o = .float .zero ∨ ∃ n, poorSettings.value o = .int n ∧ bound ≤ n := by
    simp only [bounds, List.mem_cons, List.not_mem_nil, or_false, Prod.mk.injEq] at ho
    rcases ho with ⟨rfl, rfl⟩ | ⟨rfl, rfl⟩ | ⟨rfl, rfl⟩
    · exact .inl rfl
    · exact .inr ⟨_, rfl, by decide⟩
    · exact .inr ⟨_, rfl, by decide⟩
  have hfine : ¬poorSettings.Misjudged := by
    rintro (⟨ho, hnan⟩ | ⟨ho, hvalue, hn, -⟩ | ⟨ho, h⟩)
    · rcases hbounds ho with h | ⟨n, h, -⟩ <;> cases hnan.symm.trans h
    · rcases hbounds ho with h | ⟨n, h, hle⟩
      · cases hvalue.symm.trans h
      · cases hvalue.symm.trans h
        exact absurd hle (Int.not_le.mpr hn)
    · have hflags : ∀ o ∈ flags, (poorSettings.value o).showable = true := by decide
      exact Bool.false_ne_true (h.symm.trans (hflags _ ho))
  have hnumber : (timedSettings "30").value .timeout ≠ .float .nan := by
    intro h
    cases h
  exact ⟨hkinds, (bounds_enforced_iff (w := timedMachine "30") hkinds).1.mpr hfine, hload,
    ((bounds_enforced_iff hkinds).2 hload (.timeout, 1) (by decide)).mpr hnumber⟩

/-- A timeout that is no number is loaded, and is not at least its bound. -/
theorem nan_timeout_loaded :
    ((load ⟨none, true, [], none⟩).run (timedMachine "nan") (.start (timedMachine "nan").env)).1 =
      .ok (timedSettings "nan") ∧
    (timedSettings "nan").Kinded ∧ ¬(timedSettings "nan").Judged ∧
      ¬((timedSettings "nan").value .timeout).AtLeast 1 := by
  have hkinds : (timedSettings "nan").Kinded := ⟨rfl, ⟨[], rfl⟩, ⟨_, rfl⟩, by decide, ⟨_, rfl⟩⟩
  have hnan : (timedSettings "nan").value .timeout = .float .nan := rfl
  have hbound : (Setting.timeout, 1) ∈ bounds := by decide
  refine ⟨rfl, hkinds, fun h => (judged_iff hkinds).mp h (.nan hbound hnan), ?_⟩
  rw [hnan]
  exact Value.not_atLeast_nan

end Loader

end LintHost
