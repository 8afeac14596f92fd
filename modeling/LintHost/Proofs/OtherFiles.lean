import LintHost.Proofs.CommandRun

/-!
# Writing leaves other files alone

Whatever is written at one place, a path that leads to a file at another place leads there as
before: on its way it has met directories and links only, and files are put where a file or nothing
is. So a run keeps every file but the one that it writes and those that its log takes.

* `FileTree.Opens`: a path leads to a file; `FileTree.Retains`: all such files stay;
* `Leads.put_apart`: names that lead to a place, when a file is put elsewhere;
* `Log.retains_open`: setting up the log loses no file;
* `retains_stage`: what comes before the words after a command;
* `Stage.Spares`: telling changes nothing about a path.
-/

namespace LintHost

namespace FileTree

variable {tree later files : FileTree} {follow : Bool} {links : Nat} {here place other : Location}
  {cwd path : String} {names : List String} {spot : Spot} {node : Node} {content : ByteArray}

/-! ## 1. Paths to files -/

/-- A path leads to a file at a place. -/
structure Opens (tree : FileTree) (cwd path : String) (place : Location) (node : Node) : Prop where
  found : tree.find cwd true path = .ok (.taken place node)
  isFile : node.IsFile

theorem read_eq_ok : tree.read cwd path = .ok content ↔
    ∃ place writable, tree.Opens cwd path place (.file content true writable) := by
  constructor
  · intro h
    unfold read stat statWith at h
    cases hfind : tree.find cwd true path with
    | error fault =>
      rw [hfind] at h
      cases h
    | ok spot =>
      rw [hfind] at h
      cases spot with
      | free place => cases h
      | taken place node =>
        cases node with
        | directory | link => cases h
        | file held readable writable =>
          cases readable <;> cases h
          exact ⟨place, writable, hfind, Node.isFile_file _ _ _⟩
  · rintro ⟨place, writable, hfind, -⟩
    unfold read stat statWith
    rw [hfind]
    rfl

theorem read_of_data (h : (tree.read cwd path).toOption.map (·.data) = some content.data) :
    tree.read cwd path = .ok content := by
  obtain ⟨held, hread, hdata⟩ := Option.map_eq_some_iff.mp h
  rw [Except.eq_ok_of_toOption hread, ByteArray.ext hdata]

/-- What is read at a path is up to where it leads. -/
theorem read_of_find (h : later.find cwd true path = tree.find cwd true path) :
    later.read cwd path = tree.read cwd path := by
  unfold read stat statWith
  rw [h]

/-- All files stay where they are, and as they are. -/
def Retains (tree later : FileTree) : Prop :=
  ∀ cwd path place node, tree.Opens cwd path place node → later.Opens cwd path place node

theorem Retains.refl (tree : FileTree) : tree.Retains tree := fun _ _ _ _ h => h

theorem Retains.trans (h : tree.Retains later) (hlater : later.Retains files) :
    tree.Retains files := fun cwd path place node hopens =>
  hlater cwd path place node (h cwd path place node hopens)

theorem Retains.find (h : tree.Retains later) (hread : tree.read cwd path = .ok content) :
    later.find cwd true path = tree.find cwd true path := by
  obtain ⟨place, writable, hopens⟩ := read_eq_ok.mp hread
  rw [(h _ _ _ _ hopens).found, hopens.found]

theorem Retains.read (h : tree.Retains later) (hread : tree.read cwd path = .ok content) :
    later.read cwd path = .ok content := (read_of_find (h.find hread)).trans hread

/-! ## 2. Putting something elsewhere -/

/-- What is told of a spot is what stands there. -/
def Shows (tree : FileTree) : Spot → Prop
  | .taken place node => tree.node? place = some node
  | .free place => tree.node? place = none

theorem Leads.shows (h : tree.Leads follow links here names spot) : tree.Shows spot := by
  induction h with
  | arrived hnode => exact hnode
  | free _ _ hnode => exact hnode
  | lastLink _ _ hnode => exact hnode
  | asked _ _ ih | stay _ _ ih | up _ _ ih | link _ _ _ _ _ ih | down _ _ _ _ _ ih => exact ih

theorem Vacant.of_none (h : tree.node? other = none) : tree.Vacant other := by
  intro node hnode
  rw [h] at hnode
  cases hnode

/-- **Names that lead to a place lead there still** when something is put at another place where a
    file or nothing was. -/
theorem Leads.put_apart (h : tree.Leads follow links here names (.taken place node))
    (hother : tree.Vacant other) (hne : place ≠ other) (new : Node) :
    (tree.put other new).Leads follow links here names (.taken place node) := by
  have hkeeps {here : Location} {found : Node} (h : tree.node? here = some found)
      (hhere : here ≠ other) : (tree.put other new).node? here = some found :=
    (node?_put_other tree hhere new).trans h
  have hdirectory {here : Location} {isOpen : Bool}
      (h : tree.node? here = some (.directory isOpen)) :=
    hkeeps h (hother.ne h (not_isFile_directory _))
  generalize hspot : Spot.taken place node = spot at h
  induction h with
  | arrived hnode =>
    cases hspot
    exact .arrived (hkeeps hnode hne)
  | asked hhere _ ih => exact .asked (hdirectory hhere) (ih hspot)
  | stay hhere _ ih => exact .stay (hdirectory hhere) (ih hspot)
  | up hhere _ ih => exact .up (hdirectory hhere) (ih hspot)
  | free => cases hspot
  | link hhere hname hnode hfollow _ ih =>
    exact .link (hdirectory hhere) hname
      (hkeeps hnode (hother.ne hnode (not_isFile_link _))) hfollow (ih hspot)
  | lastLink hhere hname hnode hfollow =>
    cases hspot
    exact .lastLink (hdirectory hhere) hname (hkeeps hnode hne) hfollow
  | down hhere hname hnode hlink hrest ih =>
    subst hspot
    refine .down (hdirectory hhere) hname (hkeeps hnode ?_) hlink (ih rfl)
    -- A file is no way to anything but itself.
    rintro rfl
    obtain ⟨held, readable, writable, rfl⟩ := hother _ hnode
    cases hrest with
    | arrived => exact hne rfl
    | asked hfile | stay hfile | up hfile | link hfile | lastLink hfile | down hfile =>
      rw [hnode] at hfile
      cases hfile

theorem Opens.stands (h : tree.Opens cwd path place node) : tree.node? place = some node := by
  obtain ⟨names, hleads, -⟩ := find_leads h.found
  exact hleads.shows

theorem Opens.put_apart (h : tree.Opens cwd path place node) (hother : tree.Vacant other)
    (hne : place ≠ other) (new : Node) : (tree.put other new).Opens cwd path place node := by
  obtain ⟨names, hleads, hfind⟩ := find_leads h.found
  exact ⟨hfind (hleads.put_apart hother hne new), h.isFile⟩

/-- Where nothing was, no file is lost. -/
theorem retains_put_free (h : tree.node? other = none) (new : Node) :
    tree.Retains (tree.put other new) := by
  intro cwd path place node hopens
  refine hopens.put_apart (.of_none h) ?_ new
  rintro rfl
  rw [hopens.stands] at h
  cases h

/-- Where a file is, the same sheet is found again. -/
theorem writable_of_opens {readable : Bool}
    (h : tree.Opens cwd path place (.file content readable true)) :
    tree.writable cwd path = .ok ⟨place, content, readable⟩ := by
  unfold writable
  rw [h.found]

/-- A file that may be written stands at its sheet's place, unless nothing is there. -/
theorem writable_cases {sheet : Sheet} (h : tree.writable cwd path = .ok sheet) :
    tree.Opens cwd path sheet.place (.file sheet.content sheet.readable true) ∨
      tree.node? sheet.place = none ∧ sheet.content = .empty := by
  obtain ⟨spot, hfind, hspot⟩ := writable_eq_ok.mp h
  cases spot with
  | taken place node =>
    obtain ⟨rfl, rfl⟩ := hspot
    exact .inl ⟨hfind, Node.isFile_file _ _ _⟩
  | free place =>
    obtain rfl : sheet = _ := hspot
    obtain ⟨names, hleads, -⟩ := find_leads hfind
    exact .inr ⟨hleads.shows, rfl⟩

/-- Names lead to the same spot wherever the same nodes stand. -/
theorem Leads.of_nodes (h : tree.Leads follow links here names spot)
    (hsame : ∀ place, later.node? place = tree.node? place) :
    later.Leads follow links here names spot := by
  induction h with
  | arrived hnode => exact .arrived ((hsame _).trans hnode)
  | asked hhere _ ih => exact .asked ((hsame _).trans hhere) ih
  | stay hhere _ ih => exact .stay ((hsame _).trans hhere) ih
  | up hhere _ ih => exact .up ((hsame _).trans hhere) ih
  | free hhere hname hnode => exact .free ((hsame _).trans hhere) hname ((hsame _).trans hnode)
  | link hhere hname hnode hfollow _ ih =>
    exact .link ((hsame _).trans hhere) hname ((hsame _).trans hnode) hfollow ih
  | lastLink hhere hname hnode hfollow =>
    exact .lastLink ((hsame _).trans hhere) hname ((hsame _).trans hnode) hfollow
  | down hhere hname hnode hlink _ ih =>
    exact .down ((hsame _).trans hhere) hname ((hsame _).trans hnode) hlink ih

/-- No file is lost where what stands at a place is put there again. -/
theorem retains_put_same (h : tree.node? other = some node) : tree.Retains (tree.put other node) := by
  have hsame (place : Location) : (tree.put other node).node? place = tree.node? place := by
    by_cases hplace : place = other
    · rw [hplace, node?_put_self, h]
    · exact node?_put_other tree hplace node
  intro cwd path place held hopens
  obtain ⟨names, hleads, hfind⟩ := find_leads hopens.found
  exact ⟨hfind (hleads.of_nodes hsame), hopens.isFile⟩

/-- Adding nothing to a file changes none. -/
theorem retains_extend_nothing (h : tree.extend cwd path .empty = .ok later) :
    tree.Retains later := by
  obtain ⟨sheet, hsheet, rfl⟩ := extend_eq_ok.mp h
  unfold fill
  rw [ByteArray.append_empty]
  rcases writable_cases hsheet with hopens | ⟨hnone, -⟩
  · exact retains_put_same hopens.stands
  · exact retains_put_free hnone _

theorem retains_makeDirectory (h : tree.makeDirectory cwd path = .ok later) :
    tree.Retains later := by
  unfold makeDirectory at h
  split at h
  · cases h
  · rename_i hfind
    cases h
    obtain ⟨names, hleads, -⟩ := find_leads hfind
    exact retains_put_free hleads.shows _
  · cases h

theorem keepDirectory_eq_ok {fault : LookupFault}
    (h : tree.keepDirectory cwd path fault = .ok later) : later = tree := by
  unfold keepDirectory at h
  split at h
  · cases h
    rfl
  · cases h
  · cases h

/-- Directories are made where nothing is. -/
theorem retains_makeDirectories : ∀ {fuel : Nat} {p : PartPath} {tree later : FileTree},
    makeDirectories cwd fuel p tree = .ok later → tree.Retains later
  | fuel, p, tree, later, h => by
    unfold makeDirectories at h
    split at h
    · cases h
      exact retains_makeDirectory ‹_›
    · cases h
    · split at h
      · cases h
      · rename_i fuel
        split at h
        · cases h
        · obtain ⟨above, habove, h⟩ := Except.bind_eq_ok h
          have hretains := retains_makeDirectories habove
          split at h
          · cases h
            exact hretains.trans (retains_makeDirectory ‹_›)
          · rw [keepDirectory_eq_ok h]
            exact hretains
    · rw [keepDirectory_eq_ok h]
      exact .refl tree
termination_by fuel => fuel

end FileTree

/-! ## 3. The log -/

namespace Log

open FileTree

variable {w : World} {files : FileTree} {path : String} {setup : Setup}

/-- Opening a log file makes the directories above it and adds nothing to it. -/
theorem of_openFile {maxBytes : Value} {whole : String}
    (h : openFile w path maxBytes = .ok (whole, files)) : ∃ fuel p made,
      w.files.makeDirectories w.cwd fuel p = .ok made ∧
        made.extend w.cwd whole .empty = .ok files := by
  unfold openFile at h
  dsimp only at h
  split at h
  · rename_i made hmade
    obtain ⟨files', hfiles, h⟩ := Except.bind_eq_ok h
    obtain ⟨-, -, h⟩ := Except.bind_eq_ok h
    obtain ⟨later, hextend, h⟩ := Except.bind_eq_ok h
    obtain ⟨hwhole, hlater⟩ := Prod.mk.inj (Except.ok.inj h)
    obtain rfl := Except.ok.inj hfiles
    rw [hwhole, hlater] at hextend
    exact ⟨_, _, made, hmade, LookupFault.lift_eq_ok.mp hextend⟩
  · cases h

/-- **Setting up a log loses no file.** -/
theorem retains_open {level given console maxBytes backupCount : Value}
    (h : open? w level given console maxBytes backupCount = .ok (setup, files)) :
    w.files.Retains files := by
  unfold open? at h
  obtain ⟨number, -, h⟩ := Except.bind_eq_ok h
  dsimp only at h
  split at h
  · cases h
    exact .refl _
  · split at h
    · obtain ⟨⟨whole, opened⟩, hopen, h⟩ := Except.bind_eq_ok h
      cases h
      obtain ⟨fuel, p, made, hmade, hextended⟩ := of_openFile hopen
      have hdirectories := retains_makeDirectories hmade
      exact hdirectories.trans (retains_extend_nothing hextended)
    · cases h

end Log

/-! ## 4. Before the words after a command -/

namespace CommandLine

open FileTree

variable {w : World} {globals : Globals} {leading : List String} {ready : Stage}

theorem retains_prepare {settings : Settings} {outcome after : Outcome}
    {prepared : Except Fault Prepared} (h : prepare w settings outcome = (prepared, after))
    (hfiles : outcome.files = w.files) : w.files.Retains after.files := by
  unfold prepare at h
  split at h
  · cases h
    rw [hfiles]
    exact .refl _
  · rename_i setup files hopen
    cases h
    exact Log.retains_open hopen

/-- **What comes before the words after a command loses no file**, and neither does a run that ends
    there. -/
theorem retains_stage (globals : Globals) : match stage w globals with
    | .ok ready => w.files.Retains ready.world.files
    | .error outcome => w.files.Retains outcome.files := by
  have hstaged := staged (w := w) globals
  generalize stage w globals = reached at hstaged ⊢
  cases hstaged with
  | unsettled fault logged => exact .refl _
  | unprepared hprepare =>
    have hretains := retains_prepare hprepare rfl
    exact hretains
  | ready hprepare =>
    have hretains := retains_prepare hprepare rfl
    exact hretains

theorem Reaches.retains (h : Reaches w leading ready) : w.files.Retains ready.world.files := by
  obtain ⟨globals, rest, -, hstage⟩ := h
  have hretains := retains_stage (w := w) globals
  rw [hstage] at hretains
  exact hretains

/-- A run comes to a stage, or it starts nothing and loses no file. -/
theorem reaches_or_ends {leading : List String} (hleading : Leading leading) (command : Command)
    (words : List String) (input : String) :
    (∃ ready, Reaches w leading ready) ∨
      (run w (leading ++ command.name :: words) input).started = [] ∧
        w.files.Retains (run w (leading ++ command.name :: words) input).files := by
  rw [run_command hleading]
  cases hglobals : Globals.ofWords w leading with
  | error ending => exact .inr ⟨rfl, .refl _⟩
  | ok read =>
    obtain ⟨globals, rest⟩ := read
    have hretains := retains_stage (w := w) globals
    dsimp only
    rw [runCommand_eq]
    cases hstage : stage w globals with
    | error outcome =>
      rw [hstage] at hretains
      exact .inr ⟨stage_error hstage, hretains⟩
    | ok ready => exact .inl ⟨ready, globals, rest, hglobals, hstage⟩

/-- Telling changes nothing about a path: whatever is told, it leads where it has led. The log is
    not kept in the file there, and no full one is moved to the path or to anything on its way. -/
def Stage.Spares (ready : Stage) (path : String) : Prop :=
  ∀ records, (ready.world.after ready.prepared.setup records).files.find ready.world.cwd true path =
    ready.world.files.find ready.world.cwd true path

theorem Stage.spares_of_unlogged (h : ready.prepared.setup.file = none) (path : String) :
    ready.Spares path := by
  intro records
  rw [World.after_of_none h]

/-- The words in front of a command let a run keep a log in a file, as far as it comes. -/
def keepsLog (w : World) (leading : List String) : Bool :=
  match Globals.ofWords w leading with
  | .error _ => false
  | .ok (globals, _) =>
    match stage w globals with
    | .error _ => false
    | .ok ready => ready.prepared.setup.file.isSome

theorem Reaches.unlogged (h : Reaches w leading ready) (hno : keepsLog w leading = false) :
    ready.prepared.setup.file = none := by
  obtain ⟨globals, rest, hglobals, hstage⟩ := h
  unfold keepsLog at hno
  rw [hglobals] at hno
  dsimp only at hno
  rw [hstage] at hno
  exact Option.isSome_eq_false_iff.mp hno |> Option.isNone_iff_eq_none.mp

end CommandLine

end LintHost
