import LintHost.Proofs.ConfigSearch
import LintHost.Proofs.OtherFiles
import LintHost.Proofs.Steady

/-!
# A log that nothing looks into

Of most files resolving asks only whether they are there; it looks into manifests alone. What is
told changes nothing but what the log file holds, as long as that is not moved away when it is full.
So it changes no answer, unless a path to a manifest leads to the log.

* `FileTree.Refilled`: trees that differ in nothing but what one file holds;
* `Refilled.find`: a path leads to the same in both, or to that file; `Refilled.exists?` and its
  like: what is asked about a path is answered alike;
* `Log.kept_refilled`: records do nothing else to the files;
* `settled_of_unread`: so they change no answer;
* `Reaches.spares`, `Reaches.settled`: so it is in a run, whose log is there from the start.
-/

namespace LintHost

open LintHost.Path LintHost.Text

namespace FileTree

variable {tree later : FileTree} {log : Location} {follow : Bool} {cwd path : String}

/-! ## 1. One file with something else in it -/

/-- Nothing is different but what the file at a place holds. It may be written in both trees. -/
structure Refilled (tree : FileTree) (log : Location) (readable : Bool) (later : FileTree) :
    Prop where
  before : ∃ content, tree.node? log = some (.file content readable true)
  after : ∃ content, later.node? log = some (.file content readable true)
  others : ∀ place, place ≠ log → later.node? place = tree.node? place

/-- Two lookups come to the same, or both come to the file at a place. -/
inductive Coincide (log : Location) (readable : Bool) :
    Except LookupFault Spot → Except LookupFault Spot → Prop
  | same (reached : Except LookupFault Spot) : Coincide log readable reached reached
  | there (old new : ByteArray) : Coincide log readable (.ok (.taken log (.file old readable true)))
      (.ok (.taken log (.file new readable true)))

theorem Coincide.ite {readable : Bool} {p : Prop} [Decidable p]
    {here there here' there' : Except LookupFault Spot} (hthen : Coincide log readable here there)
    (helse : Coincide log readable here' there') :
    Coincide log readable (if p then here else here') (if p then there else there') := by
  split
  · exact hthen
  · exact helse

namespace Refilled

variable {readable : Bool} (h : tree.Refilled log readable later)
include h

theorem walkWith {jump jump' : Location → List String → Except LookupFault Spot}
    (hjump : ∀ here names, Coincide log readable (jump here names) (jump' here names)) :
    ∀ (names : List String) (here : Location), Coincide log readable
      (tree.walkWith jump follow here names) (later.walkWith jump' follow here names)
  | [], here => by
    unfold FileTree.walkWith
    by_cases hhere : here = log
    · obtain ⟨old, hold⟩ := h.before
      obtain ⟨new, hnew⟩ := h.after
      rw [hhere, hold, hnew]
      exact .there old new
    · rw [h.others here hhere]
      exact .same _
  | name :: rest, here => by
    have ih := walkWith hjump rest
    unfold FileTree.walkWith
    by_cases hhere : here = log
    · obtain ⟨old, hold⟩ := h.before
      obtain ⟨new, hnew⟩ := h.after
      rw [hhere, hold, hnew]
      exact .same _
    · rw [h.others here hhere]
      cases hnode : tree.node? here with
      | none => exact .same _
      | some node =>
        cases node with
        | file | link => exact .same _
        | directory isOpen =>
          refine .ite (ih here) (.ite (.same _) (.ite (ih here) (.ite (ih here.dropLast)
            (.ite (.same _) ?_))))
          by_cases hnext : here ++ [name] = log
          · obtain ⟨old, hold⟩ := h.before
            obtain ⟨new, hnew⟩ := h.after
            rw [hnext, hold, hnew]
            exact ih log
          · rw [h.others _ hnext]
            cases tree.node? (here ++ [name]) with
            | none => exact .same _
            | some next =>
              cases next with
              | file | directory => exact ih _
              | link target => exact .ite (.same _) (hjump _ _)

theorem walk : ∀ (links : Nat) (here : Location) (names : List String), Coincide log readable
    (tree.walk follow links here names) (later.walk follow links here names)
  | 0, here, names => h.walkWith (fun _ _ => .same _) names here
  | links + 1, here, names => h.walkWith (walk links) names here

theorem find (cwd : String) (follow : Bool) (path : String) : Coincide log readable
    (tree.find cwd follow path) (later.find cwd follow path) := by
  unfold FileTree.find
  exact .ite (.same _) (.ite (.same _) (.ite (.same _) (h.walk _ _ _)))

/-! ## 2. What is asked about a path -/

theorem exists? (cwd path : String) : later.exists? cwd path = tree.exists? cwd path := by
  have hends := h.find cwd true path
  unfold FileTree.exists? stat statWith
  generalize tree.find cwd true path = reached, later.find cwd true path = reached' at hends ⊢
  cases hends <;> rfl

theorem isFile? (cwd path : String) : later.isFile? cwd path = tree.isFile? cwd path := by
  have hends := h.find cwd true path
  unfold FileTree.isFile? stat statWith
  generalize tree.find cwd true path = reached, later.find cwd true path = reached' at hends ⊢
  cases hends <;> rfl

theorem isDirectory (cwd path : String) :
    later.isDirectory cwd path = tree.isDirectory cwd path := by
  have hends := h.find cwd true path
  unfold FileTree.isDirectory stat statWith
  generalize tree.find cwd true path = reached, later.find cwd true path = reached' at hends ⊢
  cases hends <;> rfl

theorem target? (cwd : String) (path : List Char) :
    RealPath.target? later cwd path = RealPath.target? tree cwd path := by
  have hends := h.find cwd false (String.ofList path)
  unfold RealPath.target? lstat statWith
  generalize tree.find cwd false (String.ofList path) = reached,
    later.find cwd false (String.ofList path) = reached' at hends ⊢
  cases hends <;> rfl

theorem followWith (cwd : String)
    (jump : List Char → RealPath.Seen → List Char → Except RealPath.Fault RealPath.Progress) :
    ∀ names path seen, RealPath.followWith jump later cwd path seen names =
      RealPath.followWith jump tree cwd path seen names
  | [], _, _ => rfl
  | name :: rest, path, seen => by
    unfold RealPath.followWith
    simp only [h.target?, followWith cwd jump rest]

theorem followed (cwd : String) : ∀ depth,
    RealPath.follow later cwd depth = RealPath.follow tree cwd depth
  | 0 => rfl
  | depth + 1 => by
    funext path seen rest
    unfold RealPath.follow
    rw [followed cwd depth, h.followWith, h.followWith]

theorem resolve (cwd : String) (p : PartPath) : later.resolve cwd p = tree.resolve cwd p := by
  unfold FileTree.resolve
  rw [h.followed]
  refine bind_congr fun progress => ?_
  have hend (stopped : List Char) := h.find cwd true (absolute cwd (String.ofList stopped))
  cases progress with
  | done stopped | circle stopped =>
    have hends := hend stopped
    dsimp only [bind, Except.bind, pure, Except.pure]
    unfold stat statWith
    generalize tree.find cwd true (absolute cwd (String.ofList stopped)) = reached,
      later.find cwd true (absolute cwd (String.ofList stopped)) = reached' at hends ⊢
    cases hends <;> rfl

theorem search (cwd : String) (names : List String) (directory : PartPath) :
    Finder.search later cwd names directory = Finder.search tree cwd names directory := by
  refine Finder.firstSome_congr fun p _ => Finder.firstSome_congr fun name _ => ?_
  unfold Finder.probe
  rw [h.exists?]

/-- **Another path leads to what it has led to.** -/
theorem find_other (hother : ∀ node, tree.find cwd true path ≠ .ok (.taken log node)) :
    later.find cwd true path = tree.find cwd true path := by
  have hends := h.find cwd true path
  generalize tree.find cwd true path = reached, later.find cwd true path = reached'
    at hends hother ⊢
  cases hends with
  | same => rfl
  | there old new => exact absurd rfl (hother _)

end Refilled

/-! ## 3. Adding to the file -/

/-- A file that may be written, as it is. -/
theorem Refilled.refl {content : ByteArray} {readable : Bool}
    (h : tree.node? log = some (.file content readable true)) : tree.Refilled log readable tree :=
  ⟨⟨content, h⟩, ⟨content, h⟩, fun _ _ => rfl⟩

/-- **Adding to the file** does nothing else. -/
theorem Refilled.extend {readable : Bool} {content more : ByteArray} {files : FileTree}
    (h : tree.Refilled log readable later)
    (hopens : tree.Opens cwd path log (.file content readable true))
    (hextend : later.extend cwd path more = .ok files) : tree.Refilled log readable files := by
  obtain ⟨sheet, hsheet, rfl⟩ := extend_eq_ok.mp hextend
  obtain ⟨held, hfind⟩ :
      ∃ held, later.find cwd true path = .ok (.taken log (.file held readable true)) := by
    have hends := h.find cwd true path
    rw [hopens.found] at hends
    generalize later.find cwd true path = reached at hends ⊢
    cases hends with
    | same => exact ⟨content, rfl⟩
    | there old new => exact ⟨new, rfl⟩
  unfold writable at hsheet
  rw [hfind] at hsheet
  obtain rfl := Except.ok.inj hsheet
  exact ⟨h.before, ⟨_, node?_put_self _ _ _⟩, fun other hother =>
    (node?_put_other later hother _).trans (h.others other hother)⟩

end FileTree

/-! ## 4. Records -/

namespace Log

open FileTree

variable {tree later : FileTree} {place : Location} {readable : Bool} {content : ByteArray}
  {cwd : String} {file : File}

/-- The log is not moved away when it is full: it is never full, or no full ones are kept. -/
def File.Stays (file : File) : Prop :=
  (∀ size, reaches size file.maxBytes = false) ∨ ∀ count, backupsOf? file.backupCount = some count →
    count = 0

/-- A log that is not moved away takes a line, or it drops it. -/
theorem File.keep_stays (h : file.Stays) (cwd : String) (tree : FileTree) (line : String) :
    file.keep cwd tree line = tree ∨ ∃ made, tree.extend cwd file.path .empty = .ok made ∧
      (file.keep cwd tree line = made ∨
        made.extend cwd file.path (Text.encode line) = .ok (file.keep cwd tree line)) := by
  have hadd (made : FileTree) : file.add cwd made line = made ∨
      made.extend cwd file.path (Text.encode line) = .ok (file.add cwd made line) := by
    unfold add
    cases made.extend cwd file.path (Text.encode line) with
    | error fault => exact .inl rfl
    | ok later => exact .inr rfl
  unfold keep
  cases hmade : tree.extend cwd file.path .empty with
  | error fault => exact .inl rfl
  | ok made =>
    refine .inr ⟨made, rfl, ?_⟩
    dsimp only
    split
    · rename_i hfull
      cases hcount : backupsOf? file.backupCount with
      | none => exact .inl rfl
      | some count =>
        rcases h with hnever | hnone
        · unfold full at hfull
          split at hfull
          · rw [hnever] at hfull
            cases hfull
          · cases hfull
        · obtain rfl := hnone count hcount
          exact hadd made
    · exact hadd made

theorem File.keep_refilled (hstays : file.Stays)
    (hopens : tree.Opens cwd file.path place (.file content readable true))
    (h : tree.Refilled place readable later) (line : String) :
    tree.Refilled place readable (file.keep cwd later line) := by
  rcases file.keep_stays hstays cwd later line with hsame | ⟨made, hmade, hsame | hadded⟩
  · rw [hsame]
    exact h
  · rw [hsame]
    exact h.extend hopens hmade
  · exact (h.extend hopens hmade).extend hopens hadded

/-- **Records change nothing** but what the log holds, if it is not moved away. -/
theorem kept_refilled (setup : Setup) (hstays : file.Stays)
    (hopens : tree.Opens cwd file.path place (.file content readable true))
    (stamp : List Record → Record → Stamp) : ∀ (records earlier : List Record) {later : FileTree},
      tree.Refilled place readable later →
      tree.Refilled place readable (setup.kept file cwd stamp later earlier records)
  | [], _, _, h => h
  | r :: records, earlier, later, h => by
    rw [Setup.kept]
    split
    · exact kept_refilled setup hstays hopens stamp records _ (File.keep_refilled hstays hopens h _)
    · exact kept_refilled setup hstays hopens stamp records _ h

end Log

/-! ## 5. Answers -/

variable {w : World} {m : Machine} {later : FileTree} {log : Location} {readable : Bool}

/-- No path to a manifest leads to a place. -/
def World.Unread (w : World) (log : Location) : Prop :=
  ∀ p : PartPath, p.name? = some ConfigFile.manifestName.toList → ∀ node,
    w.files.find w.cwd true p.text ≠ .ok (.taken log node)

theorem World.Unread.loadJson (hunread : w.Unread log) (h : w.files.Refilled log readable later)
    {p : PartPath} (hp : p.name? = some ConfigFile.manifestName.toList) :
    ({ w with files := later } : World).loadJson p = w.loadJson p := by
  unfold World.loadJson
  rw [FileTree.read_of_find (h.find_other (hunread p hp))]

/-- **A world whose log holds something else answers as before**, if the log is no manifest. -/
theorem World.Unread.answersAs (hunread : w.Unread log)
    (h : w.files.Refilled log readable later) (policy : Policy) :
    ({ w with files := later } : World).AnswersAs w policy where
  searched := fun names _ directory => h.search w.cwd names directory
  embeds := fun path hpath => by
    unfold ConfigFile.embeds
    rw [hunread.loadJson h (PartPath.name?_of_base ConfigFile.isName_manifestName.toIsEntry hpath)]
  global := fun under => by
    unfold Package.globalCandidate World.isDirectory
    dsimp only
    rw [h.isDirectory]
  present := fun expected => by
    unfold Package.present? World.isDirectory
    simp only [h.isDirectory]
  loads := fun found => by
    have hmanifest (p : PartPath) :
        ({ w with files := later } : World).loadJson (p.entry Package.manifestName) =
          w.loadJson (p.entry Package.manifestName) :=
      hunread.loadJson h (p.name?_entry ConfigFile.isName_manifestName)
    have hfile (p : PartPath) :
        Package.isFile { w with files := later } p = Package.isFile w p := by
      unfold Package.isFile
      rw [h.isFile?]
    unfold Package.loadFrom Package.entryExists
    simp only [hmanifest, hfile]
  tools := fun directory => by
    unfold NodeTools.bundled NodeTools.directory NodeTools.standard
    simp only [h.resolve]

/-- **A log in a file of its own changes no answer**, if it is not moved away when it is full. -/
theorem settled_of_unread {file : Log.File} (hfile : m.setup.file = some file)
    (hstays : file.Stays) {content : ByteArray}
    (hopens : m.world.files.Opens m.world.cwd file.path log (.file content readable true))
    (hunread : m.world.Unread log) (policy : Policy) : Settled policy m := by
  intro records
  unfold World.after
  rw [hfile]
  have hkept := Log.kept_refilled m.setup hstays hopens m.world.stamp records []
    (.refl hopens.stands)
  exact hunread.answersAs hkept policy

/-! ## 6. Runs -/

/-- Two paths lead to one file. -/
def FileTree.SameFile (tree : FileTree) (cwd path other : String) : Prop :=
  ∃ place node, tree.Opens cwd path place node ∧ tree.Opens cwd other place node

/-- A log file that was opened is there, and it may be written. -/
theorem Log.opens_open? {level given console maxBytes backupCount : Value} {setup : Setup}
    {files : FileTree} {file : File}
    (h : open? w level given console maxBytes backupCount = .ok (setup, files))
    (hfile : setup.file = some file) : ∃ place content readable,
      files.Opens w.cwd file.path place (.file content readable true) := by
  unfold open? at h
  obtain ⟨number, -, h⟩ := Except.bind_eq_ok h
  dsimp only at h
  split at h
  · cases h
    cases hfile
  · split at h
    · obtain ⟨⟨whole, opened⟩, hopen, h⟩ := Except.bind_eq_ok h
      cases h
      cases hfile
      obtain ⟨fuel, p, made, -, hextended⟩ := of_openFile hopen
      obtain ⟨sheet, hsheet, rfl⟩ := FileTree.extend_eq_ok.mp hextended
      exact ⟨_, _, _, FileTree.find_fill hsheet _, Node.isFile_file _ _ _⟩
    · cases h

namespace CommandLine

variable {leading : List String} {ready : Stage}

theorem opens_prepare {settings : Settings} {outcome after : Outcome} {prepared : Prepared}
    (h : prepare w settings outcome = (.ok prepared, after)) {file : Log.File}
    (hfile : prepared.setup.file = some file) : ∃ place content readable,
      after.files.Opens w.cwd file.path place (.file content readable true) := by
  unfold prepare at h
  split at h
  · cases h
  · rename_i setup files hopen
    obtain ⟨hprepared, rfl⟩ := Prod.mk.inj h
    obtain ⟨policy, -, hprepared⟩ := Except.bind_eq_ok hprepared
    obtain ⟨context, -, hprepared⟩ := Except.bind_eq_ok hprepared
    cases hprepared
    exact Log.opens_open? hopen hfile

/-- The log of a run is there from the start. -/
theorem Reaches.log_there (h : Reaches w leading ready) {file : Log.File}
    (hfile : ready.prepared.setup.file = some file) : ∃ place content readable,
      ready.world.files.Opens ready.world.cwd file.path place (.file content readable true) := by
  obtain ⟨globals, rest, -, hstage⟩ := h
  have hstaged := staged (w := w) globals
  rw [hstage] at hstaged
  cases hstaged with
  | ready hprepare =>
    have hopens := opens_prepare hprepare hfile
    exact hopens

/-- The log is not moved away when it is full. -/
def Stage.LogStays (ready : Stage) : Prop :=
  ∀ file, ready.prepared.setup.file = some file → file.Stays

/-- A path does not lead to the log. -/
def Stage.LogApart (ready : Stage) (path : String) : Prop :=
  ∀ file, ready.prepared.setup.file = some file →
    ¬ready.world.files.SameFile ready.world.cwd file.path path

theorem Stage.LogApart.find_ne {path : String} (hapart : ready.LogApart path) {file : Log.File}
    (hfile : ready.prepared.setup.file = some file) {place : Location} {content : ByteArray}
    (hopens : ready.world.files.Opens ready.world.cwd file.path place
      (.file content readable true)) (node : Node) :
    ready.world.files.find ready.world.cwd true path ≠ .ok (.taken place node) := by
  intro hfind
  obtain ⟨names, hleads, -⟩ := FileTree.find_leads hfind
  obtain rfl := Option.some.inj (hopens.stands.symm.trans hleads.shows)
  exact hapart file hfile ⟨place, _, hopens, hfind, Node.isFile_file _ _ _⟩

/-- **A log that stays, and that a path does not lead to,** changes nothing about the path. -/
theorem Reaches.spares (h : Reaches w leading ready) (hstays : ready.LogStays) {path : String}
    (hapart : ready.LogApart path) : ready.Spares path := by
  intro records
  cases hfile : ready.prepared.setup.file with
  | none => rw [World.after_of_none hfile]
  | some file =>
    obtain ⟨place, content, readable, hopens⟩ := h.log_there hfile
    have hkept := Log.kept_refilled ready.prepared.setup (hstays file hfile) hopens
      ready.world.stamp records [] (.refl hopens.stands)
    unfold World.after
    rw [hfile]
    exact hkept.find_other (hapart.find_ne hfile hopens)

/-- **A log that stays, and that no path to a manifest leads to,** changes no answer. -/
theorem Reaches.settled (h : Reaches w leading ready) (hstays : ready.LogStays)
    (hapart : ∀ p : PartPath, p.name? = some ConfigFile.manifestName.toList →
      ready.LogApart p.text) (policy : Policy) : Settled policy ready.machine := by
  cases hfile : ready.prepared.setup.file with
  | none => exact settled_of_unlogged hfile policy
  | some file =>
    obtain ⟨place, content, readable, hopens⟩ := h.log_there hfile
    have hunread : ready.world.Unread place := fun p hp node =>
      (hapart p hp).find_ne hfile hopens node
    exact settled_of_unread (m := ready.machine) hfile (hstays file hfile) hopens hunread policy

end CommandLine

end LintHost
