import LintHost.FileTree.Lookup
import LintHost.Proofs.Results

/-!
# What was written is found again

Paths are followed by a recursion over their names within one over the links on the way. This file
gives both as one relation, and with it follows the same path in the tree before and after a file
was written at its end.

* `FileTree.Leads`, `walk_eq_ok`: where names lead, step by step;
* `Leads.put`: names that lead to a place for a file lead to the file once it was put there;
* `find_fill`, `read_write`: a path after something was written at it.
-/

namespace LintHost

namespace FileTree

variable {tree : FileTree} {follow : Bool} {links : Nat} {here place other : Location}
  {name : String} {names rest : List String} {spot : Spot}

/-! ## 1. Where names lead -/

/-- A name that is looked up: none of the three that need no looking up, and not too long. -/
structure Lookable (name : String) : Prop where
  nonempty : name ≠ ""
  notHere : name ≠ "."
  notAbove : name ≠ ".."
  short : name.utf8ByteSize ≤ nameLimit

/-- Names lead from a location to a spot, through at most so many links. -/
inductive Leads (tree : FileTree) (follow : Bool) : Nat → Location → List String → Spot → Prop
  /-- There are no more names. -/
  | arrived {links : Nat} {here : Location} {node : Node} (hnode : tree.node? here = some node) :
    Leads tree follow links here [] (.taken here node)
  /-- There is no name, but a directory is asked for. -/
  | asked {links : Nat} {here : Location} {rest : List String} {spot : Spot} {isOpen : Bool}
    (hhere : tree.node? here = some (.directory isOpen))
    (h : Leads tree follow links here rest spot) : Leads tree follow links here ("" :: rest) spot
  /-- The name means the directory itself. -/
  | stay {links : Nat} {here : Location} {rest : List String} {spot : Spot}
    (hhere : tree.node? here = some (.directory true))
    (h : Leads tree follow links here rest spot) : Leads tree follow links here ("." :: rest) spot
  /-- The name means the directory above. -/
  | up {links : Nat} {here : Location} {rest : List String} {spot : Spot}
    (hhere : tree.node? here = some (.directory true))
    (h : Leads tree follow links here.dropLast rest spot) :
    Leads tree follow links here (".." :: rest) spot
  /-- The last name is free. -/
  | free {links : Nat} {here : Location} {name : String}
    (hhere : tree.node? here = some (.directory true)) (hname : Lookable name)
    (hnode : tree.node? (here ++ [name]) = none) :
    Leads tree follow links here [name] (.free (here ++ [name]))
  /-- The name is that of a link: its target's names come before those that are left. -/
  | link {links : Nat} {here : Location} {name target : String} {rest : List String} {spot : Spot}
    (hhere : tree.node? here = some (.directory true)) (hname : Lookable name)
    (hnode : tree.node? (here ++ [name]) = some (.link target))
    (hfollow : rest = [] → follow = true)
    (h : Leads tree follow links (if Path.isAbsolute target then [] else here)
      (steps target ++ rest) spot) : Leads tree follow (links + 1) here (name :: rest) spot
  /-- The last name is that of a link, and such a link is not followed. -/
  | lastLink {links : Nat} {here : Location} {name target : String}
    (hhere : tree.node? here = some (.directory true)) (hname : Lookable name)
    (hnode : tree.node? (here ++ [name]) = some (.link target)) (hfollow : follow = false) :
    Leads tree follow links here [name] (.taken (here ++ [name]) (.link target))
  /-- The name is that of anything else. -/
  | down {links : Nat} {here : Location} {name : String} {rest : List String} {node : Node}
    {spot : Spot} (hhere : tree.node? here = some (.directory true)) (hname : Lookable name)
    (hnode : tree.node? (here ++ [name]) = some node) (hlink : ∀ target, node ≠ .link target)
    (h : Leads tree follow links (here ++ [name]) rest spot) :
    Leads tree follow links here (name :: rest) spot

/-- What a walk does where it meets a link. -/
def jump (tree : FileTree) (follow : Bool) : Nat → Location → List String → Except LookupFault Spot
  | 0 => fun _ _ => .error .linkLoop
  | links + 1 => tree.walk follow links

theorem walk_eq (tree : FileTree) (follow : Bool) (links : Nat) :
    tree.walk follow links = walkWith (tree.jump follow links) tree follow := by
  cases links <;> rfl

/-- A name that is looked up, in a directory that may be searched. -/
theorem walkWith_lookable {jump : Location → List String → Except LookupFault Spot}
    (hhere : tree.node? here = some (.directory true)) (hname : Lookable name) :
    walkWith jump tree follow here (name :: rest) =
      match tree.node? (here ++ [name]) with
      | none => if rest.isEmpty then .ok (.free (here ++ [name])) else .error .noEntry
      | some (.link target) =>
        if rest.isEmpty ∧ !follow then .ok (.taken (here ++ [name]) (.link target))
        else jump (if Path.isAbsolute target then [] else here) (steps target ++ rest)
      | some _ => walkWith jump tree follow (here ++ [name]) rest := by
  rw [walkWith, hhere]
  dsimp only
  refine (if_neg hname.nonempty).trans ((if_neg Bool.false_ne_true).trans ?_)
  refine (if_neg hname.notHere).trans ((if_neg hname.notAbove).trans ?_)
  exact if_neg (Nat.not_lt.mpr hname.short)

theorem Leads.walk (h : tree.Leads follow links here names spot) :
    tree.walk follow links here names = .ok spot := by
  induction h with
  | arrived hnode => rw [walk_eq, walkWith, hnode]
  | asked hhere _ ih =>
    rw [walk_eq, walkWith, hhere, ← ih, walk_eq]
    rfl
  | stay hhere _ ih =>
    rw [walk_eq, walkWith, hhere, ← ih, walk_eq]
    rfl
  | up hhere _ ih =>
    rw [walk_eq, walkWith, hhere, ← ih, walk_eq]
    rfl
  | free hhere hname hnode =>
    rw [walk_eq, walkWith_lookable hhere hname, hnode]
    rfl
  | link hhere hname hnode hfollow _ ih =>
    rw [walk_eq, walkWith_lookable hhere hname, hnode]
    dsimp only
    rw [if_neg]
    · exact ih
    · rintro ⟨hrest, hno⟩
      rw [hfollow (List.isEmpty_iff.mp hrest)] at hno
      cases hno
  | lastLink hhere hname hnode hfollow =>
    rw [walk_eq, walkWith_lookable hhere hname, hnode, hfollow]
    rfl
  | down hhere hname hnode hlink _ ih =>
    rw [walk_eq, walkWith_lookable hhere hname, hnode]
    split
    · cases ‹_›
    · exact absurd (Option.some.inj ‹_›) (hlink _)
    · rw [← ih, walk_eq]

/-- Names lead on from directories only, and only from searchable ones. -/
theorem walkWith_cons_ok {jump : Location → List String → Except LookupFault Spot}
    (h : walkWith jump tree follow here (name :: rest) = .ok spot) :
    ∃ isOpen, tree.node? here = some (.directory isOpen) ∧ (name ≠ "" → isOpen = true) := by
  rw [walkWith] at h
  split at h
  · cases h
  · rename_i isOpen hhere
    refine ⟨isOpen, hhere, fun hname => ?_⟩
    rw [if_neg hname] at h
    cases isOpen with
    | true => rfl
    | false => cases h
  · cases h

/-- No name that is too long leads anywhere. -/
theorem lookable_of_walkWith {jump : Location → List String → Except LookupFault Spot}
    (h : walkWith jump tree follow here (name :: rest) = .ok spot)
    (hopen : tree.node? here = some (.directory true)) (hname : name ≠ "") (hhere : name ≠ ".")
    (habove : name ≠ "..") : Lookable name := by
  refine ⟨hname, hhere, habove, Nat.le_of_not_lt fun hlong => ?_⟩
  rw [walkWith, hopen] at h
  dsimp only at h
  rw [if_neg hname, Bool.not_true, if_neg Bool.false_ne_true, if_neg hhere, if_neg habove, if_pos hlong] at h
  cases h

/-- The recursion is that of the walk: each link begins a new list of names. -/
theorem leads_of_walk : ∀ {links : Nat} {names : List String} {here : Location},
    tree.walk follow links here names = .ok spot → tree.Leads follow links here names spot
  | links, [], here, h => by
    rw [walk_eq, walkWith] at h
    split at h
    · cases h
      exact .arrived ‹_›
    · cases h
  | links, name :: rest, here, h => by
    rw [walk_eq] at h
    obtain ⟨isOpen, hhere, hopen⟩ := walkWith_cons_ok h
    by_cases hempty : name = ""
    · subst hempty
      rw [walkWith, hhere] at h
      have hrest : tree.walk follow links here rest = .ok spot := by
        rw [walk_eq]
        exact h
      exact .asked hhere (leads_of_walk hrest)
    obtain rfl := hopen hempty
    by_cases hdot : name = "."
    · subst hdot
      rw [walkWith, hhere] at h
      have hrest : tree.walk follow links here rest = .ok spot := by
        rw [walk_eq]
        exact h
      exact .stay hhere (leads_of_walk hrest)
    by_cases hup : name = ".."
    · subst hup
      rw [walkWith, hhere] at h
      have hrest : tree.walk follow links here.dropLast rest = .ok spot := by
        rw [walk_eq]
        exact h
      exact .up hhere (leads_of_walk hrest)
    have hname : Lookable name := lookable_of_walkWith h hhere hempty hdot hup
    rw [walkWith_lookable hhere hname] at h
    cases hnode : tree.node? (here ++ [name]) with
    | none =>
      rw [hnode] at h
      cases rest with
      | nil =>
        cases h
        exact .free hhere hname hnode
      | cons next rest => cases h
    | some node =>
      cases node with
      | link target =>
        rw [hnode] at h
        dsimp only at h
        by_cases hlast : rest.isEmpty ∧ !follow
        · rw [if_pos hlast] at h
          cases h
          obtain ⟨hrest, hfollow⟩ := hlast
          rw [List.isEmpty_iff.mp hrest]
          exact .lastLink hhere hname hnode (Bool.not_eq_true' follow ▸ hfollow)
        · rw [if_neg hlast] at h
          cases links with
          | zero => cases h
          | succ links =>
            have hfollow : rest = [] → follow = true := by
              rintro rfl
              simpa using hlast
            exact .link hhere hname hnode hfollow (leads_of_walk h)
      | file | directory =>
        rw [hnode] at h
        dsimp only at h
        rw [← walk_eq] at h
        exact .down hhere hname hnode nofun (leads_of_walk h)
termination_by links names => (links, names.length)

/-- **Where names lead** is where the walk along them ends. -/
theorem walk_eq_ok : tree.walk follow links here names = .ok spot ↔
    tree.Leads follow links here names spot := ⟨leads_of_walk, Leads.walk⟩

/-! ## 2. Where a file can be written -/

end FileTree

/-- A spot for a file: a place with a file that may be written, or where nothing is. -/
def Spot.Receives (sheet : FileTree.Sheet) : Spot → Prop
  | .taken place node => place = sheet.place ∧ node = .file sheet.content sheet.readable true
  | .free place => sheet = ⟨place, .empty, true⟩

/-- A node that is a file. -/
def Node.IsFile (node : Node) : Prop :=
  ∃ content readable writable, node = .file content readable writable

theorem Node.isFile_file (content : ByteArray) (readable writable : Bool) :
    (Node.file content readable writable).IsFile := ⟨content, readable, writable, rfl⟩

namespace FileTree

variable {tree files : FileTree} {follow : Bool} {links : Nat} {here place other : Location}
  {cwd path : String} {names : List String} {spot : Spot} {content : ByteArray} {sheet : Sheet}
  {node new : Node}

theorem writable_eq_ok : tree.writable cwd path = .ok sheet ↔
    ∃ spot, tree.find cwd true path = .ok spot ∧ spot.Receives sheet := by
  unfold writable
  constructor
  · intro h
    split at h
    · cases h
      exact ⟨.taken _ _, ‹_›, rfl, rfl⟩
    · cases h
    · cases h
    · cases h
      exact ⟨.free _, ‹_›, rfl⟩
    · cases h
  · rintro ⟨spot, hspot, hreceives⟩
    rw [hspot]
    cases spot with
    | taken place node =>
      obtain ⟨rfl, rfl⟩ := hreceives
      rfl
    | free place =>
      obtain rfl : sheet = ⟨place, .empty, true⟩ := hreceives
      rfl

/-- Nothing stands at a place but perhaps a file. -/
def Vacant (tree : FileTree) (place : Location) : Prop :=
  ∀ node, tree.node? place = some node → node.IsFile

theorem Leads.vacant (h : tree.Leads follow links here names spot) (hspot : spot.Receives sheet) :
    tree.Vacant sheet.place := by
  induction h with
  | arrived hnode =>
    obtain ⟨rfl, rfl⟩ := hspot
    intro node h
    rw [hnode] at h
    cases h
    exact Node.isFile_file _ _ _
  | free _ _ hnode =>
    obtain rfl : sheet = _ := hspot
    intro node h
    rw [hnode] at h
    cases h
  | lastLink => exact nomatch hspot.2
  | asked _ _ ih | stay _ _ ih | up _ _ ih | link _ _ _ _ _ ih | down _ _ _ _ _ ih => exact ih hspot

theorem Vacant.ne (h : tree.Vacant place) (hnode : tree.node? other = some node)
    (hfile : ¬node.IsFile) : other ≠ place := by
  rintro rfl
  exact hfile (h _ hnode)

theorem not_isFile_directory (searchable : Bool) : ¬(Node.directory searchable).IsFile := nofun

theorem not_isFile_link (target : String) : ¬(Node.link target).IsFile := nofun

theorem node?_put_self (tree : FileTree) (place : Location) (node : Node) :
    (tree.put place node).node? place = some node := by
  unfold put node?
  rw [List.lookup_cons, beq_self_eq_true]

theorem node?_put_other (tree : FileTree) (h : other ≠ place) (node : Node) :
    (tree.put place node).node? other = tree.node? other := by
  unfold put node?
  rw [List.lookup_cons, beq_false_of_ne h, List.lookup_filter_ne h]

/-- Directories and links stay where a file is put. -/
theorem Vacant.put_other (h : tree.Vacant place) (hnode : tree.node? other = some node)
    (hfile : ¬node.IsFile) (new : Node) : (tree.put place new).node? other = some node := by
  rw [node?_put_other tree (h.ne hnode hfile), hnode]

/-- **Where a file was put, the same names lead to it again**: on their way they have met
    directories and links only, so nothing that they have met is replaced. -/
theorem Leads.put (h : tree.Leads follow links here names spot) (hspot : spot.Receives sheet)
    (hnew : new.IsFile) :
    (tree.put sheet.place new).Leads follow links here names (.taken sheet.place new) := by
  have hvacant := h.vacant hspot
  have hdirectory {here : Location} {isOpen : Bool}
      (h : tree.node? here = some (.directory isOpen)) :=
    hvacant.put_other h (not_isFile_directory _) new
  have hnolink (target : String) : new ≠ .link target := by
    rintro rfl
    exact not_isFile_link _ hnew
  induction h with
  | arrived hnode =>
    obtain ⟨rfl, rfl⟩ := hspot
    exact .arrived (node?_put_self _ _ _)
  | asked hhere _ ih => exact .asked (hdirectory hhere) (ih hspot)
  | stay hhere _ ih => exact .stay (hdirectory hhere) (ih hspot)
  | up hhere _ ih => exact .up (hdirectory hhere) (ih hspot)
  | free hhere hname _ =>
    obtain rfl : sheet = _ := hspot
    exact .down (hdirectory hhere) hname (node?_put_self _ _ _) hnolink
      (.arrived (node?_put_self _ _ _))
  | link hhere hname hnode hfollow _ ih =>
    exact .link (hdirectory hhere) hname (hvacant.put_other hnode (not_isFile_link _) new) hfollow
      (ih hspot)
  | lastLink => exact nomatch hspot.2
  | @down _ here name _ _ _ hhere hname hnode hlink _ ih =>
    by_cases hplace : here ++ [name] = sheet.place
    · have hfile : (tree.put sheet.place new).node? (here ++ [name]) = some new := by
        rw [hplace, node?_put_self]
      exact .down (hdirectory hhere) hname hfile hnolink (ih hspot)
    · exact .down (hdirectory hhere) hname ((node?_put_other tree hplace _).trans hnode) hlink
        (ih hspot)

/-! ## 3. A path after writing -/

/-- A path leads where its names lead, and whether it has any is the same in every tree. -/
theorem find_leads (h : tree.find cwd follow path = .ok spot) :
    ∃ names, tree.Leads follow linkLimit [] names spot ∧ ∀ {later : FileTree} {there : Spot},
      later.Leads follow linkLimit [] names there → later.find cwd follow path = .ok there := by
  unfold find at h ⊢
  split at h
  · cases h
  · rename_i hnull
    split at h
    · cases h
    · rename_i hempty
      split at h
      · cases h
      · rename_i hlong
        refine ⟨_, walk_eq_ok.mp h, fun hleads => ?_⟩
        rw [if_neg hnull, if_neg hempty, if_neg hlong]
        exact hleads.walk

/-- So a path leads to the file that was put at its end. -/
theorem find_put (h : tree.find cwd follow path = .ok spot) (hspot : spot.Receives sheet)
    (hnew : new.IsFile) :
    (tree.put sheet.place new).find cwd follow path = .ok (.taken sheet.place new) := by
  obtain ⟨names, hleads, hfind⟩ := find_leads h
  exact hfind (hleads.put hspot hnew)

/-- **What was written at a path stands there**: it may be read if it could be before, or if nothing
    was there. -/
theorem find_fill (h : tree.writable cwd path = .ok sheet) (content : ByteArray) :
    (tree.fill sheet content).find cwd true path =
      .ok (.taken sheet.place (.file content sheet.readable true)) := by
  obtain ⟨spot, hfind, hspot⟩ := writable_eq_ok.mp h
  exact find_put hfind hspot (Node.isFile_file _ _ _)

theorem write_eq_ok : tree.write cwd path content = .ok files ↔
    ∃ sheet, tree.writable cwd path = .ok sheet ∧ files = tree.fill sheet content := by
  unfold write
  cases tree.writable cwd path with
  | error fault => exact iff_of_false nofun nofun
  | ok sheet => simp [Except.map, eq_comm]

theorem extend_eq_ok : tree.extend cwd path content = .ok files ↔
    ∃ sheet, tree.writable cwd path = .ok sheet ∧
      files = tree.fill sheet (sheet.content ++ content) := by
  unfold extend
  cases tree.writable cwd path with
  | error fault => exact iff_of_false nofun nofun
  | ok sheet => simp [Except.map, eq_comm]

/-- Whoever can read what was written at a path finds just that. -/
theorem read_write (h : tree.write cwd path content = .ok files) {held : ByteArray}
    (hheld : files.read cwd path = .ok held) : held = content := by
  obtain ⟨sheet, hsheet, rfl⟩ := write_eq_ok.mp h
  unfold read stat statWith at hheld
  rw [find_fill hsheet content] at hheld
  cases hreadable : sheet.readable with
  | false =>
    rw [hreadable] at hheld
    cases hheld
  | true =>
    rw [hreadable] at hheld
    exact (Except.ok.inj hheld).symm

end FileTree

end LintHost
