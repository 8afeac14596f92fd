import LintHost.Proofs.Place
import LintHost.Proofs.Writing

/-!
# One name further

A path is followed name by name, so what the path of a directory comes to decides what the path of
an entry in it can come to.

* `PartPath.entry_name`: an entry of a place is a place; `PartPath.name?_of_base`: the last name of
  a path;
* `FileTree.Meets`: what one name comes to, whatever names come after it;
* `FileTree.Further`, `further_walk`: what one more name comes to, by what those before it come to;
* `FileTree.searchable`: no directory on the way to a path is closed, nor the one that it names;
* `link_of_denied`: where a directory is searchable, only its links can be denied.
-/

namespace LintHost

open LintHost.Path

/-! ## 1. Entries of places -/

namespace PartPath

variable {p d : PartPath} {name : String}

/-- What a name names in a directory. -/
theorem entry_name (d : PartPath) (h : IsName name.toList) :
    d.entry name = ⟨d.slashes, d.names ++ [name.toList]⟩ := by
  have hrelative : startsWithSlash name.toList = false := by
    have hall : ∀ n ∈ [name.toList], IsEntry n := by
      intro n hn
      rw [List.mem_singleton.mp hn]
      exact h.toIsEntry
    exact startsWithSlash_unsplit hall
  have hslashes : leadingSlashes name.toList = 0 :=
    Classical.byContradiction fun hne => by
      rw [leadingSlashes_ne_zero.mp hne] at hrelative
      cases hrelative
  rw [entry, child, ofText, ofChars_eq, entries_name h.toIsEntry, isAbsolute, hslashes]
  rfl

theorem Settled.up (h : p.Settled) (k : Nat) : (p.up k).Settled :=
  ⟨h.rooted, h.slashes, fun n hn => h.names n (List.mem_of_mem_take hn)⟩

theorem Settled.entry (hd : d.Settled) (h : IsName name.toList) : (d.entry name).Settled := by
  rw [entry_name d h]
  refine ⟨hd.rooted, hd.slashes, fun n hn => ?_⟩
  rcases List.mem_append.mp hn with hn | hn
  · exact hd.names n hn
  · rw [List.mem_singleton.mp hn]
    exact h

theorem Settled.base_entry (hd : d.Settled) (h : IsName name.toList) :
    base (d.entry name).text = name := by
  rw [base_text (hd.entry h), entry_name d h, List.getLast?_concat, Option.getD_some,
    String.ofList_toList]

theorem Settled.directory_entry (hd : d.Settled) (h : IsName name.toList) :
    directory (d.entry name).text = d.text := by
  rw [directory_text (hd.entry h), entry_name d h, PartPath.parent, List.dropLast_concat]

theorem name?_entry (d : PartPath) (h : IsName name.toList) :
    (d.entry name).name? = some name.toList := by
  rw [entry_name d h]
  exact List.getLast?_concat

/-- What stands after the last slash of a path is its last name. -/
theorem name?_of_base {path : String} (hname : IsEntry name.toList) (h : base path = name) :
    (ofText path).name? = some name.toList := by
  have hbase : baseChars path.toList = name.toList := by
    rw [← h, base, String.toList_ofList]
  have hsplit : path.toList =
      (path.toList.reverse.dropWhile (· ≠ '/')).reverse ++ name.toList := by
    rw [← hbase, baseChars, ← List.reverse_append, List.takeWhile_append_dropWhile,
      List.reverse_reverse]
  show (entries path.toList).getLast? = _
  rw [hsplit]
  cases hhead : path.toList.reverse.dropWhile (· ≠ '/') with
  | nil =>
    rw [List.reverse_nil, List.nil_append, entries_name hname]
    rfl
  | cons c above =>
    have hc : c = '/' := by
      have hstop := List.head?_dropWhile_not (· ≠ '/') path.toList.reverse
      rw [hhead] at hstop
      simpa using hstop
    have hcut : (c :: above).reverse ++ name.toList = above.reverse ++ '/' :: name.toList := by
      rw [hc, List.reverse_cons, List.append_assoc]
      rfl
    rw [hcut, entries_append_slash, entries_name hname, List.getLast?_concat]

/-- The path of an entry begins with that of its directory. -/
theorem Settled.text_entry (hd : d.Settled) (h : IsName name.toList) :
    ∃ rest, (d.entry name).text = d.text ++ rest := by
  have hchars : ∃ rest, (d.entry name).chars = d.chars ++ rest := by
    rw [chars_of_absolute (hd.entry h).rooted, chars_of_absolute hd.rooted, entry_name d h]
    by_cases hroot : d.names = []
    · rw [hroot]
      exact ⟨unsplit [name.toList], by simp [unsplit, Text.intercalate]⟩
    · exact ⟨'/' :: name.toList, by rw [unsplit_concat hroot, List.append_assoc]⟩
  obtain ⟨rest, hrest⟩ := hchars
  exact ⟨String.ofList rest, by rw [text, hrest, String.ofList_append, text]⟩

/-- What is followed for the path of a place are its names. -/
theorem Settled.steps (h : p.Settled) : FileTree.steps p.text = p.names.map String.ofList := by
  have hkept : (split p.chars).filter (· ≠ []) = p.names := by
    rw [chars_of_absolute h.rooted, filter_split_slashes (by decide)]
    by_cases hroot : p.names = []
    · rw [hroot]
      rfl
    · rw [split_unsplit hroot fun n hn => (h.names n hn).no_slash, List.filter_eq_self]
      exact fun n hn => decide_eq_true (h.names n hn).nonempty
  have hend : ¬(p.chars.getLast? = some '/' ∧ p.names ≠ []) := by
    rintro ⟨hslash, hroot⟩
    obtain ⟨init, last, hlast⟩ := (List.eq_nil_or_concat' p.names).resolve_left hroot
    have hname := h.names last (by rw [hlast]; simp)
    obtain ⟨k, hk⟩ := Nat.exists_eq_succ_of_ne_zero h.rooted
    obtain ⟨u, hu⟩ := rooted_concat k init last
    rw [chars_of_absolute h.rooted, hk, hlast, hu, List.getLast?_append_cons] at hslash
    rw [List.getLast?_cons_of_ne_nil] at hslash
    · exact hname.no_slash (List.mem_of_getLast? hslash)
    · exact hname.nonempty
  unfold FileTree.steps
  rw [text, String.toList_ofList]
  dsimp only
  rw [hkept, if_neg hend, List.append_nil]

end PartPath

/-! ## 2. What one more name comes to -/

/-- The faults of looking up: nothing is there, something is closed, or a name is too long. -/
def LookupFault.OfLookup (fault : LookupFault) : Prop :=
  fault.saysAbsent = true ∨ fault = .denied ∨ fault = .nameTooLong

namespace FileTree

variable {tree : FileTree} {follow : Bool} {cwd name : String} {links : Nat} {here place : Location}

/-- What a name comes to from a location, whatever names come after it. -/
inductive Meets (tree : FileTree) (here : Location) (name : String) : Prop
  /-- It leads nowhere. -/
  | fault {fault : LookupFault} (hfault : fault.OfLookup)
    (h : ∀ follow links rest, tree.walk follow links here (name :: rest) = .error fault)
  /-- It leads to another location. -/
  | step {next : Location}
    (h : ∀ follow links rest, tree.walk follow links here (name :: rest) =
      tree.walk follow links next rest)
  /-- It is free. -/
  | free (h : ∀ follow links rest, tree.walk follow links here (name :: rest) =
      if rest.isEmpty then .ok (.free (here ++ [name])) else .error .noEntry)
  /-- It is that of a link. -/
  | link {target : String} (h : ∀ follow links rest, tree.walk follow links here (name :: rest) =
      if rest.isEmpty ∧ !follow then .ok (.taken (here ++ [name]) (.link target))
      else tree.jump follow links (if isAbsolute target then [] else here) (steps target ++ rest))

theorem walk_long {rest : List String} (hhere : tree.node? here = some (.directory true))
    (hne : name ≠ "") (hdot : name ≠ ".") (hup : name ≠ "..") (h : nameLimit < name.utf8ByteSize) :
    tree.walk follow links here (name :: rest) = .error .nameTooLong := by
  rw [walk_eq, walkWith, hhere]
  dsimp only
  rw [if_neg hne, Bool.not_true, if_neg Bool.false_ne_true, if_neg hdot, if_neg hup, if_pos h]

theorem meets (tree : FileTree) (here : Location) (name : String) : Meets tree here name := by
  cases hhere : tree.node? here with
  | none => exact .fault (.inl rfl) fun _ _ _ => by rw [walk_eq, walkWith, hhere]
  | some node =>
    cases node with
    | file | link => exact .fault (.inl rfl) fun _ _ _ => by rw [walk_eq, walkWith, hhere]
    | directory isOpen =>
      by_cases hne : name = ""
      · subst hne
        exact .step fun _ _ _ => by
          rw [walk_eq, walkWith, hhere]
          rfl
      cases isOpen with
      | false =>
        refine .fault (.inr (.inl rfl)) fun _ _ _ => ?_
        rw [walk_eq, walkWith, hhere]
        exact if_neg hne
      | true =>
        by_cases hdot : name = "."
        · subst hdot
          exact .step fun _ _ _ => by
            rw [walk_eq, walkWith, hhere]
            rfl
        by_cases hup : name = ".."
        · subst hup
          exact .step fun _ _ _ => by
            rw [walk_eq, walkWith, hhere]
            rfl
        by_cases hlong : nameLimit < name.utf8ByteSize
        · exact .fault (.inr (.inr rfl)) fun _ _ _ => walk_long hhere hne hdot hup hlong
        have hname : Lookable name := ⟨hne, hdot, hup, Nat.le_of_not_lt hlong⟩
        cases hnode : tree.node? (here ++ [name]) with
        | none => exact .free fun _ _ _ => by rw [walk_eq, walkWith_lookable hhere hname, hnode]
        | some node =>
          cases node with
          | link target =>
            exact .link fun _ _ _ => by rw [walk_eq, walkWith_lookable hhere hname, hnode]
          | file | directory =>
            exact .step fun _ _ _ => by rw [walk_eq, walkWith_lookable hhere hname, hnode]

/-- Why names lead nowhere. -/
theorem walk_fault {fault : LookupFault} : ∀ {links : Nat} {names : List String} {here : Location},
    tree.walk follow links here names = .error fault → fault.OfLookup
  | links, [], here, h => by
    rw [walk_eq, walkWith] at h
    split at h
    · cases h
    · cases h
      exact .inl rfl
  | links, first :: rest, here, h => by
    cases meets tree here first with
    | fault hfault hmeets =>
      rw [hmeets] at h
      cases h
      exact hfault
    | step hmeets =>
      rw [hmeets] at h
      exact walk_fault h
    | free hmeets =>
      rw [hmeets] at h
      split at h
      · cases h
      · cases h
        exact .inl rfl
    | link hmeets =>
      rw [hmeets] at h
      split at h
      · cases h
      · cases links with
        | zero =>
          cases h
          exact .inl rfl
        | succ links => exact walk_fault h
termination_by links names => (links, names.length)

/-- What one more name comes to, where what the names before it come to is the last argument. -/
inductive Further (tree : FileTree) (follow : Bool) (name : String)
    (result : Except LookupFault Spot) : Except LookupFault Spot → Prop
  /-- They lead nowhere, and so does the name. -/
  | astray {fault : LookupFault} (h : result = .error fault) :
    Further tree follow name result (.error fault)
  /-- They lead to where nothing is. -/
  | free {place : Location} (h : result = .error .noEntry) :
    Further tree follow name result (.ok (.free place))
  /-- They lead to a node, and the name is followed from there. -/
  | taken {links : Nat} {place : Location} {node : Node} (hnode : tree.node? place = some node)
    (h : result = tree.walk follow links place [name]) :
    Further tree follow name result (.ok (.taken place node))

/-- The recursion is that of the walk. Links on the way are followed in either case, since they are
    not the last name. -/
theorem further_walk : ∀ {links : Nat} {names : List String} {here : Location},
    Further tree follow name (tree.walk follow links here (names ++ [name]))
      (tree.walk true links here names)
  | links, [], here => by
    rw [List.nil_append, walk_eq tree true, walkWith]
    cases hnode : tree.node? here with
    | none =>
      refine .astray ?_
      rw [walk_eq, walkWith, hnode]
    | some node => exact .taken hnode rfl
  | links, first :: rest, here => by
    rw [List.cons_append]
    have hmore : ¬(rest ++ [name]).isEmpty = true := by simp
    cases meets tree here first with
    | fault _ h =>
      rw [h, h]
      exact .astray rfl
    | step h =>
      rw [h, h]
      exact further_walk
    | free h =>
      rw [h, h, if_neg hmore]
      split
      · exact .free rfl
      · exact .astray rfl
    | link h =>
      have hlast (p : Prop) : ¬((rest ++ [name]).isEmpty = true ∧ p) := fun hp => hmore hp.1
      have hfollow : ¬(rest.isEmpty = true ∧ (!true) = true) := by simp
      rw [h, h, if_neg (hlast _), if_neg hfollow, ← List.append_assoc]
      cases links with
      | zero => exact .astray rfl
      | succ links => exact further_walk
termination_by links names => (links, names.length)

/-! ## 3. Directories that are searchable -/

/-- No directory on the way to a path is closed, nor is the one that it names. -/
def searchable (tree : FileTree) (cwd path : String) : Bool :=
  match tree.stat cwd path with
  | .ok (.directory isOpen) => isOpen
  | .error .denied => false
  | _ => true

/-- Looking a path up is following its names, if it is a path and not too long. -/
theorem find_settled {p : PartPath} (h : p.Settled) : tree.find cwd follow p.text =
    if p.text.toList.contains '\x00' then .error .embeddedNull
    else if pathLimit < p.text.utf8ByteSize then .error .nameTooLong
    else tree.walk follow linkLimit [] (p.names.map String.ofList) := by
  have hrooted := isAbsolute_text h.rooted
  have hne : p.text ≠ "" := by
    intro e
    rw [e] at hrooted
    cases hrooted
  rw [find, if_neg hne, if_pos hrooted, h.steps]

theorem exists?_eq_error {path : String} {fault : LookupFault} :
    tree.exists? cwd path = .error fault ↔
      tree.stat cwd path = .error fault ∧ fault.saysAbsent = false := by
  unfold exists?
  constructor
  · intro h
    split at h
    · cases h
    · split at h
      · cases h
      · rename_i hstat hpresent
        cases h
        exact ⟨hstat, Bool.eq_false_iff.mpr hpresent⟩
  · rintro ⟨hstat, hpresent⟩
    rw [hstat]
    dsimp only
    rw [hpresent]
    rfl

theorem exists?_of_stat_error {path : String} {fault : LookupFault}
    (h : tree.stat cwd path = .error fault) :
    tree.exists? cwd path = if fault.saysAbsent then .ok false else .error fault := by
  rw [exists?, h]

theorem stat_eq_denied {path : String} :
    tree.stat cwd path = .error .denied ↔ tree.find cwd true path = .error .denied := by
  unfold stat statWith
  constructor
  · intro hstat
    split at hstat
    · cases hstat
    · cases hstat
    · cases hstat
      assumption
  · intro hfind
    rw [hfind]
    rfl

/-- It cannot be told whether something is there where something is closed, or a name or the whole
    path is too long. -/
theorem exists?_fault {path : String} {fault : LookupFault}
    (h : tree.exists? cwd path = .error fault) : fault = .denied ∨ fault = .nameTooLong := by
  obtain ⟨hstat, hpresent⟩ := exists?_eq_error.mp h
  have hfault : fault.OfLookup := by
    unfold stat statWith find at hstat
    split at hstat
    · cases hstat
    · cases hstat
      exact .inl rfl
    · rename_i hfind
      cases hstat
      split at hfind
      · cases hfind
        exact .inl rfl
      · split at hfind
        · cases hfind
          exact .inl rfl
        · split at hfind
          · cases hfind
            exact .inr (.inr rfl)
          · exact walk_fault hfind
  rcases hfault with habsent | hfault
  · rw [hpresent] at habsent
    cases habsent
  · exact hfault

/-- What is denied is a path, and not too long. -/
theorem find_denied {p : PartPath} (h : p.Settled)
    (hdenied : tree.find cwd true p.text = .error .denied) :
    p.text.toList.contains '\x00' = false ∧ p.text.utf8ByteSize ≤ pathLimit := by
  rw [find_settled h] at hdenied
  split at hdenied
  · cases hdenied
  · split at hdenied
    · cases hdenied
    · exact ⟨Bool.eq_false_iff.mpr ‹_›, Nat.le_of_not_lt ‹_›⟩

/-- Only what a link leads to can be denied to a name in a directory that may be searched. -/
theorem link_of_walk_denied (hplace : tree.node? place = some (.directory true))
    (hne : name ≠ "") (hdot : name ≠ ".") (hup : name ≠ "..")
    (h : tree.walk true links place [name] = .error .denied) :
    Lookable name ∧ ∃ target, tree.node? (place ++ [name]) = some (.link target) := by
  have hname : Lookable name := ⟨hne, hdot, hup, Nat.le_of_not_lt fun hlong => by
    rw [walk_long hplace hne hdot hup hlong] at h
    cases h⟩
  refine ⟨hname, ?_⟩
  rw [walk_eq, walkWith_lookable hplace hname] at h
  cases hnode : tree.node? (place ++ [name]) with
  | none =>
    rw [hnode] at h
    cases h
  | some node =>
    cases node with
    | link target => exact ⟨target, rfl⟩
    | file | directory =>
      rw [hnode] at h
      dsimp only at h
      rw [walkWith, hnode] at h
      cases h

/-- What the path of an entry comes to, if it is a path and not too long, by what that of its
    directory comes to. -/
theorem further_find {d : PartPath} (hd : d.Settled) (hname : IsName name.toList)
    (hnull : (d.entry name).text.toList.contains '\x00' = false)
    (hshort : (d.entry name).text.utf8ByteSize ≤ pathLimit) :
    Further tree follow name (tree.find cwd follow (d.entry name).text)
      (tree.find cwd true d.text) := by
  have hnames : (d.entry name).names.map String.ofList = d.names.map String.ofList ++ [name] := by
    rw [PartPath.entry_name d hname, List.map_append, List.map_singleton, String.ofList_toList]
  have hentry : tree.find cwd follow (d.entry name).text =
      tree.walk follow linkLimit [] (d.names.map String.ofList ++ [name]) := by
    rw [find_settled (hd.entry hname), hnull, if_neg Bool.false_ne_true,
      if_neg (Nat.not_lt.mpr hshort), hnames]
  -- the directory's path is no longer, so it is followed as well
  obtain ⟨rest, hrest⟩ := hd.text_entry hname
  rw [hrest, String.toList_append, List.contains_append, Bool.or_eq_false_iff] at hnull
  rw [hrest, String.utf8ByteSize_append] at hshort
  have hdir : tree.find cwd true d.text =
      tree.walk true linkLimit [] (d.names.map String.ofList) := by
    rw [find_settled hd, hnull.1, if_neg Bool.false_ne_true, if_neg (by omega)]
  rw [hentry, hdir]
  exact further_walk

/-- Where a name is denied that follows a searchable path, the path is that of a directory. -/
theorem node?_of_denied {path : String} {node : Node}
    (hspot : tree.find cwd true path = .ok (.taken place node))
    (hopen : tree.searchable cwd path = true) (hnode : tree.node? place = some node)
    (h : tree.walk follow links place [name] = .error .denied) :
    tree.node? place = some (.directory true) := by
  cases node with
  | file | link =>
    rw [walk_eq, walkWith, hnode] at h
    cases h
  | directory isOpen =>
    have hstat : tree.stat cwd path = .ok (.directory isOpen) := by
      rw [stat, statWith, hspot]
      rfl
    rw [searchable, hstat] at hopen
    dsimp only at hopen
    rw [hnode, hopen]

/-- **In a searchable directory what is denied is a link.** -/
theorem link_of_denied {d : PartPath} (hd : d.Settled) (hname : IsName name.toList)
    (hopen : tree.searchable cwd d.text = true)
    (h : tree.exists? cwd (d.entry name).text = .error .denied) :
    ∃ target, tree.lstat cwd (d.entry name).text = .ok (.link target) := by
  have hfind := stat_eq_denied.mp (exists?_eq_error.mp h).1
  obtain ⟨hnull, hshort⟩ := find_denied (hd.entry hname) hfind
  have hfurther (follow : Bool) : Further tree follow name
      (tree.find cwd follow (d.entry name).text) (tree.find cwd true d.text) :=
    further_find hd hname hnull hshort
  have hdenied := hfurther true
  have hlast := hfurther false
  rw [hfind] at hdenied
  cases hspot : tree.find cwd true d.text with
  | error fault =>
    rw [hspot] at hdenied
    cases hdenied with
    | astray hfault =>
      cases hfault
      rw [searchable, stat_eq_denied.mpr hspot] at hopen
      cases hopen
  | ok spot =>
    rw [hspot] at hdenied hlast
    cases hdenied with
    | free hfault => cases hfault
    | taken hnode hdenied =>
      cases hlast with
      | taken _ hlast =>
        have hplace := node?_of_denied hspot hopen hnode hdenied.symm
        obtain ⟨hlook, target, htarget⟩ := link_of_walk_denied hplace
          (fun e => hname.nonempty (by rw [e]; rfl)) (fun e => hname.ne_dot (by rw [e]; rfl))
          (fun e => hname.ne_dotDot (by rw [e]; rfl)) hdenied.symm
        refine ⟨target, ?_⟩
        rw [lstat, statWith, hlast, walk_eq_ok.mpr (.lastLink hplace hlook htarget rfl)]
        rfl

end FileTree

end LintHost
