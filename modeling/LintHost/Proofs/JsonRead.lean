import LintHost.Proofs.EngineChild

/-!
# What is read from JSON text

A value that was read from text is no arbitrary value: the reader keeps one entry for each name of
an object, refuses long integers, and opens no more containers than there is room for. These are the
values that can be written again.

* `Json.Tidy`: no object in a value has a name twice;
* `Json.Held`: a value that there is room for;
* `Json.read_held`: whatever is read is held;
* `Json.attempt_eq_some`, `Json.attempt_eq_error`: what is read from text that need not be JSON;
* `Json.read_nested`: too many lists in lists are not read;
* `Entries.ofPairs_eq_self`: entries without a name twice are the entries of their own pairs.
-/

namespace LintHost

/-! ## 1. Entries from pairs -/

namespace Entries

variable {α : Type}

theorem mem_put {name : String} {a : α} {e : String × α} : ∀ {entries : Entries α},
    e ∈ put name a entries → e = (name, a) ∨ e ∈ entries
  | [], h => .inl (List.mem_singleton.mp h)
  | (n, b) :: rest, h => by
    unfold put at h
    split at h
    · rename_i hn
      rcases List.mem_cons.mp h with rfl | h
      · exact .inl (by rw [hn])
      · exact .inr (List.mem_cons_of_mem _ h)
    · rcases List.mem_cons.mp h with rfl | h
      · exact .inr List.mem_cons_self
      · exact (mem_put h).imp id (List.mem_cons_of_mem _)

theorem nodup_foldl_put : ∀ (pairs : List (String × α)) {entries : Entries α},
    entries.names.Nodup →
      (names (pairs.foldl (fun entries (name, a) => put name a entries) entries)).Nodup
  | [], _, h => h
  | _ :: pairs, _, h => nodup_foldl_put pairs (nodup_put h)

theorem mem_foldl_put {e : String × α} (pairs : List (String × α)) {entries : Entries α}
    (h : e ∈ pairs.foldl (fun entries (name, a) => put name a entries) entries) :
    e ∈ entries ∨ e ∈ pairs := by
  induction pairs generalizing entries with
  | nil => exact .inl h
  | cons pair pairs ih =>
    rcases ih h with h | h
    · rcases mem_put h with rfl | h
      · exact .inr List.mem_cons_self
      · exact .inl h
    · exact .inr (List.mem_cons_of_mem _ h)

theorem nodup_ofPairs (pairs : List (String × α)) : (names (ofPairs pairs)).Nodup :=
  nodup_foldl_put pairs List.nodup_nil

theorem mem_ofPairs {pairs : List (String × α)} {e : String × α} (h : e ∈ ofPairs pairs) :
    e ∈ pairs :=
  (mem_foldl_put pairs h).resolve_left List.not_mem_nil

theorem foldl_put_eq_append : ∀ (pairs : List (String × α)) (entries : Entries α),
    (names (entries ++ pairs)).Nodup →
      pairs.foldl (fun entries (name, a) => put name a entries) entries = entries ++ pairs
  | [], entries, _ => (List.append_nil _).symm
  | (name, a) :: pairs, entries, h => by
    have happend : entries ++ (name, a) :: pairs = (entries ++ [(name, a)]) ++ pairs :=
      List.append_cons ..
    have hlacks : entries.has name = false := by
      rw [Bool.eq_false_iff]
      intro hhas
      rw [names, List.map_append, List.nodup_append] at h
      exact h.2.2 name (has_iff.mp hhas) name (List.mem_map_of_mem List.mem_cons_self) rfl
    rw [happend] at h ⊢
    rw [← put_of_lacks hlacks] at h ⊢
    exact foldl_put_eq_append pairs _ h

/-- Entries without a name twice are the entries of their own pairs. -/
theorem ofPairs_eq_self {entries : Entries α} (h : entries.names.Nodup) :
    ofPairs entries = entries :=
  foldl_put_eq_append entries [] h

end Entries

namespace Json

open LintHost.Number LintHost.Text

/-! ## 2. Values that are held -/

/-- A text whose first character is no blank. -/
theorem skip_eq_self {cs : List Char} (h : ∀ c, cs.head? = some c → isBlank c = false) :
    skip cs = cs := by
  cases cs with
  | nil => rfl
  | cons c rest => simp [skip, h c rfl]

/-- No object in a value has a name twice. -/
inductive Tidy : Json → Prop
  | null : Tidy .null
  | bool (b : Bool) : Tidy (.bool b)
  | int (n : Int) : Tidy (.int n)
  | float (x : Binary64) : Tidy (.float x)
  | text (s : String) : Tidy (.text s)
  | list {items : List Json} (h : ∀ j ∈ items, Tidy j) : Tidy (.list items)
  | object {entries : List (String × Json)} (hnames : (Entries.names entries).Nodup)
    (h : ∀ e ∈ entries, Tidy e.2) : Tidy (.object entries)

theorem allInList_iff {p : Int → Bool} : ∀ {items : List Json},
    allInts.allInList p items = true ↔ ∀ j ∈ items, j.allInts p = true
  | [] => by simp [allInts.allInList]
  | j :: rest => by
    rw [allInts.allInList, Bool.and_eq_true, allInList_iff, List.forall_mem_cons]

theorem allInEntries_iff {p : Int → Bool} : ∀ {entries : List (String × Json)},
    allInts.allInEntries p entries = true ↔ ∀ e ∈ entries, e.2.allInts p = true
  | [] => by simp [allInts.allInEntries]
  | e :: rest => by
    rw [allInts.allInEntries, Bool.and_eq_true, allInEntries_iff, List.forall_mem_cons]

theorem depthList_le {room : Nat} : ∀ {items : List Json},
    depth.depthList items ≤ room ↔ ∀ j ∈ items, j.depth ≤ room
  | [] => by simp [depth.depthList]
  | j :: rest => by rw [depth.depthList, Nat.max_le, depthList_le, List.forall_mem_cons]

theorem depthEntries_le {room : Nat} : ∀ {entries : List (String × Json)},
    depth.depthEntries entries ≤ room ↔ ∀ e ∈ entries, e.2.depth ≤ room
  | [] => by simp [depth.depthEntries]
  | e :: rest => by rw [depth.depthEntries, Nat.max_le, depthEntries_le, List.forall_mem_cons]

/-- A value that there is room for: it is tidy, holds no integer that is too long, and is nested no
    deeper than there is room. -/
structure Held (room : Nat) (j : Json) : Prop where
  tidy : j.Tidy
  integers : j.allInts shortInt = true
  nesting : j.depth ≤ room

variable {room : Nat}

theorem Held.list {items : List Json} (h : ∀ j ∈ items, Held room j) :
    Held (room + 1) (.list items) where
  tidy := .list fun j hj => (h j hj).tidy
  integers := by
    rw [allInts]
    exact allInList_iff.mpr fun j hj => (h j hj).integers
  nesting := by
    rw [depth]
    exact Nat.succ_le_succ (depthList_le.mpr fun j hj => (h j hj).nesting)

theorem Held.object {entries : List (String × Json)} (hnames : (Entries.names entries).Nodup)
    (h : ∀ e ∈ entries, Held room e.2) : Held (room + 1) (.object entries) where
  tidy := .object hnames fun e he => (h e he).tidy
  integers := by
    rw [allInts]
    exact allInEntries_iff.mpr fun e he => (h e he).integers
  nesting := by
    rw [depth]
    exact Nat.succ_le_succ (depthEntries_le.mpr fun e he => (h e he).nesting)

/-- What is held in an object is held on its own. -/
theorem Held.of_entry {entries : List (String × Json)} (h : Held room (.object entries))
    {e : String × Json} (he : e ∈ entries) : Held (room - 1) e.2 := by
  obtain ⟨htidy, hints, hdepth⟩ := h
  rw [allInts] at hints
  rw [depth] at hdepth
  cases htidy with
  | object hnames hentries =>
    exact ⟨hentries e he, allInEntries_iff.mp hints e he,
      depthEntries_le.mp (Nat.le_sub_one_of_lt hdepth) e he⟩

theorem Held.writable {j : Json} (h : Held room j) (hroom : room ≤ depthLimit) : j.Writable :=
  ⟨h.integers, Nat.le_trans h.nesting hroom⟩

/-! ## 3. Numbers -/

theorem asciiDigit?_lt {c : Char} {d : Nat} (h : asciiDigit? c = some d) : d < 10 := by
  unfold asciiDigit? at h
  split at h
  · rename_i hc
    cases h
    have hle : c.toNat ≤ 57 := hc.2
    have hzero : '0'.toNat = 48 := rfl
    omega
  · cases h

theorem spanDigits_lt (cs : List Char) : ∀ d ∈ (spanDigits cs).1, d < 10 := by
  induction cs with
  | nil => nofun
  | cons c cs ih =>
    unfold spanDigits
    split
    · rename_i d hd
      exact List.forall_mem_cons.mpr ⟨asciiDigit?_lt hd, ih⟩
    · nofun

theorem foldl_digits_lt : ∀ {ds : List Nat} (n : Nat), (∀ d ∈ ds, d < 10) →
    ds.foldl (fun n d => 10 * n + d) n < (n + 1) * tenTo ds.length
  | [], n, _ => by simp [tenTo]
  | d :: ds, n, h => by
    obtain ⟨hd, hds⟩ := List.forall_mem_cons.mp h
    have hrest := foldl_digits_lt (10 * n + d) hds
    have hgrow : (10 * n + d + 1) * tenTo ds.length ≤ (10 * (n + 1)) * tenTo ds.length :=
      Nat.mul_le_mul_right _ (by omega)
    have hpow : tenTo (ds.length + 1) = tenTo ds.length * 10 := Nat.pow_succ ..
    calc (d :: ds).foldl (fun n d => 10 * n + d) n
        < (10 * n + d + 1) * tenTo ds.length := hrest
      _ ≤ (10 * (n + 1)) * tenTo ds.length := hgrow
      _ = (n + 1) * tenTo (d :: ds).length := by
        rw [List.length_cons, hpow, Nat.mul_comm 10, Nat.mul_assoc, Nat.mul_comm 10]

/-- Digits spell a number of no more digits than they are. -/
theorem ofDigits_lt {ds : List Nat} (h : ∀ d ∈ ds, d < 10) {limit : Nat}
    (hlimit : ds.length ≤ limit) : ofDigits ds < tenTo limit := by
  have hlt := foldl_digits_lt 0 h
  rw [Nat.zero_add, Nat.one_mul] at hlt
  exact Nat.lt_of_lt_of_le hlt (Nat.pow_le_pow_right (Nat.succ_pos 9) hlimit)

theorem wholePart_lt {cs : List Char} {whole : List Nat} {rest : List Char}
    (h : wholePart cs = some (whole, rest)) : ∀ d ∈ whole, d < 10 := by
  unfold wholePart at h
  split at h
  · cases h
    simp
  · split at h
    · cases h
    · rename_i hspan
      cases h
      have hlt := spanDigits_lt cs
      rwa [hspan] at hlt

theorem shortInt_iff {n : Int} : shortInt n = true ↔ n.natAbs < tenTo digitLimit :=
  decide_eq_true_iff

theorem natAbs_signed (negative : Bool) (n : Nat) : (signed negative n).natAbs = n := by
  cases negative
  · exact Int.natAbs_natCast n
  · exact (Int.natAbs_neg _).trans (Int.natAbs_natCast n)

theorem shortInt_signed {negative : Bool} {n : Nat} (h : n < tenTo digitLimit) :
    shortInt (signed negative n) = true :=
  shortInt_iff.mpr ((natAbs_signed negative n).symm ▸ h)

theorem allInts_int (p : Int → Bool) (n : Int) : (int n).allInts p = p n := rfl

theorem held_int {n : Int} (h : shortInt n = true) : Held room (.int n) :=
  ⟨.int n, (allInts_int shortInt n).trans h, Nat.zero_le _⟩

theorem number_held {negative : Bool} {cs rest : List Char} {j : Json}
    (h : number negative cs = .ok (j, rest)) : Held room j := by
  unfold number at h
  split at h
  · cases h
  · rename_i whole more hwhole
    dsimp only at h
    split at h
    · split at h
      · cases h
      · rename_i hshort
        cases h
        have hlt := ofDigits_lt (wholePart_lt hwhole) (Nat.le_of_not_lt hshort)
        exact held_int (shortInt_signed hlt)
    · cases h
      exact ⟨.float _, rfl, Nat.zero_le _⟩

/-! ## 4. Whatever is read -/

theorem scalar_held {cs rest : List Char} {j : Json} (h : scalar cs = .ok (j, rest)) :
    Held room j := by
  unfold scalar at h
  split at h
  · obtain ⟨⟨s, more⟩, -, h⟩ := Except.bind_eq_ok h
    cases h
    exact ⟨.text s, rfl, Nat.zero_le _⟩
  · cases h
    exact ⟨.null, rfl, Nat.zero_le _⟩
  · cases h
    exact ⟨.bool _, rfl, Nat.zero_le _⟩
  · cases h
    exact ⟨.bool _, rfl, Nat.zero_le _⟩
  · cases h
    exact ⟨.float _, rfl, Nat.zero_le _⟩
  · cases h
    exact ⟨.float _, rfl, Nat.zero_le _⟩
  · cases h
    exact ⟨.float _, rfl, Nat.zero_le _⟩
  · exact number_held h
  · exact number_held h

/-- Whatever is read in so many steps is held in the room there is. -/
structure ReadsHeld (fuel : Nat) : Prop where
  value : ∀ {room cs j rest}, Json.value fuel room cs = .ok (j, rest) → Held room j
  items : ∀ {room cs js rest}, Json.items fuel room cs = .ok (js, rest) → ∀ j ∈ js, Held room j
  members : ∀ {room cs es rest}, Json.members fuel room cs = .ok (es, rest) →
    ∀ e ∈ es, Held room e.2

variable {fuel : Nat}

theorem ReadsHeld.value_succ (ih : ReadsHeld fuel) {cs rest : List Char} {j : Json}
    (h : Json.value (fuel + 1) room cs = .ok (j, rest)) : Held room j := by
  unfold Json.value at h
  split at h
  · cases h
  · obtain rfl : fuel = _ := Nat.succ.inj ‹_›
    split at h
    · cases h
    · split at h
      · cases h
        exact .list nofun
      · obtain ⟨⟨js, more⟩, hitems, h⟩ := Except.bind_eq_ok h
        cases h
        exact .list (ih.items hitems)
  · obtain rfl : fuel = _ := Nat.succ.inj ‹_›
    split at h
    · cases h
    · split at h
      · cases h
        exact .object List.nodup_nil nofun
      · obtain ⟨⟨es, more⟩, hmembers, h⟩ := Except.bind_eq_ok h
        cases h
        exact .object (Entries.nodup_ofPairs es) fun e he =>
          ih.members hmembers e (Entries.mem_ofPairs he)
  · exact scalar_held h

theorem ReadsHeld.items_succ (ih : ReadsHeld fuel) {cs rest : List Char} {js : List Json}
    (h : Json.items (fuel + 1) room cs = .ok (js, rest)) : ∀ j ∈ js, Held room j := by
  unfold Json.items at h
  obtain ⟨⟨j, more⟩, hvalue, h⟩ := Except.bind_eq_ok h
  dsimp only at h
  split at h
  · cases h
    exact List.forall_mem_singleton.mpr (ih.value hvalue)
  · obtain ⟨⟨js', more'⟩, hitems, h⟩ := Except.bind_eq_ok h
    cases h
    exact List.forall_mem_cons.mpr ⟨ih.value hvalue, ih.items hitems⟩
  · cases h

theorem ReadsHeld.members_succ (ih : ReadsHeld fuel) {cs rest : List Char}
    {es : List (String × Json)} (h : Json.members (fuel + 1) room cs = .ok (es, rest)) :
    ∀ e ∈ es, Held room e.2 := by
  unfold Json.members at h
  split at h
  · cases h
  · obtain rfl : fuel = _ := Nat.succ.inj ‹_›
    obtain ⟨⟨name, more⟩, -, h⟩ := Except.bind_eq_ok h
    dsimp only at h
    split at h
    · obtain ⟨⟨j, more'⟩, hvalue, h⟩ := Except.bind_eq_ok h
      dsimp only at h
      split at h
      · cases h
        exact List.forall_mem_singleton.mpr (ih.value hvalue)
      · obtain ⟨⟨es', more''⟩, hmembers, h⟩ := Except.bind_eq_ok h
        cases h
        exact List.forall_mem_cons.mpr ⟨ih.value hvalue, ih.members hmembers⟩
      · cases h
    · cases h
  · cases h

theorem readsHeld : ∀ fuel, ReadsHeld fuel
  | 0 => by
    refine ⟨fun h => ?_, fun h => ?_, fun h => ?_⟩
    · unfold Json.value at h
      cases h
    · unfold Json.items at h
      cases h
    · unfold Json.members at h
      cases h
  | fuel + 1 =>
    ⟨(readsHeld fuel).value_succ, (readsHeld fuel).items_succ, (readsHeld fuel).members_succ⟩

/-- **Whatever is read is held**: it can be written again, and no name comes twice in it. -/
theorem read_held {s : String} {j : Json} (h : read s = .ok j) : Held depthLimit j := by
  unfold read readChars at h
  obtain ⟨⟨j', rest⟩, hvalue, h⟩ := Except.bind_eq_ok h
  dsimp only at h
  split at h
  · cases h
    exact (readsHeld _).value hvalue
  · cases h

/-! ## 5. Texts that need not be JSON -/

theorem attempt_eq_some {text : String} {j : Json} :
    attempt text = .ok (some j) ↔ read text = .ok j := by
  unfold attempt
  constructor
  · intro h
    split at h <;> cases h
    assumption
  · intro h
    rw [h]

/-- Whatever a text is, only its nesting can be at fault. -/
theorem attempt_eq_error {text : String} {fault : Fault} :
    attempt text = .error fault ↔ read text = .error .tooDeep ∧ fault = .tooDeep := by
  unfold attempt
  constructor
  · intro h
    split at h <;> cases h
    exact ⟨‹_›, rfl⟩
  · rintro ⟨h, rfl⟩
    rw [h]

/-! ## 6. Lists in lists -/

/-- Brackets for more lists than may be opened. -/
theorem value_brackets : ∀ (room : Nat) {fuel : Nat} (cs : List Char), 2 * room < fuel →
    value fuel room (List.replicate (room + 1) '[' ++ cs) = .error .tooDeep
  | 0, fuel + 1, cs, _ => by
    show value (fuel + 1) 0 ('[' :: cs) = _
    rw [value]
  | room + 1, fuel + 2, cs, h => by
    have hfuel : 2 * room < fuel := by omega
    have hitems : items (fuel + 1) room (List.replicate (room + 1) '[' ++ cs) =
        .error .tooDeep := by
      rw [items, value_brackets room cs hfuel]
      rfl
    show value (fuel + 2) (room + 1) ('[' :: '[' :: (List.replicate room '[' ++ cs)) = _
    rw [value]
    show items (fuel + 1) room (List.replicate (room + 1) '[' ++ cs) >>= _ = _
    rw [hitems, Except.error_bind]

/-- A list in a list, and so on `n` times. -/
def nested (n : Nat) : String :=
  String.ofList (List.replicate n '[' ++ List.replicate n ']')

theorem nested_chars {n : Nat} (h : depthLimit < n) :
    ∃ cs, (nested n).toList = List.replicate (depthLimit + 1) '[' ++ cs ∧
      2 * depthLimit < 2 * (nested n).toList.length + 2 := by
  obtain ⟨more, rfl⟩ : ∃ more, n = depthLimit + 1 + more := ⟨n - (depthLimit + 1), by omega⟩
  refine ⟨List.replicate more '[' ++ List.replicate (depthLimit + 1 + more) ']', ?_, ?_⟩
  · rw [nested, String.toList_ofList, List.replicate_add, List.append_assoc]
  · rw [nested, String.toList_ofList, List.length_append, List.length_replicate]
    omega

theorem read_nested {n : Nat} (h : depthLimit < n) : read (nested n) = .error .tooDeep := by
  obtain ⟨cs, hchars, hlength⟩ := nested_chars h
  have hskip : skip (nested n).toList = List.replicate (depthLimit + 1) '[' ++ cs := by
    rw [hchars]
    rfl
  rw [read, readChars, hskip, value_brackets depthLimit cs hlength]
  rfl

end Json

end LintHost
