import LintHost.Proofs.NumberText

/-!
# JSON text that is read back

In all three styles, the text of a value is read as that value: every character comes back from its
escape, every number from its digits, and every container from its brackets, whatever the
indentation. Only the values that are held have such a text.

* `Json.hex_four`, `Json.codePoints_stringChar`, `Json.joinHalves_units`: one character;
* `Json.string_stringText`: a string;
* `Json.ReadBack`: the text of a value is read as the value, wherever it stands;
* `Json.read_write`: so is a whole text.
-/

namespace LintHost.Json

open LintHost.Number LintHost.Text LintHost.Binary64

variable {style : Style} {rest : List Char}

/-! ## 1. Characters -/

theorem hexDigit?_digitChar : ∀ d < 16, hexDigit? d.digitChar = some d := by decide

/-- A number below `16 ^ 4` has four hexadecimal digits, with zeros in front of them. -/
theorem hex_four {n : Nat} (h : n < 65536) : hex 4 n =
    [(n / 4096).digitChar, (n / 256 % 16).digitChar, (n / 16 % 16).digitChar,
      (n % 16).digitChar] := by
  have hone (m : Nat) (hm : m < 16) : Nat.toDigits 16 m = [m.digitChar] :=
    Nat.toDigits_of_lt_base hm
  have hmore (m : Nat) (hm : 16 ≤ m) :
      Nat.toDigits 16 m = Nat.toDigits 16 (m / 16) ++ [(m % 16).digitChar] :=
    Nat.toDigits_of_base_le (by decide) hm
  have hzero : (0 : Nat).digitChar = '0' := rfl
  have h₂ : n / 16 / 16 = n / 256 := Nat.div_div_eq_div_mul n 16 16
  have h₃ : n / 256 / 16 = n / 4096 := Nat.div_div_eq_div_mul n 256 16
  unfold hex
  dsimp only
  by_cases h1 : n < 16
  · have hthree : n / 4096 = 0 ∧ n / 256 % 16 = 0 ∧ n / 16 % 16 = 0 ∧ n % 16 = n := by omega
    rw [hone n h1, hthree.1, hthree.2.1, hthree.2.2.1, hthree.2.2.2, hzero]
    rfl
  · by_cases h2 : n < 256
    · have htwo : n / 4096 = 0 ∧ n / 256 % 16 = 0 ∧ n / 16 % 16 = n / 16 := by omega
      rw [hmore n (by omega), hone (n / 16) (by omega), htwo.1, htwo.2.1, htwo.2.2, hzero]
      rfl
    · by_cases h3 : n < 4096
      · have hone' : n / 4096 = 0 ∧ n / 256 % 16 = n / 256 := by omega
        rw [hmore n (by omega), hmore (n / 16) (by omega), h₂, hone (n / 256) (by omega), hone'.1,
          hone'.2, hzero]
        rfl
      · rw [hmore n (by omega), hmore (n / 16) (by omega), h₂, hmore (n / 256) (by omega), h₃,
          hone (n / 4096) (by omega)]
        rfl

/-- The escape of a UTF-16 unit is read as that unit. -/
theorem codePoints_unitEscape {n : Nat} (h : n < 65536) :
    codePoints (unitEscape n ++ rest) =
      (codePoints rest).map fun (ns, rest) => (n :: ns, rest) := by
  have hvalue : hex4? (n / 4096).digitChar (n / 256 % 16).digitChar (n / 16 % 16).digitChar
      (n % 16).digitChar = some n := by
    simp only [hex4?, hexDigit?_digitChar (n / 4096) (by omega),
      hexDigit?_digitChar (n / 256 % 16) (by omega), hexDigit?_digitChar (n / 16 % 16) (by omega),
      hexDigit?_digitChar (n % 16) (by omega), Option.bind_eq_bind, Option.bind_some]
    exact congrArg some (by omega)
  rw [unitEscape, hex_four h]
  show codePoints ('\\' :: 'u' :: _ :: _ :: _ :: _ :: rest) = _
  rw [codePoints, hvalue]
  cases codePoints rest <;> rfl

/-- The code points that a character is read as: a pair of halves where it was escaped as one. -/
def units (ascii : Bool) (c : Char) : List Nat :=
  if ascii ∧ 0x10000 ≤ c.toNat then
    [0xd800 + (c.toNat - 0x10000) / 0x400, 0xdc00 + (c.toNat - 0x10000) % 0x400]
  else [c.toNat]

theorem toNat_lt (c : Char) : c.toNat < 0x110000 := by
  rcases c.valid with h | h
  · exact Nat.lt_trans h (by decide)
  · exact h.2

theorem not_half (c : Char) : isHighHalf c.toNat = false ∧ isLowHalf c.toNat = false := by
  have hvalid : c.toNat < 0xd800 ∨ 0xdfff < c.toNat ∧ c.toNat < 0x110000 := c.valid
  simp only [isHighHalf, isLowHalf, Bool.and_eq_false_iff, decide_eq_false_iff_not]
  omega

theorem codePoints_escape {c : Char} {ascii : Bool} (h : c.toNat < 0x10000 ∨ ascii = true) :
    codePoints (escape c ++ rest) =
      (codePoints rest).map fun (ns, rest) => (units ascii c ++ ns, rest) := by
  have hlt := toNat_lt c
  unfold escape units
  dsimp only
  by_cases hbig : c.toNat < 0x10000
  · rw [if_pos hbig, if_neg (by omega), codePoints_unitEscape hbig]
    rfl
  · have hascii : ascii = true := h.resolve_left hbig
    rw [if_neg hbig, if_pos ⟨hascii, Nat.le_of_not_lt hbig⟩, List.append_assoc,
      codePoints_unitEscape (by omega), codePoints_unitEscape (by omega)]
    cases codePoints rest <;> rfl

theorem codePoints_short {ascii : Bool} {e x : Char} (h : shortEscape? e = some x)
    (hx : x.toNat < 0x10000) : codePoints ('\\' :: e :: rest) =
      (codePoints rest).map fun (ns, rest) => (units ascii x ++ ns, rest) := by
  have hu : e ≠ 'u' := by
    rintro rfl
    cases h
  have hunits : units ascii x = [x.toNat] := if_neg fun hpair => Nat.not_lt.mpr hpair.2 hx
  rw [hunits]
  cases hrest : codePoints rest <;> simp [codePoints, hu, h, hrest] <;> rfl

theorem codePoints_raw {c : Char} (hquote : c ≠ '"') (hslash : c ≠ '\\') (hc : ¬c.toNat < 0x20) :
    codePoints (c :: rest) = (codePoints rest).map fun (ns, rest) => (c.toNat :: ns, rest) := by
  cases hrest : codePoints rest <;> simp [codePoints, hslash, hc, hrest] <;> rfl

/-- **One character is read back** from the way it is written. -/
theorem codePoints_stringChar (ascii : Bool) (c : Char) :
    codePoints (stringChar ascii c ++ rest) =
      (codePoints rest).map fun (ns, rest) => (units ascii c ++ ns, rest) := by
  unfold stringChar
  split
  -- The seven characters with short escapes come first.
  iterate 7 exact codePoints_short rfl (by decide)
  rename_i hquote hslash _ _ _ _ _
  split
  · rename_i hescaped
    exact codePoints_escape (hescaped.imp (fun h => Nat.lt_trans h (by decide)) And.left)
  · rename_i hraw
    obtain ⟨hlow, hhigh⟩ := not_or.mp hraw
    have hunits : units ascii c = [c.toNat] :=
      if_neg fun h => hhigh ⟨h.1, Nat.lt_of_lt_of_le (by decide) h.2⟩
    rw [hunits]
    exact codePoints_raw hquote hslash hlow

/-- The code points of a character come together again. -/
theorem joinHalves_units (ascii : Bool) (c : Char) (ns : List Nat) :
    joinHalves (units ascii c ++ ns) = c :: joinHalves ns := by
  unfold units
  split
  · rename_i hpair
    have hlt := toNat_lt c
    have hhigh : isHighHalf (0xd800 + (c.toNat - 0x10000) / 0x400) = true := by
      simp only [isHighHalf, Bool.and_eq_true, decide_eq_true_eq]
      omega
    have hlow : isLowHalf (0xdc00 + (c.toNat - 0x10000) % 0x400) = true := by
      simp only [isLowHalf, Bool.and_eq_true, decide_eq_true_eq]
      omega
    have hvalue : 0x10000 + (0xd800 + (c.toNat - 0x10000) / 0x400 - 0xd800) * 0x400 +
        (0xdc00 + (c.toNat - 0x10000) % 0x400 - 0xdc00) = c.toNat := by
      omega
    show joinHalves (_ :: _ :: ns) = _
    rw [joinHalves, if_pos ⟨hhigh, hlow⟩, hvalue, Char.ofNat_toNat]
  · obtain ⟨hhigh, hlow⟩ := not_half c
    cases ns with
    | nil => simp [joinHalves, hhigh, hlow, Char.ofNat_toNat]
    | cons m ns => simp [joinHalves, hhigh, hlow, Char.ofNat_toNat]

/-! ## 2. Strings -/

theorem codePoints_chars (ascii : Bool) (cs : List Char) :
    codePoints (cs.flatMap (stringChar ascii) ++ '"' :: rest) =
      .ok (cs.flatMap (units ascii), rest) := by
  induction cs with
  | nil => rfl
  | cons c cs ih =>
    rw [List.flatMap_cons, List.append_assoc, codePoints_stringChar, ih]
    rfl

theorem joinHalves_chars (ascii : Bool) (cs : List Char) :
    joinHalves (cs.flatMap (units ascii)) = cs := by
  induction cs with
  | nil => rfl
  | cons c cs ih => rw [List.flatMap_cons, joinHalves_units, ih]

/-- **A string is read back.** -/
theorem string_stringText (ascii : Bool) (s : String) :
    string (s.toList.flatMap (stringChar ascii) ++ '"' :: rest) = .ok (s, rest) := by
  unfold string
  rw [codePoints_chars, Except.ok_bind]
  show Except.ok (String.ofList (joinHalves _), rest) = _
  rw [joinHalves_chars, String.ofList_toList]

theorem stringText_append (ascii : Bool) (s : String) :
    stringText ascii s ++ rest = '"' :: (s.toList.flatMap (stringChar ascii) ++ '"' :: rest) := by
  simp [stringText]

/-! ## 3. What stands between values -/

/-- Blanks are passed over up to where a value begins. -/
theorem skip_blanks {blanks cs : List Char} (hblanks : ∀ c ∈ blanks, isBlank c = true)
    (hcs : ∀ c, cs.head? = some c → isBlank c = false) : skip (blanks ++ cs) = cs := by
  induction blanks with
  | nil => exact skip_eq_self hcs
  | cons c blanks ih =>
    obtain ⟨hc, hblanks⟩ := List.forall_mem_cons.mp hblanks
    have hrest := ih hblanks
    unfold skip at hrest ⊢
    rw [List.cons_append, List.dropWhile_cons_of_pos hc, hrest]

theorem newline_blank (style : Style) (level : Nat) :
    ∀ c ∈ newline style level, isBlank c = true := by
  intro c hc
  unfold newline at hc
  split at hc
  · rcases List.mem_cons.mp hc with rfl | hc
    · rfl
    · rw [List.eq_of_mem_replicate hc]
      rfl
  · cases hc

/-- What follows the comma between two items. -/
def gap (style : Style) (level : Nat) : List Char :=
  if style.lines then newline style level else [' ']

theorem separator_eq (style : Style) (level : Nat) :
    separator style level = ',' :: gap style level := by
  unfold separator gap
  split <;> rfl

theorem gap_blank (style : Style) (level : Nat) : ∀ c ∈ gap style level, isBlank c = true := by
  unfold gap
  split
  · exact newline_blank style level
  · simp [isBlank]

/-- What closes a container may follow a number, be it on a line of its own or not. -/
theorem closing_newline (style : Style) (level : Nat) {b : Char} (hb : b = ']' ∨ b = '\x7d') :
    Closing (newline style level ++ b :: rest) := by
  intro c hc
  unfold newline at hc
  split at hc
  · cases hc
    exact .inr (.inl rfl)
  · cases hc
    exact .inr (.inr hb)

theorem skip_newline (style : Style) (level : Nat) {b : Char} (hb : b = ']' ∨ b = '\x7d') :
    skip (newline style level ++ b :: rest) = b :: rest := by
  refine skip_blanks (newline_blank style level) ?_
  rintro c ⟨⟩
  rcases hb with rfl | rfl <;> rfl

theorem closing_comma : Closing (',' :: rest) := by
  rintro c ⟨⟩
  exact .inl rfl

/-! ## 4. Scalars -/

/-- A value begins with this: no blank, and nothing that ends a list. -/
def Opening (c : Char) : Prop := isBlank c = false ∧ c ≠ ']'

/-- A text begins with what begins a value, and not with that of a container. -/
def Flat (cs : List Char) : Prop :=
  ∃ c more, cs = c :: more ∧ Opening c ∧ c ≠ '[' ∧ c ≠ '\x7b'

theorem flat_digit {c : Char} (h : c.isDigit = true) (more : List Char) : Flat (c :: more) := by
  have hne : ∀ b : Char, b.isDigit = false → c ≠ b := by
    rintro b hb rfl
    exact Bool.noConfusion (hb.symm.trans h)
  refine ⟨c, more, rfl, ⟨?_, hne _ rfl⟩, hne _ rfl, hne _ rfl⟩
  simp [isBlank, hne ' ' rfl, hne '\t' rfl, hne '\n' rfl, hne '\r' rfl]

theorem flat_minus (more : List Char) : Flat ('-' :: more) :=
  ⟨'-', more, rfl, ⟨rfl, by decide⟩, by decide, by decide⟩

theorem flat_signed (negative : Bool) {cs : List Char}
    (h : ∃ c more, cs = c :: more ∧ c.isDigit = true) : Flat (signText negative ++ cs) := by
  obtain ⟨c, more, rfl, hc⟩ := h
  cases negative with
  | true => exact flat_minus _
  | false => exact flat_digit hc more

theorem flat_intText (n : Int) : Flat (intText n) := by
  rw [intText_eq]
  exact flat_signed _ (toDigits_cons _)

theorem flat_floatText (x : Binary64) : Flat (floatLayout.render x) := by
  cases x with
  | nan => exact ⟨'N', _, rfl, ⟨rfl, by decide⟩, by decide, by decide⟩
  | infinite negative =>
    cases negative with
    | true => exact flat_minus _
    | false => exact ⟨'I', _, rfl, ⟨rfl, by decide⟩, by decide, by decide⟩
  | finite negative rank =>
    refine flat_signed negative ?_
    split
    · exact ⟨'0', _, rfl, rfl⟩
    · exact write_cons _

/-- A value that is no container. -/
def IsScalar : Json → Prop
  | .list _ | .object _ => False
  | _ => True

theorem flat_render (style : Style) (level : Nat) {j : Json} (hj : j.IsScalar) :
    Flat (render style level j) := by
  cases j with
  | null => exact ⟨'n', _, rfl, ⟨rfl, by decide⟩, by decide, by decide⟩
  | bool b =>
    cases b with
    | true => exact ⟨'t', _, rfl, ⟨rfl, by decide⟩, by decide, by decide⟩
    | false => exact ⟨'f', _, rfl, ⟨rfl, by decide⟩, by decide, by decide⟩
  | int n =>
    rw [render]
    exact flat_intText n
  | float x =>
    rw [render]
    exact flat_floatText x
  | text s =>
    rw [render]
    exact ⟨'"', _, rfl, ⟨rfl, by decide⟩, by decide, by decide⟩
  | list items => exact hj.elim
  | object entries => exact hj.elim

theorem scalar_render (style : Style) (level : Nat) {j : Json} (hj : j.IsScalar)
    (hints : j.allInts shortInt = true) (hrest : Closing rest) :
    scalar (render style level j ++ rest) = .ok (j, rest) := by
  cases j with
  | null => rfl
  | bool b => cases b <;> rfl
  | int n =>
    rw [render]
    exact scalar_intText ((allInts_int shortInt n).symm.trans hints) hrest
  | float x =>
    rw [render]
    exact scalar_floatText x hrest
  | text s =>
    rw [render, stringText_append]
    show string _ >>= _ = _
    rw [string_stringText]
    rfl
  | list items => exact hj.elim
  | object entries => exact hj.elim

/-- A text that opens no container is that of a scalar. -/
theorem value_scalar {c : Char} (hlist : c ≠ '[') (hobject : c ≠ '\x7b') (cs : List Char)
    (fuel room : Nat) : value (fuel + 1) room (c :: cs) = scalar (c :: cs) := by
  unfold value
  split
  · exact absurd ‹_› (Nat.succ_ne_zero fuel)
  · exact absurd (List.cons.inj ‹_›).1 hlist
  · exact absurd (List.cons.inj ‹_›).1 hobject
  · rfl

theorem value_flat {cs : List Char} (h : Flat cs) (fuel room : Nat) :
    value (fuel + 1) room cs = scalar cs := by
  obtain ⟨c, more, rfl, -, hlist, hobject⟩ := h
  exact value_scalar hlist hobject more fuel room

/-! ## 5. Containers -/

/-- The text of a value is read as the value, whatever closes it, if there are enough steps and
    room. -/
def ReadBack (style : Style) (room : Nat) (j : Json) : Prop :=
  ∀ level fuel rest, Closing rest → 2 * (render style level j).length ≤ fuel →
    value fuel room (render style level j ++ rest) = .ok (j, rest)

theorem opening_render (style : Style) (level : Nat) (j : Json) :
    ∃ c more, render style level j = c :: more ∧ Opening c := by
  by_cases hj : j.IsScalar
  · obtain ⟨c, more, hcs, hc, -, -⟩ := flat_render style level hj
    exact ⟨c, more, hcs, hc⟩
  · cases j with
    | list items =>
      cases items with
      | nil => exact ⟨'[', _, by rw [render], rfl, by decide⟩
      | cons j js => exact ⟨'[', _, by rw [render]; rfl, rfl, by decide⟩
    | object entries =>
      cases entries with
      | nil => exact ⟨'\x7b', _, by rw [render], rfl, by decide⟩
      | cons e es => exact ⟨'\x7b', _, by rw [render]; rfl, rfl, by decide⟩
    | null | bool | int | float | text => exact absurd trivial hj

/-- The text of items, one after the other. -/
def itemsText (style : Style) (level : Nat) : List Json → List Char
  | [] => []
  | j :: js => render style level j ++ renderItems style level js

/-- The text of a member. -/
def memberText (style : Style) (level : Nat) (e : String × Json) : List Char :=
  stringText style.ascii e.1 ++ ':' :: ' ' :: render style level e.2

/-- The text of members, one after the other. -/
def membersText (style : Style) (level : Nat) : List (String × Json) → List Char
  | [] => []
  | e :: es => memberText style level e ++ renderMembers style level es

theorem renderItems_cons (style : Style) (level : Nat) (j : Json) (js : List Json) :
    renderItems style level (j :: js) =
      ',' :: (gap style level ++ itemsText style level (j :: js)) := by
  rw [renderItems, separator_eq, itemsText]
  simp

theorem renderMembers_cons (style : Style) (level : Nat) (e : String × Json)
    (es : List (String × Json)) : renderMembers style level (e :: es) =
      ',' :: (gap style level ++ membersText style level (e :: es)) := by
  obtain ⟨name, j⟩ := e
  rw [renderMembers, separator_eq, membersText, memberText]
  simp

theorem render_list (style : Style) (level : Nat) (j : Json) (js : List Json) :
    render style level (.list (j :: js)) = '[' :: (newline style (level + 1) ++
      (itemsText style (level + 1) (j :: js) ++ (newline style level ++ [']']))) := by
  rw [render, itemsText]
  simp

theorem render_object (style : Style) (level : Nat) (e : String × Json)
    (es : List (String × Json)) :
    render style level (.object (e :: es)) = '\x7b' :: (newline style (level + 1) ++
      (membersText style (level + 1) (e :: es) ++ (newline style level ++ ['\x7d']))) := by
  obtain ⟨name, j⟩ := e
  rw [render, membersText, memberText]
  simp

theorem skip_items (style : Style) {blanks : List Char}
    (hblanks : ∀ c ∈ blanks, isBlank c = true) (level : Nat) (j : Json) (js : List Json) (rest : List Char) :
    ∃ c more, skip (blanks ++ (itemsText style level (j :: js) ++ rest)) = c :: more ∧
      itemsText style level (j :: js) ++ rest = c :: more ∧ c ≠ ']' := by
  obtain ⟨c, more, hcs, hblank, hc⟩ := opening_render style level j
  have htext : itemsText style level (j :: js) ++ rest =
      c :: (more ++ renderItems style level js ++ rest) := by
    rw [itemsText, hcs]
    simp
  refine ⟨c, _, ?_, htext, hc⟩
  rw [htext]
  refine skip_blanks hblanks ?_
  rintro b ⟨⟩
  exact hblank

variable {room : Nat}

/-- **The items of a list are read back**, up to its bracket. -/
theorem items_readBack (level outer : Nat) : ∀ {items : List Json} {fuel : Nat}, items ≠ [] →
    (∀ j ∈ items, ReadBack style room j) → 2 * (itemsText style level items).length + 1 ≤ fuel →
    Json.items fuel room (itemsText style level items ++ (newline style outer ++ ']' :: rest)) =
      .ok (items, rest)
  | [], _, hne, _, _ => absurd rfl hne
  | _ :: _, 0, _, _, hfuel => absurd hfuel (Nat.not_succ_le_zero _)
  | [j], fuel + 1, _, h, hfuel => by
    have hlength : 2 * (render style level j).length ≤ fuel := by
      simp [itemsText, renderItems] at hfuel
      omega
    have hvalue := h j List.mem_cons_self level fuel (newline style outer ++ ']' :: rest)
      (closing_newline style outer (.inl rfl)) hlength
    have htext : itemsText style level [j] = render style level j := by
      simp [itemsText, renderItems]
    rw [htext, Json.items, hvalue, Except.ok_bind]
    dsimp only
    rw [skip_newline style outer (.inl rfl)]
    rfl
  | j :: j' :: js, fuel + 1, _, h, hfuel => by
    have hsplit : itemsText style level (j :: j' :: js) = render style level j ++
        ',' :: (gap style level ++ itemsText style level (j' :: js)) := by
      rw [itemsText, renderItems_cons]
    rw [hsplit] at hfuel ⊢
    have hlength : 2 * (render style level j).length ≤ fuel ∧
        2 * (itemsText style level (j' :: js)).length + 1 ≤ fuel := by
      simp at hfuel
      omega
    have hvalue := h j List.mem_cons_self level fuel (',' :: (gap style level ++
      (itemsText style level (j' :: js) ++ (newline style outer ++ ']' :: rest)))) closing_comma
      hlength.1
    have hrest := items_readBack level outer (List.cons_ne_nil j' js)
      (fun i hi => h i (List.mem_cons_of_mem _ hi)) hlength.2
    obtain ⟨c, more, hskip, htext, -⟩ := skip_items style (gap_blank style level) level j' js
      (newline style outer ++ ']' :: rest)
    rw [htext] at hrest
    rw [List.append_assoc, List.cons_append, List.append_assoc, Json.items, hvalue, Except.ok_bind]
    show Json.items fuel room (skip (gap style level ++ _)) >>= _ = _
    rw [hskip, hrest]
    rfl

/-- A member is read back, up to its comma or brace. -/
theorem member_readBack (level : Nat) {e : String × Json} (h : ReadBack style room e.2)
    {fuel : Nat} (hfuel : 2 * (memberText style level e).length ≤ fuel) (hrest : Closing rest) :
    Json.members (fuel + 1) room (memberText style level e ++ rest) =
      match skip rest with
      | '\x7d' :: rest => .ok ([e], rest)
      | ',' :: rest => do
        let (es, rest) ← Json.members fuel room (skip rest)
        return (e :: es, rest)
      | _ => .error .malformed := by
  obtain ⟨name, j⟩ := e
  have hlength : 2 * (render style level j).length ≤ fuel := by
    simp [memberText] at hfuel
    omega
  have htext : memberText style level (name, j) ++ rest = '"' ::
      (name.toList.flatMap (stringChar style.ascii) ++
        '"' :: (':' :: ' ' :: (render style level j ++ rest))) := by
    simp [memberText, stringText]
  obtain ⟨c, more, hcs, hblank, -⟩ := opening_render style level j
  have hblank' : ∀ b ∈ [' '], isBlank b = true := by simp [isBlank]
  have hskip : skip (' ' :: (render style level j ++ rest)) = render style level j ++ rest := by
    refine skip_blanks hblank' ?_
    rw [hcs]
    rintro b ⟨⟩
    exact hblank
  have hvalue := h level fuel rest hrest hlength
  rw [htext, Json.members, string_stringText, Except.ok_bind]
  show Json.value fuel room (skip (' ' :: _)) >>= _ = _
  rw [hskip, hvalue]
  rfl

theorem skip_members (style : Style) {blanks : List Char}
    (hblanks : ∀ c ∈ blanks, isBlank c = true) (level : Nat) (e : String × Json)
    (es : List (String × Json)) (rest : List Char) :
    ∃ more, skip (blanks ++ (membersText style level (e :: es) ++ rest)) = '"' :: more ∧
      membersText style level (e :: es) ++ rest = '"' :: more := by
  obtain ⟨name, j⟩ := e
  refine ⟨_, ?_, rfl⟩
  refine skip_blanks hblanks ?_
  rintro c ⟨⟩
  rfl

/-- **The members of an object are read back**, up to its brace. -/
theorem members_readBack (level outer : Nat) : ∀ {entries : List (String × Json)} {fuel : Nat},
    entries ≠ [] → (∀ e ∈ entries, ReadBack style room e.2) →
    2 * (membersText style level entries).length + 1 ≤ fuel →
    Json.members fuel room (membersText style level entries ++
      (newline style outer ++ '\x7d' :: rest)) = .ok (entries, rest)
  | [], _, hne, _, _ => absurd rfl hne
  | _ :: _, 0, _, _, hfuel => absurd hfuel (Nat.not_succ_le_zero _)
  | [e], fuel + 1, _, h, hfuel => by
    have htext : membersText style level [e] = memberText style level e := by
      simp [membersText, renderMembers]
    rw [htext] at hfuel ⊢
    rw [member_readBack level (h e List.mem_cons_self) (by omega)
      (closing_newline style outer (.inr rfl)), skip_newline style outer (.inr rfl)]
    rfl
  | e :: e' :: es, fuel + 1, _, h, hfuel => by
    have hsplit : membersText style level (e :: e' :: es) = memberText style level e ++
        ',' :: (gap style level ++ membersText style level (e' :: es)) := by
      rw [membersText, renderMembers_cons]
    rw [hsplit] at hfuel ⊢
    have hlength : 2 * (memberText style level e).length ≤ fuel ∧
        2 * (membersText style level (e' :: es)).length + 1 ≤ fuel := by
      simp at hfuel
      omega
    have hrest := members_readBack level outer (List.cons_ne_nil e' es)
      (fun i hi => h i (List.mem_cons_of_mem _ hi)) hlength.2
    obtain ⟨more, hskip, htext⟩ := skip_members style (gap_blank style level) level e' es
      (newline style outer ++ '\x7d' :: rest)
    rw [htext] at hrest
    rw [List.append_assoc, List.cons_append, List.append_assoc,
      member_readBack level (h e List.mem_cons_self) hlength.1 closing_comma]
    show Json.members fuel room (skip (gap style level ++ _)) >>= _ = _
    rw [hskip, hrest]
    rfl

/-! ## 6. Values -/

theorem readBack_scalar {j : Json} (hj : j.IsScalar) (hints : j.allInts shortInt = true) :
    ReadBack style room j := by
  intro level fuel rest hrest hfuel
  obtain ⟨c, more, hcs, hc, hlist, hobject⟩ := flat_render style level hj
  obtain ⟨fuel, rfl⟩ : ∃ n, fuel = n + 1 := ⟨fuel - 1, by simp [hcs] at hfuel; omega⟩
  have hflat : Flat (render style level j ++ rest) :=
    ⟨c, more ++ rest, by rw [hcs]; rfl, hc, hlist, hobject⟩
  rw [value_flat hflat, scalar_render style level hj hints hrest]

theorem value_opens {cs more : List Char} {c : Char} (hskip : skip cs = c :: more) (hc : c ≠ ']')
    (fuel : Nat) : value (fuel + 1) (room + 1) ('[' :: cs) =
      items fuel room (c :: more) >>= fun (js, rest) => .ok (.list js, rest) := by
  rw [value]
  dsimp only
  rw [hskip]
  split
  · exact absurd (List.cons.inj ‹_›).1 hc
  · rfl

theorem value_opens_object {cs more : List Char} (hskip : skip cs = '"' :: more) (fuel : Nat) :
    value (fuel + 1) (room + 1) ('\x7b' :: cs) =
      members fuel room ('"' :: more) >>= fun (es, rest) =>
        .ok (.object (Entries.ofPairs es), rest) := by
  rw [value]
  dsimp only
  rw [hskip]
  rfl

theorem readBack_list {items : List Json} (h : ∀ j ∈ items, ReadBack style room j) :
    ReadBack style (room + 1) (.list items) := by
  intro level fuel rest _ hfuel
  cases items with
  | nil =>
    obtain ⟨fuel, rfl⟩ : ∃ n, fuel = n + 1 := ⟨fuel - 1, by simp [render] at hfuel; omega⟩
    rw [render]
    rfl
  | cons j js =>
    rw [render_list] at hfuel
    obtain ⟨fuel, rfl⟩ : ∃ n, fuel = n + 1 := ⟨fuel - 1, by simp at hfuel; omega⟩
    have hlength : 2 * (itemsText style (level + 1) (j :: js)).length + 1 ≤ fuel := by
      simp at hfuel
      omega
    have hshape : render style level (.list (j :: js)) ++ rest = '[' ::
        (newline style (level + 1) ++ (itemsText style (level + 1) (j :: js) ++
          (newline style level ++ ']' :: rest))) := by
      rw [render_list]
      simp
    obtain ⟨c, more, hskip, htext, hc⟩ := skip_items style (newline_blank style (level + 1))
      (level + 1) j js (newline style level ++ ']' :: rest)
    rw [hshape, value_opens hskip hc, ← htext,
      items_readBack (level + 1) level (List.cons_ne_nil j js) h hlength]
    rfl

theorem readBack_object {entries : List (String × Json)} (hnames : (Entries.names entries).Nodup)
    (h : ∀ e ∈ entries, ReadBack style room e.2) :
    ReadBack style (room + 1) (.object entries) := by
  intro level fuel rest _ hfuel
  cases entries with
  | nil =>
    obtain ⟨fuel, rfl⟩ : ∃ n, fuel = n + 1 := ⟨fuel - 1, by simp [render] at hfuel; omega⟩
    rw [render]
    rfl
  | cons e es =>
    rw [render_object] at hfuel
    obtain ⟨fuel, rfl⟩ : ∃ n, fuel = n + 1 := ⟨fuel - 1, by simp at hfuel; omega⟩
    have hlength : 2 * (membersText style (level + 1) (e :: es)).length + 1 ≤ fuel := by
      simp at hfuel
      omega
    have hshape : render style level (.object (e :: es)) ++ rest = '\x7b' ::
        (newline style (level + 1) ++ (membersText style (level + 1) (e :: es) ++
          (newline style level ++ '\x7d' :: rest))) := by
      rw [render_object]
      simp
    obtain ⟨more, hskip, htext⟩ := skip_members style (newline_blank style (level + 1))
      (level + 1) e es (newline style level ++ '\x7d' :: rest)
    rw [hshape, value_opens_object hskip, ← htext,
      members_readBack (level + 1) level (List.cons_ne_nil e es) h hlength, Except.ok_bind]
    show Except.ok (object (Entries.ofPairs (e :: es)), rest) = _
    rw [Entries.ofPairs_eq_self hnames]

/-- **Every value that there is room for is read back.** -/
theorem Held.readBack {j : Json} (h : Held room j) : ReadBack style room j := by
  obtain ⟨htidy, hints, hdepth⟩ := h
  induction htidy generalizing room with
  | null => exact readBack_scalar trivial hints
  | bool => exact readBack_scalar trivial hints
  | int => exact readBack_scalar trivial hints
  | float => exact readBack_scalar trivial hints
  | text => exact readBack_scalar trivial hints
  | list _ ih =>
    rw [allInts] at hints
    rw [depth] at hdepth
    obtain ⟨room, rfl⟩ : ∃ n, room = n + 1 := ⟨room - 1, by omega⟩
    exact readBack_list fun j hj => ih j hj (allInList_iff.mp hints j hj)
      (depthList_le.mp (Nat.le_of_succ_le_succ hdepth) j hj)
  | object hnames _ ih =>
    rw [allInts] at hints
    rw [depth] at hdepth
    obtain ⟨room, rfl⟩ : ∃ n, room = n + 1 := ⟨room - 1, by omega⟩
    exact readBack_object hnames fun e he => ih e he (allInEntries_iff.mp hints e he)
      (depthEntries_le.mp (Nat.le_of_succ_le_succ hdepth) e he)

/-- **The text of a value is read as the value**, in whatever style it is written. -/
theorem read_render {j : Json} (h : Held depthLimit j) (style : Style) :
    read (String.ofList (render style 0 j)) = .ok j := by
  obtain ⟨c, more, hcs, hblank, -⟩ := opening_render style 0 j
  have hskip : skip (render style 0 j) = render style 0 j := by
    refine skip_eq_self ?_
    rw [hcs]
    rintro b ⟨⟩
    exact hblank
  have hback : ReadBack style depthLimit j := h.readBack
  have hvalue := hback 0 (2 * (render style 0 j).length + 2) [] nofun (Nat.le_add_right _ 2)
  rw [List.append_nil] at hvalue
  rw [read, String.toList_ofList, readChars, hskip, hvalue]
  rfl

theorem text_of_write {style : Style} {j : Json} {text : String} (h : write style j = .ok text) :
    text = String.ofList (render style 0 j) := by
  obtain ⟨hints, hdepth⟩ := writable_of_write h
  unfold write at h
  rw [hints, Bool.not_true, if_neg Bool.false_ne_true, if_neg (Nat.not_lt.mpr hdepth)] at h
  exact (Except.ok.inj h).symm

/-- What has been written is read back, if no name comes twice in it. -/
theorem read_write {style : Style} {j : Json} {text : String} (h : write style j = .ok text)
    (htidy : j.Tidy) : read text = .ok j := by
  obtain ⟨hints, hdepth⟩ := writable_of_write h
  rw [text_of_write h]
  exact read_render ⟨htidy, hints, hdepth⟩ style

end LintHost.Json
