import Mathlib.Data.List.TakeWhile
import LintHost.Proofs.JsonText

/-!
# Where a value ends

A value ends where its own text ends: whatever stands behind a container has no part in it, and what
stands behind a scalar has none unless it goes on with a number. So a container with more behind it
is no document, nor is one that was not written to its end.

* `Json.Ended`: the rest of a text that does not go on with a number;
* `Json.number_ends`, `string_ends`, `scalar_ends`: the text of a scalar is split off;
* `Json.Spells`: a text spells a value, whatever stands behind it;
* `Json.Splits`: whatever is read is split off like that;
* `Json.readChars_container`: a document that is a container, between blanks;
* `Json.readChars_behind`: with more behind it, it is no document.
-/

namespace LintHost.Json

open LintHost.Number LintHost.Text

variable {cs rest : List Char}

/-! ## 1. Numbers -/

theorem isDigit_of_asciiDigit? {c : Char} {d : Nat} (h : asciiDigit? c = some d) :
    c.isDigit = true ∧ d = c.toNat - '0'.toNat := by
  unfold asciiDigit? at h
  split at h
  · rename_i hc
    exact ⟨Char.isDigit_iff_toNat.mpr ⟨hc.1, hc.2⟩, (Option.some.inj h).symm⟩
  · cases h

/-- What is taken for digits are digits. -/
theorem spanDigits_ends {ds : List Nat} (h : spanDigits cs = (ds, rest)) :
    ∃ pre, cs = pre ++ rest ∧ (∀ c ∈ pre, c.isDigit = true) ∧ ds = digitsOf pre := by
  induction cs generalizing ds with
  | nil =>
    cases h
    exact ⟨[], rfl, List.forall_mem_nil _, rfl⟩
  | cons c cs ih =>
    unfold spanDigits at h
    split at h
    · rename_i d hd
      obtain ⟨hc, rfl⟩ := isDigit_of_asciiDigit? hd
      rcases hmore : spanDigits cs with ⟨more, rest'⟩
      rw [hmore] at h
      cases h
      obtain ⟨pre, rfl, hpre, rfl⟩ := ih hmore
      exact ⟨c :: pre, rfl, List.forall_mem_cons.mpr ⟨hc, hpre⟩, rfl⟩
    · cases h
      exact ⟨[], rfl, List.forall_mem_nil _, rfl⟩

/-- The rest of a text does not go on with a number that stands before it. -/
def Ended (rest : List Char) : Prop :=
  ∀ c, rest.head? = some c → asciiDigit? c = none ∧ c ≠ '.' ∧ c ≠ 'e' ∧ c ≠ 'E'

theorem Ended.noDigit (h : Ended rest) : NoDigit rest := fun c hc => (h c hc).1

theorem Ended.no_point (h : Ended rest) (more : List Char) : rest ≠ '.' :: more := by
  rintro rfl
  exact (h '.' rfl).2.1 rfl

theorem Ended.exponent (h : Ended rest) : Json.exponent rest = (none, rest) := by
  cases rest with
  | nil => rfl
  | cons c cs =>
    obtain ⟨-, -, hlower, hupper⟩ := h c rfl
    rw [Json.exponent, if_neg (not_or.mpr ⟨hlower, hupper⟩)]

/-- The whole part of a number begins with a digit, and is taken up to where none follows. -/
theorem wholePart_ends {whole : List Nat} (h : wholePart cs = some (whole, rest)) :
    ∃ c pre, cs = c :: pre ++ rest ∧ c.isDigit = true ∧
      ∀ rest', NoDigit rest' → wholePart (c :: pre ++ rest') = some (whole, rest') := by
  unfold wholePart at h
  split at h
  · cases h
    exact ⟨'0', [], rfl, rfl, fun rest' _ => rfl⟩
  · rename_i hzero
    split at h
    · cases h
    · rename_i hne hspan
      cases h
      obtain ⟨pre, rfl, hpre, rfl⟩ := spanDigits_ends hspan
      cases pre with
      | nil => exact absurd rfl hne
      | cons c pre =>
        have hc : c ≠ '0' := by
          rintro rfl
          exact hzero _ rfl
        exact ⟨c, pre, rfl, hpre c List.mem_cons_self, fun rest' => wholePart_digits hc hpre⟩

theorem fraction_ends {part : List Nat} (h : fraction cs = (part, rest)) :
    part = [] ∧ cs = rest ∨ ∃ c pre, cs = '.' :: (c :: pre ++ rest) ∧
      (∀ d ∈ c :: pre, d.isDigit = true) ∧ part = digitsOf (c :: pre) := by
  unfold fraction at h
  split at h
  · split at h
    · cases h
      exact .inl ⟨rfl, rfl⟩
    · rename_i hne hspan
      cases h
      obtain ⟨pre, rfl, hpre, rfl⟩ := spanDigits_ends hspan
      cases pre with
      | nil => exact absurd rfl hne
      | cons c pre => exact .inr ⟨c, pre, rfl, hpre, rfl⟩
  · cases h
    exact .inl ⟨rfl, rfl⟩

theorem spanSign_ends {negative : Bool} {body : List Char} (h : spanSign cs = (negative, body)) :
    ∃ sign, cs = sign ++ body ∧ ∀ c more, c.isDigit = true →
      spanSign (sign ++ c :: more) = (negative, c :: more) := by
  unfold spanSign at h
  split at h
  · cases h
    exact ⟨['-'], rfl, fun c more _ => rfl⟩
  · cases h
    exact ⟨['+'], rfl, fun c more _ => rfl⟩
  · cases h
    refine ⟨[], rfl, fun c more hc => ?_⟩
    rw [List.nil_append, spanSign]
    · rintro cs ⟨⟩
      cases hc
    · rintro cs ⟨⟩
      cases hc

/-- An exponent is taken up to where no digit follows. It begins with its letter, or there is
    none. -/
theorem exponent_ends {power : Option Int} (h : exponent cs = (power, rest)) :
    ∃ pre, cs = pre ++ rest ∧ ∀ rest', Ended rest' →
      exponent (pre ++ rest') = (power, rest') ∧ NoDigit (pre ++ rest') ∧
        ∀ more, pre ++ rest' ≠ '.' :: more := by
  have hnone : power = none → cs = rest → ∃ pre, cs = pre ++ rest ∧ ∀ rest', Ended rest' →
      exponent (pre ++ rest') = (power, rest') ∧ NoDigit (pre ++ rest') ∧
        ∀ more, pre ++ rest' ≠ '.' :: more := by
    rintro rfl rfl
    exact ⟨[], rfl, fun rest' hrest => ⟨hrest.exponent, hrest.noDigit, hrest.no_point⟩⟩
  unfold exponent at h
  split at h
  · rename_i e cs
    split at h
    · rename_i he
      rcases hsign : spanSign cs with ⟨negative, body⟩
      rw [hsign] at h
      dsimp only at h
      split at h
      · cases h
        exact hnone rfl rfl
      · rename_i hne hspan
        cases h
        obtain ⟨sign, rfl, hsigned⟩ := spanSign_ends hsign
        obtain ⟨pre, rfl, hpre, rfl⟩ := spanDigits_ends hspan
        cases pre with
        | nil => exact absurd rfl hne
        | cons c pre =>
          refine ⟨e :: (sign ++ c :: pre), by simp, fun rest' hrest => ⟨?_, ?_, ?_⟩⟩
          · have hdigits := spanDigits_append hpre hrest.noDigit
            have hshape : e :: (sign ++ c :: pre) ++ rest' =
                e :: (sign ++ c :: (pre ++ rest')) := by simp
            rw [hshape, exponent, if_pos he, hsigned c _ (hpre c List.mem_cons_self)]
            dsimp only
            rw [← List.cons_append, hdigits]
            rfl
          · rintro d ⟨⟩
            rcases he with rfl | rfl <;> rfl
          · rintro more hpoint
            obtain rfl : e = '.' := (List.cons.inj hpoint).1
            rcases he with he | he <;> cases he
    · cases h
      exact hnone rfl rfl
  · cases h
    exact hnone rfl rfl

/-- What the parts of a number come to. -/
def numeral (negative : Bool) (whole part : List Nat) (power : Option Int) :
    Except ReadFault Json :=
  if part.isEmpty ∧ power.isNone then
    if digitLimit < whole.length then .error .longInteger
    else .ok (.int (signed negative (ofDigits whole)))
  else .ok (.float (.ofDecimal negative (ofDigits (whole ++ part)) (power.getD 0 - part.length)))

theorem number_eq {negative : Bool} {more more' : List Char} {whole part : List Nat}
    {power : Option Int} (hwhole : wholePart cs = some (whole, more))
    (hpart : fraction more = (part, more')) (hpower : exponent more' = (power, rest)) :
    number negative cs = (numeral negative whole part power).map (·, rest) := by
  unfold number numeral
  rw [hwhole]
  dsimp only
  rw [hpart]
  dsimp only
  rw [hpower]
  dsimp only
  split
  · split <;> rfl
  · rfl

/-- **The text of a number is split off.** It begins with a digit. -/
theorem number_ends {negative : Bool} {j : Json} (h : number negative cs = .ok (j, rest)) :
    ∃ c pre, cs = c :: pre ++ rest ∧ c.isDigit = true ∧
      ∀ rest', Ended rest' → number negative (c :: pre ++ rest') = .ok (j, rest') := by
  cases hwhole : wholePart cs with
  | none =>
    rw [number, hwhole] at h
    cases h
  | some found =>
    obtain ⟨whole, more⟩ := found
    rcases hpart : fraction more with ⟨part, more'⟩
    rcases hpower : exponent more' with ⟨power, last⟩
    rw [number_eq hwhole hpart hpower] at h
    obtain ⟨j', hj, h⟩ := Except.map_eq_ok h
    cases h
    obtain ⟨c, pre, rfl, hc, hpre⟩ := wholePart_ends hwhole
    obtain ⟨exp, rfl, hexp⟩ := exponent_ends hpower
    rcases fraction_ends hpart with ⟨rfl, rfl⟩ | ⟨d, digits, rfl, hdigits, rfl⟩
    · refine ⟨c, pre ++ exp, by simp, hc, fun rest' hrest => ?_⟩
      obtain ⟨hpower', hnoDigit, hnoPoint⟩ := hexp rest' hrest
      have hwhole' := hpre (exp ++ rest') hnoDigit
      rw [List.cons_append, List.append_assoc, ← List.cons_append,
        number_eq hwhole' (fraction_none hnoPoint) hpower', hj]
      rfl
    · refine ⟨c, pre ++ '.' :: (d :: digits ++ exp), by simp, hc, fun rest' hrest => ?_⟩
      obtain ⟨hpower', hnoDigit, -⟩ := hexp rest' hrest
      have hwhole' := hpre ('.' :: (d :: digits ++ (exp ++ rest'))) (noDigit_point _)
      have hshape : c :: (pre ++ '.' :: (d :: digits ++ exp)) ++ rest' =
          c :: pre ++ '.' :: (d :: digits ++ (exp ++ rest')) := by simp
      rw [hshape, number_eq hwhole' (fraction_digits hdigits hnoDigit) hpower', hj]
      rfl

/-! ## 2. Strings and other scalars -/

/-- The rest of a string's text is read, whatever stands behind its closing quote. -/
def Quotes (cs rest : List Char) (ns : List Nat) : Prop :=
  ∃ pre, cs = pre ++ rest ∧ ∀ rest', codePoints (pre ++ rest') = .ok (ns, rest')

/-- One more character, or its escape. -/
theorem Quotes.step {n : Nat} {ns : List Nat} (h : Quotes cs rest ns) (front : List Char)
    (hfront : ∀ cs, codePoints (front ++ cs) =
      (codePoints cs).map fun (ns, rest) => (n :: ns, rest)) :
    Quotes (front ++ cs) rest (n :: ns) := by
  obtain ⟨pre, rfl, hpre⟩ := h
  refine ⟨front ++ pre, (List.append_assoc ..).symm, fun rest' => ?_⟩
  rw [List.append_assoc, hfront, hpre]
  rfl

theorem codePoints_hex {a b c d : Char} {n : Nat} (h : hex4? a b c d = some n) (cs : List Char) :
    codePoints ('\\' :: 'u' :: a :: b :: c :: d :: cs) =
      (codePoints cs).map fun (ns, rest) => (n :: ns, rest) := by
  rw [codePoints, h]
  cases codePoints cs <;> rfl

theorem codePoints_letter {e x : Char} (h : shortEscape? e = some x) (cs : List Char) :
    codePoints ('\\' :: e :: cs) =
      (codePoints cs).map fun (ns, rest) => (x.toNat :: ns, rest) := by
  have hu : e ≠ 'u' := by
    rintro rfl
    cases h
  cases hcs : codePoints cs <;> simp [codePoints, hu, h, hcs] <;> rfl

theorem codePoints_ends {ns : List Nat} (h : codePoints cs = .ok (ns, rest)) :
    Quotes cs rest ns := by
  fun_induction codePoints cs generalizing ns with
  | case1 => cases h
  | case2 more =>
    cases h
    exact ⟨['"'], rfl, fun rest' => rfl⟩
  | case3 => cases h
  | case4 a b c d more n hn ih =>
    obtain ⟨⟨ms, more⟩, hms, h⟩ := Except.bind_eq_ok h
    cases h
    exact (ih hms).step ['\\', 'u', a, b, c, d] (codePoints_hex hn)
  | case5 => cases h
  | case6 e more _ x hx ih =>
    obtain ⟨⟨ms, more⟩, hms, h⟩ := Except.bind_eq_ok h
    cases h
    exact (ih hms).step ['\\', e] (codePoints_letter hx)
  | case7 => cases h
  | case8 c more hquote _ _ hraw ih =>
    obtain ⟨⟨ms, more⟩, hms, h⟩ := Except.bind_eq_ok h
    cases h
    obtain ⟨hc, hslash⟩ := not_or.mp hraw
    exact (ih hms).step [c] fun cs => codePoints_raw hquote hslash hc

theorem string_ends {s : String} (h : string cs = .ok (s, rest)) :
    ∃ pre, cs = pre ++ rest ∧ ∀ rest', string (pre ++ rest') = .ok (s, rest') := by
  obtain ⟨⟨ns, more⟩, hns, h⟩ := Except.bind_eq_ok h
  cases h
  obtain ⟨pre, rfl, hpre⟩ := codePoints_ends hns
  refine ⟨pre, rfl, fun rest' => ?_⟩
  rw [string, hpre]
  rfl

/-- **The text of a scalar is split off.** -/
theorem scalar_ends {j : Json} (h : scalar cs = .ok (j, rest)) :
    ∃ pre, cs = pre ++ rest ∧ ∀ rest', Ended rest' → scalar (pre ++ rest') = .ok (j, rest') := by
  unfold scalar at h
  split at h
  · obtain ⟨⟨s, more⟩, hs, h⟩ := Except.bind_eq_ok h
    cases h
    obtain ⟨pre, rfl, hpre⟩ := string_ends hs
    refine ⟨'"' :: pre, rfl, fun rest' _ => ?_⟩
    rw [List.cons_append, scalar, hpre]
    rfl
  · cases h
    exact ⟨"null".toList, rfl, fun rest' _ => rfl⟩
  · cases h
    exact ⟨"true".toList, rfl, fun rest' _ => rfl⟩
  · cases h
    exact ⟨"false".toList, rfl, fun rest' _ => rfl⟩
  · cases h
    exact ⟨"NaN".toList, rfl, fun rest' _ => rfl⟩
  · cases h
    exact ⟨"Infinity".toList, rfl, fun rest' _ => rfl⟩
  · cases h
    exact ⟨"-Infinity".toList, rfl, fun rest' _ => rfl⟩
  · obtain ⟨c, pre, rfl, hc, hpre⟩ := number_ends h
    refine ⟨'-' :: c :: pre, rfl, fun rest' hrest => ?_⟩
    exact (scalar_signed true hc (pre ++ rest')).trans (hpre rest' hrest)
  · obtain ⟨c, pre, rfl, hc, hpre⟩ := number_ends h
    refine ⟨c :: pre, rfl, fun rest' hrest => ?_⟩
    exact (scalar_signed false hc (pre ++ rest')).trans (hpre rest' hrest)

/-! ## 3. Blanks -/

/-- A text is its leading blanks and what follows them. -/
theorem skip_split (cs : List Char) :
    ∃ blanks, (∀ c ∈ blanks, isBlank c = true) ∧ cs = blanks ++ skip cs :=
  ⟨cs.takeWhile isBlank, fun _ hc => List.mem_takeWhile_imp hc,
    List.takeWhile_append_dropWhile.symm⟩

theorem head_skip {c : Char} (h : (skip cs).head? = some c) : isBlank c = false := by
  have hfirst := List.head?_dropWhile_not isBlank cs
  rw [show cs.dropWhile isBlank = skip cs from rfl, h] at hfirst
  simpa using hfirst

/-- Where something follows after blanks, the same follows whatever stands behind it. -/
theorem skip_ends {inner : List Char} {b : Char} (h : skip cs = inner ++ b :: rest) :
    ∃ blanks, (∀ c ∈ blanks, isBlank c = true) ∧ cs = blanks ++ (inner ++ b :: rest) ∧
      ∀ rest', skip (blanks ++ (inner ++ b :: rest')) = inner ++ b :: rest' := by
  obtain ⟨blanks, hblanks, hsplit⟩ := skip_split cs
  refine ⟨blanks, hblanks, h ▸ hsplit, fun rest' => skip_blanks hblanks fun c hc => ?_⟩
  have hfirst : (skip cs).head? = some c := by
    rw [h]
    cases inner with
    | nil => exact hc
    | cons d inner => exact hc
  exact head_skip hfirst

/-- The same where what follows is a single mark. -/
theorem mark_ends {b : Char} (h : skip cs = b :: rest) :
    ∃ blanks, (∀ c ∈ blanks, isBlank c = true) ∧ cs = blanks ++ b :: rest ∧
      ∀ rest', skip (blanks ++ b :: rest') = b :: rest' :=
  @skip_ends cs rest [] b h

/-- What begins with a blank or with what closes or separates goes on with no number. -/
theorem ended_blanks {blanks : List Char} (h : ∀ c ∈ blanks, isBlank c = true) {b : Char}
    (hb : b ∈ [',', ':', ']', '\x7d']) (rest : List Char) : Ended (blanks ++ b :: rest) := by
  cases blanks with
  | nil =>
    rintro c ⟨⟩
    simp only [List.mem_cons, List.not_mem_nil, or_false] at hb
    rcases hb with rfl | rfl | rfl | rfl <;> decide
  | cons d blanks =>
    rintro c ⟨⟩
    have hd := h d List.mem_cons_self
    simp only [isBlank, Bool.or_eq_true, decide_eq_true_eq] at hd
    rcases hd with ((rfl | rfl) | rfl) | rfl <;> decide

/-- What separates two parts of a container does so whatever stands behind the second. -/
theorem separator_ends {next inner : List Char} {mark b : Char} (hmark : mark = ',' ∨ mark = ':')
    (hcomma : skip cs = mark :: next) (hnext : skip next = inner ++ b :: rest) :
    ∃ gap, cs = gap ++ (inner ++ b :: rest) ∧ 0 < gap.length ∧ ∀ rest',
      Ended (gap ++ (inner ++ b :: rest')) ∧ ∃ next',
        skip (gap ++ (inner ++ b :: rest')) = mark :: next' ∧ skip next' = inner ++ b :: rest' := by
  have hends : mark ∈ [',', ':', ']', '\x7d'] := by
    rcases hmark with rfl | rfl <;> decide
  obtain ⟨blanks, hblanks, rfl, hskip⟩ := mark_ends hcomma
  obtain ⟨blanks', -, rfl, hskip'⟩ := skip_ends hnext
  refine ⟨blanks ++ mark :: blanks', by simp, by simp, fun rest' => ?_⟩
  have hshape : blanks ++ mark :: blanks' ++ (inner ++ b :: rest') =
      blanks ++ mark :: (blanks' ++ (inner ++ b :: rest')) := by simp
  rw [hshape]
  exact ⟨ended_blanks hblanks hends _, _, hskip _, hskip' rest'⟩

/-! ## 4. Items and members -/

variable {fuel room : Nat} {more next : List Char} {j : Json} {name : String}

section Steps

variable {js : List Json} {es : List (String × Json)}

theorem items_last (hvalue : value fuel room cs = .ok (j, more)) (hskip : skip more = ']' :: rest) :
    items (fuel + 1) room cs = .ok ([j], rest) := by
  rw [items, hvalue, Except.ok_bind]
  dsimp only
  rw [hskip]
  rfl

theorem items_next (hvalue : value fuel room cs = .ok (j, more)) (hskip : skip more = ',' :: next)
    (hitems : items fuel room (skip next) = .ok (js, rest)) :
    items (fuel + 1) room cs = .ok (j :: js, rest) := by
  rw [items, hvalue, Except.ok_bind]
  dsimp only
  rw [hskip]
  show items fuel room (skip next) >>= _ = _
  rw [hitems]
  rfl

/-- Items begin with a value, and then they end or others follow. -/
theorem items_succ (h : items (fuel + 1) room cs = .ok (js, rest)) :
    ∃ j more, value fuel room cs = .ok (j, more) ∧
      (js = [j] ∧ skip more = ']' :: rest ∨ ∃ next js', skip more = ',' :: next ∧
        items fuel room (skip next) = .ok (js', rest) ∧ js = j :: js') := by
  rw [items] at h
  obtain ⟨⟨j, more⟩, hvalue, h⟩ := Except.bind_eq_ok h
  refine ⟨j, more, hvalue, ?_⟩
  dsimp only at h
  split at h
  · rename_i hskip
    cases h
    exact .inl ⟨rfl, hskip⟩
  · rename_i next hskip
    obtain ⟨⟨js', last⟩, hitems, h⟩ := Except.bind_eq_ok h
    cases h
    exact .inr ⟨next, js', hskip, hitems, rfl⟩
  · cases h

theorem members_last {named : List Char} (hname : string cs = .ok (name, named))
    (hcolon : skip named = ':' :: next) (hvalue : value fuel room (skip next) = .ok (j, more))
    (hskip : skip more = '\x7d' :: rest) :
    members (fuel + 1) room ('"' :: cs) = .ok ([(name, j)], rest) := by
  rw [members, hname, Except.ok_bind]
  dsimp only
  rw [hcolon]
  show value fuel room (skip next) >>= _ = _
  rw [hvalue, Except.ok_bind]
  dsimp only
  rw [hskip]
  rfl

theorem members_next {named others : List Char} (hname : string cs = .ok (name, named))
    (hcolon : skip named = ':' :: next) (hvalue : value fuel room (skip next) = .ok (j, more))
    (hskip : skip more = ',' :: others)
    (hmembers : members fuel room (skip others) = .ok (es, rest)) :
    members (fuel + 1) room ('"' :: cs) = .ok ((name, j) :: es, rest) := by
  rw [members, hname, Except.ok_bind]
  dsimp only
  rw [hcolon]
  show value fuel room (skip next) >>= _ = _
  rw [hvalue, Except.ok_bind]
  dsimp only
  rw [hskip]
  show members fuel room (skip others) >>= _ = _
  rw [hmembers]
  rfl

/-- Members begin with a name and a value, and then they end or others follow. -/
theorem members_succ (h : members (fuel + 1) room cs = .ok (es, rest)) :
    ∃ body name named next j more, cs = '"' :: body ∧ string body = .ok (name, named) ∧
      skip named = ':' :: next ∧ value fuel room (skip next) = .ok (j, more) ∧
      (es = [(name, j)] ∧ skip more = '\x7d' :: rest ∨ ∃ others es', skip more = ',' :: others ∧
        members fuel room (skip others) = .ok (es', rest) ∧ es = (name, j) :: es') := by
  unfold members at h
  split at h
  · cases h
  · obtain rfl : fuel = _ := Nat.succ.inj ‹_›
    obtain ⟨⟨name, named⟩, hname, h⟩ := Except.bind_eq_ok h
    dsimp only at h
    split at h
    · rename_i next hcolon
      obtain ⟨⟨j, more⟩, hvalue, h⟩ := Except.bind_eq_ok h
      refine ⟨_, name, named, next, j, more, rfl, hname, hcolon, hvalue, ?_⟩
      dsimp only at h
      split at h
      · rename_i hskip
        cases h
        exact .inl ⟨rfl, hskip⟩
      · rename_i others hskip
        obtain ⟨⟨es', last⟩, hmembers, h⟩ := Except.bind_eq_ok h
        cases h
        exact .inr ⟨others, es', hskip, hmembers, rfl⟩
      · cases h
    · cases h
  · cases h

end Steps

/-! ## 5. Values -/

theorem value_nil {cs : List Char} (hskip : skip cs = ']' :: rest) :
    value (fuel + 1) (room + 1) ('[' :: cs) = .ok (.list [], rest) := by
  rw [value]
  dsimp only
  rw [hskip]
  rfl

theorem value_nil_object {cs : List Char} (hskip : skip cs = '\x7d' :: rest) :
    value (fuel + 1) (room + 1) ('\x7b' :: cs) = .ok (.object [], rest) := by
  rw [value]
  dsimp only
  rw [hskip]
  rfl

theorem number_isScalar {negative : Bool} (h : number negative cs = .ok (j, rest)) :
    j.IsScalar := by
  unfold number at h
  split at h
  · cases h
  · dsimp only at h
    split at h
    · split at h
      · cases h
      · cases h
        trivial
    · cases h
      trivial

theorem scalar_isScalar (h : scalar cs = .ok (j, rest)) : j.IsScalar := by
  unfold scalar at h
  split at h
  · obtain ⟨⟨s, more⟩, -, h⟩ := Except.bind_eq_ok h
    cases h
    trivial
  iterate 6
    cases h
    trivial
  · exact number_isScalar h
  · exact number_isScalar h

/-- The text of a container, from bracket to bracket. -/
def Bracketed (cs : List Char) : Prop :=
  ∃ inner, cs = '[' :: (inner ++ [']']) ∨ cs = '\x7b' :: (inner ++ ['\x7d'])

/-- The text spells the value, whatever stands behind it; but behind a scalar it must not go on with
    a number. -/
def Spells (room : Nat) (cs : List Char) (j : Json) : Prop :=
  ∀ fuel rest, (j.IsScalar → Ended rest) → 2 * cs.length ≤ fuel →
    value fuel room (cs ++ rest) = .ok (j, rest)

/-- The text spells items up to their closing bracket. -/
def SpellsItems (room : Nat) (cs : List Char) (js : List Json) : Prop :=
  ∀ fuel rest, 2 * cs.length + 1 ≤ fuel → items fuel room (cs ++ ']' :: rest) = .ok (js, rest)

/-- The text, behind its first quote, spells members up to their closing brace. -/
def SpellsMembers (room : Nat) (cs : List Char) (es : List (String × Json)) : Prop :=
  ∀ fuel rest, 2 * cs.length + 3 ≤ fuel →
    members fuel room ('"' :: (cs ++ '\x7d' :: rest)) = .ok (es, rest)

/-- Whatever is read in so many steps is spelled by the text before the rest. -/
structure Splits (fuel : Nat) : Prop where
  value : ∀ {room cs j rest}, Json.value fuel room cs = .ok (j, rest) →
    ∃ pre, cs = pre ++ rest ∧ (j.IsScalar ∨ Bracketed pre) ∧ Spells room pre j
  items : ∀ {room cs js rest}, Json.items fuel room cs = .ok (js, rest) →
    ∃ inner, cs = inner ++ ']' :: rest ∧ SpellsItems room inner js
  members : ∀ {room cs es rest}, Json.members fuel room cs = .ok (es, rest) →
    ∃ inner, cs = '"' :: (inner ++ '\x7d' :: rest) ∧ SpellsMembers room inner es

theorem Splits.items_succ (ih : Splits fuel) {js : List Json}
    (h : Json.items (fuel + 1) room cs = .ok (js, rest)) :
    ∃ inner, cs = inner ++ ']' :: rest ∧ SpellsItems room inner js := by
  obtain ⟨j, more, hvalue, hafter⟩ := Json.items_succ h
  obtain ⟨pre, rfl, -, hpre⟩ := ih.value hvalue
  rcases hafter with ⟨rfl, hskip⟩ | ⟨next, js', hcomma, hitems, rfl⟩
  · obtain ⟨blanks, hblanks, rfl, hskips⟩ := mark_ends hskip
    refine ⟨pre ++ blanks, by simp, fun fuel' rest' hfuel => ?_⟩
    obtain ⟨fuel', rfl⟩ : ∃ n, fuel' = n + 1 := ⟨fuel' - 1, by omega⟩
    rw [List.length_append] at hfuel
    have hread := hpre fuel' (blanks ++ ']' :: rest')
      (fun _ => ended_blanks hblanks (by decide) rest') (by omega)
    rw [List.append_assoc]
    exact items_last hread (hskips rest')
  · obtain ⟨inner, hinner, hspells⟩ := ih.items hitems
    obtain ⟨gap, rfl, hgap, hseparates⟩ := separator_ends (.inl rfl) hcomma hinner
    refine ⟨pre ++ (gap ++ inner), by simp, fun fuel' rest' hfuel => ?_⟩
    obtain ⟨fuel', rfl⟩ : ∃ n, fuel' = n + 1 := ⟨fuel' - 1, by omega⟩
    rw [List.length_append, List.length_append] at hfuel
    obtain ⟨hended, next', hcomma', hnext'⟩ := hseparates rest'
    have hread := hpre fuel' (gap ++ (inner ++ ']' :: rest')) (fun _ => hended) (by omega)
    have hrest := hspells fuel' rest' (by omega)
    rw [← hnext'] at hrest
    rw [List.append_assoc, List.append_assoc]
    exact items_next hread hcomma' hrest


theorem Splits.members_succ (ih : Splits fuel) {es : List (String × Json)}
    (h : Json.members (fuel + 1) room cs = .ok (es, rest)) :
    ∃ inner, cs = '"' :: (inner ++ '\x7d' :: rest) ∧ SpellsMembers room inner es := by
  obtain ⟨body, name, named, next, j, more, rfl, hname, hcolon, hvalue, hafter⟩ :=
    Json.members_succ h
  obtain ⟨letters, rfl, hletters⟩ := string_ends hname
  obtain ⟨pre, hpre, -, hspells⟩ := ih.value hvalue
  rcases hafter with ⟨rfl, hskip⟩ | ⟨others, es', hcomma, hmembers, rfl⟩
  · obtain ⟨blanks, hblanks, rfl, hskips⟩ := mark_ends hskip
    have hnext : skip next = pre ++ blanks ++ '\x7d' :: rest := by rw [hpre]; simp
    obtain ⟨gap, rfl, -, hseparates⟩ := separator_ends (.inr rfl) hcolon hnext
    refine ⟨letters ++ (gap ++ (pre ++ blanks)), by simp, fun fuel' rest' hfuel => ?_⟩
    obtain ⟨fuel', rfl⟩ : ∃ n, fuel' = n + 1 := ⟨fuel' - 1, by omega⟩
    simp only [List.length_append] at hfuel
    obtain ⟨-, next', hcolon', hnext'⟩ := hseparates rest'
    have hread := hspells fuel' (blanks ++ '\x7d' :: rest')
      (fun _ => ended_blanks hblanks (by decide) rest') (by omega)
    rw [← List.append_assoc, ← hnext'] at hread
    rw [List.append_assoc, List.append_assoc]
    exact members_last (hletters _) hcolon' hread (hskips rest')
  · obtain ⟨inner, hinner, hothers⟩ := ih.members hmembers
    rw [← List.cons_append] at hinner
    obtain ⟨gap', rfl, -, hseparates'⟩ := separator_ends (.inl rfl) hcomma hinner
    have hnext : skip next = pre ++ (gap' ++ '"' :: inner) ++ '\x7d' :: rest := by rw [hpre]; simp
    obtain ⟨gap, rfl, -, hseparates⟩ := separator_ends (.inr rfl) hcolon hnext
    refine ⟨letters ++ (gap ++ (pre ++ (gap' ++ '"' :: inner))), by simp,
      fun fuel' rest' hfuel => ?_⟩
    obtain ⟨fuel', rfl⟩ : ∃ n, fuel' = n + 1 := ⟨fuel' - 1, by omega⟩
    simp only [List.length_append, List.length_cons] at hfuel
    obtain ⟨-, next', hcolon', hnext'⟩ := hseparates rest'
    obtain ⟨hended, others', hcomma', hothers'⟩ := hseparates' rest'
    have hread := hspells fuel' (gap' ++ ('"' :: inner ++ '\x7d' :: rest')) (fun _ => hended)
      (by omega)
    have hrest := hothers fuel' rest' (by omega)
    rw [← List.cons_append, ← hothers'] at hrest
    have hshape : pre ++ (gap' ++ ('"' :: inner ++ '\x7d' :: rest')) = skip next' := by
      rw [hnext']
      simp
    rw [hshape] at hread
    rw [List.append_assoc, List.append_assoc]
    exact members_next (hletters _) hcolon' hread hcomma' hrest

theorem spells_list {blanks inner : List Char} {js : List Json}
    (hskips : ∀ rest', skip (blanks ++ (inner ++ ']' :: rest')) = inner ++ ']' :: rest')
    (hopens : ∃ c more, inner = c :: more ∧ c ≠ ']') (h : SpellsItems room inner js) :
    Spells (room + 1) ('[' :: (blanks ++ inner ++ [']'])) (.list js) := by
  intro fuel rest _ hfuel
  obtain ⟨c, more, rfl, hc⟩ := hopens
  obtain ⟨fuel, rfl⟩ : ∃ n, fuel = n + 1 := ⟨fuel - 1, by simp at hfuel; omega⟩
  have hitems : items fuel room (c :: (more ++ ']' :: rest)) = .ok (js, rest) :=
    h fuel rest (by simp at hfuel ⊢; omega)
  have hshape : '[' :: (blanks ++ c :: more ++ [']']) ++ rest =
      '[' :: (blanks ++ (c :: more ++ ']' :: rest)) := by simp
  have hskip : skip (blanks ++ (c :: more ++ ']' :: rest)) = c :: (more ++ ']' :: rest) :=
    hskips rest
  rw [hshape, value_opens hskip hc, hitems]
  rfl

theorem spells_object {blanks inner : List Char} {es : List (String × Json)}
    (hskips : ∀ rest',
      skip (blanks ++ ('"' :: inner ++ '\x7d' :: rest')) = '"' :: inner ++ '\x7d' :: rest')
    (h : SpellsMembers room inner es) : Spells (room + 1)
      ('\x7b' :: (blanks ++ '"' :: inner ++ ['\x7d'])) (.object (Entries.ofPairs es)) := by
  intro fuel rest _ hfuel
  obtain ⟨fuel, rfl⟩ : ∃ n, fuel = n + 1 := ⟨fuel - 1, by simp at hfuel; omega⟩
  have hmembers := h fuel rest (by simp at hfuel; omega)
  have hshape : '\x7b' :: (blanks ++ '"' :: inner ++ ['\x7d']) ++ rest =
      '\x7b' :: (blanks ++ ('"' :: inner ++ '\x7d' :: rest)) := by simp
  have hskip : skip (blanks ++ ('"' :: inner ++ '\x7d' :: rest)) =
      '"' :: (inner ++ '\x7d' :: rest) := hskips rest
  rw [hshape, value_opens_object hskip, hmembers]
  rfl

theorem spells_nil {blanks : List Char} (hskips : ∀ rest', skip (blanks ++ ']' :: rest') =
    ']' :: rest') : Spells (room + 1) ('[' :: (blanks ++ [']'])) (.list []) := by
  intro fuel rest _ hfuel
  obtain ⟨fuel, rfl⟩ : ∃ n, fuel = n + 1 := ⟨fuel - 1, by simp at hfuel; omega⟩
  rw [List.cons_append, List.append_assoc]
  exact value_nil (hskips rest)

theorem spells_nil_object {blanks : List Char} (hskips : ∀ rest',
    skip (blanks ++ '\x7d' :: rest') = '\x7d' :: rest') :
    Spells (room + 1) ('\x7b' :: (blanks ++ ['\x7d'])) (.object []) := by
  intro fuel rest _ hfuel
  obtain ⟨fuel, rfl⟩ : ∃ n, fuel = n + 1 := ⟨fuel - 1, by simp at hfuel; omega⟩
  rw [List.cons_append, List.append_assoc]
  exact value_nil_object (hskips rest)

theorem spells_scalar (hlist : ∀ more, cs ≠ '[' :: more) (hobject : ∀ more, cs ≠ '\x7b' :: more)
    (h : ∀ rest, Ended rest → scalar (cs ++ rest) = .ok (j, rest)) (hj : j.IsScalar) :
    Spells room cs j := by
  intro fuel rest hended hfuel
  cases cs with
  | nil =>
    have hnothing := h [] nofun
    cases hnothing
  | cons c cs =>
    obtain ⟨fuel, rfl⟩ : ∃ n, fuel = n + 1 := ⟨fuel - 1, by simp at hfuel; omega⟩
    have hc : c ≠ '[' ∧ c ≠ '\x7b' :=
      ⟨fun e => hlist cs (by rw [e]), fun e => hobject cs (by rw [e])⟩
    rw [List.cons_append, value_scalar hc.1 hc.2]
    exact h rest (hended hj)

theorem Splits.value_succ (ih : Splits fuel) (h : Json.value (fuel + 1) room cs = .ok (j, rest)) :
    ∃ pre, cs = pre ++ rest ∧ (j.IsScalar ∨ Bracketed pre) ∧ Spells room pre j := by
  unfold Json.value at h
  split at h
  · cases h
  · obtain rfl : fuel = _ := Nat.succ.inj ‹_›
    split at h
    · cases h
    · split at h
      · rename_i hskip
        cases h
        obtain ⟨blanks, -, rfl, hskips⟩ := mark_ends hskip
        exact ⟨'[' :: (blanks ++ [']']), by simp, .inr ⟨blanks, .inl rfl⟩, spells_nil hskips⟩
      · rename_i hne
        obtain ⟨⟨js, more⟩, hitems, h⟩ := Except.bind_eq_ok h
        cases h
        obtain ⟨inner, hinner, hspells⟩ := ih.items hitems
        have hopens : ∃ c more, inner = c :: more ∧ c ≠ ']' := by
          cases inner with
          | nil => exact absurd hinner (hne _)
          | cons c inner =>
            refine ⟨c, inner, rfl, ?_⟩
            rintro rfl
            exact hne _ hinner
        obtain ⟨blanks, -, rfl, hskips⟩ := skip_ends hinner
        exact ⟨'[' :: (blanks ++ inner ++ [']']), by simp, .inr ⟨blanks ++ inner, .inl rfl⟩,
          spells_list hskips hopens hspells⟩
  · obtain rfl : fuel = _ := Nat.succ.inj ‹_›
    split at h
    · cases h
    · split at h
      · rename_i hskip
        cases h
        obtain ⟨blanks, -, rfl, hskips⟩ := mark_ends hskip
        exact ⟨'\x7b' :: (blanks ++ ['\x7d']), by simp, .inr ⟨blanks, .inr rfl⟩,
          spells_nil_object hskips⟩
      · obtain ⟨⟨es, more⟩, hmembers, h⟩ := Except.bind_eq_ok h
        cases h
        obtain ⟨inner, hinner, hspells⟩ := ih.members hmembers
        rw [← List.cons_append] at hinner
        obtain ⟨blanks, -, rfl, hskips⟩ := skip_ends hinner
        exact ⟨'\x7b' :: (blanks ++ '"' :: inner ++ ['\x7d']), by simp,
          .inr ⟨blanks ++ '"' :: inner, .inr rfl⟩, spells_object hskips hspells⟩
  · rename_i hlist hobject
    obtain ⟨pre, rfl, hpre⟩ := scalar_ends h
    have hj := scalar_isScalar h
    refine ⟨pre, rfl, .inl hj, spells_scalar (fun more e => ?_) (fun more e => ?_) hpre hj⟩
    · exact hlist (more ++ rest) (by rw [e, List.cons_append])
    · exact hobject (more ++ rest) (by rw [e, List.cons_append])

/-- **Whatever is read is split off.** -/
theorem splits (fuel : Nat) : Splits fuel := by
  induction fuel with
  | zero => exact ⟨nofun, nofun, nofun⟩
  | succ fuel ih => exact ⟨ih.value_succ, ih.items_succ, ih.members_succ⟩

/-- What begins with a bracket is no scalar. -/
theorem not_scalar_of_opens {c : Char} (hc : c = '[' ∨ c = '\x7b')
    (h : value fuel room (c :: cs) = .ok (j, rest)) : ¬j.IsScalar := by
  cases fuel with
  | zero => cases h
  | succ fuel =>
    cases room with
    | zero => rcases hc with rfl | rfl <;> cases h
    | succ room =>
      rcases hc with rfl | rfl
      · rw [value] at h
        dsimp only at h
        split at h
        · cases h
          exact id
        · obtain ⟨⟨js, more⟩, -, h⟩ := Except.bind_eq_ok h
          cases h
          exact id
      · rw [value] at h
        dsimp only at h
        split at h
        · cases h
          exact id
        · obtain ⟨⟨es, more⟩, -, h⟩ := Except.bind_eq_ok h
          cases h
          exact id

/-! ## 6. Documents -/

/-- A document that is a container is its text, between blanks. -/
theorem readChars_container (h : readChars cs = .ok j) (hj : ¬j.IsScalar) :
    ∃ before body after, cs = before ++ (body ++ after) ∧ (∀ c ∈ before, isBlank c = true) ∧
      (∀ c ∈ after, isBlank c = true) ∧ Bracketed body ∧ Spells depthLimit body j := by
  obtain ⟨⟨j', rest⟩, hvalue, h⟩ := Except.bind_eq_ok h
  dsimp only at h
  split at h
  · rename_i hrest
    cases h
    obtain ⟨body, hbody, hshape, hspells⟩ := (splits _).value hvalue
    obtain ⟨before, hbefore, hcs⟩ := skip_split cs
    obtain ⟨after, hafter, hall⟩ := skip_split rest
    rw [List.isEmpty_iff.mp hrest, List.append_nil] at hall
    rw [hbody, hall] at hcs
    exact ⟨before, body, after, hcs, hbefore, hafter, hshape.resolve_left hj, hspells⟩
  · cases h

/-- Behind blanks and the text of a container there must be blanks only. -/
theorem readChars_spells {before body : List Char} (hj : ¬j.IsScalar)
    (hbefore : ∀ c ∈ before, isBlank c = true) (hbody : Bracketed body)
    (hspells : Spells depthLimit body j) (after : List Char) :
    readChars (before ++ (body ++ after)) =
      if (skip after).isEmpty then .ok j else .error .malformed := by
  have hskip : skip (before ++ (body ++ after)) = body ++ after := by
    refine skip_blanks hbefore fun c hc => ?_
    obtain ⟨inner, rfl | rfl⟩ := hbody
    · cases hc
      rfl
    · cases hc
      rfl
  have hread := hspells (2 * (before ++ (body ++ after)).length + 2) after
    (fun hscalar => absurd hscalar hj) (by simp; omega)
  rw [readChars, hskip, hread]
  rfl

/-- **With more than blanks behind it a container is no document**, and with blanks it is the same
    document as without. -/
theorem readChars_behind (h : readChars cs = .ok j) (hj : ¬j.IsScalar) (more : List Char) :
    readChars (cs ++ more) = if more.all isBlank then .ok j else .error .malformed := by
  obtain ⟨before, body, after, rfl, hbefore, hafter, hbody, hspells⟩ := readChars_container h hj
  rw [List.append_assoc, List.append_assoc, readChars_spells hj hbefore hbody hspells]
  have hskip : skip (after ++ more) = skip more := List.dropWhile_append_of_pos hafter
  have hempty : (skip more).isEmpty = more.all isBlank := by
    rw [Bool.eq_iff_iff, List.isEmpty_iff, List.all_eq_true]
    exact List.dropWhile_eq_nil_iff
  rw [hskip, hempty]

end LintHost.Json
