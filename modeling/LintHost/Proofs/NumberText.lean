import LintHost.Json.Reader
import LintHost.Json.Writer
import LintHost.Proofs.JsonRead
import LintHost.Proofs.Rounding

/-!
# Numbers as JSON text

What stands after a number in JSON text is a comma, a line end, a closing bracket or nothing. Before
such a rest, a number is read exactly as it was written.

* `digitsOf`: what digit characters are worth; `ofDigits_toDigits`: the digits of a number spell it;
* `Json.Closing`: the rest of a text may follow a number;
* `Json.number_toDigits`, `Json.number_write`: integers and decimals are read back;
* `Json.scalar_intText`, `Json.scalar_floatText`: so are numbers with their signs.
-/

namespace LintHost

open LintHost.Number LintHost.Text LintHost.Binary64

/-! ## 1. Digits -/

namespace Number

/-- What digit characters are worth. -/
def digitsOf (cs : List Char) : List Nat := cs.map fun c => c.toNat - '0'.toNat

theorem asciiDigit?_of_isDigit {c : Char} (h : c.isDigit = true) :
    asciiDigit? c = some (c.toNat - '0'.toNat) := by
  have hc := Char.isDigit_iff_toNat.mp h
  exact if_pos ⟨hc.1, hc.2⟩

/-- The rest of a text does not go on with a digit. -/
def NoDigit (rest : List Char) : Prop := ∀ c, rest.head? = some c → asciiDigit? c = none

theorem spanDigits_noDigit {rest : List Char} (h : NoDigit rest) : spanDigits rest = ([], rest) := by
  cases rest with
  | nil => rfl
  | cons c cs =>
    unfold spanDigits
    rw [h c rfl]

/-- Digits are taken up to where none follows. -/
theorem spanDigits_append {cs rest : List Char} (hcs : ∀ c ∈ cs, c.isDigit = true)
    (hrest : NoDigit rest) : spanDigits (cs ++ rest) = (digitsOf cs, rest) := by
  induction cs with
  | nil => exact spanDigits_noDigit hrest
  | cons c cs ih =>
    obtain ⟨hc, hcs⟩ := List.forall_mem_cons.mp hcs
    rw [List.cons_append, spanDigits, asciiDigit?_of_isDigit hc, ih hcs]
    rfl

theorem foldl_digits (ds : List Nat) (n : Nat) :
    ds.foldl (fun n d => 10 * n + d) n = n * tenTo ds.length + ofDigits ds := by
  induction ds generalizing n with
  | nil => exact (Nat.mul_one n).symm
  | cons d ds ih =>
    have hfirst : ofDigits (d :: ds) = d * tenTo ds.length + ofDigits ds := by
      rw [ofDigits, List.foldl_cons, Nat.mul_zero, Nat.zero_add, ih]
    have hpow : tenTo (ds.length + 1) = tenTo ds.length * 10 := Nat.pow_succ ..
    rw [List.foldl_cons, ih, hfirst, List.length_cons, hpow]
    ring

theorem ofDigits_append (ds more : List Nat) :
    ofDigits (ds ++ more) = ofDigits ds * tenTo more.length + ofDigits more := by
  rw [ofDigits, List.foldl_append, foldl_digits]
  rfl

theorem ofDigits_zeros (k : Nat) : ofDigits (List.replicate k 0) = 0 := by
  induction k with
  | zero => rfl
  | succ k ih => rw [List.replicate_succ', ofDigits_append, ih, Nat.zero_mul]; rfl

theorem digitsOf_append (cs more : List Char) :
    digitsOf (cs ++ more) = digitsOf cs ++ digitsOf more := List.map_append

theorem digitsOf_zeros (k : Nat) : digitsOf (List.replicate k '0') = List.replicate k 0 :=
  List.map_replicate

theorem digitsOf_length (cs : List Char) : (digitsOf cs).length = cs.length := List.length_map _

/-- **The digits of a number spell it.** -/
theorem ofDigits_toDigits (n : Nat) : ofDigits (digitsOf (Nat.toDigits 10 n)) = n := by
  have hdigit : ∀ d < 10, ofDigits (digitsOf [d.digitChar]) = d := by decide
  induction n using Nat.strong_induction_on with
  | _ n ih =>
    by_cases h : n < 10
    · rw [Nat.toDigits_of_lt_base h, hdigit n h]
    · have hrest := ih (n / 10) (by omega)
      have hlast := hdigit (n % 10) (Nat.mod_lt n (by decide))
      rw [Nat.toDigits_of_base_le (by decide) (by omega), digitsOf_append, ofDigits_append, hrest,
        hlast, digitsOf_length]
      show n / 10 * 10 + n % 10 = n
      omega

theorem isDigit_toDigits {n : Nat} : ∀ c ∈ Nat.toDigits 10 n, c.isDigit = true :=
  fun _ h => Nat.isDigit_of_mem_toDigits (by decide) (by decide) h

theorem isDigit_zeros {k : Nat} : ∀ c ∈ List.replicate k '0', c.isDigit = true := by
  intro c hc
  rw [List.eq_of_mem_replicate hc]
  rfl

theorem toDigits_length_le {n k : Nat} (hk : 0 < k) (h : n < tenTo k) :
    (Nat.toDigits 10 n).length ≤ k :=
  (Nat.length_toDigits_le_iff (by decide) hk).mpr h

/-- The first digit of a positive number is not zero. -/
theorem toDigits_head {n : Nat} (h : 0 < n) :
    ∃ c cs, Nat.toDigits 10 n = c :: cs ∧ c.isDigit = true ∧ c ≠ '0' := by
  have hdigit : ∀ d < 10, 0 < d → d.digitChar.isDigit = true ∧ d.digitChar ≠ '0' := by decide
  induction n using Nat.strong_induction_on with
  | _ n ih =>
    by_cases hn : n < 10
    · exact ⟨_, _, Nat.toDigits_of_lt_base hn, (hdigit n hn h).1, (hdigit n hn h).2⟩
    · obtain ⟨c, cs, hcs, hc, hzero⟩ := ih (n / 10) (by omega) (by omega)
      refine ⟨c, cs ++ [(n % 10).digitChar], ?_, hc, hzero⟩
      rw [Nat.toDigits_of_base_le (by decide) (by omega), hcs, List.cons_append]

end Number

namespace Json

/-! ## 2. The parts of a number -/

/-- The rest of a text may follow a number. -/
def Closing (rest : List Char) : Prop :=
  ∀ c, rest.head? = some c → c = ',' ∨ c = '\n' ∨ c = ']' ∨ c = '\x7d'

variable {rest : List Char}

theorem Closing.noDigit (h : Closing rest) : NoDigit rest := by
  intro c hc
  rcases h c hc with rfl | rfl | rfl | rfl <;> rfl

theorem noDigit_point (cs : List Char) : NoDigit ('.' :: cs) := by
  rintro c ⟨⟩
  rfl

theorem noDigit_exponent (cs : List Char) : NoDigit ('e' :: cs) := by
  rintro c ⟨⟩
  rfl

/-- The whole part is taken as it is written: a zero, or digits of which the first is none. -/
theorem wholePart_digits {c : Char} {cs : List Char} (hc : c ≠ '0')
    (hcs : ∀ d ∈ c :: cs, d.isDigit = true) (hrest : NoDigit rest) :
    wholePart (c :: cs ++ rest) = some (digitsOf (c :: cs), rest) := by
  have hspan := spanDigits_append hcs hrest
  unfold wholePart
  split
  · exact absurd (List.cons.inj ‹_›).1 hc
  · rw [hspan]
    rfl

theorem fraction_none (h : ∀ cs, rest ≠ '.' :: cs) : fraction rest = ([], rest) := by
  unfold fraction
  split
  · exact absurd rfl (h _)
  · rfl

theorem fraction_digits {c : Char} {cs : List Char} (hcs : ∀ d ∈ c :: cs, d.isDigit = true)
    (hrest : NoDigit rest) :
    fraction ('.' :: (c :: cs ++ rest)) = (digitsOf (c :: cs), rest) := by
  simp only [fraction, spanDigits_append hcs hrest, digitsOf, List.map_cons]

theorem Closing.fraction (h : Closing rest) : fraction rest = ([], rest) := by
  refine fraction_none ?_
  rintro cs rfl
  rcases h '.' rfl with h | h | h | h <;> cases h

theorem Closing.exponent (h : Closing rest) : exponent rest = (none, rest) := by
  cases rest with
  | nil => rfl
  | cons c cs => rcases h c rfl with rfl | rfl | rfl | rfl <;> rfl

theorem signed_natAbs (e : Int) : signed (decide (e < 0)) e.natAbs = e := by
  by_cases h : e < 0
  · rw [decide_eq_true h, signed, if_pos rfl]
    omega
  · rw [decide_eq_false h, signed, if_neg Bool.false_ne_true]
    omega

/-- The digits of an exponent, with the zeros in front of them. -/
theorem padLeft_spec (width n : Nat) : ∃ c cs, padLeft width (Nat.toDigits 10 n) = c :: cs ∧
    (∀ d ∈ c :: cs, d.isDigit = true) ∧ ofDigits (digitsOf (c :: cs)) = n := by
  have hne : padLeft width (Nat.toDigits 10 n) ≠ [] := by
    have hpos : 0 < (Nat.toDigits 10 n).length := Nat.length_toDigits_pos
    intro h
    rw [padLeft] at h
    rw [(List.append_eq_nil_iff.mp h).2] at hpos
    exact absurd hpos (Nat.lt_irrefl 0)
  obtain ⟨c, cs, hcs⟩ := List.exists_cons_of_ne_nil hne
  refine ⟨c, cs, hcs, ?_, ?_⟩
  · rw [← hcs, padLeft]
    exact List.forall_mem_append.mpr ⟨isDigit_zeros, isDigit_toDigits⟩
  · rw [← hcs, padLeft, digitsOf_append, ofDigits_append, digitsOf_zeros, ofDigits_zeros,
      ofDigits_toDigits, Nat.zero_mul, Nat.zero_add]

theorem exponent_exponentText (layout : Layout) (e : Int) (hrest : NoDigit rest) :
    exponent (exponentText layout e ++ rest) = (some e, rest) := by
  obtain ⟨c, cs, htext, hdigits, hvalue⟩ := padLeft_spec layout.exponentWidth e.natAbs
  have hspan := spanDigits_append hdigits hrest
  have hsign : spanSign ((if e < 0 then '-' else '+') :: (c :: cs ++ rest)) =
      (decide (e < 0), c :: cs ++ rest) := by
    by_cases h : e < 0 <;> simp [h, spanSign]
  have hshape : exponentText layout e ++ rest =
      'e' :: (if e < 0 then '-' else '+') :: (c :: cs ++ rest) := by
    rw [exponentText, htext]
    rfl
  rw [hshape, exponent, if_pos (.inl rfl), hsign]
  dsimp only
  rw [hspan]
  show (some (signed (decide (e < 0)) (ofDigits (digitsOf (c :: cs)))), rest) = _
  rw [hvalue, signed_natAbs]

/-! ## 3. Integers -/

/-- **An integer is read as it was written.** -/
theorem number_toDigits (negative : Bool) {n : Nat} (hn : n < tenTo digitLimit)
    (hrest : Closing rest) :
    number negative (Nat.toDigits 10 n ++ rest) = .ok (.int (signed negative n), rest) := by
  have hwhole : wholePart (Nat.toDigits 10 n ++ rest) =
      some (digitsOf (Nat.toDigits 10 n), rest) := by
    by_cases hzero : n = 0
    · subst hzero
      rfl
    · obtain ⟨c, cs, hcs, -, hc⟩ := toDigits_head (Nat.pos_of_ne_zero hzero)
      have hdigits : ∀ d ∈ Nat.toDigits 10 n, d.isDigit = true := isDigit_toDigits
      rw [hcs] at hdigits ⊢
      exact wholePart_digits hc hdigits hrest.noDigit
  have hlength : (Nat.toDigits 10 n).length ≤ digitLimit := toDigits_length_le (by decide) hn
  unfold number
  rw [hwhole]
  dsimp only
  rw [hrest.fraction]
  dsimp only
  rw [hrest.exponent, digitsOf_length, ofDigits_toDigits]
  dsimp only
  rw [if_pos ⟨rfl, rfl⟩, if_neg (Nat.not_lt.mpr hlength)]

/-! ## 4. Decimals -/

/-- What the parts of a number come to, if one of them makes it a decimal. -/
theorem number_parts {negative : Bool} {cs more more' : List Char} {whole part : List Nat}
    {power : Option Int} (hwhole : wholePart cs = some (whole, more))
    (hpart : fraction more = (part, more')) (hpower : exponent more' = (power, rest))
    (hdecimal : ¬(part.isEmpty = true ∧ power.isNone = true)) {rank : Nat}
    (hvalue : rankOfDecimal ⟨ofDigits (whole ++ part), power.getD 0 - part.length⟩ = rank) :
    number negative cs = .ok (.float (.ofRank negative rank), rest) := by
  unfold number
  rw [hwhole]
  dsimp only
  rw [hpart]
  dsimp only
  rw [hpower]
  dsimp only
  rw [if_neg hdecimal, ofDecimal_eq, hvalue]

variable {d : Decimal}

/-- A decimal with its point before the first digit. -/
theorem number_below (negative : Bool) {p : Int}
    (hp : p = d.exponent + (Nat.toDigits 10 d.digits).length) (hlow : p ≤ 0)
    (hrest : Closing rest) :
    number negative (positional floatLayout (Nat.toDigits 10 d.digits) p ++ rest) =
      .ok (.float (.ofRank negative (rankOfDecimal d)), rest) := by
  obtain ⟨c, cs, htext, hdigits, hvalue⟩ :=
    padLeft_spec ((-p).toNat + (Nat.toDigits 10 d.digits).length) d.digits
  rw [padLeft, Nat.add_sub_cancel] at htext
  have hlength : (c :: cs).length = (-p).toNat + (Nat.toDigits 10 d.digits).length := by
    rw [← htext, List.length_append, List.length_replicate]
  have hshape : positional floatLayout (Nat.toDigits 10 d.digits) p ++ rest =
      '0' :: '.' :: (c :: cs ++ rest) := by
    rw [positional, if_pos hlow, ← htext]
    rfl
  have hzero : ofDigits [0] = 0 := rfl
  have hdigit : ofDigits ([0] ++ digitsOf (c :: cs)) = d.digits := by
    rw [ofDigits_append, hvalue, hzero, Nat.zero_mul, Nat.zero_add]
  have hexponent : (none : Option Int).getD 0 - (digitsOf (c :: cs)).length = d.exponent := by
    rw [digitsOf_length, hlength, Option.getD_none]
    omega
  rw [hshape]
  refine number_parts rfl (fraction_digits hdigits hrest.noDigit) hrest.exponent
    (fun h => nomatch h.1) ?_
  rw [hdigit, hexponent]

/-- A whole decimal, with zeros up to its point and one behind it. -/
theorem number_whole (negative : Bool) {p : Int}
    (hp : p = d.exponent + (Nat.toDigits 10 d.digits).length) (hpos : 0 < d.digits)
    (hlow : ¬p ≤ 0) (hwhole : (Nat.toDigits 10 d.digits).length ≤ p.toNat)
    (hrest : Closing rest) :
    number negative (positional floatLayout (Nat.toDigits 10 d.digits) p ++ rest) =
      .ok (.float (.ofRank negative (rankOfDecimal d)), rest) := by
  let zeros := List.replicate (p.toNat - (Nat.toDigits 10 d.digits).length) '0'
  obtain ⟨c, cs, htext, -, hc⟩ := toDigits_head hpos
  have hdigits : ∀ e ∈ c :: (cs ++ zeros), e.isDigit = true := by
    rw [← List.cons_append, ← htext]
    exact List.forall_mem_append.mpr ⟨isDigit_toDigits, isDigit_zeros⟩
  have hshape : positional floatLayout (Nat.toDigits 10 d.digits) p ++ rest =
      c :: (cs ++ zeros) ++ ('.' :: (['0'] ++ rest)) := by
    rw [positional, if_neg hlow, if_pos hwhole, htext]
    simp [zeros, htext, floatLayout, numberLayout]
  have hone : ∀ e ∈ ['0'], e.isDigit = true := isDigit_zeros (k := 1)
  rw [hshape]
  refine number_parts (wholePart_digits hc hdigits (noDigit_point _))
    (fraction_digits hone hrest.noDigit) hrest.exponent (fun h => nomatch h.1) ?_
  have hvalue : ofDigits (digitsOf (c :: (cs ++ zeros)) ++ digitsOf ['0']) =
      d.digits * tenTo (p.toNat - (Nat.toDigits 10 d.digits).length + 1) := by
    have hmore : zeros ++ ['0'] =
        List.replicate (p.toNat - (Nat.toDigits 10 d.digits).length + 1) '0' :=
      List.replicate_succ'.symm
    rw [← digitsOf_append, ← List.cons_append, List.append_assoc, hmore, ← htext, digitsOf_append,
      ofDigits_append, ofDigits_toDigits, digitsOf_zeros, ofDigits_zeros, List.length_replicate,
      Nat.add_zero]
  have hexponent : (none : Option Int).getD 0 - (digitsOf ['0']).length +
      ((p.toNat - (Nat.toDigits 10 d.digits).length + 1 : Nat) : Int) = d.exponent := by
    rw [digitsOf_length, Option.getD_none, List.length_singleton]
    omega
  rw [hvalue, rankOfDecimal_shift, hexponent]

/-- A decimal with its point between its digits. -/
theorem number_split (negative : Bool) {p : Int}
    (hp : p = d.exponent + (Nat.toDigits 10 d.digits).length) (hpos : 0 < d.digits)
    (hlow : ¬p ≤ 0) (hsplit : ¬(Nat.toDigits 10 d.digits).length ≤ p.toNat)
    (hrest : Closing rest) :
    number negative (positional floatLayout (Nat.toDigits 10 d.digits) p ++ rest) =
      .ok (.float (.ofRank negative (rankOfDecimal d)), rest) := by
  obtain ⟨c, cs, htext, -, hc⟩ := toDigits_head hpos
  obtain ⟨k, hk⟩ : ∃ k, p.toNat = k + 1 := ⟨p.toNat - 1, by omega⟩
  have hlength : (Nat.toDigits 10 d.digits).length = cs.length + 1 := by
    rw [htext, List.length_cons]
  have hmore : cs.drop k ≠ [] := by
    intro hnil
    have hshort := List.drop_eq_nil_iff.mp hnil
    omega
  obtain ⟨e, es, hdrop⟩ := List.exists_cons_of_ne_nil hmore
  have hall : ∀ b ∈ c :: cs, b.isDigit = true := htext ▸ isDigit_toDigits
  have htake : c :: cs = c :: cs.take k ++ e :: es := by
    rw [List.cons_append, ← hdrop, List.take_append_drop]
  rw [htake] at hall
  obtain ⟨hfront, hback⟩ := List.forall_mem_append.mp hall
  have hshape : positional floatLayout (Nat.toDigits 10 d.digits) p ++ rest =
      c :: cs.take k ++ ('.' :: (e :: es ++ rest)) := by
    rw [positional, if_neg hlow, if_neg hsplit, htext, hk, List.take_succ_cons, List.drop_succ_cons,
      hdrop]
    simp
  rw [hshape]
  refine number_parts (wholePart_digits hc hfront (noDigit_point _))
    (fraction_digits hback hrest.noDigit) hrest.exponent (fun h => nomatch h.1) ?_
  have hes : (e :: es).length = cs.length - k := by rw [← hdrop, List.length_drop]
  have hexponent : (none : Option Int).getD 0 - (digitsOf (e :: es)).length = d.exponent := by
    rw [digitsOf_length, Option.getD_none, hes]
    omega
  rw [← digitsOf_append, ← htake, ← htext, ofDigits_toDigits, hexponent]

/-- A decimal with its point after the first digit and an exponent. -/
theorem number_scientific (negative : Bool) {p : Int}
    (hp : p = d.exponent + (Nat.toDigits 10 d.digits).length) (hpos : 0 < d.digits)
    (hrest : Closing rest) :
    number negative (scientific floatLayout (Nat.toDigits 10 d.digits) p ++ rest) =
      .ok (.float (.ofRank negative (rankOfDecimal d)), rest) := by
  obtain ⟨c, cs, htext, -, hc⟩ := toDigits_head hpos
  have hall : ∀ b ∈ c :: cs, b.isDigit = true := htext ▸ isDigit_toDigits
  have hpower := exponent_exponentText floatLayout (p - 1) hrest.noDigit
  have hlength : (Nat.toDigits 10 d.digits).length = cs.length + 1 := by
    rw [htext, List.length_cons]
  cases cs with
  | nil =>
    have hshape : scientific floatLayout (Nat.toDigits 10 d.digits) p ++ rest =
        [c] ++ (exponentText floatLayout (p - 1) ++ rest) := by
      rw [htext]
      rfl
    have hnone : fraction (exponentText floatLayout (p - 1) ++ rest) =
        ([], exponentText floatLayout (p - 1) ++ rest) := fraction_none (by simp [exponentText])
    rw [hshape]
    refine number_parts (wholePart_digits hc hall (noDigit_exponent _)) hnone hpower
      (fun h => nomatch h.2) ?_
    have hexponent : (some (p - 1)).getD 0 - (([] : List Nat).length : Int) = d.exponent := by
      simp only [Option.getD_some, List.length_nil] at hlength ⊢
      omega
    rw [List.append_nil, ← htext, ofDigits_toDigits, hexponent]
  | cons e es =>
    obtain ⟨hfront, hback⟩ := List.forall_mem_cons.mp hall
    have hshape : scientific floatLayout (Nat.toDigits 10 d.digits) p ++ rest =
        [c] ++ ('.' :: (e :: es ++ (exponentText floatLayout (p - 1) ++ rest))) := by
      rw [htext]
      simp [scientific]
    rw [hshape]
    refine number_parts (wholePart_digits hc (List.forall_mem_singleton.mpr hfront)
      (noDigit_point _)) (fraction_digits hback (noDigit_exponent _)) hpower
      (fun h => nomatch h.2) ?_
    have hexponent : (some (p - 1)).getD 0 - ((digitsOf (e :: es)).length : Int) = d.exponent := by
      rw [digitsOf_length, Option.getD_some]
      rw [hlength] at hp
      omega
    rw [← digitsOf_append, List.singleton_append, ← htext, ofDigits_toDigits, hexponent]

/-- **A decimal is read as it was written**, whichever way its digits are laid out. -/
theorem number_write (negative : Bool) (hpos : 0 < d.digits) (hrest : Closing rest) :
    number negative (floatLayout.write d ++ rest) =
      .ok (.float (.ofRank negative (rankOfDecimal d)), rest) := by
  unfold Layout.write
  dsimp only
  split
  · by_cases hlow : d.exponent + (Nat.toDigits 10 d.digits).length ≤ 0
    · exact number_below negative rfl hlow hrest
    · by_cases hwhole : (Nat.toDigits 10 d.digits).length ≤
          (d.exponent + (Nat.toDigits 10 d.digits).length).toNat
      · exact number_whole negative rfl hpos hlow hwhole hrest
      · exact number_split negative rfl hpos hlow hwhole hrest
  · exact number_scientific negative rfl hpos hrest

/-! ## 5. Numbers with their signs -/

/-- What begins with a digit, after a sign or not, is a number. -/
theorem scalar_signed (negative : Bool) {c : Char} (hc : c.isDigit = true) (cs : List Char) :
    scalar (signText negative ++ c :: cs) = number negative (c :: cs) := by
  have hne : ∀ b : Char, b.isDigit = false → c ≠ b := by
    rintro b hb rfl
    exact Bool.noConfusion (hb.symm.trans hc)
  cases negative with
  | true =>
    unfold scalar
    split <;> simp_all [signText]
  | false =>
    unfold scalar
    split <;> simp_all [signText]

theorem toDigits_cons (n : Nat) : ∃ c cs, Nat.toDigits 10 n = c :: cs ∧ c.isDigit = true := by
  obtain ⟨c, cs, hcs⟩ := List.exists_cons_of_length_pos (Nat.length_toDigits_pos (b := 10) (n := n))
  exact ⟨c, cs, hcs, isDigit_toDigits c (hcs ▸ List.mem_cons_self)⟩

theorem intText_eq (n : Int) :
    intText n = signText (decide (n < 0)) ++ Nat.toDigits 10 n.natAbs := by
  by_cases h : n < 0 <;> simp [intText, signText, h]

/-- **An integer is read back with its sign.** -/
theorem scalar_intText {n : Int} (hn : shortInt n = true) (hrest : Closing rest) :
    scalar (intText n ++ rest) = .ok (.int n, rest) := by
  obtain ⟨c, cs, hcs, hc⟩ := toDigits_cons n.natAbs
  have hscalar := scalar_signed (decide (n < 0)) hc (cs ++ rest)
  rw [← List.cons_append, ← hcs] at hscalar
  rw [intText_eq, List.append_assoc, hscalar, number_toDigits _ (shortInt_iff.mp hn) hrest, signed_natAbs]

theorem write_cons (d : Decimal) :
    ∃ c cs, floatLayout.write d = c :: cs ∧ c.isDigit = true := by
  obtain ⟨c, cs, hcs, hc⟩ := toDigits_cons d.digits
  unfold Layout.write
  dsimp only
  rw [hcs]
  split
  · unfold positional
    split
    · exact ⟨'0', _, rfl, rfl⟩
    · split
      · exact ⟨c, _, rfl, hc⟩
      · obtain ⟨k, hk⟩ : ∃ k, (d.exponent + (c :: cs).length).toNat = k + 1 :=
          ⟨(d.exponent + (c :: cs).length).toNat - 1, by omega⟩
        rw [hk]
        exact ⟨c, _, rfl, hc⟩
  · cases cs with
    | nil => exact ⟨c, _, rfl, hc⟩
    | cons e es => exact ⟨c, _, rfl, hc⟩

theorem number_zero (negative : Bool) (hrest : Closing rest) :
    number negative ('0' :: '.' :: (['0'] ++ rest)) = .ok (.float (.ofRank negative 0), rest) := by
  have hdigits : ofDigits ([0] ++ digitsOf ['0']) = 0 := rfl
  have hone : ∀ e ∈ ['0'], e.isDigit = true := isDigit_zeros (k := 1)
  refine number_parts rfl (fraction_digits hone hrest.noDigit) hrest.exponent
    (fun h => nomatch h.1) ?_
  rw [hdigits, rankOfDecimal_zero]

/-- **A number is read back with its sign**, also if it has no digits. -/
theorem scalar_floatText (x : Binary64) (hrest : Closing rest) :
    scalar (floatLayout.render x ++ rest) = .ok (.float x, rest) := by
  cases x with
  | nan => rfl
  | infinite negative => cases negative <;> rfl
  | finite negative rank =>
    by_cases hzero : rank.val = 0
    · have hshape : floatLayout.render (.finite negative rank) ++ rest =
          signText negative ++ '0' :: '.' :: (['0'] ++ rest) := by
        rw [Layout.render, if_pos hzero, List.append_assoc]
        rfl
      rw [hshape, scalar_signed negative rfl, number_zero negative hrest, ← hzero, ofRank_eq]
    · have hpos := shortest_digits_pos hzero
      obtain ⟨c, cs, hcs, hc⟩ := write_cons (shortest rank.val)
      have hscalar := scalar_signed negative hc (cs ++ rest)
      rw [← List.cons_append, ← hcs, number_write negative hpos hrest, rankOfDecimal_shortest,
        ofRank_eq] at hscalar
      rw [Layout.render, if_neg hzero, List.append_assoc]
      exact hscalar

end Json

end LintHost
