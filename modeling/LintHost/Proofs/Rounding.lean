import Mathlib.Data.Nat.Log
import Mathlib.Tactic.Ring
import LintHost.Number.Shortest
import LintHost.Number.Reading

/-!
# Rounding to binary64

A decimal is read as the magnitude nearest to it. What is read depends on its value alone, not on
how many zeros its digits end in, and the decimal that a number is written with is read as that
number.

* `rankOf_congr`: rounding a quotient depends on its value alone;
* `rankOf_units`: a magnitude is rounded to itself;
* `rankOfDecimal_shift`: zeros at the end of the digits may go into the exponent;
* `rankOfDecimal_shortest`: the decimal that a rank is written with is read as that rank;
* `ofDecimal_eq`: the bounds beyond which a decimal is not even rounded decide nothing.
-/

namespace LintHost.Binary64

open LintHost.Number (twoTo tenTo)

/-! ## 1. Powers -/

theorem twoTo_pos (n : Nat) : 0 < twoTo n := Nat.two_pow_pos n

theorem tenTo_pos (n : Nat) : 0 < tenTo n := Nat.pow_pos (Nat.succ_pos 9)

theorem tenTo_add (m n : Nat) : tenTo (m + n) = tenTo m * tenTo n := Nat.pow_add 10 m n

theorem tenTo_le {m n : Nat} (h : m ≤ n) : tenTo m ≤ tenTo n :=
  Nat.pow_le_pow_right (Nat.succ_pos 9) h

theorem twoTo_add (m n : Nat) : twoTo (m + n) = twoTo m * twoTo n := Nat.pow_add 2 m n

/-! ## 2. Rounding a quotient -/

/-- Rounding does not see a common factor. -/
theorem divEven_scale {c : Nat} (hc : 0 < c) (num den : Nat) :
    divEven (c * num) (c * den) = divEven num den := by
  have hdiv : c * num / (c * den) = num / den := Nat.mul_div_mul_left num den hc
  have hmod : c * num % (c * den) = c * (num % den) := Nat.mul_mod_mul_left c num den
  have hlt : 2 * (c * (num % den)) < c * den ↔ 2 * (num % den) < den := by
    rw [Nat.mul_left_comm]
    exact Nat.mul_lt_mul_left hc
  have hgt : c * den < 2 * (c * (num % den)) ↔ den < 2 * (num % den) := by
    rw [Nat.mul_left_comm 2]
    exact Nat.mul_lt_mul_left hc
  simp only [divEven, hdiv, hmod, hlt, hgt]

/-- A whole quotient is left as it is. -/
theorem divEven_mul {d : Nat} (hd : 0 < d) (q : Nat) : divEven (q * d) d = q := by
  have hdiv : q * d / d = q := Nat.mul_div_cancel q hd
  have hmod : q * d % d = 0 := Nat.mul_mod_left q d
  simp [divEven, hdiv, hmod, hd]

theorem rankOf_scale {c : Nat} (hc : 0 < c) (num den : Nat) :
    rankOf (c * num) (c * den) = rankOf num den := by
  have hdiv : c * num * twoTo 1074 / (c * den) = num * twoTo 1074 / den := by
    rw [Nat.mul_assoc]
    exact Nat.mul_div_mul_left _ den hc
  unfold rankOf
  simp only [hdiv]
  rw [Nat.mul_assoc, Nat.mul_assoc, divEven_scale hc]

/-- **Rounding depends on the value of the quotient alone.** -/
theorem rankOf_congr {a b c d : Nat} (hb : 0 < b) (hd : 0 < d) (h : a * d = c * b) :
    rankOf a b = rankOf c d := by
  rw [← rankOf_scale hd a b, ← rankOf_scale hb c d, Nat.mul_comm d a, h, Nat.mul_comm c b,
    Nat.mul_comm d b]

theorem rankOf_eq (u : Nat) : rankOf u (twoTo 1074) =
    (u.log2 - 52) * twoTo 52 + divEven u (twoTo (u.log2 - 52)) := by
  have hdiv : u * twoTo 1074 / twoTo 1074 = u := Nat.mul_div_cancel u (twoTo_pos 1074)
  unfold rankOf
  simp only [hdiv]
  rw [Nat.mul_comm u, divEven_scale (twoTo_pos 1074)]

theorem log2_normal {m : Nat} (hlow : twoTo 52 ≤ m) (hhigh : m < twoTo 53) (k : Nat) :
    (m * twoTo k).log2 = 52 + k := by
  have hm : m * twoTo k ≠ 0 :=
    Nat.ne_of_gt (Nat.mul_pos (Nat.lt_of_lt_of_le (twoTo_pos 52) hlow) (twoTo_pos k))
  refine (Nat.log2_eq_iff hm).mpr ⟨?_, ?_⟩
  · show twoTo (52 + k) ≤ m * twoTo k
    rw [twoTo_add]
    exact Nat.mul_le_mul_right _ hlow
  · show m * twoTo k < twoTo (52 + k + 1)
    rw [Nat.add_right_comm, twoTo_add]
    exact Nat.mul_lt_mul_of_pos_right hhigh (twoTo_pos k)

/-- **A magnitude is rounded to itself.** -/
theorem rankOf_units (rank : Nat) : rankOf (units rank) (twoTo 1074) = rank := by
  have htwo : twoTo 52 = 4503599627370496 := rfl
  rw [rankOf_eq]
  unfold units
  by_cases hrank : rank < twoTo 52
  · -- The magnitudes up to here have their rank as their units.
    have hlog : rank.log2 - 52 = 0 := by
      by_cases hzero : rank = 0
      · subst hzero
        rfl
      · have hlt : rank.log2 < 52 := (Nat.log2_lt hzero).mpr hrank
        omega
    rw [if_pos hrank, hlog]
    have hone := divEven_mul Nat.one_pos rank
    rw [Nat.mul_one] at hone
    rw [Nat.zero_mul, Nat.zero_add]
    exact hone
  · have hmod : rank % twoTo 52 < twoTo 52 := Nat.mod_lt _ (twoTo_pos 52)
    have hhigh : twoTo 52 + rank % twoTo 52 < twoTo 53 := by
      have hdouble : twoTo 53 = twoTo 52 + twoTo 52 := rfl
      omega
    have hlog := log2_normal (Nat.le_add_right _ _) hhigh (rank / twoTo 52 - 1)
    rw [if_neg hrank, hlog, Nat.add_sub_cancel_left, divEven_mul (twoTo_pos _)]
    have hsplit := Nat.div_add_mod rank (twoTo 52)
    have hge : 1 ≤ rank / twoTo 52 := Nat.div_pos (Nat.le_of_not_lt hrank) (twoTo_pos 52)
    rw [htwo] at hsplit hge ⊢
    omega

theorem rankOf_small {num den : Nat} (h : 2 * (num * twoTo 1074) < den) : rankOf num den = 0 := by
  have hlt : num * twoTo 1074 < den := by omega
  have hdiv : num * twoTo 1074 / den = 0 := Nat.div_eq_of_lt hlt
  have hmod : num * twoTo 1074 % den = num * twoTo 1074 := Nat.mod_eq_of_lt hlt
  have hone : den * twoTo 0 = den := Nat.mul_one den
  have hlog : (0 : Nat).log2 - 52 = 0 := rfl
  simp only [rankOf, hdiv, hlog, hone]
  simp only [divEven, hdiv, hmod, if_pos h, Nat.zero_mul, Nat.zero_add]

theorem rankOf_large {num den n : Nat} (hden : 0 < den) (h : den * twoTo n ≤ num) :
    (n + 1074 - 52) * twoTo 52 ≤ rankOf num den := by
  have hquotient : twoTo (n + 1074) ≤ num * twoTo 1074 / den := by
    refine (Nat.le_div_iff_mul_le hden).mpr ?_
    calc twoTo (n + 1074) * den = den * twoTo n * twoTo 1074 := by
          rw [Nat.mul_comm, Nat.mul_assoc, twoTo_add]
      _ ≤ num * twoTo 1074 := Nat.mul_le_mul_right _ h
  have hlog : n + 1074 ≤ (num * twoTo 1074 / den).log2 :=
    (Nat.le_log2 (Nat.ne_of_gt (Nat.lt_of_lt_of_le (twoTo_pos _) hquotient))).mpr hquotient
  exact Nat.le_trans (Nat.mul_le_mul_right _ (Nat.sub_le_sub_right hlog 52)) (Nat.le_add_right _ _)

/-! ## 3. Decimals -/

/-- **Zeros at the end of the digits may go into the exponent.** -/
theorem rankOfDecimal_shift (digits k : Nat) (e : Int) :
    rankOfDecimal ⟨digits * tenTo k, e⟩ = rankOfDecimal ⟨digits, e + k⟩ := by
  refine rankOf_congr (tenTo_pos _) (tenTo_pos _) ?_
  have hpowers : k + e.toNat + (-(e + k)).toNat = (e + k).toNat + (-e).toNat := by omega
  calc digits * tenTo k * tenTo e.toNat * tenTo (-(e + k)).toNat
      = digits * tenTo (k + e.toNat + (-(e + k)).toNat) := by
        rw [tenTo_add, tenTo_add]
        ring
    _ = digits * tenTo (e + k).toNat * tenTo (-e).toNat := by
        rw [hpowers, tenTo_add]
        ring

theorem rankOfDecimal_zero (e : Int) : rankOfDecimal ⟨0, e⟩ = 0 := by
  refine rankOf_small ?_
  rw [Nat.zero_mul, Nat.zero_mul, Nat.mul_zero]
  exact tenTo_pos _

theorem rankOfDecimal_dropZeros (d : Decimal) (fuel : Nat) :
    rankOfDecimal (dropZeros d fuel) = rankOfDecimal d := by
  induction fuel generalizing d with
  | zero => rfl
  | succ fuel ih =>
    unfold dropZeros
    split
    · rename_i hzero
      have hdigits : d.digits / 10 * tenTo 1 = d.digits := by
        show d.digits / 10 * 10 = d.digits
        omega
      rw [ih, ← Nat.cast_one, ← rankOfDecimal_shift, hdigits]
    · rfl

theorem rankOfDecimal_neg (digits n : Nat) :
    rankOfDecimal ⟨digits, -n⟩ = rankOf digits (tenTo n) := by
  have hup : (-(n : Int)).toNat = 0 := by omega
  have hdown : (- -(n : Int)).toNat = n := by omega
  have hone : digits * tenTo 0 = digits := Nat.mul_one digits
  simp only [rankOfDecimal, hup, hdown, hone]

theorem rankOf_five (u n : Nat) : rankOf (u * Nat.pow 5 n) (tenTo n) = rankOf u (twoTo n) := by
  have hten : tenTo n = Nat.pow 5 n * twoTo n := Nat.mul_pow 5 2 n
  have hfive : 0 < Nat.pow 5 n := Nat.pow_pos (Nat.succ_pos 4)
  rw [hten, Nat.mul_comm u, rankOf_scale hfive]

/-- The decimal with all digits of a magnitude is read as that magnitude. -/
theorem rankOfDecimal_exactDecimal (rank : Nat) : rankOfDecimal (exactDecimal rank) = rank := by
  have hexponent : (-1074 : Int) = -(1074 : Nat) := rfl
  rw [exactDecimal, hexponent, rankOfDecimal_neg, rankOf_five (units rank) 1074, rankOf_units]

theorem of_shortest? {rank : Nat} {d : Decimal} (h : shortest? rank = some d) :
    rankOfDecimal d = rank := by
  unfold shortest? at h
  obtain ⟨n, -, hfind⟩ := List.exists_of_findSome?_eq_some h
  have hread := List.find?_some hfind
  exact beq_iff_eq.mp hread

/-- **The decimal that a rank is written with is read as that rank.** -/
theorem rankOfDecimal_shortest (rank : Nat) : rankOfDecimal (shortest rank) = rank := by
  have hchoice : rankOfDecimal ((shortest? rank).getD (exactDecimal rank)) = rank := by
    cases hshort : shortest? rank with
    | none => exact rankOfDecimal_exactDecimal rank
    | some d => exact of_shortest? hshort
  exact (rankOfDecimal_dropZeros _ _).trans hchoice

theorem shortest_digits_pos {rank : Nat} (h : rank ≠ 0) : 0 < (shortest rank).digits := by
  refine Nat.pos_of_ne_zero fun hzero => h ?_
  have hread := rankOfDecimal_shortest rank
  have hshort : shortest rank = ⟨0, (shortest rank).exponent⟩ := by rw [← hzero]
  rw [hshort, rankOfDecimal_zero] at hread
  exact hread.symm

/-! ## 4. Beyond the bounds -/

theorem digitCount_pos (n : Nat) : 0 < digitCount n := Nat.length_toDigits_pos

theorem lt_tenTo_digitCount (n : Nat) : n < tenTo (digitCount n) :=
  (Nat.length_toDigits_le_iff (by decide) (digitCount_pos n)).mp (Nat.le_refl _)

theorem tenTo_digitCount_le {n : Nat} (h : n ≠ 0) : tenTo (digitCount n - 1) ≤ n := by
  by_cases hone : digitCount n = 1
  · rw [hone]
    exact Nat.pos_of_ne_zero h
  · refine Nat.le_of_not_lt fun hlt => ?_
    have hpos := digitCount_pos n
    have hle : digitCount n ≤ digitCount n - 1 :=
      (Nat.length_toDigits_le_iff (by decide) (by omega)).mpr hlt
    omega

theorem rankOfDecimal_tiny {digits : Nat} {e : Int} (h : e + digitCount digits < -330) :
    rankOfDecimal ⟨digits, e⟩ = 0 := by
  have hup : e.toNat = 0 := by omega
  have hdown : 331 + digitCount digits ≤ (-e).toNat := by omega
  have hbound : 2 * twoTo 1074 < tenTo 331 := by decide +kernel
  refine rankOf_small ?_
  calc 2 * (digits * tenTo e.toNat * twoTo 1074)
      = 2 * twoTo 1074 * digits := by
        rw [hup, show tenTo 0 = 1 from rfl]
        ring
    _ < tenTo 331 * tenTo (digitCount digits) :=
        Nat.mul_lt_mul_of_lt_of_le hbound (Nat.le_of_lt (lt_tenTo_digitCount digits))
          (tenTo_pos _)
    _ ≤ tenTo (-e).toNat := by
        rw [← tenTo_add]
        exact tenTo_le hdown

theorem rankOfDecimal_huge {digits : Nat} (hdigits : digits ≠ 0) {e : Int}
    (h : 311 < e + digitCount digits) : ranks ≤ rankOfDecimal ⟨digits, e⟩ := by
  have hpos := digitCount_pos digits
  have hpowers : (-e).toNat + 311 ≤ digitCount digits - 1 + e.toNat := by omega
  have hbound : twoTo 1033 ≤ tenTo 311 := by decide +kernel
  refine Nat.le_trans (by decide) (rankOf_large (n := 1033) (tenTo_pos _) ?_)
  calc tenTo (-e).toNat * twoTo 1033
      ≤ tenTo (-e).toNat * tenTo 311 := Nat.mul_le_mul_left _ hbound
    _ ≤ tenTo (digitCount digits - 1) * tenTo e.toNat := by
        rw [← tenTo_add, ← tenTo_add]
        exact tenTo_le hpowers
    _ ≤ digits * tenTo e.toNat := Nat.mul_le_mul_right _ (tenTo_digitCount_le hdigits)

/-- **The bounds decide nothing**: what lies beyond them would be rounded to zero or infinity. -/
theorem ofDecimal_eq (negative : Bool) (digits : Nat) (e : Int) :
    ofDecimal negative digits e = ofRank negative (rankOfDecimal ⟨digits, e⟩) := by
  unfold ofDecimal
  dsimp only
  split
  · rename_i hlow
    rcases hlow with rfl | hlow
    · rw [rankOfDecimal_zero]
    · rw [rankOfDecimal_tiny hlow]
  · rename_i hlow
    split
    · rename_i hhigh
      have hdigits : digits ≠ 0 := fun hzero => hlow (.inl hzero)
      have hranks := rankOfDecimal_huge hdigits hhigh
      rw [ofRank, dif_neg (Nat.not_lt.mpr hranks)]
    · rfl

theorem ofRank_eq {negative : Bool} (rank : Fin ranks) :
    ofRank negative rank.val = .finite negative rank := dif_pos rank.isLt

end LintHost.Binary64
