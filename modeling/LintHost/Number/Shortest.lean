import LintHost.Number.Binary64

/-!
# The shortest decimal of a binary64 number

A finite number is written with the fewest decimal digits that read back as that number; of
several such decimals the nearest is taken, and a tie goes to the even last digit.

* `shortest rank` is that decimal as digits and a power of ten;
* `Layout` says how digits and power are laid out, and `numberLayout` is the layout of this
  library: positional between `1e-4` and `1e16`, with a `.0` for whole numbers, and otherwise with
  an exponent of at least two digits and its sign.
-/

namespace LintHost

open LintHost.Number (twoTo tenTo)

/-- A decimal number `digits * 10 ^ exponent`. -/
structure Decimal where
  digits : Nat
  exponent : Int
deriving DecidableEq

namespace Binary64

/-! ## 1. Choosing the digits -/

/-- The rank that a decimal reads as. -/
def rankOfDecimal (d : Decimal) : Nat :=
  rankOf (d.digits * tenTo d.exponent.toNat) (tenTo (-d.exponent).toNat)

/-- The power of ten just above a magnitude given in units: the least `p` with
    `magnitude < 10 ^ p`, searched upwards from a lower bound. -/
def pointAbove (u : Nat) (p : Int) : Nat → Int
  | 0 => p
  | fuel + 1 =>
    if u * tenTo (-p).toNat < twoTo 1074 * tenTo p.toNat then p else pointAbove u (p + 1) fuel

/-- Where the decimal point of a positive magnitude stands: it is below `10 ^ p` and not below
    `10 ^ (p - 1)`. The binary size of the magnitude gives a lower bound to start from. -/
def point (u : Nat) : Int :=
  pointAbove u (((u.log2 : Int) - 1074) * 30103 / 100000 - 1) 4

/-- The neighbours of a magnitude on the grid of multiples of `10 ^ q`, the nearer one first; of
    two equally near the even one comes first. -/
def neighbours (u : Nat) (q : Int) : List Decimal :=
  let num := u * tenTo (-q).toNat
  let den := twoTo 1074 * tenTo q.toNat
  let low := num / den
  let twice := 2 * (num % den)
  let lowFirst := twice < den ∨ (twice = den ∧ low % 2 = 0)
  if lowFirst then [⟨low, q⟩, ⟨low + 1, q⟩] else [⟨low + 1, q⟩, ⟨low, q⟩]

/-- A decimal without the zeros at its end. -/
def dropZeros (d : Decimal) : Nat → Decimal
  | 0 => d
  | fuel + 1 =>
    if d.digits ≠ 0 ∧ d.digits % 10 = 0 then dropZeros ⟨d.digits / 10, d.exponent + 1⟩ fuel else d

/-- The first decimal with 1, 2, … 17 digits that reads back as the rank, if there is one. -/
def shortest? (rank : Nat) : Option Decimal :=
  let u := units rank
  let p := point u
  (List.range 17).findSome? fun n =>
    (neighbours u (p - (n + 1 : Nat))).find? fun d => rankOfDecimal d == rank

/-- All digits of a magnitude: `2 ^ -1074` is `5 ^ 1074 * 10 ^ -1074`. -/
def exactDecimal (rank : Nat) : Decimal := ⟨units rank * Nat.pow 5 1074, -1074⟩

/-- The shortest decimal that reads back as the rank. -/
def shortest (rank : Nat) : Decimal :=
  let d := (shortest? rank).getD (exactDecimal rank)
  dropZeros d 1100

/-! ## 2. Laying the digits out -/

/-- How a decimal is written. -/
structure Layout where
  /-- Positional notation is used when the decimal point stands after more than this many places
      (negative: before the first digit), -/
  lowPoint : Int
  /-- and after at most this many. -/
  highPoint : Int
  /-- What follows a whole number written positionally. -/
  wholeMark : List Char
  /-- The least number of digits of an exponent. -/
  exponentWidth : Nat
  /-- The texts of the numbers without digits. -/
  nanText : List Char
  infinityText : List Char

/-- Numbers are written positionally from `1e-4` up to `1e16`. -/
def numberLayout : Layout :=
  ⟨-4, 16, ".0".toList, 2, "nan".toList, "inf".toList⟩

/-- Digits padded with zeros on the left. -/
def padLeft (width : Nat) (cs : List Char) : List Char :=
  List.replicate (width - cs.length) '0' ++ cs

/-- An exponent with its sign. -/
def exponentText (layout : Layout) (e : Int) : List Char :=
  'e' :: (if e < 0 then '-' else '+') ::
    padLeft layout.exponentWidth (Nat.toDigits 10 e.natAbs)

/-- Digits with the decimal point after the first `p` places. -/
def positional (layout : Layout) (ds : List Char) (p : Int) : List Char :=
  if p ≤ 0 then '0' :: '.' :: List.replicate (-p).toNat '0' ++ ds
  else if ds.length ≤ p.toNat then
    ds ++ List.replicate (p.toNat - ds.length) '0' ++ layout.wholeMark
  else ds.take p.toNat ++ '.' :: ds.drop p.toNat

/-- Digits with the point after the first one and an exponent. -/
def scientific (layout : Layout) (ds : List Char) (p : Int) : List Char :=
  match ds with
  | [] => []
  | [d] => d :: exponentText layout (p - 1)
  | d :: rest => d :: '.' :: rest ++ exponentText layout (p - 1)

/-- A decimal in a layout. -/
def Layout.write (layout : Layout) (d : Decimal) : List Char :=
  let ds := Nat.toDigits 10 d.digits
  let p := d.exponent + ds.length
  if layout.lowPoint < p ∧ p ≤ layout.highPoint then positional layout ds p
  else scientific layout ds p

/-- The sign that precedes a number. -/
def signText (negative : Bool) : List Char := if negative then ['-'] else []

/-- A number in a layout. -/
def Layout.render (layout : Layout) : Binary64 → List Char
  | .nan => layout.nanText
  | .infinite negative => signText negative ++ layout.infinityText
  | .finite negative rank =>
    signText negative ++
      (if rank.val = 0 then positional layout ['0'] 1 else layout.write (shortest rank.val))

/-- A number as text. -/
def text (x : Binary64) : String := String.ofList (numberLayout.render x)

end Binary64

end LintHost
