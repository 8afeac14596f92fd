import LintHost.Number.Power

/-!
# Binary64 numbers

The floating-point numbers of configuration files and engine replies. A finite number is a sign
and the *rank* of its magnitude: the magnitudes are counted upwards from zero, so zero has rank
0, the smallest positive number rank 1, and each later one the next rank. The rank of a
magnitude is also its bit pattern.

* `units rank` is the magnitude in units of `2 ^ -1074`, of which every magnitude is a multiple;
* `rankOf num den` is the rank of the magnitude nearest to `num / den`, the even rank winning a tie;
* `ofRatio` and `ofDecimal` round a number to the nearest one of the format.
-/

namespace LintHost

open LintHost.Number (twoTo tenTo)

/-- How many magnitudes are finite: the rank of infinity. -/
def Binary64.ranks : Nat := 2047 * twoTo 52

/-- A number of IEEE 754's binary64 format; there is one NaN. -/
inductive Binary64
  | nan
  | infinite (negative : Bool)
  | finite (negative : Bool) (rank : Fin Binary64.ranks)
deriving DecidableEq

namespace Binary64

/-! ## 1. Ranks and magnitudes -/

/-- The magnitude with this rank, in units of `2 ^ -1074`. -/
def units (rank : Nat) : Nat :=
  if rank < twoTo 52 then rank else (twoTo 52 + rank % twoTo 52) * twoTo (rank / twoTo 52 - 1)

/-- The quotient rounded to the nearest number, a half to the even one. -/
def divEven (num den : Nat) : Nat :=
  let q := num / den
  let twice := 2 * (num % den)
  if twice < den then q else if den < twice then q + 1 else q + q % 2

/-- The rank of the magnitude nearest to `num / den`, past all finite ones if that is too
    large. -/
def rankOf (num den : Nat) : Nat :=
  let scaled := num * twoTo 1074
  let shift := (scaled / den).log2 - 52
  shift * twoTo 52 + divEven scaled (den * twoTo shift)

/-- The number with this sign and rank; ranks past the finite ones are infinity. -/
def ofRank (negative : Bool) (rank : Nat) : Binary64 :=
  if h : rank < ranks then .finite negative ⟨rank, h⟩ else .infinite negative

/-- The number nearest to `num / den`. -/
def ofRatio (negative : Bool) (num den : Nat) : Binary64 := ofRank negative (rankOf num den)

/-- Zero. -/
def zero : Binary64 := ofRank false 0

/-! ## 2. Decimal numbers -/

/-- How many decimal digits a number has. -/
def digitCount (n : Nat) : Nat := (Nat.toDigits 10 n).length

/-- The number nearest to `digits * 10 ^ exponent`. Numbers from `10 ^ 310` on are infinite and
    positive ones below `10 ^ -330` are zero, whatever their digits. -/
def ofDecimal (negative : Bool) (digits : Nat) (exponent : Int) : Binary64 :=
  let top := exponent + digitCount digits
  if digits = 0 ∨ top < -330 then ofRank negative 0
  else if 311 < top then .infinite negative
  else ofRatio negative (digits * tenTo exponent.toNat) (tenTo (-exponent).toNat)

/-- The number nearest to an integer. -/
def ofInt (n : Int) : Binary64 := ofDecimal (n < 0) n.natAbs 0

/-! ## 3. Comparison and arithmetic -/

/-- A finite number in units of `2 ^ -1074`. -/
def signedUnits (negative : Bool) (rank : Nat) : Int :=
  if negative then -(units rank : Int) else units rank

/-- Whether the number is below the integer `n`; NaN is below nothing. -/
def ltInt (x : Binary64) (n : Int) : Bool :=
  match x with
  | .nan => false
  | .infinite negative => negative
  | .finite negative rank => signedUnits negative rank.val < n * (twoTo 1074 : Nat)

/-- Whether the number equals the integer `n`. -/
def eqInt (x : Binary64) (n : Int) : Bool :=
  match x with
  | .finite negative rank => signedUnits negative rank.val == n * (twoTo 1074 : Nat)
  | _ => false

/-- Whether two numbers are equal; zeros of both signs are, and NaN is unequal to itself. -/
def same (x y : Binary64) : Bool :=
  match x, y with
  | .infinite a, .infinite b => a == b
  | .finite a i, .finite b j => signedUnits a i.val == signedUnits b j.val
  | _, _ => false

/-- Whether the number is zero, of either sign. -/
def isZero (x : Binary64) : Bool := x.eqInt 0

/-- The integer that the number is, if it is one. -/
def toInt? (x : Binary64) : Option Int :=
  match x with
  | .finite negative rank =>
    let u := signedUnits negative rank.val
    if u % twoTo 1074 = 0 then some (u / twoTo 1074) else none
  | _ => none

/-- The number with the other sign. -/
def neg : Binary64 → Binary64
  | .nan => .nan
  | .infinite negative => .infinite !negative
  | .finite negative rank => .finite (!negative) rank

/-- The product, rounded. -/
def mul (x y : Binary64) : Binary64 :=
  match x, y with
  | .nan, _ | _, .nan => .nan
  | .infinite a, .infinite b => .infinite (a != b)
  | .infinite a, .finite b j => if j.val = 0 then .nan else .infinite (a != b)
  | .finite a i, .infinite b => if i.val = 0 then .nan else .infinite (a != b)
  | .finite a i, .finite b j =>
    ofRatio (a != b) (units i.val * units j.val) (twoTo 1074 * twoTo 1074)

/-- The sum, rounded. -/
def add (x y : Binary64) : Binary64 :=
  match x, y with
  | .nan, _ | _, .nan => .nan
  | .infinite a, .infinite b => if a = b then .infinite a else .nan
  | .infinite a, .finite _ _ | .finite _ _, .infinite a => .infinite a
  | .finite a i, .finite b j =>
    let sum := signedUnits a i.val + signedUnits b j.val
    ofRatio (if sum = 0 then a && b else sum < 0) sum.natAbs (twoTo 1074)

end Binary64

end LintHost
