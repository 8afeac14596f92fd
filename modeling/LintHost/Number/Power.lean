/-!
# Powers of two and ten

The bases of binary64 and of decimal text.
-/

namespace LintHost.Number

/-- Two to the power `n`. -/
abbrev twoTo (n : Nat) : Nat := Nat.pow 2 n

/-- Ten to the power `n`. -/
abbrev tenTo (n : Nat) : Nat := Nat.pow 10 n

end LintHost.Number
