/-!
# Blank characters

What counts as blank where text is trimmed, and the trimming itself.

* `isBlank`: the blank characters of text in general;
* `trim`: a text without the blanks at both its ends.
-/

namespace LintHost.Text

/-- The blank characters: Unicode's white space and the separators U+001C to U+001F. -/
def isBlank (c : Char) : Bool :=
  let n := c.toNat
  (0x9 ≤ n && n ≤ 0xd) || (0x1c ≤ n && n ≤ 0x20) || n == 0x85 || n == 0xa0 || n == 0x1680 ||
    (0x2000 ≤ n && n ≤ 0x200a) || n == 0x2028 || n == 0x2029 || n == 0x202f || n == 0x205f ||
    n == 0x3000

/-- The blanks among the first 128 characters that number text may carry at its ends. -/
def isAsciiBlank (c : Char) : Bool :=
  (0x9 ≤ c.toNat && c.toNat ≤ 0xd) || c == ' '

/-- Characters without those at both ends that satisfy `p`. -/
def trimWhere (p : Char → Bool) (cs : List Char) : List Char :=
  ((cs.dropWhile p).reverse.dropWhile p).reverse

/-- A text without the blanks at both its ends. -/
def trim (s : String) : String := String.ofList (trimWhere isBlank s.toList)

end LintHost.Text
