/-!
# Upper and lower case

Case only matters here where a text is compared with words of the letters `a` to `z`. So the
maps below change exactly those characters whose other case is made of such letters: the
letters themselves and the few signs and ligatures of other blocks that fold to them. Every
other character is left alone, which cannot make it equal to a letter.
-/

namespace LintHost.Text

/-- The lower case of a character, as far as it is one of `a` to `z`. -/
def lowerChar (c : Char) : Char :=
  if c = '\u212a' then 'k' else c.toLower

/-- The lower case of a text, as far as words of `a` to `z` can tell. -/
def lower (s : String) : String := String.ofList (s.toList.map lowerChar)

/-- The upper case of a character, as far as it is made of `A` to `Z`. -/
def upperChar (c : Char) : List Char :=
  match c with
  | 'ß' => ['S', 'S']
  | 'ı' => ['I']
  | 'ſ' => ['S']
  | '\ufb00' => ['F', 'F']
  | '\ufb01' => ['F', 'I']
  | '\ufb02' => ['F', 'L']
  | '\ufb03' => ['F', 'F', 'I']
  | '\ufb04' => ['F', 'F', 'L']
  | '\ufb05' => ['S', 'T']
  | '\ufb06' => ['S', 'T']
  | c => [c.toUpper]

/-- The upper case of a text, as far as words of `A` to `Z` can tell. -/
def upper (s : String) : String := String.ofList (s.toList.flatMap upperChar)

end LintHost.Text
