/-!
# Cutting text apart and putting it together

* `splitOn`: the pieces between the occurrences of one character, empty pieces kept;
* `splitOnPair`: the same for a doubled character, cut from the left;
* `intercalate`: the pieces with a separator between them.
-/

namespace LintHost.Text

/-- The pieces between the occurrences of `sep`; there is always one more piece than
    occurrences. -/
def splitOn (sep : Char) : List Char → List (List Char)
  | [] => [[]]
  | c :: cs =>
    if c = sep then [] :: splitOn sep cs
    else match splitOn sep cs with
      | [] => [[c]]
      | piece :: pieces => (c :: piece) :: pieces

/-- The pieces between the occurrences of `sep sep`, searched from the left. -/
def splitOnPair (sep : Char) : List Char → List (List Char)
  | [] => [[]]
  | [c] => [[c]]
  | c :: d :: cs =>
    if c = sep ∧ d = sep then [] :: splitOnPair sep cs
    else match splitOnPair sep (d :: cs) with
      | [] => [[c]]
      | piece :: pieces => (c :: piece) :: pieces

/-- The pieces one after the other with `sep` between them. -/
def intercalate (sep : List Char) : List (List Char) → List Char
  | [] => []
  | [piece] => piece
  | piece :: pieces => piece ++ sep ++ intercalate sep pieces

/-- The texts one after the other with `sep` between them. -/
def join (sep : String) (pieces : List String) : String :=
  String.ofList (intercalate sep.toList (pieces.map String.toList))

/-- The lines of a text, each without its line feed; what follows the last one counts too. -/
def lines (s : String) : List String := (splitOn '\n' s.toList).map String.ofList

/-- What follows `start` in a text that begins with it. -/
def dropStart? (start : List Char) (cs : List Char) : Option (List Char) :=
  match start, cs with
  | [], cs => some cs
  | _ :: _, [] => none
  | a :: start, c :: cs => if a = c then dropStart? start cs else none

end LintHost.Text
