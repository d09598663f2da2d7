/-! # Blank characters

  The characters that count as white space around and between words, and the operations that
  remove them: stripping a text at both ends, and splitting it into words.
-/

namespace DatasetCatalog.Text

/-- White space: the ASCII spaces and line breaks, the four information separators, and the
    spaces and line separators of Unicode. -/
def isBlank (c : Char) : Bool :=
  let n := c.toNat
  decide (9 ≤ n ∧ n ≤ 13) || decide (0x1C ≤ n ∧ n ≤ 0x20) ||
    (decide (0x80 ≤ n) &&
      (n == 0x85 || n == 0xA0 || n == 0x1680 || decide (0x2000 ≤ n ∧ n ≤ 0x200A) ||
        decide (0x2028 ≤ n ∧ n ≤ 0x2029) || n == 0x202F || n == 0x205F || n == 0x3000))

/-- The white space of ASCII, without the information separators. -/
def isAsciiBlank (c : Char) : Bool :=
  let n := c.toNat
  decide (9 ≤ n ∧ n ≤ 13) || n == 32

/-- Spaces and tabs, the filling between the items of a row. -/
def isFill (c : Char) : Bool := c == ' ' || c == '\t'

/-! ### Stripping -/

/-- Drops the longest end of `s` whose characters all satisfy `p`. -/
def dropEndWhile (p : Char → Bool) (s : List Char) : List Char :=
  (s.reverse.dropWhile p).reverse

/-- Drops the characters that satisfy `p` at both ends. -/
def stripBy (p : Char → Bool) (s : List Char) : List Char := dropEndWhile p (s.dropWhile p)

/-- The text without the white space at its ends. -/
def strip (s : List Char) : List Char := stripBy isBlank s

/-! ### Words -/

/-- The first word of a text that does not begin blank, and what follows it without the white
    space between the two. -/
def splitWord (s : List Char) : List Char × List Char :=
  (s.takeWhile (!isBlank ·), (s.dropWhile (!isBlank ·)).dropWhile isBlank)

/-- The pieces of a text between the separators `sep`; there is always one piece. -/
def splitOn (sep : Char) : List Char → List (List Char)
  | [] => [[]]
  | c :: rest =>
    if c = sep then [] :: splitOn sep rest
    else
      match splitOn sep rest with
      | [] => [[c]]
      | piece :: pieces => (c :: piece) :: pieces

/-- Joins pieces with a separator text between neighbours. -/
def joinWith (sep : List Char) : List (List Char) → List Char
  | [] => []
  | [piece] => piece
  | piece :: rest => piece ++ sep ++ joinWith sep rest

end DatasetCatalog.Text
