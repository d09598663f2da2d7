import DatasetCatalog.Text.Printable
import DatasetCatalog.Text.Blank

/-! # Quoted — texts inside messages

  A text that a message cites stands between quotes: single ones, unless it holds a single quote
  and no double one. The quote in use, backslashes and characters that cannot be shown are
  escaped, so the citation is one line of printable characters.
-/

namespace DatasetCatalog.Text

/-- `n` in hexadecimal with at least `width` digits. -/
def hex (width n : Nat) : List Char :=
  let digits := Nat.toDigits 16 n
  List.replicate (width - digits.length) '0' ++ digits

/-- The escaped form of a character inside quotes of the kind `quote`. -/
def escapeCited (quote c : Char) : List Char :=
  if c = quote ∨ c = '\\' then ['\\', c]
  else if c = '\n' then ['\\', 'n']
  else if c = '\r' then ['\\', 'r']
  else if c = '\t' then ['\\', 't']
  else if isPrintable c then [c]
  else
    let n := c.toNat
    if n < 0x100 then '\\' :: 'x' :: hex 2 n
    else if n < 0x10000 then '\\' :: 'u' :: hex 4 n
    else '\\' :: 'U' :: hex 8 n

/-- The quote that surrounds a cited text. -/
def citingQuote (s : List Char) : Char :=
  if '\'' ∈ s ∧ '"' ∉ s then '"' else '\''

/-- A text as messages cite it. -/
def cite (s : String) : String :=
  let cs := s.toList
  let quote := citingQuote cs
  String.ofList (quote :: cs.flatMap (escapeCited quote) ++ [quote])

/-- A list of texts as messages cite it. -/
def citeAll (texts : List String) : String :=
  "[" ++ ", ".intercalate (texts.map cite) ++ "]"

end DatasetCatalog.Text
