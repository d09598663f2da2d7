import DatasetCatalog.Number.Binary64

/-! # Shortest — the fewest decimal digits that read back

  The decimal text of a double has as few significant digits as still read back to the same
  double, and of those the nearest to it. For one, two, … seventeen digits the two neighbours of
  the double on that decimal grid are tried; the first grid with a neighbour that reads back wins.
  The exact decimal expansion stands at the end, which always reads back.

  Numbers from `1e-04` up to below `1e+16` are written positionally, with at least one digit
  behind the point; all others with an exponent of at least two digits.
-/

namespace DatasetCatalog

/-- A positive decimal number `digits * 10 ^ exponent`. -/
structure Decimal where
  /-- The digits as one natural number. -/
  digits : Nat
  /-- The power of ten of the last digit. -/
  exponent : Int
  deriving DecidableEq

/-- The decimal digits of a natural number, most significant first. -/
def decimalDigits (n : Nat) : List Char := Nat.toDigits 10 n

namespace Binary64

/-! ### Choosing the digits -/

/-- The exponent `k` with `10 ^ k ≤ num / den < 10 ^ (k + 1)`, for the fraction of a double. -/
def decimalOrder (num den : Nat) : Int :=
  -- scaled by 10 ^ 400, even the smallest double has an integer part with a leading digit
  (decimalDigits (num * Nat.pow 10 400 / den)).length - 401

/-- The neighbours of `num / den` on the grid of multiples of `10 ^ p`, the nearer one first, of
    two equally near ones the even one. -/
def gridNeighbours (num den : Nat) (p : Int) : List Decimal :=
  let a := num * Nat.pow 10 (-p).toNat
  let b := den * Nat.pow 10 p.toNat
  let below := a / b
  let twice := 2 * (a % b)
  if twice < b ∨ (twice = b ∧ below % 2 = 0) then [⟨below, p⟩, ⟨below + 1, p⟩]
  else [⟨below + 1, p⟩, ⟨below, p⟩]

/-- The first candidate that reads back to the positive double `x`. -/
def readsBack (x : Binary64) (candidates : List Decimal) : Option Decimal :=
  candidates.find? fun d => decide (ofDecimal false d.digits d.exponent = x)

/-- The decimal with the fewest digits that reads back to `m * 2 ^ e`. -/
def shortest (m : Nat) (e : Int) (h : Canonical m e) : Decimal :=
  let (num, den) := shifted m 1 e
  let order := decimalOrder num den
  let candidates := (List.range 17).flatMap fun n : Nat => gridNeighbours num den (order - n)
  (readsBack (.finite false m e h) candidates).getD
    ⟨m * Nat.pow 2 e.toNat * Nat.pow 5 (-e).toNat, min e 0⟩

/-! ### Writing the digits -/

/-- The digits without zeros at the end, and the power of ten of the first place behind which
    the point would stand if it stood in front of all digits. -/
def significant (d : Decimal) : List Char × Int :=
  let all := decimalDigits d.digits
  (((all.reverse.dropWhile (· == '0')).reverse), all.length + d.exponent)

/-- `n` in decimal with at least two digits. -/
def twoDigits (n : Nat) : List Char :=
  if n < 10 then '0' :: decimalDigits n else decimalDigits n

/-- The text of significant digits with the point `point` places behind their beginning. -/
def placePoint (digits : List Char) (point : Int) (fraction : List Char) : List Char :=
  if point ≤ 0 then '0' :: '.' :: List.replicate (-point).toNat '0' ++ digits
  else
    let k := point.toNat
    if digits.length ≤ k then digits ++ List.replicate (k - digits.length) '0' ++ fraction
    else digits.take k ++ '.' :: digits.drop k

/-- The text of a positive decimal. -/
def writeDecimal (d : Decimal) : List Char :=
  let (digits, point) := significant d
  if -4 < point ∧ point ≤ 16 then placePoint digits point ['.', '0']
  else
    let power := point - 1
    let mantissa := match digits with
      | [] => []
      | [d] => [d]
      | d :: rest => d :: '.' :: rest
    mantissa ++ 'e' :: (if power < 0 then '-' else '+') :: twoDigits power.natAbs

/-- The text of a positive decimal without an exponent, and without a point if it is integral. -/
def writePositional (d : Decimal) : List Char :=
  let (digits, point) := significant d
  placePoint digits point []

/-- The text of a double: the fewest digits that read back, `inf`, `-inf` or `nan`. -/
def write : Binary64 → String
  | nan => "nan"
  | infinite negative => if negative then "-inf" else "inf"
  | finite negative m e h =>
    let body := if m = 0 then ['0', '.', '0'] else writeDecimal (shortest m e h)
    String.ofList (if negative then '-' :: body else body)

/-- The text of a double without an exponent: the fewest digits that read back in their places. -/
def positional : Binary64 → String
  | nan => "NaN"
  | infinite negative => if negative then "-inf" else "inf"
  | finite negative m e h =>
    let body := if m = 0 then ['0'] else writePositional (shortest m e h)
    String.ofList (if negative then '-' :: body else body)

end Binary64

end DatasetCatalog
