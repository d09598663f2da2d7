/-! # Code point ranges

  Character classes are kept as ascending lists of closed code point ranges. A class is a
  list; membership is a scan that stops at the first range that ends behind the code point.
-/

namespace DatasetCatalog.Text

/-- An ascending list of closed ranges of code points. -/
abbrev Ranges := List (Nat × Nat)

/-- `r.has n` tells whether the code point `n` lies in one of the ascending ranges. -/
def Ranges.has : Ranges → Nat → Bool
  | [], _ => false
  | (lo, hi) :: rest, n => if n ≤ hi then decide (lo ≤ n) else has rest n

end DatasetCatalog.Text
