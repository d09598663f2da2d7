import DatasetCatalog.Number.Shortest
import DatasetCatalog.Number.Numeral

/-! # Number — exact integers and doubles

  A number is an integer of any size or a double. Numbers of both kinds are compared by their
  exact values, so an integer is never rounded to be compared. The plain form of a number is the
  one that filters and level labels use: a number without a fractional part is written as an
  integer, exactly; every other one as the shortest text that reads back.
-/

namespace DatasetCatalog

/-- An integer of any size or a double. -/
inductive Number where
  | int (n : Int)
  | float (x : Binary64)
  deriving DecidableEq

/-- An integer has a text, unless it has more digits than a numeral may have. -/
def fitsInteger (n : Int) : Bool :=
  decide ((decimalDigits n.natAbs).length ≤ Numeral.digitLimit)

/-- The text of an integer that fits; of any other one, the text that it would have if there were
    no limit. -/
def integerText (n : Int) : String :=
  String.ofList (if n < 0 then '-' :: decimalDigits n.natAbs else decimalDigits n.natAbs)

namespace Number

instance : Inhabited Number := ⟨.int 0⟩

def isNaN : Number → Bool
  | int _ => false
  | float x => x.isNaN

/-- The text of a number that keeps its kind: a double always shows a point, an exponent or a
    word. -/
def write : Number → String
  | int n => integerText n
  | float x => x.write

/-- The text of a number by its value: integral values are written as integers. -/
def plain : Number → String
  | int n => integerText n
  | float x => match x.toInt? with
    | some n => integerText n
    | none => x.write

/-- The text of a number without an exponent. -/
def positional : Number → String
  | int n => integerText n
  | float x => x.positional

/-- The same number, as an integer if it is integral. -/
def integral : Number → Number
  | int n => int n
  | float x => match x.toInt? with
    | some n => int n
    | none => float x

/-! ### Order -/

/-- Where a number lies: below everything, at an exact fraction, above everything. -/
inductive Position where
  | bottom
  | at (num : Int) (den : Nat)
  | top

/-- The position of a number; one that is not a number has none. -/
def position? : Number → Option Position
  | int n => some (.at n 1)
  | float .nan => none
  | float (.infinite true) => some .bottom
  | float (.infinite false) => some .top
  | float x => let (a, b) := x.fraction; some (.at a b)

namespace Position

/-- `a` lies at or below `b`. -/
def le : Position → Position → Bool
  | bottom, _ => true
  | _, top => true
  | .at a b, .at c d => decide (a * d ≤ c * b)
  | _, _ => false

end Position

/-- At most, by exact value; never so for a value that is not a number. -/
def le (x y : Number) : Bool :=
  match x.position?, y.position? with
  | some p, some q => p.le q
  | _, _ => false

/-- Below, by exact value. -/
def lt (x y : Number) : Bool := x.le y && !y.le x

/-- Equal by exact value: `1` and `1.0` are, the two zeros are, not-a-number never is. -/
def same (x y : Number) : Bool := x.le y && y.le x

end Number

end DatasetCatalog
