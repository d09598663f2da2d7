/-! # Binary64 — double precision numbers

  A double is kept as what it means: not a number, an infinity, or a significand times a power of
  two with a sign. Finite doubles are canonical, so equal doubles are equal terms and every
  statement about them is one about integers. Rounding takes an exact quotient of naturals to the
  nearest double, ties to the even significand; nothing else here rounds.
-/

namespace DatasetCatalog

namespace Binary64

/-- The significand and the binary exponent of a finite double: 53 bits, the exponent in range,
    and the leading bit set unless the exponent is the lowest one. -/
abbrev Canonical (m : Nat) (e : Int) : Prop :=
  m < Nat.pow 2 53 ∧ -1074 ≤ e ∧ e ≤ 971 ∧ (Nat.pow 2 52 ≤ m ∨ e = -1074)

end Binary64

/-- A double precision number. -/
inductive Binary64 where
  /-- Not a number. -/
  | nan
  /-- One of the two infinities. -/
  | infinite (negative : Bool)
  /-- The number `± m * 2 ^ e`; zero has two signs. -/
  | finite (negative : Bool) (m : Nat) (e : Int) (canonical : Binary64.Canonical m e)
  deriving DecidableEq

namespace Binary64

/-- Zero with a sign. -/
def zero (negative : Bool) : Binary64 := .finite negative 0 (-1074) (by decide)

instance : Inhabited Binary64 := ⟨zero false⟩

def isNaN : Binary64 → Bool
  | nan => true
  | _ => false

def isFinite : Binary64 → Bool
  | finite .. => true
  | _ => false

/-! ### Rounding -/

/-- The integer nearest to `num / den`; of two equally near ones the even one. -/
def roundHalfEven (num den : Nat) : Nat :=
  let q := num / den
  let r := num % den
  if 2 * r < den then q else if den < 2 * r then q + 1 else q + q % 2

/-- `num * 2 ^ s / den` as a fraction of naturals, for a shift of either sign. -/
def shifted (num den : Nat) (s : Int) : Nat × Nat :=
  (num * Nat.pow 2 s.toNat, den * Nat.pow 2 (-s).toNat)

/-- The exponent `k` with `2 ^ k ≤ num / den < 2 ^ (k + 1)`, for a positive fraction. -/
def binaryOrder (num den : Nat) : Int :=
  let k : Int := num.log2 - den.log2
  let (a, b) := shifted num den (-k)
  if b ≤ a then k else k - 1

/-- The double nearest to `num / den`, ties to the even significand, infinite when the rounded
    value exceeds the largest finite double. -/
def ofRatio (negative : Bool) (num den : Nat) : Binary64 :=
  let e := max (binaryOrder num den - 52) (-1074)
  let (a, b) := shifted num den (-e)
  let m := roundHalfEven a b
  let (m, e) := if m = Nat.pow 2 53 then (Nat.pow 2 52, e + 1) else (m, e)
  if h : Canonical m e then .finite negative m e h else .infinite negative

/-- The double nearest to `digits * 10 ^ exponent`. Powers of ten far outside the range of the
    doubles are not computed: `10 ^ k` is at least `2 ^ (3 * k)`. -/
def ofDecimal (negative : Bool) (digits : Nat) (exponent : Int) : Binary64 :=
  if digits = 0 then zero negative
  else if 0 ≤ exponent ∧ 1024 ≤ digits.log2 + 3 * exponent then .infinite negative
  else if exponent < 0 ∧ digits.log2 + 1 + 3 * exponent ≤ -1076 then zero negative
  else ofRatio negative (digits * Nat.pow 10 exponent.toNat) (Nat.pow 10 (-exponent).toNat)

/-- The double nearest to an integer; `none` when the integer rounds beyond the largest double. -/
def ofInt? (n : Int) : Option Binary64 :=
  match if n = 0 then zero false else ofRatio (decide (n < 0)) n.natAbs 1 with
  | .infinite _ => none
  | x => some x

/-! ### Exact values -/

/-- The value of a finite double as a fraction; a special value reads as zero. -/
def fraction : Binary64 → Int × Nat
  | finite negative m e _ =>
    let (a, b) := shifted m 1 e
    (if negative then -(a : Int) else a, b)
  | _ => (0, 1)

/-- The integer part toward zero of a finite double. -/
def truncate? (x : Binary64) : Option Int :=
  match x with
  | finite negative m e _ =>
    let (a, b) := shifted m 1 e
    let n : Int := ↑(a / b)
    some (if negative then -n else n)
  | _ => none

/-- The double as an integer, when it is finite and has no fractional part. -/
def toInt? (x : Binary64) : Option Int :=
  match x with
  | finite negative m e _ =>
    let (a, b) := shifted m 1 e
    if a % b = 0 then
      let n : Int := ↑(a / b)
      some (if negative then -n else n)
    else none
  | _ => none

end Binary64

end DatasetCatalog
