/-! # Percent encoding

  A text inside a URL: every byte of its UTF-8 form that is not a letter, a digit or one of `-._~`
  is written as a percent sign and two hexadecimal digits. In a query a space may be written as a
  plus sign instead.
-/

namespace DatasetCatalog.Percent

/-! ### Encoding -/

/-- The UTF-8 bytes of a text. -/
def bytes (s : String) : List UInt8 := s.toList.flatMap String.utf8EncodeChar

/-- A byte that stands for itself. -/
def isPlain (b : UInt8) : Bool :=
  let n := b.toNat
  decide (48 ≤ n ∧ n ≤ 57) || decide (65 ≤ n ∧ n ≤ 90) || decide (97 ≤ n ∧ n ≤ 122) ||
    n == 45 || n == 46 || n == 95 || n == 126

/-- A hexadecimal digit, a capital where it is a letter. -/
def hexDigit (n : Nat) : Char := Char.ofNat (if n < 10 then 48 + n else 55 + n)

/-- A percent sign and the two digits of a byte. -/
def escape (b : UInt8) : List Char := ['%', hexDigit (b.toNat / 16), hexDigit (b.toNat % 16)]

/-- A byte of a path segment. -/
def encodeByte (b : UInt8) : List Char := if isPlain b then [Char.ofNat b.toNat] else escape b

/-- A byte of a query value. -/
def encodeQueryByte (b : UInt8) : List Char := if b = 32 then ['+'] else encodeByte b

/-- A text as a path segment. -/
def encode (s : String) : String := String.ofList ((bytes s).flatMap encodeByte)

/-- A text as a query value. -/
def encodeQuery (s : String) : String := String.ofList ((bytes s).flatMap encodeQueryByte)

/-! ### Decoding -/

/-- The value of a hexadecimal digit of either case. -/
def hexValue? (c : Char) : Option Nat :=
  let n := c.toNat
  if 48 ≤ n ∧ n ≤ 57 then some (n - 48)
  else if 65 ≤ n ∧ n ≤ 70 then some (n - 55)
  else if 97 ≤ n ∧ n ≤ 102 then some (n - 87)
  else none

/-- The bytes of an encoded text; a percent sign without two digits stands for itself. -/
def decode : List Char → List UInt8
  | [] => []
  | '%' :: a :: b :: rest =>
    match hexValue? a, hexValue? b with
    | some x, some y => UInt8.ofNat (16 * x + y) :: decode rest
    | _, _ => 37 :: decode (a :: b :: rest)
  | c :: rest => String.utf8EncodeChar c ++ decode rest

/-- The bytes of an encoded query value. -/
def decodeQuery (s : List Char) : List UInt8 := decode (s.map fun c => if c = '+' then ' ' else c)

end DatasetCatalog.Percent
