import DatasetCatalog.Number.Binary64
import DatasetCatalog.Text.Digit
import DatasetCatalog.Text.Blank
import DatasetCatalog.Text.LowerCase

/-! # Numeral — reading numbers from text

  A numeral may use the decimal digits of any script, may be surrounded by white space, and may
  hold an underscore between two digits. A floating-point numeral has a fraction, an exponent, or
  is one of `inf`, `infinity` and `nan` in any case; an integer numeral is a sign and digits, and
  at most `digitLimit` of them.
-/

namespace DatasetCatalog.Numeral

open Text

/-! ### The plain form -/

/-- The plain form of a character: ASCII stays, other white space becomes a space, a decimal
    digit of any script the ASCII digit of its value. Nothing else occurs in a numeral. -/
def plainChar (c : Char) : Option Char :=
  if c.toNat < 127 then some c
  else if isBlank c then some ' '
  else (digitValue? c).map fun d => Char.ofNat (48 + d)

/-- The plain form of a text without the white space around it. -/
def plain (s : List Char) : Option (List Char) :=
  (s.mapM plainChar).map (stripBy isAsciiBlank)

/-- Removes underscores, each of which has to stand between two digits; `previous` tells whether
    the character in front is a digit. -/
def dropUnderscores (previous : Bool) : List Char → Option (List Char)
  | [] => some []
  | '_' :: c :: rest =>
    if previous && isAsciiDigit c then (dropUnderscores true rest).map (c :: ·) else none
  | c :: rest => if c = '_' then none else (dropUnderscores (isAsciiDigit c) rest).map (c :: ·)

/-- A sign in front, and the rest; `true` for a minus. -/
def sign : List Char → Bool × List Char
  | '-' :: rest => (true, rest)
  | '+' :: rest => (false, rest)
  | s => (false, s)

/-- The value of ASCII digits, most significant first. -/
def digitsValue (s : List Char) : Nat := s.foldl (fun n c => 10 * n + (c.toNat - 48)) 0

/-! ### Floating-point numerals -/

/-- The exponent part `e±digits`, which may be absent; `none` when something else stands there. -/
def exponent : List Char → Option Int
  | [] => some 0
  | c :: rest =>
    if c = 'e' ∨ c = 'E' then
      let (negative, digits) := sign rest
      if digits ≠ [] ∧ digits.all isAsciiDigit then
        some (if negative then -(digitsValue digits : Int) else digitsValue digits)
      else none
    else none

/-- The digits in front of the point, those behind it, and what follows. -/
def mantissa (s : List Char) : List Char × List Char × List Char :=
  let whole := s.takeWhile isAsciiDigit
  match s.dropWhile isAsciiDigit with
  | '.' :: rest => (whole, rest.takeWhile isAsciiDigit, rest.dropWhile isAsciiDigit)
  | rest => (whole, [], rest)

/-- Reads an unsigned decimal numeral. -/
def decimal (negative : Bool) (s : List Char) : Option Binary64 :=
  let (whole, fraction, rest) := mantissa s
  if whole = [] ∧ fraction = [] then none
  else (exponent rest).map fun e =>
    Binary64.ofDecimal negative (digitsValue (whole ++ fraction)) (e - fraction.length)

/-- Reads a floating-point numeral in plain form. -/
def float (s : List Char) : Option Binary64 :=
  let (negative, body) := sign s
  let word := body.map Char.toLower
  if word = "inf".toList ∨ word = "infinity".toList then some (.infinite negative)
  else if word = "nan".toList then some .nan
  else decimal negative body

/-! ### Integer numerals -/

/-- Integer numerals with more digits than this are refused. -/
def digitLimit : Nat := 4300

/-- Why a text is no integer numeral. -/
inductive IntegerFault where
  /-- The text is not a sign followed by digits. -/
  | malformed
  /-- The numeral has more digits than allowed. -/
  | tooLong (digits : Nat)
  deriving DecidableEq

/-- The integer that a text spells. -/
def integer (s : List Char) : Except IntegerFault Int :=
  match plain s with
  | none => .error .malformed
  | some t =>
    let (negative, body) := sign t
    match dropUnderscores false body with
    | none => .error .malformed
    | some digits =>
      if digits = [] ∨ !digits.all isAsciiDigit then .error .malformed
      else if digitLimit < digits.length then .error (.tooLong digits.length)
      else .ok (if negative then -(digitsValue digits : Int) else digitsValue digits)

end DatasetCatalog.Numeral

namespace DatasetCatalog.Binary64

open Numeral

/-- The double that a text spells, rounded to nearest. -/
def ofText? (s : List Char) : Option Binary64 :=
  (plain s).bind fun t => (dropUnderscores false t).bind float

end DatasetCatalog.Binary64
