import DatasetCatalog.Number.Basic

/-! # Timestamps

  A moment in universal time, counted in microseconds from the beginning of 1970, and its text in
  the form of the ISO standard. The calendar is the Gregorian one, extended in both directions.
-/

namespace DatasetCatalog

/-- Microseconds since the beginning of 1970 in universal time. -/
structure Timestamp where
  /-- The number of microseconds. -/
  micros : Int
  deriving DecidableEq, Inhabited

namespace Timestamp

/-- Microseconds in a second. -/
def second : Int := 1000000

/-- The moment some microseconds later. -/
def add (t : Timestamp) (micros : Int) : Timestamp := ⟨t.micros + micros⟩

/-- Year, month and day of a day that is counted from the first of January 1970. Years begin in
    March here, so that the leap day is the last of a year, and are counted in eras of 400. -/
def dateOfDay (day : Int) : Int × Nat × Nat :=
  let z := day + 719468
  let era := z.fdiv 146097
  let dayOfEra := (z.fmod 146097).toNat
  let yearOfEra := (dayOfEra - dayOfEra / 1460 + dayOfEra / 36524 - dayOfEra / 146096) / 365
  let dayOfYear := dayOfEra - (365 * yearOfEra + yearOfEra / 4 - yearOfEra / 100)
  let shifted := (5 * dayOfYear + 2) / 153
  let dayOfMonth := dayOfYear - (153 * shifted + 2) / 5 + 1
  let month := if shifted < 10 then shifted + 3 else shifted - 9
  let year := (yearOfEra : Int) + era * 400 + (if month ≤ 2 then 1 else 0)
  (year, month, dayOfMonth)

/-- A natural number with leading zeros. -/
def padded (width n : Nat) : String :=
  let digits := decimalDigits n
  String.ofList (List.replicate (width - digits.length) '0' ++ digits)

/-- The text of a moment: date, time and the offset of universal time. A fraction of a second is
    written only when there is one. -/
def iso (t : Timestamp) : String :=
  let seconds := t.micros.fdiv second
  let fraction := (t.micros.fmod second).toNat
  let (year, month, day) := dateOfDay (seconds.fdiv 86400)
  let time := (seconds.fmod 86400).toNat
  padded 4 year.toNat ++ "-" ++ padded 2 month ++ "-" ++ padded 2 day ++ "T" ++
    padded 2 (time / 3600) ++ ":" ++ padded 2 (time / 60 % 60) ++ ":" ++ padded 2 (time % 60) ++
    (if fraction = 0 then "" else "." ++ padded 6 fraction) ++ "+00:00"

end Timestamp

end DatasetCatalog
