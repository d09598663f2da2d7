import DatasetCatalog.Json.Basic

/-! # Reading JSON

  The usual grammar, with the words `NaN`, `Infinity` and `-Infinity` as numbers. A number without
  a fraction and an exponent is an integer of any size up to the digit limit of numerals. The
  depth of nesting is bounded by the length of the text.
-/

namespace DatasetCatalog.Json

open Text

/-- White space between tokens. -/
def isSpace (c : Char) : Bool := c == ' ' || c == '\t' || c == '\n' || c == '\r'

/-- Drops white space in front. -/
def skip (s : List Char) : List Char := s.dropWhile isSpace

/-- The rest of a text behind a word that it begins with. -/
def afterWord (word : String) (s : List Char) : Option (List Char) :=
  if word.toList.isPrefixOf s then some (s.drop word.length) else none

/-! ### Strings -/

/-- The value of a hexadecimal digit. -/
def hexValue? (c : Char) : Option Nat :=
  if '0' ≤ c ∧ c ≤ '9' then some (c.toNat - 48)
  else if 'a' ≤ c ∧ c ≤ 'f' then some (c.toNat - 87)
  else if 'A' ≤ c ∧ c ≤ 'F' then some (c.toNat - 55)
  else none

/-- Four hexadecimal digits. -/
def hexUnit : List Char → Option (Nat × List Char)
  | a :: b :: c :: d :: rest => do
    let a ← hexValue? a
    let b ← hexValue? b
    let c ← hexValue? c
    let d ← hexValue? d
    return (((a * 16 + b) * 16 + c) * 16 + d, rest)
  | _ => none

/-- The character of an escape letter. -/
def escapeLetter? (c : Char) : Option Char :=
  if c = '"' ∨ c = '\\' ∨ c = '/' then some c
  else if c = 'b' then some '\x08'
  else if c = 'f' then some '\x0c'
  else if c = 'n' then some '\n'
  else if c = 'r' then some '\r'
  else if c = 't' then some '\t'
  else none

/-- The character of the code unit behind `\u`, which is completed by a second unit when it is
    the first half of a surrogate pair. A half without its other half is replaced. -/
def unicodeEscape (s : List Char) : Option (Char × List Char) := do
  let (high, rest) ← hexUnit s
  if 0xD800 ≤ high ∧ high < 0xDC00 then
    match rest with
    | '\\' :: 'u' :: more => match hexUnit more with
      | some (low, after) =>
        if 0xDC00 ≤ low ∧ low < 0xE000 then
          some (Char.ofNat (0x10000 + (high - 0xD800) * 1024 + (low - 0xDC00)), after)
        else some ('\uFFFD', rest)
      | none => some ('\uFFFD', rest)
    | _ => some ('\uFFFD', rest)
  else if 0xDC00 ≤ high ∧ high < 0xE000 then some ('\uFFFD', rest)
  else some (Char.ofNat high, rest)

/-- The characters up to the closing quote, and what follows it. -/
def stringBody : Nat → List Char → Option (List Char × List Char)
  | 0, _ => none
  | _, [] => none
  | fuel + 1, c :: rest =>
    if c = '"' then some ([], rest)
    else if c = '\\' then
      match rest with
      | 'u' :: more => do
        let (d, after) ← unicodeEscape more
        let (body, last) ← stringBody fuel after
        return (d :: body, last)
      | e :: more => do
        let d ← escapeLetter? e
        let (body, last) ← stringBody fuel more
        return (d :: body, last)
      | [] => none
    else if c.toNat < 0x20 then none
    else do
      let (body, last) ← stringBody fuel rest
      return (c :: body, last)

/-- The string behind an opening quote. -/
def readString (s : List Char) : Option (String × List Char) :=
  (stringBody (s.length + 1) s).map fun (body, rest) => (String.ofList body, rest)

/-! ### Numbers -/

/-- The integer part of a number: a zero, or digits that do not begin with one. -/
def wholePart (s : List Char) : Option (List Char × List Char) :=
  match s with
  | '0' :: rest => some (['0'], rest)
  | _ =>
    let digits := s.takeWhile isAsciiDigit
    if digits = [] then none else some (digits, s.dropWhile isAsciiDigit)

/-- The digits of a fraction, when there is one. -/
def fractionPart (s : List Char) : Option (List Char × List Char) :=
  match s with
  | '.' :: rest =>
    let digits := rest.takeWhile isAsciiDigit
    if digits = [] then none else some (digits, rest.dropWhile isAsciiDigit)
  | _ => none

/-- The exponent, when there is one. -/
def exponentPart (s : List Char) : Option (Int × List Char) :=
  match s with
  | e :: rest =>
    if e = 'e' ∨ e = 'E' then
      let (negative, body) := Numeral.sign rest
      let digits := body.takeWhile isAsciiDigit
      if digits = [] then none
      else
        let n : Int := Numeral.digitsValue digits
        some (if negative then -n else n, body.dropWhile isAsciiDigit)
    else none
  | [] => none

/-- An unsigned number. -/
def unsigned (negative : Bool) (s : List Char) : Option (Number × List Char) := do
  let (whole, rest) ← wholePart s
  match fractionPart rest, exponentPart rest with
  | none, none =>
    if Numeral.digitLimit < whole.length then none
    else
      let n : Int := Numeral.digitsValue whole
      some (.int (if negative then -n else n), rest)
  | none, some (e, after) =>
    some (.float (.ofDecimal negative (Numeral.digitsValue whole) e), after)
  | some (fraction, after), _ =>
    let digits := Numeral.digitsValue (whole ++ fraction)
    match exponentPart after with
    | none => some (.float (.ofDecimal negative digits (-fraction.length)), after)
    | some (e, last) => some (.float (.ofDecimal negative digits (e - fraction.length)), last)

/-- A number, or the word of one. -/
def readNumber (s : List Char) : Option (Number × List Char) :=
  match s with
  | '-' :: rest => match afterWord "Infinity" rest with
    | some after => some (.float (.infinite true), after)
    | none => unsigned true rest
  | 'I' :: _ => (afterWord "Infinity" s).map fun after => (.float (.infinite false), after)
  | 'N' :: _ => (afterWord "NaN" s).map fun after => (.float .nan, after)
  | _ => unsigned false s

/-! ### Values -/

mutual

/-- A value and what follows it. -/
def readValue : Nat → List Char → Option (Json × List Char)
  | 0, _ => none
  | fuel + 1, s =>
    match s with
    | '"' :: rest => (readString rest).map fun (t, after) => (.str t, after)
    | '[' :: rest => match skip rest with
      | ']' :: after => some (.arr [], after)
      | start => (readItems fuel start).map fun (items, after) => (.arr items, after)
    | '\x7b' :: rest => match skip rest with
      | '\x7d' :: after => some (.obj [], after)
      | start => (readFields fuel start).map fun (fields, after) => (.obj (ofPairs fields), after)
    | 'n' :: _ => (afterWord "null" s).map fun after => (.null, after)
    | 't' :: _ => (afterWord "true" s).map fun after => (.bool true, after)
    | 'f' :: _ => (afterWord "false" s).map fun after => (.bool false, after)
    | _ => (readNumber s).map fun (n, after) => (.number n, after)

/-- One or more items and the closing bracket. -/
def readItems : Nat → List Char → Option (List Json × List Char)
  | 0, _ => none
  | fuel + 1, s => do
    let (item, rest) ← readValue fuel s
    match skip rest with
    | ']' :: after => some ([item], after)
    | ',' :: more => do
      let (items, after) ← readItems fuel (skip more)
      some (item :: items, after)
    | _ => none

/-- One or more fields and the closing brace. -/
def readFields : Nat → List Char → Option (List (String × Json) × List Char)
  | 0, _ => none
  | fuel + 1, s =>
    match s with
    | '"' :: rest => do
      let (key, afterKey) ← readString rest
      match skip afterKey with
      | ':' :: start => do
        let (value, rest) ← readValue fuel (skip start)
        match skip rest with
        | '\x7d' :: after => some ([(key, value)], after)
        | ',' :: more => do
          let (fields, after) ← readFields fuel (skip more)
          some ((key, value) :: fields, after)
        | _ => none
      | _ => none
    | _ => none

end

/-- The value that a whole text spells. -/
def parse? (s : List Char) : Option Json := do
  -- a call that takes no character calls one that does
  let (value, rest) ← readValue (2 * s.length + 2) (skip s)
  if skip rest = [] then some value else none

/-- The value that UTF-8 bytes spell. -/
def ofBytes? (bytes : ByteArray) : Option Json :=
  (String.fromUTF8? bytes).bind fun s => parse? s.toList

end DatasetCatalog.Json
