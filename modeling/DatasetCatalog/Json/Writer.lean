import DatasetCatalog.Json.Basic

/-! # Writing JSON

  Strings are written in ASCII: every other character as the escapes of its UTF-16 units. A
  number is written by its own text, an integer with all its digits, and what is no finite number
  by a word.
-/

namespace DatasetCatalog.Json

open Text

/-- A UTF-16 unit as an escape. -/
def unitEscape (n : Nat) : List Char := '\\' :: 'u' :: hex 4 n

/-- A character inside a string. -/
def escapeChar (c : Char) : List Char :=
  if c = '"' ∨ c = '\\' then ['\\', c]
  else if c = '\n' then ['\\', 'n']
  else if c = '\r' then ['\\', 'r']
  else if c = '\t' then ['\\', 't']
  else if c = '\x08' then ['\\', 'b']
  else if c = '\x0c' then ['\\', 'f']
  else if 0x20 ≤ c.toNat ∧ c.toNat < 0x7F then [c]
  else if c.toNat < 0x10000 then unitEscape c.toNat
  else
    let n := c.toNat - 0x10000
    unitEscape (0xD800 + n / 1024) ++ unitEscape (0xDC00 + n % 1024)

/-- A string between quotes. -/
def quote (s : String) : List Char := '"' :: s.toList.flatMap escapeChar ++ ['"']

/-- A number. What is no finite number is written as a word that the reader knows. -/
def numberText : Number → List Char
  | .float .nan => "NaN".toList
  | .float (.infinite true) => "-Infinity".toList
  | .float (.infinite false) => "Infinity".toList
  | n => n.write.toList

mutual

/-- The text of a value on one line. -/
def write : Json → List Char
  | null => "null".toList
  | bool true => "true".toList
  | bool false => "false".toList
  | number n => numberText n
  | str s => quote s
  | arr items => '[' :: writeItems items ++ [']']
  | obj fields => '\x7b' :: writeFields fields ++ ['\x7d']

/-- Items separated by commas. -/
def writeItems : List Json → List Char
  | [] => []
  | [item] => write item
  | item :: rest => write item ++ ',' :: writeItems rest

/-- Fields separated by commas. -/
def writeFields : List (String × Json) → List Char
  | [] => []
  | [(key, value)] => quote key ++ ':' :: write value
  | (key, value) :: rest => quote key ++ ':' :: write value ++ ',' :: writeFields rest

end

/-- A record of fields over several lines, each indented by two spaces. -/
def writeRecord (fields : List (String × Json)) : List Char :=
  let line (pair : String × Json) := ' ' :: ' ' :: quote pair.1 ++ ':' :: ' ' :: write pair.2
  '\x7b' :: '\n' :: joinWith [',', '\n'] (fields.map line) ++ ['\n', '\x7d']

end DatasetCatalog.Json
