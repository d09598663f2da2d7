import DatasetCatalog.Text.Blank
import DatasetCatalog.Text.LowerCase

/-! # Lines

  A document is read line by line. Lines end at line feeds only, a carriage return in front of
  the line feed does not belong to the line, and every other separator is an ordinary character.
  The first word of a line tells what the line is.
-/

namespace DatasetCatalog.Arff

open Text

/-- What a line is. -/
inductive LineKind where
  /-- Empty, or white space only. -/
  | blank
  /-- Begins with a percent sign. -/
  | comment
  /-- An `@relation` line. -/
  | relation
  /-- An `@attribute` line. -/
  | attribute
  /-- The `@data` line. -/
  | dataMarker
  /-- An `@end` line. -/
  | endMarker
  /-- Anything else. -/
  | row
  deriving DecidableEq

/-- Drops a carriage return at the end of a line. -/
def dropReturn (line : List Char) : List Char :=
  if line.getLast? = some '\r' then line.dropLast else line

/-- The lines of a document. -/
def lines (text : List Char) : List (List Char) := (splitOn '\n' text).map dropReturn

/-- The kind of a line by its first word. -/
def lineKind (line : List Char) : LineKind :=
  match strip line with
  | [] => .blank
  | '%' :: _ => .comment
  | '@' :: rest =>
    let word := lower (splitWord ('@' :: rest)).1
    if word = "@relation".toList then .relation
    else if word = "@attribute".toList then .attribute
    else if word = "@data".toList then .dataMarker
    else if word = "@end".toList then .endMarker
    else .row
  | _ => .row

end DatasetCatalog.Arff
