import DatasetCatalog.Text.Quoted
import DatasetCatalog.Number.Basic

/-! # Format errors

  Why a document is no ARFF, with the line on which this shows; line zero stands for the document
  as a whole.
-/

namespace DatasetCatalog.Arff

open Text

/-- What is wrong with a document. -/
inductive FormatFault where
  /-- The bytes are not UTF-8. -/
  | notUtf8
  /-- The artifact of a data set is stored in another format. -/
  | otherFormat (dataset format : String)
  /-- A quote that is not closed on its line. -/
  | unterminatedQuote (column : Int)
  /-- Something other than a comma behind a quoted value. -/
  | afterQuote (found : Char)
  | missingName
  | untyped (name : String)
  | unterminatedLevels (name : String)
  | duplicateLevels (name : String)
  /-- An attribute that is to be ordered is not nominal. -/
  | notOrderable (name : String)
  | relational (name : String)
  | unknownType (spec name : String)
  | declaredTwice (name : String)
  | dataWithoutAttributes
  | strayEnd
  | rowBeforeAttributes
  | rowBeforeData
  | unexpectedKeyword (word : String)
  | noAttributes
  | noData
  /-- Names that are to be ordered but are not declared. -/
  | orderedUndeclared (names : List String)
  | cellCount (row expected found : Nat)
  | weighted (row : Nat)
  | undeclaredValue (row : Nat) (value name : String) (levels : List String)
  | malformedSparse (row : Nat) (item : String)
  | sparseIndex (row : Nat) (text : String)
  | sparseRange (row : Nat) (index : Int)
  | sparseRepeated (row : Nat) (index : Int)
  deriving DecidableEq

namespace FormatFault

/-- The wording of a fault. -/
def message : FormatFault → String
  | notUtf8 => "artifact is not valid UTF-8"
  | otherFormat dataset format => "dataset " ++ dataset ++ " is stored as " ++ format ++ ", not ARFF"
  | unterminatedQuote column => "unterminated quote starting at column " ++ integerText column
  | afterQuote found =>
    "unexpected character " ++ cite (String.singleton found) ++ " after quoted value"
  | missingName => "missing attribute name"
  | untyped name => "attribute '" ++ name ++ "' has no type"
  | unterminatedLevels name => "unterminated level set for attribute '" ++ name ++ "'"
  | duplicateLevels name => "duplicate levels declared for attribute '" ++ name ++ "'"
  | notOrderable name => "only nominal attributes can be ordered, not '" ++ name ++ "'"
  | relational name => "relational attribute '" ++ name ++ "' is not supported"
  | unknownType spec name => "unknown type " ++ cite spec ++ " for attribute '" ++ name ++ "'"
  | declaredTwice name => "attribute '" ++ name ++ "' declared twice"
  | dataWithoutAttributes => "@data section before any @attribute declaration"
  | strayEnd => "@end outside a relational attribute"
  | rowBeforeAttributes => "data line before any @attribute declaration"
  | rowBeforeData => "data line before the @data marker"
  | unexpectedKeyword word => "unexpected " ++ word ++ " in the data section"
  | noAttributes => "no @attribute declarations found"
  | noData => "missing @data marker"
  | orderedUndeclared names => "ordered attributes not declared: " ++ citeAll names
  | cellCount row expected found =>
    inRow row ("expected " ++ integerText expected ++ " values, found " ++ integerText found)
  | weighted row => inRow row "instance weights are not supported"
  | undeclaredValue row value name levels =>
    inRow row ("value " ++ cite value ++ " of attribute '" ++ name ++
      "' is not among its declared " ++
      if levels.isEmpty then "no levels" else "levels " ++ citeAll levels)
  | malformedSparse row item => inRow row ("malformed sparse value " ++ cite item)
  | sparseIndex row text => inRow row ("invalid sparse index " ++ cite text)
  | sparseRange row index => inRow row ("sparse index " ++ integerText index ++ " is out of range")
  | sparseRepeated row index => inRow row ("sparse index " ++ integerText index ++ " repeated")
where
  /-- A message about one data row. -/
  inRow (row : Nat) (text : String) : String := "row " ++ integerText row ++ ": " ++ text

end FormatFault

/-- A fault with the number of its line. -/
structure FormatError where
  /-- The number of the line, counted from one; zero when no single line is at fault. -/
  line : Nat
  /-- What is wrong there. -/
  fault : FormatFault
  deriving DecidableEq

/-- The wording of an error. -/
def FormatError.message (e : FormatError) : String :=
  "line " ++ integerText e.line ++ ": " ++ e.fault.message

end DatasetCatalog.Arff
