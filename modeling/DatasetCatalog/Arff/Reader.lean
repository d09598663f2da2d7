import DatasetCatalog.Arff.Header
import DatasetCatalog.Arff.Line
import DatasetCatalog.Arff.Row

/-! # Reading a document

  Declarations come first, then the `@data` line, then rows; blank lines and comments may stand
  anywhere. The reader goes over the lines with a state that holds what has been read so far. A
  malformed row ends the reading, or is left out and counted; a malformed declaration always ends
  it.
-/

namespace DatasetCatalog.Arff

open Text

/-- What happens to a malformed row. -/
inductive BadRow where
  /-- It ends the reading. -/
  | fail
  /-- It is left out. -/
  | skip
  deriving DecidableEq

/-- The rule of a name. -/
def BadRow.ofName? (s : String) : Option BadRow :=
  if s = "raise" then some .fail else if s = "skip" then some .skip else none

/-- The wording for a name without a rule. -/
def BadRow.unknownMessage (name : String) : String :=
  "on_bad_row must be 'raise' or 'skip', got " ++ Text.cite name

/-- How a document is read. -/
structure Options extends RowRules where
  /-- The names of the nominal attributes whose levels carry an order. -/
  ordered : List String := []
  /-- What happens to malformed rows. -/
  badRow : BadRow := .fail
  deriving DecidableEq

/-! ### One line -/

/-- What has been read so far. -/
structure Progress where
  /-- The name of the relation. -/
  relation : String := ""
  /-- The attributes declared so far. -/
  attributes : List Attribute := []
  /-- The `@data` line has been read. -/
  inData : Bool := false
  /-- The rows read so far, the last one first. -/
  rows : List (List Cell) := []
  /-- The number of malformed rows left out. -/
  skipped : Nat := 0
  deriving DecidableEq

namespace Progress

/-- The number of data lines so far. -/
def rowIndex (p : Progress) : Nat := p.rows.length + p.skipped

/-- Reads a line of the header. -/
def headerStep (options : Options) (p : Progress) (number : Nat) (line : List Char) :
    Except FormatError Progress := do
  let fail {α : Type} (fault : FormatFault) : Except FormatError α := .error ⟨number, fault⟩
  match lineKind line with
  | .blank | .comment => return p
  | .relation =>
    let name ← readRelation number ((strip line).drop "@relation".length)
    return { p with relation := String.ofList name }
  | .attribute =>
    let attr ← readAttribute number options.ordered ((strip line).drop "@attribute".length)
    if p.attributes.any (·.name = attr.name) then fail (.declaredTwice attr.name)
    else return { p with attributes := p.attributes ++ [attr] }
  | .dataMarker =>
    if p.attributes = [] then fail .dataWithoutAttributes else return { p with inData := true }
  | .endMarker => fail .strayEnd
  | .row => if p.attributes = [] then fail .rowBeforeAttributes else fail .rowBeforeData

/-- Reads a line of the data section. -/
def dataStep (options : Options) (p : Progress) (number : Nat) (line : List Char) :
    Except FormatError Progress :=
  match lineKind line with
  | .blank | .comment => .ok p
  | .row =>
    match readRow options.toRowRules ⟨number, p.rowIndex⟩ p.attributes (strip line) with
    | .ok row => .ok { p with rows := row :: p.rows }
    | .error e => match options.badRow with
      | .fail => .error e
      | .skip => .ok { p with skipped := p.skipped + 1 }
  | _ => .error ⟨number, .unexpectedKeyword (String.ofList (splitWord (strip line)).1)⟩

/-- Reads one line. -/
def step (options : Options) (p : Progress) (number : Nat) (line : List Char) :
    Except FormatError Progress :=
  if p.inData then p.dataStep options number line else p.headerStep options number line

/-- Reads lines that are numbered from `number` on. -/
def steps (options : Options) (p : Progress) : Nat → List (List Char) → Except FormatError Progress
  | _, [] => .ok p
  | number, line :: rest => do
    let next ← p.step options number line
    next.steps options (number + 1) rest

/-- The names that were to be ordered and are not declared, in ascending order without repeats. -/
def undeclared (options : Options) (p : Progress) : List String :=
  let declared := p.attributes.map (·.name)
  (options.ordered.filter (· ∉ declared)).eraseDups.mergeSort (fun a b => decide (a ≤ b))

/-- The table when the document ends here. -/
def finish (options : Options) (p : Progress) : Except FormatError ParsedTable :=
  if p.inData then
    match p.undeclared options with
    | [] => .ok ⟨p.relation, p.attributes, p.rows.reverse, p.skipped⟩
    | names => .error ⟨0, .orderedUndeclared names⟩
  else if p.attributes = [] then .error ⟨0, .noAttributes⟩
  else .error ⟨0, .noData⟩

end Progress

/-! ### Whole documents -/

/-- Reads the text of a document. -/
def read (options : Options) (text : List Char) : Except FormatError ParsedTable := do
  let last ← Progress.steps options {} 1 (lines text)
  last.finish options

/-- The bytes without a byte order mark in front. -/
def dropByteOrderMark (bytes : ByteArray) : ByteArray :=
  if bytes[0]? = some 0xEF ∧ bytes[1]? = some 0xBB ∧ bytes[2]? = some 0xBF then
    bytes.extract 3 bytes.size
  else bytes

/-- Reads the bytes of a document: UTF-8, with or without a byte order mark. -/
def readBytes (options : Options) (bytes : ByteArray) : Except FormatError ParsedTable :=
  match String.fromUTF8? (dropByteOrderMark bytes) with
  | none => .error ⟨0, .notUtf8⟩
  | some text => read options text.toList

end DatasetCatalog.Arff
