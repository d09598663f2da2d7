import DatasetCatalog.Filter.Quality
import DatasetCatalog.Filter.Constraint

/-! # Filters

  A filter restricts a listing: it gives values or ranges for distinct qualities. Its path is made
  of `quality/value` pairs joined by slashes, where a range is written `lo..hi` with either bound
  left open. A filter can be formed from constraints, or read from a path.
-/

namespace DatasetCatalog

open Text

/-- Why constraints or a path are no filter. -/
inductive FilterError where
  | unknownQuality (name : String)
  | duplicate (q : Quality)
  /-- A path with an odd number of segments. -/
  | unpaired (path : String)
  | noValue (q : Quality)
  | truth (q : Quality)
  | notANumber (q : Quality)
  | empty (q : Quality)
  | slash (q : Quality) (text : String)
  | expectedNumber (q : Quality) (text : String)
  | badBound (q : Quality) (text : String)
  | boundCount (q : Quality) (count : Nat)
  | noRanges (q : Quality)
  | unbounded (q : Quality)
  | boundKind (q : Quality) (shown : String)
  | boundNotANumber (q : Quality)
  | inverted (q : Quality) (lo hi : Number)
  | badTag (tag : String)
  deriving DecidableEq

/-- The wording of an error. -/
def FilterError.message : FilterError → String
  | unknownQuality name =>
    "Unknown filter quality '" ++ name ++ "'. Allowed: " ++
      ", ".intercalate (Quality.all.map Quality.name)
  | duplicate q => "Duplicate filter quality '" ++ q.name ++ "'"
  | unpaired path => "Filter '" ++ path ++ "' must consist of <quality>/<value> pairs"
  | noValue q => q.name ++ ": value must not be None"
  | truth q => q.name ++ ": boolean values are not supported"
  | notANumber q => q.name ++ ": value must not be NaN"
  | empty q => q.name ++ ": value must not be empty"
  | slash q text => q.name ++ ": value must not contain '/': " ++ cite text
  | expectedNumber q text => q.name ++ ": expected a number, got " ++ cite text
  | badBound q text => q.name ++ ": invalid range bound '" ++ text ++ "'"
  | boundCount q count =>
    q.name ++ ": a range needs exactly two bounds, got " ++ integerText count
  | noRanges q => q.name ++ ": ranges are only allowed on numeric qualities"
  | unbounded q => q.name ++ ": a range needs at least one bound"
  | boundKind q shown => q.name ++ ": range bound must be a number, got " ++ shown
  | boundNotANumber q => q.name ++ ": range bound must not be NaN"
  | inverted q lo hi =>
    q.name ++ ": lower bound " ++ lo.write ++ " exceeds upper bound " ++ hi.write
  | badTag tag => "Invalid tag: " ++ cite tag

namespace Filter

/-! ### Settings -/

/-- What a filter sets a quality to. -/
inductive Setting where
  /-- A single value, as it is written. -/
  | value (text : String)
  /-- A range; an absent bound is open. -/
  | range (lo hi : Option Number)
  deriving DecidableEq

/-- The text of a bound. -/
def boundText : Option Number → String
  | none => ""
  | some n => n.plain

/-- The text of a setting. -/
def Setting.text : Setting → String
  | value text => text
  | range lo hi => boundText lo ++ ".." ++ boundText hi

/-! ### Ranges -/

/-- Splits a text at its first two dots in a row. -/
def splitRange : List Char → Option (List Char × List Char)
  | '.' :: '.' :: rest => some ([], rest)
  | c :: rest => (splitRange rest).map fun (lo, hi) => (c :: lo, hi)
  | [] => none

/-- A bound of a range in text form; white space means an open bound. -/
def readBound (q : Quality) (s : List Char) : Except FilterError Constraint :=
  if strip s = [] then .ok .absent
  else match Binary64.ofText? s with
    | none => .error (.badBound q (String.ofList s))
    | some x => .ok (.number (Number.float x).integral)

/-- A bound that has to be open or a number. -/
def checkBound (q : Quality) : Constraint → Except FilterError (Option Number)
  | .absent => .ok none
  | .number n => if n.isNaN then .error (.boundNotANumber q) else .ok (some n)
  | c => .error (.boundKind q c.display)

/-- The bound is open. -/
def isOpen : Constraint → Bool
  | .absent => true
  | _ => false

/-- A range of two bounds for a quality. -/
def rangeOf (q : Quality) (lo hi : Constraint) : Except FilterError Setting := do
  if q.isNumeric = false then throw (.noRanges q)
  if isOpen lo && isOpen hi then throw (.unbounded q)
  let lo ← checkBound q lo
  let hi ← checkBound q hi
  match lo, hi with
  | some a, some b => if b.lt a then throw (.inverted q a b)
  | _, _ => pure ()
  return .range lo hi

/-- A range in text form. -/
def readRange (q : Quality) (lo hi : List Char) : Except FilterError Setting := do
  let lo ← readBound q lo
  let hi ← readBound q hi
  rangeOf q lo hi

/-! ### Single values -/

/-- A single value in text form. -/
def readValue (q : Quality) (s : List Char) : Except FilterError Setting :=
  let t := strip s
  let text := String.ofList t
  if t = [] then .error (.empty q)
  else if '/' ∈ t then .error (.slash q text)
  else if q.isNumeric ∧ (Binary64.ofText? t).isNone then .error (.expectedNumber q text)
  else .ok (.value text)

/-- A setting in text form: a range when it holds two dots in a row. -/
def readSetting (q : Quality) (s : List Char) : Except FilterError Setting :=
  match splitRange s with
  | some (lo, hi) => readRange q lo hi
  | none => readValue q s

/-- The setting of a constraint. -/
def settingOf (q : Quality) : Constraint → Except FilterError Setting
  | .absent => .error (.noValue q)
  | .truth _ => .error (.truth q)
  | .number n => if n.isNaN then .error (.notANumber q) else .ok (.value n.plain)
  | .text s => readSetting q s.toList
  | .range lo hi => rangeOf q lo hi
  | .items [lo, hi] => rangeOf q lo hi
  | .items xs => .error (.boundCount q xs.length)

end Filter

/-! ### Filters and their paths -/

/-- A filter: qualities and what they are set to, in order. -/
abbrev Filter := List (Quality × Filter.Setting)

namespace Filter

/-- Takes the pairs one by one; a quality must be known and new. -/
def collect {α : Type} (setting : Quality → α → Except FilterError Setting)
    (seen : List Quality) : List (String × α) → Except FilterError Filter
  | [] => .ok []
  | (name, given) :: rest =>
    match Quality.ofName? name with
    | none => .error (.unknownQuality name)
    | some q =>
      if q ∈ seen then .error (.duplicate q)
      else do
        let s ← setting q given
        let tail ← collect setting (q :: seen) rest
        return (q, s) :: tail

/-- The filter of named constraints. -/
def ofConstraints (pairs : List (String × Constraint)) : Except FilterError Filter :=
  collect settingOf [] pairs

/-- The path of a filter. -/
def path (f : Filter) : String :=
  "/".intercalate (f.map fun (q, s) => q.name ++ "/" ++ s.text)

/-- Pairs of neighbours; `none` when one is left over. -/
def pairUp {α : Type} : List α → Option (List (α × α))
  | [] => some []
  | [_] => none
  | a :: b :: rest => (pairUp rest).map ((a, b) :: ·)

/-- A path without white space, and then without slashes, at its ends. -/
def trimPath (s : List Char) : List Char := stripBy (· == '/') (strip s)

/-- Reads a filter from a path. -/
def ofPath (path : String) : Except FilterError Filter :=
  let s := trimPath path.toList
  if s = [] then .ok []
  else match pairUp (splitOn '/' s) with
    | none => .error (.unpaired path)
    | some pairs => collect readSetting [] (pairs.map fun (name, v) => (String.ofList name, v))

/-- The constraints that a filter was made of. -/
def constraints (f : Filter) : List (String × Constraint) :=
  f.map fun (q, s) => (q.name, match s with
    | .value text => .text text
    | .range lo hi => .range ((lo.map .number).getD .absent) ((hi.map .number).getD .absent))

/-- The path of named constraints. -/
def compile (pairs : List (String × Constraint)) : Except FilterError String :=
  (ofConstraints pairs).map path

end Filter

end DatasetCatalog
