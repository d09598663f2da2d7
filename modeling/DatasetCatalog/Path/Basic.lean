import DatasetCatalog.Text.Blank
import DatasetCatalog.Text.LowerCase

/-! # Paths

  A path is a number of leading slashes and the names behind them. Empty names and single dots are
  dropped when a path is read; double dots are kept. A path whose first name begins with a tilde
  lies in a home directory.
-/

namespace DatasetCatalog

open Text

/-- A path of a file or a directory. -/
structure Path where
  /-- The slashes in front: none for a relative path, one or two for an absolute one. -/
  slashes : Nat
  /-- The names in order. -/
  names : List String
  deriving DecidableEq, Inhabited

namespace Path

/-- The slashes that count of those in front; more than two are one. -/
def countedSlashes (n : Nat) : Nat := if n ≤ 2 then n else 1

/-- The names of a text between its slashes. -/
def namesOf (s : List Char) : List String :=
  ((splitOn '/' s).map String.ofList).filter fun name => name ≠ "" && name ≠ "."

/-- Reads a path. -/
def ofText (s : String) : Path :=
  ⟨countedSlashes (s.toList.takeWhile (· == '/')).length, namesOf s.toList⟩

/-- The text of a path; the empty relative path is a dot. -/
def text (p : Path) : String :=
  if p.slashes = 0 ∧ p.names = [] then "."
  else String.ofList (List.replicate p.slashes '/') ++ "/".intercalate p.names

/-- The path behind another one; an absolute path stays as it is. -/
def append (p q : Path) : Path := if q.slashes = 0 then ⟨p.slashes, p.names ++ q.names⟩ else q

/-- The path of what a relative text names inside a directory. -/
def child (p : Path) (name : String) : Path := p.append (ofText name)

/-- The directory that holds what a path names. -/
def parent (p : Path) : Path := ⟨p.slashes, p.names.dropLast⟩

/-- The last name; empty when there is none. -/
def name (p : Path) : String := p.names.getLast?.getD ""

/-- The path with a text behind its last name. -/
def addSuffix (p : Path) (suffix : String) : Path :=
  match p.names.getLast? with
  | some last => ⟨p.slashes, p.names.dropLast ++ [last ++ suffix]⟩
  | none => p

/-- The end of the last name from its last dot on; empty when nothing stands in front of that dot
    or behind it. -/
def suffix (p : Path) : String :=
  let cs := p.name.toList
  let ending := (cs.reverse.takeWhile (· != '.')).reverse
  if ending.length + 1 < cs.length ∧ ending ≠ [] then String.ofList ('.' :: ending) else ""

/-! ### Home directories -/

/-- The home directory of a user cannot be told. -/
structure UnknownUser where
  /-- The first name of the path. -/
  name : String
  deriving DecidableEq

/-- The home directories that are known, by the names that stand for them: a tilde for the
    caller, and a tilde with a name for a user of that name. -/
abbrev Homes := String → Option Path

/-- Replaces a first name with a tilde in front by the home directory that it stands for. -/
def expandHome (homes : Homes) (p : Path) : Except UnknownUser Path :=
  match p with
  | ⟨0, first :: rest⟩ =>
    if first.toList.head? ≠ some '~' then .ok p
    else match homes first with
      | some home => .ok ⟨home.slashes, home.names ++ rest⟩
      | none => .error ⟨first⟩
  | _ => .ok p

end Path

end DatasetCatalog
