import DatasetCatalog.Bytes
import DatasetCatalog.Path.Basic

/-! # Disks

  A tree of files and directories, and the file operations. A path is reached through directories
  only; the working directory, the root and what lies above them are always there. Every operation
  either fails and changes nothing, or succeeds.
-/

namespace DatasetCatalog

/-- What stands at a path. -/
inductive Node where
  | file (bytes : ByteArray)
  | directory
  deriving DecidableEq

/-- Why a file operation fails. -/
inductive FileFault where
  /-- There is nothing at the path. -/
  | missing
  /-- Something on the way is no directory. -/
  | notDirectory
  /-- Any other reason. -/
  | refused
  deriving DecidableEq

namespace Path

/-- Takes a name off the end, or goes up behind names that go up; names are in reverse order. -/
def goUp (absolute : Bool) : List String → List String
  | [] => if absolute then [] else [".."]
  | name :: above => if name = ".." then ".." :: name :: above else above

/-- The path without steps up, except those in front of a relative path. -/
def resolved (p : Path) : Path :=
  let absolute := decide (p.slashes ≠ 0)
  let names := p.names.foldl (fun above name =>
    if name = ".." then goUp absolute above else name :: above) []
  ⟨if absolute then 1 else 0, names.reverse⟩

end Path

/-- Files and directories by their resolved paths. -/
structure Disk where
  /-- What stands where; no path occurs twice. -/
  nodes : List (Path × Node) := []
  deriving DecidableEq

namespace Disk

/-! ### Looking -/

/-- What stands at a resolved path. -/
def node? (d : Disk) (p : Path) : Option Node :=
  if p.names.all (· == "..") then some .directory else d.nodes.lookup p

/-- The longest name in bytes. -/
def longestName : Nat := 255

/-- Goes down from a directory through the given names. -/
def descend (d : Disk) (slashes : Nat) (above : List String) :
    List String → Except FileFault Node
  | [] => match d.node? ⟨slashes, above⟩ with
    | some node => .ok node
    | none => .error .missing
  | name :: rest => match d.node? ⟨slashes, above⟩ with
    | some .directory =>
      if longestName < name.utf8ByteSize then .error .refused
      else descend d slashes (above ++ [name]) rest
    | some (.file _) => .error .notDirectory
    | none => .error .missing

/-- What stands at a path. -/
def look (d : Disk) (p : Path) : Except FileFault Node :=
  let q := p.resolved
  descend d q.slashes [] q.names

/-- There is something at the path. -/
def present (d : Disk) (p : Path) : Except FileFault Bool :=
  match d.look p with
  | .ok _ => .ok true
  | .error .refused => .error .refused
  | .error _ => .ok false

/-- There is a directory at the path. -/
def isDirectory (d : Disk) (p : Path) : Bool :=
  match d.look p with
  | .ok .directory => true
  | _ => false

/-- The bytes of a file. -/
def read (d : Disk) (p : Path) : Except FileFault ByteArray :=
  match d.look p with
  | .ok (.file bytes) => .ok bytes
  | .ok .directory => .error .refused
  | .error fault => .error fault

/-- The size that is reported for a directory. -/
def directorySize : Nat := 4096

/-- The size of what stands at a path. -/
def sizeOf (d : Disk) (p : Path) : Except FileFault Nat :=
  match d.look p with
  | .ok (.file bytes) => .ok bytes.size
  | .ok .directory => .ok directorySize
  | .error fault => .error fault

/-- The names in a directory in ascending order. -/
def list (d : Disk) (p : Path) : List String :=
  let q := p.resolved
  ((d.nodes.map (·.1)).filter fun r => r.names ≠ [] && r.parent = q).map (·.name)
    |>.mergeSort fun a b => decide (a ≤ b)

/-- The names in a directory in ascending order, with the sizes of those that are files. -/
def sizes (d : Disk) (p : Path) : List (String × Option Nat) :=
  (d.list p).map fun name => (name, match d.look (p.child name) with
    | .ok (.file bytes) => some bytes.size
    | _ => none)

/-! ### Changing -/

/-- Sets what stands at a resolved path. -/
def setNode : List (Path × Node) → Path → Node → List (Path × Node)
  | [], p, node => [(p, node)]
  | (q, old) :: rest, p, node =>
    if q = p then (p, node) :: rest else (q, old) :: setNode rest p node

/-- The disk with something at a path. -/
def put (d : Disk) (p : Path) (node : Node) : Disk := ⟨setNode d.nodes p.resolved node⟩

/-- The disk with nothing at a path. -/
def erase (d : Disk) (p : Path) : Disk :=
  ⟨d.nodes.filter fun (q, _) => q ≠ p.resolved⟩

/-- What stands at a path, or nothing where it could stand. -/
def lookToPut (d : Disk) (p : Path) : Except FileFault (Option Node) :=
  match d.look p with
  | .ok node => .ok (some node)
  | .error .missing => match d.look p.parent with
    | .ok .directory => .ok none
    | .ok (.file _) => .error .notDirectory
    | .error fault => .error fault
  | .error fault => .error fault

/-- Writes a file in place of the file that may be there. -/
def write (d : Disk) (p : Path) (bytes : ByteArray) : Except FileFault Disk :=
  match d.lookToPut p with
  | .ok (some .directory) => .error .refused
  | .ok _ => .ok (d.put p (.file bytes))
  | .error fault => .error fault

/-- Moves a file in place of the file that may be there. -/
def rename (d : Disk) (p q : Path) : Except FileFault Disk :=
  match d.read p with
  | .error fault => .error fault
  | .ok bytes => match d.lookToPut q with
    | .ok (some .directory) => .error .refused
    | .ok _ => .ok ((d.erase p).put q (.file bytes))
    | .error fault => .error fault

/-- Removes a file. -/
def remove (d : Disk) (p : Path) : Except FileFault Disk :=
  match d.look p with
  | .ok (.file _) => .ok (d.erase p)
  | .ok .directory => .error .refused
  | .error fault => .error fault

/-- Makes a directory in a directory that is there. -/
def makeDirectory (d : Disk) (p : Path) : Except FileFault Disk :=
  match d.lookToPut p with
  | .ok none => .ok (d.put p .directory)
  | .ok (some _) => .error .refused
  | .error fault => .error fault

end Disk

end DatasetCatalog
