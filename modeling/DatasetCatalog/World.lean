import DatasetCatalog.Disk.Basic
import DatasetCatalog.Timestamp
import DatasetCatalog.Trace

/-! # Worlds and actions

  A world is what an action can read and change: the disk, the locks on cache entries, the fetches
  in progress, the clock and the trace. Each file operation of an action asks for a verdict first:
  it may proceed, fail, or be the point at which the process stops. A failed or stopped write may
  leave the beginning of the file behind.
-/

namespace DatasetCatalog

/-- What becomes of a file operation. -/
inductive Verdict where
  | proceed
  /-- It fails; a write leaves so many bytes behind. -/
  | fail (written : Nat)
  /-- The process stops; a write leaves so many bytes behind. -/
  | stop (written : Nat)
  deriving DecidableEq

/-- What actions read and change. -/
structure World where
  /-- The files. -/
  disk : Disk := {}
  /-- The verdicts on the coming file operations; behind them all proceed. -/
  verdicts : List Verdict := []
  /-- The locks that are held: the root of a cache and a data set. -/
  locks : List (Path × Int) := []
  /-- The fetches in progress: the number of a cache and a data set. -/
  flights : List (Nat × Int) := []
  /-- The moment that the next stamp tells. -/
  now : Timestamp := ⟨0⟩
  /-- The microseconds from one stamp to the next. -/
  tick : Int := Timestamp.second
  /-- Requests and notices so far. -/
  trace : Trace := {}
  deriving DecidableEq

/-- A computation over the world that ends in a value or an error, or stops the process. -/
abbrev Action (ε α : Type) := ExceptT ε (OptionT (StateM World)) α

namespace Action

variable {ε δ α : Type}

/-- Runs an action: no outcome means that the process stopped. -/
def exec (x : Action ε α) (w : World) : Option (Except ε α) × World := Id.run (x.run.run.run w)

/-- An action from what it does to the world. -/
def of (f : World → Option (Except ε α) × World) : Action ε α := fun w => pure (f w)

/-- Catches every error. -/
def attempt (x : Action ε α) : Action δ (Except ε α) :=
  of fun w => match x.exec w with
    | (some r, next) => (some (.ok r), next)
    | (none, next) => (none, next)

/-- Turns an error into another one. -/
def mapError (f : ε → δ) (x : Action ε α) : Action δ α := do
  match ← x.attempt with
  | .ok a => return a
  | .error e => throw (f e)

/-- A value or an error as an action. -/
def ofExcept (r : Except ε α) : Action ε α := of fun w => (some r, w)

/-- Ends the process. -/
def stopped : Action ε α := of fun w => (none, w)

/-- Reads the world. -/
def look (f : World → α) : Action ε α := of fun w => (some (.ok (f w)), w)

/-- Changes the world. -/
def change (f : World → World) : Action ε Unit := of fun w => (some (.ok ()), f w)

/-- Gives a notice. -/
def note (n : Notice) : Action ε Unit := change fun w => { w with trace := w.trace.note n }

/-- Prints a line. -/
def print (line : String) : Action ε Unit :=
  change fun w => { w with trace := w.trace.print line }

/-- Runs an action over a connection, which is closed when the action ends. -/
def connected (timeout : Number) (showProgress : Bool) (x : Action ε α) : Action ε α := do
  change fun w => { w with trace := w.trace.connect timeout showProgress }
  let r ← x.attempt
  change fun w => { w with trace := w.trace.disconnect }
  ofExcept r

/-- The moment of a stamp; the clock moves on. -/
def stamp : Action ε Timestamp :=
  of fun w => (some (.ok w.now), { w with now := w.now.add w.tick })

/-! ### File operations -/

/-- A file operation under the next verdict; `torn` is what a write leaves behind. -/
def operate (op : Disk → Except FileFault (α × Disk)) (torn : Nat → Disk → Disk) :
    Action FileFault α :=
  of fun w =>
    let rest := { w with verdicts := w.verdicts.tail }
    match w.verdicts.head?.getD .proceed with
    | .proceed => match op w.disk with
      | .ok (a, disk) => (some (.ok a), { rest with disk })
      | .error fault => (some (.error fault), rest)
    | .fail written => (some (.error .refused), { rest with disk := torn written w.disk })
    | .stop written => (none, { rest with disk := torn written w.disk })

/-- A file operation that changes nothing. -/
def inspect (op : Disk → Except FileFault α) : Action FileFault α :=
  operate (fun d => (op d).map fun a => (a, d)) fun _ d => d

/-- A file operation that changes the disk at once or not at all. -/
def alter (op : Disk → Except FileFault Disk) : Action FileFault Unit :=
  operate (fun d => (op d).map fun d' => ((), d')) fun _ d => d

/-- There is something at the path. -/
def present (p : Path) : Action FileFault Bool := inspect (·.present p)

/-- The bytes of a file. -/
def readBytes (p : Path) : Action FileFault ByteArray := inspect (·.read p)

/-- The size of a file. -/
def fileSize (p : Path) : Action FileFault Nat := inspect (·.sizeOf p)

/-- The names in a directory; none when it is no directory. -/
def list (p : Path) : Action FileFault (List String) :=
  inspect fun d => .ok (if d.isDirectory p then d.list p else [])

/-- Writes a file. -/
def writeBytes (p : Path) (bytes : ByteArray) : Action FileFault Unit :=
  operate (fun d => (d.write p bytes).map fun d' => ((), d')) fun written d =>
    match d.write p (bytes.extract 0 written) with
    | .ok d' => d'
    | .error _ => d

/-- Moves a file in place of another one. -/
def rename (p q : Path) : Action FileFault Unit := alter (·.rename p q)

/-- Removes a file. -/
def remove (p : Path) : Action FileFault Unit := alter (·.remove p)

/-- Removes a file that may be absent. -/
def removeIfPresent (p : Path) : Action FileFault Unit := do
  match ← (remove p).attempt with
  | .ok () | .error .missing => return
  | .error fault => throw fault

/-- Makes a directory unless it is there. -/
def makeDirectory (p : Path) : Action FileFault Unit := do
  match ← (alter (·.makeDirectory p)).attempt with
  | .ok () => return
  | .error .missing => throw .missing
  | .error fault => if ← inspect fun d => .ok (d.isDirectory p) then return else throw fault

/-- Makes the directory of the first `depth` names of a path, and those above it as needed. -/
def makeDirectoriesTo (p : Path) : Nat → Action FileFault Unit
  | 0 => makeDirectory p
  | depth + 1 => do
    match ← (makeDirectory p).attempt with
    | .error .missing =>
      makeDirectoriesTo p.parent depth
      makeDirectory p
    | .ok () => return
    | .error fault => throw fault

/-- Makes a directory and those above it unless they are there. -/
def makeDirectories (p : Path) : Action FileFault Unit := makeDirectoriesTo p p.names.length

end Action

end DatasetCatalog
