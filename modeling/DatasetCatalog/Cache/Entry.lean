import DatasetCatalog.Cache.Marker

/-! # Cache entries

  The files of one data set in a cache: how an entry is locked, read, written and listed. Writing
  removes the old marker first and puts the new one last, and both files are written under another
  name and moved into place, so a marker is only ever seen beside the data that it records.
-/

namespace DatasetCatalog

/-- A cache: a directory, and the format of what is stored there. -/
structure Cache where
  /-- The directory. -/
  root : Path
  /-- The format, which is the end of the names of data files. -/
  format : String := "arff"
  /-- Tells caches of one directory apart. -/
  number : Nat := 0
  deriving DecidableEq

namespace Cache

/-- An artifact in a cache. -/
structure Artifact where
  /-- The data set. -/
  dataset : Int
  /-- The bytes. -/
  data : ByteArray
  /-- The format as the marker tells it. -/
  format : Json
  /-- The path of the data file. -/
  path : Path

/-! ### Paths -/

/-- The end of the names of files that are being written. -/
def partSuffix : String := ".part"

/-- The end of the names of markers. -/
def markerSuffix : String := ".meta.json"

/-- The path of the data file of a data set. -/
def dataPath (c : Cache) (id : Int) : Path := c.root.child (integerText id ++ "." ++ c.format)

/-- The path of the marker of a data set. -/
def markerPath (c : Cache) (id : Int) : Path := c.root.child (integerText id ++ markerSuffix)

/-- The directory of the locks. -/
def lockRoot (c : Cache) : Path := c.root.child ".locks"

/-! ### Locks -/

/-- Why a lock cannot be taken. -/
inductive LockFault where
  /-- Another one holds it. -/
  | busy
  | file (fault : FileFault)
  deriving DecidableEq

/-- The lock file can be opened. -/
def lockFile (c : Cache) (id : Int) (d : Disk) : Except FileFault Unit :=
  match d.lookToPut (c.lockRoot.child (integerText id ++ ".lock")) with
  | .ok (some .directory) => .error .refused
  | .ok _ => .ok ()
  | .error fault => .error fault

/-- Takes the lock of a data set. -/
def takeLock (c : Cache) (id : Int) : Action LockFault Unit := do
  (Action.makeDirectories c.lockRoot).mapError .file
  (Action.inspect (c.lockFile id)).mapError .file
  if ← Action.look fun w => decide ((c.root, id) ∈ w.locks) then throw .busy
  Action.change fun w => { w with locks := (c.root, id) :: w.locks }

/-- Gives the lock of a data set back. -/
def releaseLock {ε : Type} (c : Cache) (id : Int) : Action ε Unit :=
  Action.change fun w => { w with locks := w.locks.erase (c.root, id) }

/-- Runs an action under a lock that is held, and gives the lock back when it ends. -/
def thenRelease {ε α : Type} (c : Cache) (id : Int) (x : Action ε α) : Action ε α := do
  let r ← x.attempt
  c.releaseLock id
  Action.ofExcept r

/-! ### Reading -/

/-- Reads a marker; one that cannot be read, or is none, counts as absent. -/
def readMarker {ε : Type} (path : Path) : Action ε (Option Marker) := do
  match ← (Action.readBytes path).attempt with
  | .error .missing => return none
  | .error _ =>
    Action.note (.markerUnreadable path)
    return none
  | .ok bytes => match Marker.ofBytes bytes with
    | .fields m => return some m
    | .unreadable =>
      Action.note (.markerUnreadable path)
      return none
    | .malformed =>
      Action.note (.markerMalformed path)
      return none

/-- The data of the size that a marker records. -/
def readData (path : Path) (m : Marker) : Action FileFault (Option ByteArray) := do
  if ← Action.present path then
    if m.hasSize (← Action.fileSize path) then return some (← Action.readBytes path)
  return none

/-- Reads the entry of a data set; one that is not valid counts as absent. -/
def readEntry (c : Cache) (id : Int) : Action CacheError (Option Artifact) := do
  let path := c.dataPath id
  match ← readMarker (c.markerPath id) with
  | none =>
    if ← (Action.present path).mapError .file then Action.note (.markerMissing path)
    return none
  | some m =>
    match ← (readData path m).mapError fun _ => .storage (.unreadable path) with
    | none =>
      Action.note (.entryIncomplete path)
      return none
    | some data =>
      if m.hasDigest data then
        return some ⟨id, data, (m.lookup "format").getD (.str c.format), path⟩
      else
        Action.note (.entryCorrupt path)
        return none

/-! ### Writing -/

/-- Puts data and marker of a data set into place. -/
def placeEntry (c : Cache) (id : Int) (data : ByteArray) (m : Marker) : Action FileFault Unit := do
  let dataPath := c.dataPath id
  let markerPath := c.markerPath id
  Action.makeDirectories c.root
  Action.removeIfPresent markerPath
  -- from here to the end a reader finds no marker, and so no entry
  Action.writeBytes (dataPath.addSuffix partSuffix) data
  Action.rename (dataPath.addSuffix partSuffix) dataPath
  Action.writeBytes (markerPath.addSuffix partSuffix) m.toBytes
  Action.rename (markerPath.addSuffix partSuffix) markerPath

/-- Removes what a failed write has left. -/
def sweep {ε : Type} (path : Path) : Action ε Unit := do
  match ← (Action.removeIfPresent path).attempt with
  | .ok () => return
  | .error _ => Action.note (.partialStuck path)

/-- Stores data as the entry of a data set. -/
def writeEntry (c : Cache) (id : Int) (data : ByteArray) : Action StorageError Artifact := do
  let path := c.dataPath id
  let m := Marker.ofData id c.format data (← Action.stamp)
  match ← (c.placeEntry id data m).attempt with
  | .ok () => return ⟨id, data, .str c.format, path⟩
  | .error _ =>
    sweep (path.addSuffix partSuffix)
    sweep ((c.markerPath id).addSuffix partSuffix)
    throw (.unwritable path)

/-! ### Listing -/

/-- An entry of a listing. -/
structure Entry where
  /-- The data set. -/
  dataset : Int
  /-- The path of the data file. -/
  path : Path
  /-- The recorded size. -/
  size : Int
  /-- The recorded digest. -/
  digest : String
  /-- The recorded moment of storing. -/
  storedAt : String
  deriving DecidableEq

namespace Entry

/-- Entries in the order of storing, those of one moment in the order of their data sets. -/
def le (a b : Entry) : Bool :=
  decide (a.storedAt < b.storedAt) || (a.storedAt == b.storedAt && decide (a.dataset ≤ b.dataset))

end Entry

/-- The data set of a marker's name: the integer in front of the first dot. -/
def datasetOfName? (name : String) : Option Int :=
  match Numeral.integer (name.toList.takeWhile (· != '.')) with
  | .ok id => some id
  | .error _ => none

/-- The entry of a marker with a name. -/
def entryOf (c : Cache) (name : String) (m : Marker) : Except IntegerFault (Option Entry) :=
  match datasetOfName? name with
  | none => .ok none
  | some id => match (m.value "size").toInteger with
    | .error fault => .error fault
    | .ok size => .ok (some
      { dataset := id, path := c.dataPath id, size, digest := (m.value "sha256").asText
        storedAt := ((m.lookup "stored_at").getD (.str "")).asText })

/-- The entries of the markers with the given names. -/
def entriesOf (c : Cache) : List String → Action CacheError (List Entry)
  | [] => return []
  | name :: rest => do
    match ← readMarker (c.root.child name) with
    | none => c.entriesOf rest
    | some m =>
      let entry ← (Action.ofExcept (c.entryOf name m)).mapError .size
      let entries ← c.entriesOf rest
      return entry.toList ++ entries

/-- The names in the directory of a cache that end in a suffix. -/
def namesEnding (c : Cache) (suffix : String) : Action CacheError (List String) := do
  if ← (Action.present c.root).mapError .file then
    let names ← (Action.list c.root).mapError .file
    return names.filter fun name => suffix.toList.isSuffixOf name.toList
  else return []

/-- The entries that have a marker, the oldest first. -/
def entries (c : Cache) : Action CacheError (List Entry) := do
  return (← c.entriesOf (← c.namesEnding markerSuffix)).mergeSort Entry.le

end Cache

end DatasetCatalog
