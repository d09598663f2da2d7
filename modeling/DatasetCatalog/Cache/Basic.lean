import DatasetCatalog.Cache.Entry
import DatasetCatalog.Cache.Flight

/-! # The artifact cache

  Artifacts are kept by the identifiers of their data sets. An artifact that is not there is
  fetched, at most once at a time for each data set, checked and stored. Entries are removed one
  by one, oldest first until a limit is kept, or all together.
-/

namespace DatasetCatalog.Cache

/-! ### Fetching -/

/-- What a fetch comes to. -/
inductive Fetched (ε : Type) where
  | bytes (data : ByteArray)
  /-- Something else, by the name of its type. -/
  | other (type : String)
  | fetchError (e : FetchError ε)
  | storageError (e : StorageError)
  /-- It failed with an error of its own. -/
  | failure (e : ε)
  /-- It was broken off. -/
  | interruption (e : ε)

/-- Why an artifact cannot be had. -/
inductive GetError (ε : Type) where
  | fetch (e : FetchError ε)
  | storage (e : StorageError)
  /-- The fetch was broken off. -/
  | interrupted (cause : ε)
  /-- The fetch of another caller cannot be waited for so long. -/
  | waitTooLong
  deriving DecidableEq

variable {ε : Type}

/-- An error of the cache as one of getting an artifact. -/
def settle (c : Cache) (id : Int) : CacheError → GetError ε
  | .storage e => .storage e
  | .file fault => .fetch (.failed id (.file ⟨fault, c.dataPath id⟩))
  | _ => .fetch (.failed id (.file ⟨.refused, c.dataPath id⟩))

/-- What the other callers of a fetch see of its error. -/
def GetError.shared (id : Int) : GetError ε → GetError ε
  | .interrupted cause => .fetch (.interrupted id cause)
  | e => e

/-- What callers end with when they share a flight that ends for the first of them with `r`. -/
def sharedOutcomes (callers : Nat) (id : Int) (r : Except (GetError ε) Artifact) :
    List (Option (Except (GetError ε) Artifact)) :=
  Flight.shared callers id (Except.mapError (GetError.shared id)) r

/-- Closes the flight of a data set. -/
def land {δ : Type} (c : Cache) (id : Int) : Action δ Unit :=
  Action.change fun w => { w with flights := w.flights.erase (c.number, id) }

/-- Runs an action and closes the flight when it ends. -/
def thenLand {α δ : Type} (c : Cache) (id : Int) (x : Action δ α) : Action δ α := do
  let r ← x.attempt
  c.land id
  Action.ofExcept r

/-- A flight of the data set is open. -/
def inFlight {δ : Type} (c : Cache) (id : Int) : Action δ Bool :=
  Action.look fun w => decide ((c.number, id) ∈ w.flights)

/-- A wait of so many seconds cannot be begun: its nanoseconds do not fit into 63 bits. -/
def isTooLong (seconds : Number) : Bool :=
  match seconds.position? with
  | some p => (Number.Position.at 9223372036854775808 1000000000).le p
  | none => false

/-- How a caller ends that waits in vain. What is no number is no time to wait. -/
def givingUp (id : Int) (seconds : Number) : GetError ε :=
  if isTooLong seconds then .waitTooLong else .fetch (.gaveUp id seconds)

/-- Waits for a fetch of another caller, which does not go on while this one waits. -/
def wait (id : Int) : Option Number → Action (GetError ε) (Option Artifact)
  | some seconds => throw (givingUp id seconds)
  | none => Action.stopped

/-- Takes the lock and reads the entry; the lock stays held when there is none. -/
def probe (c : Cache) (id : Int) : Action CacheError (Option Artifact) := do
  (c.takeLock id).mapError fun
    | .busy => .storage (.lockBusy (integerText id))
    | .file _ => .storage (.noLock c.root)
  match ← (c.readEntry id).attempt with
  -- the lock is passed on to the fetch
  | .ok none => return none
  | .ok (some artifact) =>
    c.releaseLock id
    return some artifact
  | .error e =>
    c.releaseLock id
    throw e

/-- Begins to get an artifact: an artifact that is there is the result; otherwise flight and lock
    of the data set are open, and a fetch is due. -/
def begin (c : Cache) (id : Int) (timeout : Option Number) :
    Action (GetError ε) (Option Artifact) := do
  if ← c.inFlight id then wait id timeout
  else
    Action.change fun w => { w with flights := (c.number, id) :: w.flights }
    match ← (c.probe id).attempt with
    | .ok none => return none
    | .ok (some artifact) =>
      c.land id
      return some artifact
    | .error e =>
      c.land id
      throw (c.settle id e)

/-- Checks fetched data against an announced digest; an empty one announces nothing. -/
def check (id : Int) (data : ByteArray) (expected : Option String) :
    Action (GetError ε) Unit := do
  match expected with
  | none | some "" => return
  | some expected => match verify (integerText id) data expected with
    | .ok () => return
    | .error e =>
      Action.note (.checksumMismatch e.dataset e.expected e.actual)
      throw (.fetch (.checksum e))

/-- Stores what was fetched. -/
def store (c : Cache) (id : Int) (expected : Option String) :
    Fetched ε → Action (GetError ε) Artifact
  | .bytes data => do
    check id data expected
    (c.writeEntry id data).mapError .storage
  | .other type => throw (.fetch (.notBytes id type))
  | .fetchError e => throw (.fetch e)
  | .storageError e => throw (.storage e)
  | .failure e => throw (.fetch (.failed id (.given e)))
  | .interruption e => throw (.interrupted e)

/-- Ends to get an artifact with what was fetched: stores it, and gives lock and flight back. -/
def complete (c : Cache) (id : Int) (expected : Option String) (fetched : Fetched ε) :
    Action (GetError ε) Artifact :=
  c.thenLand id (c.thenRelease id (c.store id expected fetched))

/-- The artifact of a data set, which is fetched when it is not there. -/
def getOrFetch (c : Cache) (id : Int) (expected : Option String) (timeout : Option Number)
    (fetch : Action Empty (Fetched ε)) : Action (GetError ε) Artifact := do
  match ← c.begin id timeout with
  | some artifact => return artifact
  | none => c.complete id expected (← fetch.mapError Empty.elim)

/-! ### Callers -/

/-- What a caller asks for. -/
structure Request (ε : Type) where
  /-- The data set. -/
  dataset : Int
  /-- The announced digest. -/
  expected : Option String
  /-- The seconds that it waits for the fetch of another caller. -/
  timeout : Option Number
  /-- Its own way to fetch the artifact. -/
  fetch : Action Empty (Fetched ε)

/-- Looks for an artifact under the lock of its data set, and fetches it when it is not there. -/
def load (c : Cache) (r : Request ε) : Action (GetError ε) Artifact := do
  match ← (c.probe r.dataset).mapError (c.settle r.dataset) with
  | some artifact => return artifact
  | none =>
    let fetched ← r.fetch.mapError Empty.elim
    c.thenRelease r.dataset (c.store r.dataset r.expected fetched)

/-- A caller among others that share their flights. -/
def caller (c : Cache) (r : Request ε) : Flight.Call World (Except (GetError ε) Artifact) where
  dataset := r.dataset
  givingUp := r.timeout.map fun seconds => .error (Cache.givingUp r.dataset seconds)
  load := (c.load r).exec
  share := Except.mapError (GetError.shared r.dataset)

/-! ### Inspecting -/

/-- There is a valid entry. -/
def contains (c : Cache) (id : Int) : Action CacheError Bool :=
  return (← c.readEntry id).isSome

/-- The sum of the recorded sizes. -/
def sizeOf (entries : List Entry) : Int := entries.foldl (fun sum entry => sum + entry.size) 0

/-- The sum of the recorded sizes of all entries. -/
def total (c : Cache) : Action CacheError Int :=
  return sizeOf (← c.entries)

/-! ### Removing -/

/-- Removes a file that is there, and tells whether it was. -/
def removeIfThere (p : Path) : Action FileFault Bool := do
  if ← Action.present p then
    Action.remove p
    return true
  else return false

/-- Removes the entry of a data set, and tells whether anything was there. -/
def evict (c : Cache) (name : DatasetName) : Action CacheError Bool := do
  let id := name.id
  (c.takeLock id).mapError fun
    | .busy => .storage (.lockBusy name.shown)
    | .file _ => .storage (.irremovable (c.dataPath id))
  c.thenRelease id <| Action.mapError (fun _ => .storage (.irremovable (c.dataPath id))) do
    let marker ← removeIfThere (c.markerPath id)
    let data ← removeIfThere (c.dataPath id)
    return marker || data

/-- Evicts from the front while the total exceeds the limit; data sets with an open flight are
    left alone. -/
def pruneFrom (c : Cache) (limit : Int) : Int → List Entry → Action CacheError (List Int)
  | _, [] => return []
  | total, entry :: rest => do
    if total ≤ limit then return []
    -- an artifact that is being stored keeps its size in the total
    if ← c.inFlight entry.dataset then c.pruneFrom limit total rest
    else if ← c.evict (.ofInt entry.dataset) then
      return entry.dataset :: (← c.pruneFrom limit (total - entry.size) rest)
    else c.pruneFrom limit total rest

/-- Evicts the oldest entries until the sizes sum up to at most the limit. -/
def prune (c : Cache) (limit : Int) : Action CacheError (List Int) := do
  if limit < 0 then throw .negativeLimit
  let entries ← c.entries
  c.pruneFrom limit (sizeOf entries) entries

/-- Evicts entries and counts them. -/
def evictAll (c : Cache) : List Entry → Action CacheError Nat
  | [] => return 0
  | entry :: rest => do
    let removed ← c.evict (.ofInt entry.dataset)
    let count ← c.evictAll rest
    return (if removed then 1 else 0) + count

/-- Removes files of the given names that were being written. -/
def sweepAll (c : Cache) : List String → Action CacheError Unit
  | [] => return
  | name :: rest => do
    let path := c.root.child name
    (Action.removeIfPresent path).mapError fun _ => .storage (.partialStuck path)
    c.sweepAll rest

/-- Evicts all entries and removes all files that were being written; counts the entries. -/
def clear (c : Cache) : Action CacheError Nat := do
  let count ← c.evictAll (← c.entries)
  c.sweepAll (← c.namesEnding partSuffix)
  return count

end DatasetCatalog.Cache
