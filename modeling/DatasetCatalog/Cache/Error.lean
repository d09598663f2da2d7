import DatasetCatalog.Json.Integer
import DatasetCatalog.World

/-! # Cache errors

  Fetching fails with an error that names the data set; the error of the fetch itself is kept as
  its cause. Everything that goes wrong on the disk is a storage error, as far as the cache expects
  it.
-/

namespace DatasetCatalog.Cache

/-- Bytes do not have the digest that was announced. -/
structure ChecksumMismatch where
  /-- The data set as the caller wrote it. -/
  dataset : String
  /-- The announced digest. -/
  expected : String
  /-- The digest of the bytes. -/
  actual : String
  deriving DecidableEq

/-- The wording of a mismatch. -/
def ChecksumMismatch.message (e : ChecksumMismatch) : String :=
  "Checksum mismatch for dataset " ++ e.dataset ++ ": expected " ++ e.expected ++ ", got " ++
    e.actual

/-- A file operation has failed at a path. -/
structure FailedOperation where
  fault : FileFault
  path : Path
  deriving DecidableEq

/-- The wording of a failed operation. A look at a path is not refused for any other reason than a
    name that is too long. -/
def FailedOperation.message (o : FailedOperation) : String :=
  (match o.fault with
    | .missing => "[Errno 2] No such file or directory: "
    | .notDirectory => "[Errno 20] Not a directory: "
    | .refused => "[Errno 36] File name too long: ") ++ Text.cite o.path.text

/-- What made a fetch fail. -/
inductive Cause (ε : Type) where
  /-- The error of the fetch. -/
  | given (e : ε)
  /-- A file operation that nobody expected to fail. -/
  | file (operation : FailedOperation)
  deriving DecidableEq

/-- Why an artifact could not be fetched. -/
inductive FetchError (ε : Type) where
  | failed (dataset : Int) (cause : Cause ε)
  /-- The fetch was broken off; its caller sees the cause, and the others see this. -/
  | interrupted (dataset : Int) (cause : ε)
  /-- The fetch gave something of another type, by name. -/
  | notBytes (dataset : Int) (type : String)
  | checksum (e : ChecksumMismatch)
  /-- The caller did not wait longer for the fetch of another one. -/
  | gaveUp (dataset : Int) (seconds : Number)
  /-- The fetch failed in words of its own. -/
  | raised (text : String)
  deriving DecidableEq

/-- The wording of an error, with words for a cause. -/
def FetchError.message {ε : Type} (words : ε → String) : FetchError ε → String
  | failed dataset cause =>
    "Fetching dataset " ++ integerText dataset ++ " failed: " ++ match cause with
      | .given e => words e
      | .file operation => operation.message
  | interrupted dataset _ => "Fetching dataset " ++ integerText dataset ++ " was interrupted"
  | notBytes dataset type =>
    "Fetcher for dataset " ++ integerText dataset ++ " returned " ++ type ++ ", not bytes"
  | checksum e => e.message
  | gaveUp dataset seconds =>
    "Gave up waiting for dataset " ++ integerText dataset ++ " after " ++ seconds.write ++
      " seconds"
  | raised text => text

/-- What goes wrong with the files of a cache. -/
inductive StorageError where
  /-- Another one holds the lock of a data set for too long. -/
  | lockBusy (dataset : String)
  | noLock (root : Path)
  | unreadable (path : Path)
  | unwritable (path : Path)
  /-- The entry cannot be removed. -/
  | irremovable (path : Path)
  | partialStuck (path : Path)
  /-- The fetch failed to store something in words of its own. -/
  | raised (text : String)
  deriving DecidableEq

/-- The wording of an error. -/
def StorageError.message : StorageError → String
  | lockBusy dataset => "Timed out waiting for the cache lock of dataset " ++ dataset
  | noLock root => "Cannot create cache lock under " ++ root.text
  | unreadable path => "Cannot read cache entry " ++ path.text
  | unwritable path => "Cannot write cache entry " ++ path.text
  | irremovable path => "Cannot evict cache entry " ++ path.text
  | partialStuck path => "Cannot remove partial cache file " ++ path.text
  | raised text => text

/-- Why the cache cannot be inspected or changed. -/
inductive CacheError where
  | storage (e : StorageError)
  /-- A file operation that nobody expected to fail. -/
  | file (fault : FileFault)
  /-- A marker whose size is no integer. -/
  | size (fault : IntegerFault)
  /-- The limit of the size is below zero. -/
  | negativeLimit
  deriving DecidableEq

/-- The wording of a limit below zero. -/
def CacheError.negativeLimitMessage : String := "max_bytes must be >= 0"

end DatasetCatalog.Cache
