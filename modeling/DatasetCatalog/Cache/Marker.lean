import DatasetCatalog.Cache.Error
import DatasetCatalog.Digest.Md5
import DatasetCatalog.Digest.Sha256
import DatasetCatalog.Json.Reader
import DatasetCatalog.Json.Writer

/-! # Markers

  An artifact is kept as a data file and a marker beside it. The marker records the size and the
  digest of the data; the entry is valid when the data has both. A marker may have been edited, so
  everything else in it is taken as it comes.
-/

namespace DatasetCatalog.Cache

/-- The fields of a marker. -/
abbrev Marker := List (String × Json)

namespace Marker

/-- The fields that a marker must have. -/
def required : List String := ["size", "sha256"]

/-- What a marker file holds. -/
inductive Reading where
  /-- No JSON. -/
  | unreadable
  /-- No object with the required fields. -/
  | malformed
  | fields (m : Marker)

/-- Reads a marker. -/
def ofBytes (bytes : ByteArray) : Reading :=
  match Json.ofBytes? bytes with
  | none => .unreadable
  | some (.obj fields) =>
    if required.all fun key => (fields.lookup key).isSome then .fields fields else .malformed
  | some _ => .malformed

/-- The marker of data that is stored at a moment. -/
def ofData (dataset : Int) (format : String) (data : ByteArray) (moment : Timestamp) : Marker :=
  [("dataset_id", .int dataset), ("format", .str format), ("size", .int data.size),
   ("sha256", .str (Digest.sha256 data)), ("stored_at", .str moment.iso)]

/-- The bytes of a marker file. -/
def toBytes (m : Marker) : ByteArray := (String.ofList (Json.writeRecord m)).toUTF8

/-- The value of a field; null when it is absent. -/
def value (m : Marker) (key : String) : Json := (m.lookup key).getD .null

/-- The recorded size is `n`; a truth value counts as zero or one. -/
def hasSize (m : Marker) (n : Nat) : Bool :=
  match m.value "size" with
  | .number s => s.same (.int n)
  | .bool b => n == if b then 1 else 0
  | _ => false

/-- The recorded digest is the one of the data. -/
def hasDigest (m : Marker) (data : ByteArray) : Bool :=
  match m.value "sha256" with
  | .str s => s == Digest.sha256 data
  | _ => false

end Marker

/-! ### Announced digests -/

/-- The digest of data when it is not the announced one; case and white space around the announced
    one do not count. -/
def mismatch? (data : ByteArray) (expected : String) : Option String :=
  let actual := Digest.md5 data
  if Text.lower (Text.strip expected.toList) = actual.toList then none else some actual

/-- Checks data against an announced digest. -/
def verify (dataset : String) (data : ByteArray) (expected : String) :
    Except ChecksumMismatch Unit :=
  match mismatch? data expected with
  | none => .ok ()
  | some actual => .error ⟨dataset, expected, actual⟩

end DatasetCatalog.Cache
