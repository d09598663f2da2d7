import DatasetCatalog.Catalog.Network
import DatasetCatalog.Catalog.Request
import DatasetCatalog.Catalog.Response

/-! # The client

  Requests go to a transport and responses are decoded; nothing is requested twice. The service
  tells some facts as errors: that a listing is empty, that a data set does not exist, and that its
  attributes are not known yet.
-/

namespace DatasetCatalog.Catalog

/-- Why the catalog does not answer. -/
inductive ClientError where
  | filter (e : FilterError)
  | network (e : NetworkError)
  | decode (e : DecodeError)
  /-- There is no such data set; the error that tells so, when the service was asked. -/
  | notFound (dataset : Int) (cause : Option NetworkError)
  deriving DecidableEq

/-- The wording for a data set that does not exist. -/
def notFoundMessage (dataset : Int) : String :=
  "Dataset " ++ integerText dataset ++ " does not exist"

/-- A computation that requests addresses and gives notices. -/
abbrev Exchange (α : Type) := ExceptT ClientError (StateM Trace) α

/-- A client of the catalog. -/
structure Client where
  /-- Address, key and strictness. -/
  settings : Settings
  /-- What requests go to. -/
  transport : Transport

namespace Client

variable {α : Type}

/-- Runs an exchange. -/
def run (x : Exchange α) (t : Trace) : Except ClientError α × Trace := Id.run (x.run.run t)

/-- Requests an address. -/
def fetch (c : Client) (url : String) : Exchange (Except NetworkError ByteArray) := fun t =>
  pure (.ok (c.transport t.requests url), t.request url)

/-- Gives a notice. -/
def note (n : Notice) : Exchange Unit := fun t => pure (.ok (), t.note n)

/-- A decoded value, or the error of decoding. -/
def decoded (r : Except DecodeError α) : Exchange α :=
  match r with
  | .ok a => return a
  | .error e => throw (.decode e)

/-- Bytes as JSON. -/
def payload (path : String) (bytes : ByteArray) : Exchange Json :=
  match Json.ofBytes? bytes with
  | some v => return v
  | none => throw (.decode (.at "$" (.notJson path)))

/-- Requests a path of the service. An error response may have a meaning of its own. -/
def get (c : Client) (path : String) (decode : Json → Except DecodeError α)
    (meaning : NetworkError → Exchange α) : Exchange α := do
  match ← c.fetch (Request.address c.settings path) with
  | .ok bytes => decoded (decode (← payload path bytes))
  | .error e => meaning e

/-- An error that has no other meaning. -/
def failure (e : NetworkError) : Exchange α := throw (.network e)

/-- The code that the service gives with a failed precondition. -/
def serviceCode (e : NetworkError) : Option Int :=
  if e.status? = some 412 then e.body?.bind Response.errorCode? else none

/-- The code of a listing without entries. -/
def noResults : Int := 372

/-- The code of a data set that does not exist. -/
def unknownDataset : Int := 111

/-- The codes of attributes that are not known. -/
def featuresUnavailable : List Int := [271, 272, 273, 274]

/-! ### Operations -/

/-- All tags. -/
def listTags (c : Client) : Exchange (List String) :=
  c.get Request.tags (Response.tags c.settings.strictDecoding) failure

/-- The data sets under a tag and a filter. -/
def listDatasets (c : Client) (tag : Option String) (filter : FilterChoice) :
    Exchange (List Summary) := do
  match Request.listing tag filter with
  | .error e => throw (.filter e)
  | .ok path => c.get path (Response.listing c.settings.strictDecoding) fun e =>
    if serviceCode e = some noResults then return [] else failure e

/-- The declared attributes of a data set. -/
def attributes (c : Client) (id : Int) : Exchange (List DeclaredAttribute) :=
  c.get (Request.features id) (Response.features c.settings.strictDecoding) fun e =>
    match serviceCode e with
    | some code =>
      if code ∈ featuresUnavailable then do
        note (.attributesPending id)
        return []
      else failure e
    | none => failure e

/-- The description of a data set. -/
def describe (c : Client) (id : Int) : Exchange Description := do
  if id < 0 then throw (.notFound id none)
  let d ← c.get (Request.description id) (Response.description c.settings.strictDecoding) fun e =>
    if e.status? = some 404 ∨ serviceCode e = some unknownDataset then throw (.notFound id (some e))
    else failure e
  return { d with attributes := ← c.attributes id }

/-- The bytes of the artifact of a described data set. -/
def download (c : Client) (d : Description) : Exchange ByteArray := do
  match ← c.fetch (Request.withKey c.settings d.url) with
  | .ok bytes => return bytes
  | .error e => failure e

end Client

end DatasetCatalog.Catalog
