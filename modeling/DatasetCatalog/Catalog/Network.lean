import DatasetCatalog.Bytes
import DatasetCatalog.Trace

/-! # The network

  A transport answers a request for an address with bytes or an error. It may answer the same
  request differently later on: its answer depends on all that was requested before.
-/

namespace DatasetCatalog.Catalog

/-- What went wrong with a request. -/
inductive NetworkFault where
  /-- The response has an error status; its body may be known. -/
  | status (code : Nat) (body : Option ByteArray)
  /-- There was no response. -/
  | failed (text : String)
  deriving DecidableEq

/-- A request that was not answered with data. -/
structure NetworkError where
  /-- The requested address. -/
  url : String
  /-- What went wrong. -/
  fault : NetworkFault
  deriving DecidableEq

namespace NetworkError

/-- The status of the response, when there was one. -/
def status? (e : NetworkError) : Option Nat :=
  match e.fault with
  | .status code _ => some code
  | .failed _ => none

/-- The body of the response, when it is known and not empty. -/
def body? (e : NetworkError) : Option ByteArray :=
  match e.fault with
  | .status _ (some body) => if body.size = 0 then none else some body
  | _ => none

/-- The wording of an error. -/
def message (e : NetworkError) : String :=
  match e.fault with
  | .status code _ => "HTTP " ++ integerText code ++ " for " ++ e.url
  | .failed text => "Request failed for " ++ e.url ++ ": " ++ text

end NetworkError

/-- Answers the request of an address behind earlier requests, the first one first. -/
abbrev Transport := List String → String → Except NetworkError ByteArray

/-! ### HTTP -/

/-- What a server does with a request. -/
inductive Response where
  /-- It responds. -/
  | reply (status : Nat) (body : ByteArray)
  /-- It cannot be reached, or breaks off. -/
  | broken (text : String)
  deriving DecidableEq

/-- The data of a response: its body, unless the status tells an error. -/
def Response.data (url : String) : Response → Except NetworkError ByteArray
  | .reply status body =>
    if status < 400 then .ok body else .error ⟨url, .status status (some body)⟩
  | .broken text => .error ⟨url, .failed text⟩

end DatasetCatalog.Catalog
