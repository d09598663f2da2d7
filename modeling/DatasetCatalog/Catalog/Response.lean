import DatasetCatalog.Catalog.Description
import DatasetCatalog.Json.Reader
import DatasetCatalog.Catalog.QualityKey
import DatasetCatalog.Catalog.Record
import DatasetCatalog.Catalog.Summary

/-! # Responses

  What the service responds, decoded: the tags, the entries of a listing, the description of a data
  set, its features, and the code of an error. The value of a quality is a number where it spells
  one, and an integer where that number is whole.
-/

namespace DatasetCatalog.Catalog

open Text

/-! ### Fields of decoded records -/

namespace Record

/-- A text field. -/
def text? (r : Record) (name : String) : Option String :=
  match r.lookup name with
  | some (.text s) => some s
  | _ => none

/-- A text field; empty when it is absent. -/
def text (r : Record) (name : String) : String := (text? r name).getD ""

/-- An integer field. -/
def integer? (r : Record) (name : String) : Option Int :=
  match r.lookup name with
  | some (.integer n) => some n
  | _ => none

/-- An integer field; zero when it is absent. -/
def integer (r : Record) (name : String) : Int := (integer? r name).getD 0

/-- A field of a truth value; false when it is absent. -/
def truth (r : Record) (name : String) : Bool :=
  match r.lookup name with
  | some (.truth b) => b
  | _ => false

/-- A field of texts; none when it is absent. -/
def texts (r : Record) (name : String) : List String :=
  match r.lookup name with
  | some (.texts xs) => xs
  | _ => []

/-- A field of objects; none when it is absent. -/
def objects (r : Record) (name : String) : List Json :=
  match r.lookup name with
  | some (.records xs) => xs.map .obj
  | _ => []

/-- A field of any value. -/
def any? (r : Record) (name : String) : Option Json :=
  match r.lookup name with
  | some (.any v) => some v
  | _ => none

end Record

namespace Response

/-- The record of a kind under its key in a response. -/
def envelope (schema : Schema) (strict : Bool) (payload : Json) : Except DecodeError Record := do
  decodeRecord schema strict (fieldPath "$" schema.kind) (← unwrap payload schema.kind)

/-- The tags of a response. -/
def tags (strict : Bool) (payload : Json) : Except DecodeError (List String) := do
  return (← envelope Schema.tagList strict payload).texts "tag"

/-! ### Listings -/

/-- A double as the value of a quality. -/
def ofReal (x : Binary64) : Json := .number (Number.float x).integral

/-- The value of a quality. -/
def qualityValue : Json → Except DecodeError Json
  | .bool b => .ok (.str (if b then "true" else "false"))
  | .number (.int n) => match Binary64.ofInt? n with
    | some x => .ok (ofReal x)
    | none => .error .tooLarge
  | .number (.float x) => .ok (ofReal x)
  | v =>
    let s := strip v.asText.toList
    match Binary64.ofText? s with
    | some x => .ok (ofReal x)
    | none => .ok (.str (String.ofList s))

/-- The qualities of decoded records; the last one of a key counts. -/
def qualities (done : List (String × Json)) : List Record → Except DecodeError (List (String × Json))
  | [] => .ok done
  | q :: rest => do
    let value ← qualityValue ((q.any? "value").getD (.str ""))
    qualities (Json.setField done (qualityKey (q.text "name")) value) rest

/-- The path of the entries of a listing. -/
def entriesPath : String := "$.data.dataset"

/-- The summary of entry number `i`. -/
def summary (strict : Bool) (i : Nat) (entry : Record) : Except DecodeError Summary := do
  let path := itemPath entriesPath i
  let listed ← decodeRecords Schema.quality strict (fieldPath path "quality")
    (entry.objects "quality")
  let qualities ← qualities [] listed
  match checkId (entry.integer "did") with
  | .error _ => throw (.at (fieldPath path "did") .negativeId)
  | .ok id => return {
      id, name := entry.text "name", version := entry.integer "version"
      status := entry.text "status", format := entry.text "format"
      checksum := entry.text? "md5_checksum", file := entry.integer? "file_id", qualities }

/-- The summaries of entries that are counted from `i` on. -/
def summaries (strict : Bool) : Nat → List Record → Except DecodeError (List Summary)
  | _, [] => .ok []
  | i, entry :: rest => do
    let s ← summary strict i entry
    let tail ← summaries strict (i + 1) rest
    return s :: tail

/-- The summaries of a response. -/
def listing (strict : Bool) (payload : Json) : Except DecodeError (List Summary) := do
  let listed ← envelope Schema.datasetList strict payload
  let entries ← decodeRecords Schema.datasetEntry strict entriesPath (listed.objects "dataset")
  summaries strict 0 entries

/-! ### Descriptions -/

/-- The description of a response, without attributes. -/
def description (strict : Bool) (payload : Json) : Except DecodeError Description := do
  let d ← envelope Schema.description strict payload
  return {
    id := d.integer "id", name := d.text "name", version := d.integer "version"
    text := d.text "description"
    citation :=
      { creators := d.texts "creator", contributors := d.texts "contributor"
        collectionDate := d.text? "collection_date", text := d.text? "citation"
        originalUrl := d.text? "original_data_url", paperUrl := d.text? "paper_url"
        licence := d.text? "licence" }
    format := d.text "format", url := d.text "url", checksum := d.text? "md5_checksum"
    status := d.text? "status", defaultTarget := d.text? "default_target_attribute"
    tags := d.texts "tag" }

/-- The path of the features of a data set. -/
def featuresPath : String := "$.data_features.feature"

/-- The kind that a feature tells. -/
def kindOf (path text : String) : Except DecodeError Arff.Kind :=
  match Arff.Kind.ofName? (String.ofList (lower (strip text.toList))) with
  | some kind => .ok kind
  | none => .error (.at path (.unknownDataType text))

/-- The attribute of feature number `i`. -/
def declaredAttribute (i : Nat) (f : Record) : Except DecodeError DeclaredAttribute := do
  let kind ← kindOf (fieldPath (itemPath featuresPath i) "data_type") (f.text "data_type")
  return {
    index := f.integer "index", name := f.text "name", kind, levels := f.texts "nominal_value"
    isTarget := f.truth "is_target", isIgnored := f.truth "is_ignore"
    isRowId := f.truth "is_row_identifier", missing := f.integer? "number_of_missing_values" }

/-- The attributes of features that are counted from `i` on. -/
def declaredAttributes : Nat → List Record → Except DecodeError (List DeclaredAttribute)
  | _, [] => .ok []
  | i, f :: rest => do
    let a ← declaredAttribute i f
    let tail ← declaredAttributes (i + 1) rest
    return a :: tail

/-- The declared attributes of a response by their positions. -/
def features (strict : Bool) (payload : Json) : Except DecodeError (List DeclaredAttribute) := do
  let listed ← envelope Schema.featureList strict payload
  let features ← decodeRecords Schema.feature strict featuresPath (listed.objects "feature")
  let attributes ← declaredAttributes 0 features
  return attributes.mergeSort fun a b => decide (a.index ≤ b.index)

/-! ### Errors -/

/-- The code of an error that the service responds with, when the bytes are one. -/
def errorCode? (body : ByteArray) : Option Int := do
  let payload ← Json.ofBytes? body
  match envelope Schema.error false payload with
  | .ok e => e.integer? "code"
  | .error _ => none

end Response

end DatasetCatalog.Catalog
