import DatasetCatalog.Catalog.Response
import DatasetCatalog.Proofs.Catalog.Record

/-! # Responses without the fields that no schema has

  A response is trimmed by dropping, from every record that is decoded in it, the fields that the
  schema of the record does not have. Nothing else changes: neither the order of the records nor
  the values of the fields that stay, so an error that a record ends in stays the same as well.
  Strict decoding of a trimmed response is lenient decoding of the response.
-/

namespace DatasetCatalog.Catalog

open Text

/-! ### Changing a response in place -/

/-- Changes the fields of an object; other values stay. -/
def onObject (f : List (String × Json) → List (String × Json)) : Json → Json
  | .obj fields => .obj (f fields)
  | v => v

/-- Changes the items of a list, or a value that stands for a list of itself alone. -/
def onItems (f : Json → Json) : Json → Json
  | .arr items => .arr (items.map f)
  | v => f v

/-- Changes the value of a field. -/
def onField (name : String) (f : Json → Json) (fields : List (String × Json)) :
    List (String × Json) :=
  fields.map fun (key, v) => (key, if key = name then f v else v)

/-- The fields that the schema has. -/
def Schema.restrict (schema : Schema) (fields : List (String × Json)) : List (String × Json) :=
  fields.filter fun field => field.1 ∈ schema.fields.map (·.name)

/-! ### Lists of fields -/

section Fields

variable {fields : List (String × Json)} {name : String} {f : Json → Json}

theorem keys_onField : (onField name f fields).map (·.1) = fields.map (·.1) := by
  simp [onField]

theorem lookup_onField (key : String) :
    (onField name f fields).lookup key =
      (fields.lookup key).map fun v => if key = name then f v else v :=
  lookup_map_values (fun key v => if key = name then f v else v) fields key

/-- A field that the schema has is not dropped. -/
theorem lookup_restrict {schema : Schema} {key : String}
    (h : key ∈ schema.fields.map (·.name)) :
    (schema.restrict fields).lookup key = fields.lookup key := by
  induction fields with
  | nil => rfl
  | cons field fields ih =>
    obtain ⟨key', v⟩ := field
    unfold Schema.restrict at ih ⊢
    by_cases hkey : key = key'
    · subst hkey
      rw [List.filter_cons_of_pos (by simpa using h), List.lookup_cons_self, List.lookup_cons_self]
    · have hne : (key == key') = false := beq_false_of_ne hkey
      rw [List.lookup_cons, hne, List.filter_cons]
      split
      · rw [List.lookup_cons, hne]
        exact ih
      · exact ih

theorem unknownField_restrict (schema : Schema) (fields : List (String × Json)) :
    unknownField schema (schema.restrict fields) = none := by
  have hknown : ((schema.restrict fields).map (·.1)).filter
      (· ∉ schema.fields.map (·.name)) = [] := by
    rw [List.filter_eq_nil_iff]
    intro key hkey
    obtain ⟨field, hfield, rfl⟩ := List.mem_map.1 hkey
    have hmem := (List.mem_filter.1 hfield).2
    simpa using hmem
  unfold unknownField
  rw [hknown, List.mergeSort_nil, List.head?_nil]

theorem unknownField_onField (schema : Schema) :
    unknownField schema (onField name f fields) = unknownField schema fields := by
  unfold unknownField
  rw [keys_onField]

end Fields

/-! ### Records without unknown fields -/

variable {path : String}

theorem decodeFields_congr {fields fields' : List (String × Json)} {specs : List FieldSpec}
    (h : ∀ spec ∈ specs, fields'.lookup spec.name = fields.lookup spec.name) :
    decodeFields path fields' specs = decodeFields path fields specs := by
  induction specs with
  | nil => rfl
  | cons spec rest ih =>
    have ih := ih fun spec' hspec' => h spec' (List.mem_cons_of_mem spec hspec')
    -- of the fields, the first specification sees the one of its name
    have hvalue : presentValue fields' spec.name = presentValue fields spec.name := by
      unfold presentValue
      rw [h spec List.mem_cons_self]
    simp only [decodeFields, hvalue, ih]

/-- **Lenient decoding of a record is strict decoding without the unknown fields.** -/
theorem decodeRecord_restrict (schema : Schema) (path : String) (v : Json) :
    decodeRecord schema true path (onObject schema.restrict v) =
      decodeRecord schema false path v := by
  cases v with
  | obj fields =>
    change decodeRecord schema true path (.obj (schema.restrict fields)) = _
    rw [decodeRecord_of_known (unknownField_restrict schema fields), decodeRecord_lenient]
    apply decodeFields_congr
    intro spec hspec
    exact lookup_restrict (List.mem_map_of_mem hspec)
  | _ => rfl

/-! ### Records within records -/

/-- Changes the list of objects in a decoded field. -/
def FieldValue.onRecords (g : List (List (String × Json)) → List (List (String × Json))) :
    FieldValue → FieldValue
  | .records xs => .records (g xs)
  | value => value

/-- Changes the list of objects in a field of a decoded record. -/
def Record.onRecords (name : String) (g : List (List (String × Json)) → List (List (String × Json)))
    (r : Record) : Record :=
  r.map fun (key, value) => (key, if key = name then value.onRecords g else value)

/-- Changes the objects in a decoded field. -/
def FieldValue.mapObjects (f : List (String × Json) → List (String × Json)) :
    FieldValue → FieldValue
  | .records xs => .records (xs.map f)
  | value => value

/-- Changes the objects in a field of a decoded record. -/
def Record.onObjects (name : String) (f : List (String × Json) → List (String × Json))
    (r : Record) : Record :=
  r.map fun (key, value) => (key, if key = name then value.mapObjects f else value)

theorem Record.onObjects_eq (name : String) (f : List (String × Json) → List (String × Json)) :
    Record.onObjects name f = Record.onRecords name (·.map f) := by
  have hvalue : ∀ value : FieldValue, value.mapObjects f = value.onRecords (·.map f) := by
    intro value
    cases value <;> rfl
  funext r
  unfold Record.onObjects Record.onRecords
  simp only [hvalue]

/-- A change of values of a field that is found as a change of the list of objects in it, and
    leaves a null alone. -/
structure Changes (G : Json → Json)
    (g : List (List (String × Json)) → List (List (String × Json))) : Prop where
  null_iff : ∀ v, G v = .null ↔ v = .null
  items : ∀ path v, decodeItems decodeObject path 0 (asItems (G v)) =
    (decodeItems decodeObject path 0 (asItems v)).map g

theorem decodeItems_map {α : Type} (decode : String → Json → Except DecodeError α)
    (f : Json → Json) (i : Nat) (items : List Json) :
    decodeItems decode path i (items.map f) =
      decodeItems (fun path' v => decode path' (f v)) path i items := by
  induction items generalizing i with
  | nil => rfl
  | cons v rest ih => simp only [List.map_cons, decodeItems, ih]

theorem decodeItems_map_right {α β : Type} (decode : String → Json → Except DecodeError α)
    (f : α → β) (i : Nat) (items : List Json) :
    decodeItems (fun path' v => (decode path' v).map f) path i items =
      (decodeItems decode path i items).map (·.map f) := by
  induction items generalizing i with
  | nil => rfl
  | cons v rest ih =>
    simp only [decodeItems, ih]
    cases decode (itemPath path i) v with
    | error e => rfl
    | ok x => cases decodeItems decode path (i + 1) rest <;> rfl

section Objects

variable {G : Json → Json} {g : List (List (String × Json)) → List (List (String × Json))}
  {f : List (String × Json) → List (String × Json)} {name : String}

theorem asItems_onItems (v : Json) :
    asItems (onItems (onObject f) v) = (asItems v).map (onObject f) := by
  cases v <;> rfl

theorem decodeObject_onObject (path : String) (v : Json) :
    decodeObject path (onObject f v) = (decodeObject path v).map f := by
  cases v <;> rfl

/-- A change of every object in a field. -/
theorem changes_onItems : Changes (onItems (onObject f)) (·.map f) where
  null_iff v := by cases v <;> simp [onItems, onObject]
  items path v := by
    simp only [asItems_onItems, decodeItems_map, decodeObject_onObject, decodeItems_map_right]

theorem Changes.decodeShape_eq (h : Changes G g) (v : Json) :
    decodeShape path .records (G v) = (decodeShape path .records v).map (·.onRecords g) := by
  simp only [decodeShape, h.items]
  cases decodeItems decodeObject path 0 (asItems v) <;> rfl

theorem Changes.presentValue_onField (h : Changes G g) (fields : List (String × Json))
    (key : String) : presentValue (onField name G fields) key =
      (presentValue fields key).map fun v => if key = name then G v else v := by
  have hlookup : (onField name G fields).lookup key =
      (fields.lookup key).map fun v => if key = name then G v else v := lookup_onField key
  cases hv : fields.lookup key with
  | none =>
    rw [hv] at hlookup
    rw [presentValue_of_lookup_none hv, presentValue_of_lookup_none hlookup]
    rfl
  | some v =>
    rw [hv, Option.map_some] at hlookup
    have hiff : (if key = name then G v else v) = .null ↔ v = .null := by
      split
      · exact h.null_iff v
      · rfl
    by_cases hnull : v = .null
    · rw [hiff.2 hnull] at hlookup
      rw [hnull] at hv
      rw [presentValue_of_lookup_null hv, presentValue_of_lookup_null hlookup]
      rfl
    · rw [presentValue_of_lookup hv hnull, presentValue_of_lookup hlookup (mt hiff.1 hnull)]
      rfl

/-- Objects that are changed within a field of objects are found changed in the record. -/
theorem Changes.decodeFields_onField (h : Changes G g) {specs : List FieldSpec}
    (fields : List (String × Json))
    (hshape : ∀ spec ∈ specs, spec.name = name → spec.shape = .records) :
    decodeFields path (onField name G fields) specs =
      (decodeFields path fields specs).map (Record.onRecords name g) := by
  induction specs with
  | nil => rfl
  | cons spec rest ih =>
    have ih := ih fun spec' hspec' => hshape spec' (List.mem_cons_of_mem spec hspec')
    have hspec := hshape spec List.mem_cons_self
    simp only [decodeFields, h.presentValue_onField]
    -- a field that is not there, or null, stays so
    cases presentValue fields spec.name with
    | none =>
      simp only [Option.map_none, ih]
      split <;> rfl
    | some v =>
      have hvalue : decodeShape (fieldPath path spec.name) spec.shape
          (if spec.name = name then G v else v) =
            (decodeShape (fieldPath path spec.name) spec.shape v).map fun value =>
              if spec.name = name then value.onRecords g else value := by
        by_cases hname : spec.name = name
        · simp only [if_pos hname, hspec hname, h.decodeShape_eq]
        · simp only [if_neg hname]
          cases decodeShape (fieldPath path spec.name) spec.shape v <;> rfl
      simp only [Option.map_some, ih, hvalue]
      cases decodeShape (fieldPath path spec.name) spec.shape v with
      | error e => rfl
      | ok value => cases decodeFields path fields rest <;> rfl

/-- A record whose field of objects is changed is decoded to the record with the objects changed,
    or fails in the same way. -/
theorem Changes.decodeRecord_onField (h : Changes G g) {schema : Schema} (strict : Bool)
    (path : String) (v : Json)
    (hshape : ∀ spec ∈ schema.fields, spec.name = name → spec.shape = .records) :
    decodeRecord schema strict path (onObject (onField name G) v) =
      (decodeRecord schema strict path v).map (Record.onRecords name g) := by
  cases v with
  | obj fields =>
    have hunknown : unknownField schema (onField name G fields) = unknownField schema fields :=
      unknownField_onField schema
    change decodeRecord schema strict path (.obj _) = _
    cases hfields : unknownField schema fields with
    | none =>
      rw [decodeRecord_of_known (hunknown.trans hfields), decodeRecord_of_known hfields,
        h.decodeFields_onField _ hshape]
    | some unknown =>
      rw [decodeRecord_of_unknown (hunknown.trans hfields), decodeRecord_of_unknown hfields,
        h.decodeFields_onField _ hshape]
      split <;> rfl
  | _ => rfl

/-- A record is trimmed in itself and in the objects of a field of objects. -/
theorem decodeRecord_trim {schema : Schema} (path : String) (v : Json)
    (h : ∀ spec ∈ schema.fields, spec.name = name → spec.shape = .records) :
    decodeRecord schema true path
        (onObject (fun fields => onField name (onItems (onObject f)) (schema.restrict fields)) v) =
      (decodeRecord schema false path v).map (Record.onObjects name f) := by
  have hparts : onObject (fun fields => onField name (onItems (onObject f))
      (schema.restrict fields)) v =
        onObject (onField name (onItems (onObject f))) (onObject schema.restrict v) := by
    cases v <;> rfl
  rw [hparts, changes_onItems.decodeRecord_onField true path _ h, decodeRecord_restrict,
    Record.onObjects_eq]

/-! ### Fields of changed records -/

theorem lookup_onRecords (r : Record) (key : String) :
    (Record.onRecords name g r).lookup key =
      (r.lookup key).map fun value => if key = name then value.onRecords g else value :=
  lookup_map_values (fun key (value : FieldValue) =>
    if key = name then value.onRecords g else value) r key

/-- Only fields of objects are found changed. -/
theorem lookup_onRecords_cases (r : Record) (key : String) :
    (Record.onRecords name g r).lookup key = r.lookup key ∨
      ∃ xs, r.lookup key = some (.records xs) ∧
        (Record.onRecords name g r).lookup key = some (.records (g xs)) := by
  rw [lookup_onRecords]
  by_cases hkey : key = name
  · simp only [if_pos hkey]
    cases r.lookup key with
    | none => exact .inl rfl
    | some value =>
      cases value with
      | records xs => exact .inr ⟨xs, rfl, rfl⟩
      | _ => exact .inl rfl
  · simp only [if_neg hkey]
    exact .inl Option.map_id'

@[simp] theorem text?_onRecords (r : Record) (key : String) :
    Record.text? (Record.onRecords name g r) key = r.text? key := by
  unfold Record.text?
  rcases lookup_onRecords_cases r key with h | ⟨xs, h, h'⟩
  · rw [h]
  · rw [h, h']

@[simp] theorem integer?_onRecords (r : Record) (key : String) :
    Record.integer? (Record.onRecords name g r) key = r.integer? key := by
  unfold Record.integer?
  rcases lookup_onRecords_cases r key with h | ⟨xs, h, h'⟩
  · rw [h]
  · rw [h, h']

theorem objects_onRecords {G : List Json → List Json} (hempty : G [] = [])
    (hG : ∀ xs, (g xs).map .obj = G (xs.map .obj)) (r : Record) :
    Record.objects (Record.onRecords name g r) name = G (r.objects name) := by
  unfold Record.objects
  rw [lookup_onRecords]
  cases r.lookup name with
  | none => exact hempty.symm
  | some value =>
    simp only [Option.map_some, if_true]
    cases value with
    | records xs => exact hG xs
    | _ => exact hempty.symm

theorem objects_onObjects (r : Record) :
    Record.objects (Record.onObjects name f r) name = (r.objects name).map (onObject f) := by
  rw [Record.onObjects_eq]
  exact objects_onRecords rfl (fun xs => by simp [onObject]) r

@[simp] theorem text?_onObjects (r : Record) (key : String) :
    Record.text? (Record.onObjects name f r) key = r.text? key := by
  rw [Record.onObjects_eq, text?_onRecords]

@[simp] theorem integer?_onObjects (r : Record) (key : String) :
    Record.integer? (Record.onObjects name f r) key = r.integer? key := by
  rw [Record.onObjects_eq, integer?_onRecords]

end Objects

theorem decodeRecords_restrict (schema : Schema) (path : String) (items : List Json) :
    decodeRecords schema true path (items.map (onObject schema.restrict)) =
      decodeRecords schema false path items := by
  unfold decodeRecords
  rw [decodeItems_map]
  simp only [decodeRecord_restrict]

/-! ### Trimmed responses -/

namespace Response

/-- A response whose record under a key is changed. -/
def onRecord (key : String) (f : List (String × Json) → List (String × Json)) : Json → Json :=
  onObject (onField key (onObject f))

/-- The tags of a response, without unknown fields. -/
def trimTags : Json → Json := onRecord "data_tag_list" Schema.tagList.restrict

/-- An entry of a listing and its qualities, without unknown fields. -/
def trimEntry (fields : List (String × Json)) : List (String × Json) :=
  onField "quality" (onItems (onObject Schema.quality.restrict)) (Schema.datasetEntry.restrict fields)

/-- A listing and its entries, without unknown fields. -/
def trimListing : Json → Json := onRecord "data" fun fields =>
  onField "dataset" (onItems (onObject trimEntry)) (Schema.datasetList.restrict fields)

/-- A description without unknown fields. -/
def trimDescription : Json → Json :=
  onRecord "data_set_description" Schema.description.restrict

/-- A list of features without unknown fields. -/
def trimFeatures : Json → Json := onRecord "data_features" fun fields =>
  onField "feature" (onItems (onObject Schema.feature.restrict)) (Schema.featureList.restrict fields)

theorem unwrap_onRecord (key : String) (f : List (String × Json) → List (String × Json))
    (payload : Json) :
    unwrap (onRecord key f payload) key = (unwrap payload key).map (onObject f) := by
  cases payload with
  | obj fields =>
    change unwrap (.obj (onField key (onObject f) fields)) key = _
    simp only [unwrap, lookup_onField, if_true]
    cases fields.lookup key <;> rfl
  | _ => rfl

theorem envelope_restrict (schema : Schema) (payload : Json) :
    envelope schema true (onRecord schema.kind schema.restrict payload) =
      envelope schema false payload := by
  unfold envelope
  rw [unwrap_onRecord]
  cases unwrap payload schema.kind with
  | error e => rfl
  | ok v => exact decodeRecord_restrict schema _ v

theorem tags_trim (payload : Json) : tags true (trimTags payload) = tags false payload := by
  unfold tags trimTags
  exact congrArg (· >>= _) (envelope_restrict Schema.tagList payload)

theorem description_trim (payload : Json) :
    description true (trimDescription payload) = description false payload := by
  unfold description trimDescription
  exact congrArg (· >>= _) (envelope_restrict Schema.description payload)

/-- The record of a response whose field of objects is changed. -/
theorem envelope_onField {schema : Schema} {name : String} {G : Json → Json}
    {g : List (List (String × Json)) → List (List (String × Json))} (hchanges : Changes G g)
    (strict : Bool) (payload : Json)
    (h : ∀ spec ∈ schema.fields, spec.name = name → spec.shape = .records) :
    envelope schema strict (onRecord schema.kind (onField name G) payload) =
      (envelope schema strict payload).map (Record.onRecords name g) := by
  unfold envelope
  rw [unwrap_onRecord]
  cases unwrap payload schema.kind with
  | error e => rfl
  | ok v => exact hchanges.decodeRecord_onField strict _ v h

/-- The record of a response is trimmed in itself and in the objects of a field of objects. -/
theorem envelope_trim {schema : Schema} {name : String}
    {f : List (String × Json) → List (String × Json)} (payload : Json)
    (h : ∀ spec ∈ schema.fields, spec.name = name → spec.shape = .records) :
    envelope schema true (onRecord schema.kind
        (fun fields => onField name (onItems (onObject f)) (schema.restrict fields)) payload) =
      (envelope schema false payload).map (Record.onObjects name f) := by
  unfold envelope
  rw [unwrap_onRecord]
  cases unwrap payload schema.kind with
  | error e => rfl
  | ok v => exact decodeRecord_trim _ v h

/-- Trimmed entries are the entries with trimmed qualities. -/
theorem decodeRecords_trimEntry (path : String) (items : List Json) :
    decodeRecords Schema.datasetEntry true path (items.map (onObject trimEntry)) =
      (decodeRecords Schema.datasetEntry false path items).map
        (·.map (Record.onObjects "quality" Schema.quality.restrict)) := by
  have hquality : ∀ spec ∈ Schema.datasetEntry.fields, spec.name = "quality" →
      spec.shape = .records := by decide
  have hentry : ∀ path v, decodeRecord Schema.datasetEntry true path (onObject trimEntry v) =
      (decodeRecord Schema.datasetEntry false path v).map
        (Record.onObjects "quality" Schema.quality.restrict) :=
    fun path v => decodeRecord_trim path v hquality
  unfold decodeRecords
  rw [decodeItems_map]
  simp only [hentry, decodeItems_map_right]

theorem summary_trim (i : Nat) (entry : Record) :
    summary true i (Record.onObjects "quality" Schema.quality.restrict entry) =
      summary false i entry := by
  simp only [summary, objects_onObjects, decodeRecords_restrict, Record.text, Record.integer,
    text?_onObjects, integer?_onObjects]

theorem summaries_trim (i : Nat) (entries : List Record) :
    summaries true i (entries.map (Record.onObjects "quality" Schema.quality.restrict)) =
      summaries false i entries := by
  induction entries generalizing i with
  | nil => rfl
  | cons entry rest ih => simp only [List.map_cons, summaries, summary_trim, ih]

theorem listing_trim (payload : Json) :
    listing true (trimListing payload) = listing false payload := by
  have hrecord : envelope Schema.datasetList true (trimListing payload) =
      (envelope Schema.datasetList false payload).map (Record.onObjects "dataset" trimEntry) :=
    envelope_trim payload (by decide)
  unfold listing
  rw [hrecord]
  cases envelope Schema.datasetList false payload with
  | error e => rfl
  | ok r =>
    simp only [Except.map]
    change (decodeRecords _ true _ (Record.objects (Record.onObjects "dataset" trimEntry r) _) >>=
      _) = (decodeRecords _ false _ (r.objects "dataset") >>= _)
    rw [objects_onObjects, decodeRecords_trimEntry]
    cases decodeRecords Schema.datasetEntry false entriesPath (r.objects "dataset") with
    | error e => rfl
    | ok entries => exact summaries_trim 0 entries

theorem features_trim (payload : Json) :
    features true (trimFeatures payload) = features false payload := by
  have hrecord : envelope Schema.featureList true (trimFeatures payload) =
      (envelope Schema.featureList false payload).map
        (Record.onObjects "feature" Schema.feature.restrict) :=
    envelope_trim payload (by decide)
  unfold features
  rw [hrecord]
  cases envelope Schema.featureList false payload with
  | error e => rfl
  | ok r =>
    simp only [Except.map]
    change (decodeRecords _ true _ (Record.objects (Record.onObjects "feature" _ r) _) >>= _) =
      (decodeRecords _ false _ (r.objects "feature") >>= _)
    rw [objects_onObjects, decodeRecords_restrict]

end Response

end DatasetCatalog.Catalog
