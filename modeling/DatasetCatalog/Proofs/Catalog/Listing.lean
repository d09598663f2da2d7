import DatasetCatalog.Proofs.Catalog.Documented
import DatasetCatalog.Proofs.Catalog.NormalForm

/-! # What a listing decodes to

  The summaries of a decoded listing stand beside the entries of the response, in order. Those of
  the qualities of an entry stand beside the items of its field, under the names that are written
  there.
-/

namespace DatasetCatalog.Catalog

open Text

/-! ### Fields of objects -/

section Objects

variable {schema : Schema} {strict : Bool} {path : String} {v : Json} {r : Record}
  {spec : FieldSpec}

theorem exists_presentValue_of_required {fields : List (String × Json)} {specs : List FieldSpec}
    (h : decodeFields path fields specs = .ok r) (hspec : spec ∈ specs)
    (hrequired : spec.required = true) : ∃ v, presentValue fields spec.name = some v := by
  induction specs generalizing r with
  | nil => exact absurd hspec List.not_mem_nil
  | cons first rest ih =>
    simp only [decodeFields] at h
    split at h
    · next hnone =>
      split at h
      · cases h
      · next hoptional =>
        rcases List.mem_cons.1 hspec with rfl | hspec
        · exact absurd hrequired hoptional
        · exact ih h hspec
    · next v hv =>
      rcases List.mem_cons.1 hspec with rfl | hspec
      · exact ⟨v, hv⟩
      · obtain ⟨_, -, h⟩ := bind_eq_ok_iff.1 h
        obtain ⟨record, hrecord, -⟩ := bind_eq_ok_iff.1 h
        exact ih hrecord hspec

/-- The fields of a decoded record are those of an object. -/
theorem exists_fields_of_decodeRecord (h : decodeRecord schema strict path v = .ok r) :
    ∃ fields, v = .obj fields ∧ decodeFields path fields schema.fields = .ok r := by
  rcases decodeRecord_cases schema strict path v with ⟨e, -, heq⟩ | ⟨fields, rfl, heq⟩
  · exact absurd (heq.symm.trans h) nofun
  · exact ⟨fields, rfl, heq.symm.trans h⟩

theorem itemsOf_obj (fields : List (String × Json)) (name : String) :
    itemsOf (.obj fields) name = ((fields.lookup name).map asItems).getD [] :=
  rfl

theorem objects_of_presentValue {fields : List (String × Json)}
    (hdistinct : (schema.fields.map (·.name)).Nodup)
    (h : decodeFields path fields schema.fields = .ok r) (hspec : spec ∈ schema.fields)
    (hshape : spec.shape = .records) (hv : presentValue fields spec.name = some v) :
    r.objects spec.name = asItems v := by
  obtain ⟨value, hvalue, hlookup⟩ := lookup_of_present hdistinct h hspec hv
  rw [hshape] at hvalue
  obtain ⟨xs, hxs, rfl⟩ := map_eq_ok_iff.1 hvalue
  unfold Record.objects
  rw [hlookup]
  exact decodeItems_object hxs

/-- The objects of a field that has to be there are its items. -/
theorem objects_of_required (hdistinct : (schema.fields.map (·.name)).Nodup)
    (h : decodeRecord schema strict path v = .ok r) (hspec : spec ∈ schema.fields)
    (hshape : spec.shape = .records) (hrequired : spec.required = true) :
    r.objects spec.name = itemsOf v spec.name := by
  obtain ⟨fields, rfl, hfields⟩ := exists_fields_of_decodeRecord h
  obtain ⟨v, hv⟩ := exists_presentValue_of_required hfields hspec hrequired
  rw [objects_of_presentValue hdistinct hfields hspec hshape hv, itemsOf_obj,
    lookup_of_presentValue hv]
  rfl

/-- The objects of a field are its items, unless it is null. -/
theorem objects_of_decodeRecord (hdistinct : (schema.fields.map (·.name)).Nodup)
    (h : decodeRecord schema strict path v = .ok r) (hspec : spec ∈ schema.fields)
    (hshape : spec.shape = .records) : r.objects spec.name = itemsOf v spec.name ∨
      r.objects spec.name = [] ∧ itemsOf v spec.name = [.null] := by
  obtain ⟨fields, rfl, hfields⟩ := exists_fields_of_decodeRecord h
  cases hv : presentValue fields spec.name with
  | some v =>
    left
    rw [objects_of_presentValue hdistinct hfields hspec hshape hv, itemsOf_obj,
      lookup_of_presentValue hv]
    rfl
  | none =>
    have hobjects : r.objects spec.name = [] := by
      unfold Record.objects
      rw [lookup_of_absent hfields hv]
    rw [itemsOf_obj]
    unfold presentValue at hv
    split at hv
    · next hnull =>
      right
      rw [hnull]
      exact ⟨hobjects, rfl⟩
    · left
      rw [hobjects, hv]
      rfl

/-- The qualities of an entry that is decoded. -/
theorem objects_quality (h : decodeRecord Schema.datasetEntry strict path v = .ok r) :
    r.objects "quality" = itemsOf v "quality" ∨
      r.objects "quality" = [] ∧ itemsOf v "quality" = [.null] := by
  have hspec : Schema.may "quality" .records ∈ Schema.datasetEntry.fields := by decide
  exact objects_of_decodeRecord (by decide) h hspec rfl

/-- Items stand beside what they are decoded to. -/
theorem forall₂_of_decodeItems {α : Type} {decode : String → Json → Except DecodeError α} {i : Nat}
    {items : List Json} {xs : List α} (h : decodeItems decode path i items = .ok xs) :
    List.Forall₂ (fun item x => ∃ path, decode path item = .ok x) items xs := by
  induction items generalizing i xs with
  | nil =>
    obtain rfl := Except.ok.inj h
    exact .nil
  | cons item rest ih =>
    unfold decodeItems at h
    obtain ⟨x, hx, h⟩ := bind_eq_ok_iff.1 h
    obtain ⟨xs', hxs', h⟩ := bind_eq_ok_iff.1 h
    obtain rfl := Except.ok.inj h
    exact .cons ⟨_, hx⟩ (ih hxs')

end Objects

/-! ### Qualities -/

/-- The name that a quality is listed under. -/
def qualityName? (q : Json) : Option String :=
  (q.field? "name").bind fun v => (decodeText "name" v).toOption

/-- The text of a value does not depend on where the value stands. -/
theorem toOption_decodeText (path path' : String) (v : Json) :
    (decodeText path v).toOption = (decodeText path' v).toOption := by
  cases v <;> rfl

theorem qualityName?_of_decodeRecord {strict : Bool} {path : String} {q : Json} {r : Record}
    (h : decodeRecord Schema.quality strict path q = .ok r) :
    qualityName? q = some (r.text "name") := by
  have hspec : Schema.must "name" .text ∈ Schema.quality.fields := by decide
  obtain ⟨fields, rfl, hfields⟩ := exists_fields_of_decodeRecord h
  obtain ⟨v, hv⟩ := exists_presentValue_of_required hfields hspec rfl
  obtain ⟨value, hvalue, hlookup⟩ := lookup_of_present (by decide) hfields hspec hv
  obtain ⟨name, hname, rfl⟩ := map_eq_ok_iff.1 hvalue
  have htext : r.text "name" = name := by
    unfold Record.text Record.text?
    rw [show r.lookup "name" = some (.text name) from hlookup]
    rfl
  have hfield : (Json.obj fields).field? "name" = some v := lookup_of_presentValue hv
  have hoption := (toOption_decodeText "name" (fieldPath path "name") v).trans
    (congrArg Except.toOption hname)
  unfold qualityName?
  rw [htext, hfield, Option.bind_some, hoption]
  rfl

namespace Response

variable {strict : Bool} {payload : Json}

/-- Qualities are added one after the other. -/
theorem keys_of_qualities {done all : List (String × Json)} {records : List Record}
    (h : qualities done records = .ok all) (hdone : (done.map (·.1)).Nodup) :
    (all.map (·.1)).Nodup ∧ ∀ key, key ∈ all.map (·.1) ↔
      key ∈ done.map (·.1) ∨ ∃ q ∈ records, qualityKey (q.text "name") = key := by
  induction records generalizing done with
  | nil =>
    obtain rfl := Except.ok.inj h
    exact ⟨hdone, by simp⟩
  | cons q rest ih =>
    unfold qualities at h
    obtain ⟨value, -, h⟩ := bind_eq_ok_iff.1 h
    obtain ⟨hdistinct, hkeys⟩ := ih h (Json.nodup_setField hdone)
    refine ⟨hdistinct, fun key => ?_⟩
    rw [hkeys, Json.mem_keys_setField, List.exists_mem_cons_iff, eq_comm, or_assoc, or_left_comm]

/-- What a summary is made of. -/
theorem exists_of_summary {i : Nat} {entry : Record} {s : Summary}
    (h : summary strict i entry = .ok s) : ∃ records,
      decodeRecords Schema.quality strict (fieldPath (itemPath entriesPath i) "quality")
        (entry.objects "quality") = .ok records ∧ qualities [] records = .ok s.qualities := by
  obtain ⟨records, hrecords, h⟩ := bind_eq_ok_iff.1 h
  obtain ⟨all, hall, h⟩ := bind_eq_ok_iff.1 h
  split at h
  · exact absurd h nofun
  · obtain rfl := Except.ok.inj h
    exact ⟨records, hrecords, hall⟩

theorem forall₂_of_summaries {i : Nat} {entries : List Record} {out : List Summary}
    (h : summaries strict i entries = .ok out) :
    List.Forall₂ (fun entry s => ∃ i, summary strict i entry = .ok s) entries out := by
  induction entries generalizing i out with
  | nil =>
    obtain rfl := Except.ok.inj h
    exact .nil
  | cons entry rest ih =>
    unfold summaries at h
    obtain ⟨s, hs, h⟩ := bind_eq_ok_iff.1 h
    obtain ⟨tail, htail, h⟩ := bind_eq_ok_iff.1 h
    obtain rfl := Except.ok.inj h
    exact .cons ⟨i, hs⟩ (ih htail)

/-- The objects of the field of a decoded envelope that has to be there are all listed items. -/
theorem objects_of_envelope {schema : Schema} {r : Record} {spec : FieldSpec}
    (hdistinct : (schema.fields.map (·.name)).Nodup) (h : envelope schema strict payload = .ok r)
    (hspec : spec ∈ schema.fields) (hshape : spec.shape = .records)
    (hrequired : spec.required = true) : r.objects spec.name = listed schema payload spec.name := by
  obtain ⟨record, hrecord, h⟩ := bind_eq_ok_iff.1 h
  unfold listed
  rw [field?_of_unwrap hrecord]
  exact objects_of_required hdistinct h hspec hshape hrequired

/-- The entries of a listing that is decoded. -/
theorem objects_dataset {r : Record} (h : envelope Schema.datasetList strict payload = .ok r) :
    r.objects "dataset" = listed Schema.datasetList payload "dataset" := by
  have hspec : Schema.must "dataset" .records ∈ Schema.datasetList.fields := by decide
  exact objects_of_envelope (by decide) h hspec rfl rfl

/-- **The summaries stand beside the entries**, and their qualities are those of the entries. -/
theorem forall₂_of_listing {out : List Summary} (h : listing strict payload = .ok out) :
    List.Forall₂ (fun entry s => ∃ i r, summary strict i r = .ok s ∧
        ∃ path, decodeRecord Schema.datasetEntry strict path entry = .ok r)
      (listed Schema.datasetList payload "dataset") out := by
  obtain ⟨r, hr, h⟩ := bind_eq_ok_iff.1 h
  obtain ⟨entries, hentries, h⟩ := bind_eq_ok_iff.1 h
  rw [objects_dataset hr] at hentries
  refine (forall₂_comp (forall₂_of_decodeItems hentries) (forall₂_of_summaries h)).imp ?_
  rintro entry s ⟨r, hentry, i, hs⟩
  exact ⟨i, r, hs, hentry⟩

end Response

/-- A listing that is answered is what its answer decodes to. -/
theorem Client.run_listDatasets_of_answers {c : Client} {t : Trace} {tag : Option String}
    {filter : FilterChoice} {path : String} {payload : Json}
    (hpath : Request.listing tag filter = .ok path) (h : c.Answers t path payload) :
    (run (c.listDatasets tag filter) t).1 =
      (Response.listing c.settings.strictDecoding payload).mapError .decode := by
  obtain ⟨bytes, hbytes, hpayload⟩ := h
  unfold listDatasets
  rw [hpath]
  dsimp only
  rw [run_get_of_answered hbytes]
  unfold decodeAnswer
  rw [hpayload]

end DatasetCatalog.Catalog
