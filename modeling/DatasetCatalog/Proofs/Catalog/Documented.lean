import DatasetCatalog.Proofs.Catalog.Exchange
import DatasetCatalog.Proofs.Catalog.Record
import DatasetCatalog.Proofs.Json
import Mathlib

/-! # The errors of the client

  Documented are a malformed filter, a failed request, a response that cannot be decoded with the
  path of the value at fault, and a data set that does not exist. Listing the tags ends in no other
  error. Listing the data sets and describing one can: a text like `²` or `--7` passes for an
  integer by its look and is then refused by the reader of integers, and the value of a quality may
  be an integer that is beyond the doubles. There is no third way.
-/

namespace DatasetCatalog.Catalog

/-- The error is one that callers are told of. -/
def ClientError.Documented : ClientError → Prop
  | .decode e => e.Documented
  | _ => True

/-- The value of the quality is an integer beyond the doubles; the error tells so. -/
def TooLarge (quality : Json) (e : DecodeError) : Prop :=
  ∃ n, quality.field? "value" = some (.number (.int n)) ∧ Binary64.ofInt? n = none ∧ e = .tooLarge

namespace Response

variable {schema : Schema} {strict : Bool} {payload : Json} {e : DecodeError}

/-- The items of a field of the record in an envelope. -/
def listed (schema : Schema) (payload : Json) (name : String) : List Json :=
  ((payload.field? schema.kind).map (itemsOf · name)).getD []

/-! ### Envelopes -/

theorem envelope_error (hknown : schema.Known) (h : envelope schema strict payload = .error e) :
    e.Documented ∨ ∃ record, payload.field? schema.kind = some record ∧
      schema.Misreads record e := by
  rcases bind_eq_error_iff.1 h with h | ⟨record, hrecord, h⟩
  · exact .inl (unwrap_error h)
  · exact (decodeRecord_error hknown h).imp_right fun hmisreads =>
      ⟨record, field?_of_unwrap hrecord, hmisreads⟩

/-- The objects of a decoded envelope are items that are listed in it. -/
theorem mem_listed_of_envelope {r : Record} (h : envelope schema strict payload = .ok r)
    {name : String} {item : Json} (hitem : item ∈ r.objects name) :
    item ∈ listed schema payload name := by
  obtain ⟨record, hrecord, h⟩ := bind_eq_ok_iff.1 h
  unfold listed
  rw [field?_of_unwrap hrecord]
  exact mem_itemsOf_of_mem_objects h hitem

/-- Without integer fields nothing is misread. -/
theorem not_misreads {record : Json} (h : ∀ spec ∈ schema.fields, spec.shape ≠ .integer) :
    ¬ schema.Misreads record e := by
  rintro ⟨spec, hspec, hshape, -⟩
  exact h spec hspec hshape

theorem tags_error (h : tags strict payload = .error e) : e.Documented := by
  rcases bind_eq_error_iff.1 h with h | ⟨r, -, h⟩
  · refine (envelope_error (Schema.known_of_mem_all (by decide)) h).resolve_right ?_
    rintro ⟨record, -, hmisreads⟩
    exact not_misreads (by decide) hmisreads
  · exact absurd h nofun

/-! ### Listings -/

theorem qualityValue_error {v : Json} (h : qualityValue v = .error e) :
    ∃ n, v = .number (.int n) ∧ Binary64.ofInt? n = none ∧ e = .tooLarge := by
  unfold qualityValue at h
  split at h
  · exact absurd h nofun
  · next n =>
    split at h
    · exact absurd h nofun
    · next hlarge => exact ⟨n, rfl, hlarge, (Except.error.inj h).symm⟩
  · exact absurd h nofun
  · simp only at h
    split at h <;> exact absurd h nofun

/-- Qualities fail at the value of one of them. -/
theorem qualities_error {done : List (String × Json)} {records : List Record}
    (h : qualities done records = .error e) :
    ∃ q ∈ records, qualityValue ((q.any? "value").getD (.str "")) = .error e := by
  induction records generalizing done with
  | nil => exact absurd h nofun
  | cons q rest ih =>
    unfold qualities at h
    rcases bind_eq_error_iff.1 h with hq | ⟨value, -, h⟩
    · exact ⟨q, List.mem_cons_self, hq⟩
    · obtain ⟨q', hmem, hq'⟩ := ih h
      exact ⟨q', List.mem_cons_of_mem q hmem, hq'⟩

/-- A quality of an entry has too large a value. -/
theorem summary_error {i : Nat} {entry : Record} (h : summary strict i entry = .error e) :
    e.Documented ∨ ∃ quality ∈ entry.objects "quality", TooLarge quality e := by
  rcases bind_eq_error_iff.1 h with h | ⟨records, hrecords, h⟩
  · refine (decodeRecords_error (Schema.known_of_mem_all (by decide)) h).imp_right ?_
    rintro ⟨item, -, hmisreads⟩
    exact absurd hmisreads (not_misreads (by decide))
  rcases bind_eq_error_iff.1 h with h | ⟨done, -, h⟩
  · obtain ⟨q, hq, hvalue⟩ := qualities_error h
    obtain ⟨item, hitem, path, hdecode⟩ := exists_of_mem_decodeItems hrecords hq
    obtain ⟨n, hn, hlarge, rfl⟩ := qualityValue_error hvalue
    have hany : q.any? "value" = some (.number (.int n)) := by
      cases hv : q.any? "value" with
      | none => rw [hv] at hn; exact absurd hn nofun
      | some v => rw [hv] at hn; exact congrArg some hn
    exact .inr ⟨item, hitem, n, field?_of_any? hdecode hany, hlarge, rfl⟩
  · split at h
    · obtain rfl := Except.error.inj h
      exact .inl trivial
    · exact absurd h nofun

theorem summaries_error {i : Nat} {entries : List Record}
    (h : summaries strict i entries = .error e) :
    e.Documented ∨ ∃ entry ∈ entries, ∃ quality ∈ entry.objects "quality", TooLarge quality e := by
  induction entries generalizing i with
  | nil => exact absurd h nofun
  | cons entry rest ih =>
    unfold summaries at h
    rcases bind_eq_error_iff.1 h with h | ⟨s, -, h⟩
    · exact (summary_error h).imp_right fun hlarge => ⟨entry, List.mem_cons_self, hlarge⟩
    rcases bind_eq_error_iff.1 h with h | ⟨tail, -, h⟩
    · refine (ih h).imp_right ?_
      rintro ⟨entry', hmem, hlarge⟩
      exact ⟨entry', List.mem_cons_of_mem entry hmem, hlarge⟩
    · exact absurd h nofun

/-- An entry of a listing has an integer field that only looks like one, or a quality with too
    large a value. -/
def ListingFault (payload : Json) (e : DecodeError) : Prop :=
  ∃ entry ∈ listed Schema.datasetList payload "dataset", Schema.datasetEntry.Misreads entry e ∨
    ∃ quality ∈ itemsOf entry "quality", TooLarge quality e

theorem listing_error (h : listing strict payload = .error e) :
    e.Documented ∨ ListingFault payload e := by
  rcases bind_eq_error_iff.1 h with h | ⟨r, hr, h⟩
  · refine (envelope_error (Schema.known_of_mem_all (by decide)) h).imp_right ?_
    rintro ⟨record, -, hmisreads⟩
    exact absurd hmisreads (not_misreads (by decide))
  rcases bind_eq_error_iff.1 h with h | ⟨entries, hentries, h⟩
  · refine (decodeRecords_error (Schema.known_of_mem_all (by decide)) h).imp_right ?_
    rintro ⟨entry, hentry, hmisreads⟩
    exact ⟨entry, mem_listed_of_envelope hr hentry, .inl hmisreads⟩
  · refine (summaries_error h).imp_right ?_
    rintro ⟨entry, hentry, quality, hquality, hlarge⟩
    obtain ⟨item, hitem, path, hdecode⟩ := exists_of_mem_decodeItems hentries hentry
    exact ⟨item, mem_listed_of_envelope hr hitem,
      .inr ⟨quality, mem_itemsOf_of_mem_objects hdecode hquality, hlarge⟩⟩

/-! ### Descriptions -/

/-- An integer field of the description only looks like one. -/
def DescriptionFault (payload : Json) (e : DecodeError) : Prop :=
  ∃ record, payload.field? Schema.description.kind = some record ∧
    Schema.description.Misreads record e

theorem description_error (h : description strict payload = .error e) :
    e.Documented ∨ DescriptionFault payload e := by
  rcases bind_eq_error_iff.1 h with h | ⟨r, -, h⟩
  · exact envelope_error (Schema.known_of_mem_all (by decide)) h
  · exact absurd h nofun

theorem declaredAttributes_error {i : Nat} {records : List Record}
    (h : declaredAttributes i records = .error e) : e.Documented := by
  induction records generalizing i with
  | nil => exact absurd h nofun
  | cons f rest ih =>
    unfold declaredAttributes at h
    rcases bind_eq_error_iff.1 h with h | ⟨a, -, h⟩
    · rcases bind_eq_error_iff.1 h with h | ⟨kind, -, h⟩
      · unfold kindOf at h
        split at h
        · exact absurd h nofun
        · obtain rfl := Except.error.inj h
          trivial
      · exact absurd h nofun
    rcases bind_eq_error_iff.1 h with h | ⟨tail, -, h⟩
    · exact ih h
    · exact absurd h nofun

/-- An integer field of a feature only looks like one. -/
def FeaturesFault (payload : Json) (e : DecodeError) : Prop :=
  ∃ feature ∈ listed Schema.featureList payload "feature", Schema.feature.Misreads feature e

theorem features_error (h : features strict payload = .error e) :
    e.Documented ∨ FeaturesFault payload e := by
  rcases bind_eq_error_iff.1 h with h | ⟨r, hr, h⟩
  · refine (envelope_error (Schema.known_of_mem_all (by decide)) h).imp_right ?_
    rintro ⟨record, -, hmisreads⟩
    exact absurd hmisreads (not_misreads (by decide))
  rcases bind_eq_error_iff.1 h with h | ⟨records, -, h⟩
  · refine (decodeRecords_error (Schema.known_of_mem_all (by decide)) h).imp_right ?_
    rintro ⟨feature, hfeature, hmisreads⟩
    exact ⟨feature, mem_listed_of_envelope hr hfeature, hmisreads⟩
  rcases bind_eq_error_iff.1 h with h | ⟨attributes, -, h⟩
  · exact .inl (declaredAttributes_error h)
  · exact absurd h nofun

end Response

/-! ### Operations -/

namespace Client

variable {α : Type} {c : Client} {t : Trace} {e : ClientError}

/-- The transport answers the request of the path with the payload. -/
def Answers (c : Client) (t : Trace) (path : String) (payload : Json) : Prop :=
  ∃ bytes, c.transport t.requests (Request.address c.settings path) = .ok bytes ∧
    Json.ofBytes? bytes = some payload

/-- The request of a path fails documented, unless its answer is at fault in the given way. -/
theorem get_error {path : String} {decode : Json → Except DecodeError α}
    {meaning : NetworkError → Exchange α} {Fault : Json → DecodeError → Prop}
    (hdecode : ∀ payload e, decode payload = .error e → e.Documented ∨ Fault payload e)
    (hmeaning : ∀ cause t, (run (meaning cause) t).1 = .error e → e.Documented)
    (h : (run (c.get path decode meaning) t).1 = .error e) :
    e.Documented ∨ ∃ payload fault, c.Answers t path payload ∧ Fault payload fault ∧
      e = .decode fault := by
  rw [run_get] at h
  split at h
  · next bytes hbytes =>
    unfold decodeAnswer at h
    split at h
    · next payload hpayload =>
      cases hresult : decode payload with
      | ok a => rw [hresult] at h; exact absurd h nofun
      | error fault =>
        rw [hresult] at h
        obtain rfl := Except.error.inj h
        exact (hdecode payload fault hresult).imp_right fun hfault =>
          ⟨payload, fault, ⟨bytes, hbytes, hpayload⟩, hfault, rfl⟩
    · obtain rfl := Except.error.inj h
      exact .inl trivial
  · exact .inl (hmeaning _ _ h)

theorem failure_error {cause : NetworkError}
    (h : (run (failure cause : Exchange α) t).1 = .error e) : e.Documented := by
  obtain rfl := Except.error.inj h
  trivial

theorem listTags_error (h : (run c.listTags t).1 = .error e) : e.Documented := by
  have htags : ∀ payload e, Response.tags c.settings.strictDecoding payload = .error e →
      e.Documented ∨ False := fun _ _ h => .inl (Response.tags_error h)
  refine (get_error htags (fun _ _ => failure_error) h).resolve_right ?_
  rintro ⟨_, _, -, hfalse, -⟩
  exact hfalse

theorem listDatasets_error {tag : Option String} {filter : FilterChoice}
    (h : (run (c.listDatasets tag filter) t).1 = .error e) :
    e.Documented ∨ ∃ path payload fault, Request.listing tag filter = .ok path ∧
      c.Answers t path payload ∧ Response.ListingFault payload fault ∧ e = .decode fault := by
  unfold listDatasets at h
  split at h
  · obtain rfl := Except.error.inj h
    exact .inl trivial
  · next path hpath =>
    refine (get_error (fun payload e => Response.listing_error) ?_ h).imp_right ?_
    · intro cause t' h
      split at h
      · exact absurd h nofun
      · exact failure_error h
    · rintro ⟨payload, fault, hanswers, hfault, rfl⟩
      exact ⟨path, payload, fault, hpath, hanswers, hfault, rfl⟩

theorem attributes_error {id : Int} (h : (run (c.attributes id) t).1 = .error e) :
    e.Documented ∨ ∃ payload fault, c.Answers t (Request.features id) payload ∧
      Response.FeaturesFault payload fault ∧ e = .decode fault := by
  refine get_error (fun payload e => Response.features_error) ?_ h
  intro cause t' h
  split at h
  · split at h
    · exact absurd h nofun
    · exact failure_error h
  · exact failure_error h

theorem describe_error {id : Int} (h : (run (c.describe id) t).1 = .error e) :
    e.Documented ∨ ∃ payload fault, e = .decode fault ∧
      (c.Answers t (Request.description id) payload ∧ Response.DescriptionFault payload fault ∨
        c.Answers (t.request (Request.address c.settings (Request.description id)))
          (Request.features id) payload ∧ Response.FeaturesFault payload fault) := by
  rw [run_describe] at h
  split at h
  · obtain rfl := Except.error.inj h
    exact .inl trivial
  have htrace := run_described_snd c id t
  rcases hdescribed : run (c.described id) t with ⟨r, t'⟩
  rw [hdescribed] at h htrace
  obtain rfl : t' = _ := htrace
  cases r with
  | error e' =>
    obtain rfl := Except.error.inj h
    have hfirst : (run (c.described id) t).1 = .error e' := by rw [hdescribed]
    refine (get_error (fun payload e => Response.description_error) ?_ hfirst).imp_right ?_
    · intro cause t' h
      split at h
      · obtain rfl := Except.error.inj h
        trivial
      · exact failure_error h
    · rintro ⟨payload, fault, hanswers, hfault, rfl⟩
      exact ⟨payload, fault, rfl, .inl ⟨hanswers, hfault⟩⟩
  | ok d =>
    dsimp only at h
    rcases hattributes : run (c.attributes id)
      (t.request (Request.address c.settings (Request.description id))) with ⟨r, t''⟩
    rw [hattributes] at h
    cases r with
    | ok declared => exact absurd h nofun
    | error e' =>
      obtain rfl := Except.error.inj h
      refine (attributes_error (by rw [hattributes])).imp_right ?_
      rintro ⟨payload, fault, hanswers, hfault, rfl⟩
      exact ⟨payload, fault, rfl, .inr ⟨hanswers, hfault⟩⟩

/-- **Which errors the client ends in.** Whatever the transport answers, and however strictly
    responses are decoded: the tags are listed, or a documented error tells why not. Listing data
    sets and describing one end in a value, in a documented error, or in the error of a reader of
    numbers. In the last case a response did answer the request, and in it there is an integer
    field with a text that only looks like an integer, or a quality whose value is an integer
    beyond the doubles. -/
theorem documented_or_misread (c : Client) (t : Trace) :
    (∀ e, (run c.listTags t).1 = .error e → e.Documented) ∧
    (∀ tag filter e, (run (c.listDatasets tag filter) t).1 = .error e → e.Documented ∨
      ∃ path payload fault, Request.listing tag filter = .ok path ∧ c.Answers t path payload ∧
        Response.ListingFault payload fault ∧ e = .decode fault) ∧
    ∀ id e, (run (c.describe id) t).1 = .error e → e.Documented ∨
      ∃ payload fault, e = .decode fault ∧
        (c.Answers t (Request.description id) payload ∧ Response.DescriptionFault payload fault ∨
          c.Answers (t.request (Request.address c.settings (Request.description id)))
            (Request.features id) payload ∧ Response.FeaturesFault payload fault) :=
  ⟨fun _ => listTags_error, fun _ _ _ => listDatasets_error, fun _ _ => describe_error⟩

/-- A response with an entry whose identifier is a superscript two. -/
def superscriptResponse : String :=
  "\x7b\"data\": \x7b\"dataset\": [\x7b\"did\": \"²\", \"name\": \"iris\", \"version\": 1, " ++
    "\"status\": \"active\"\x7d]\x7d\x7d"

/-- The response as a value. -/
def superscriptPayload : Json :=
  .obj [("data", .obj [("dataset", .arr [.obj [("did", .str "²"), ("name", .str "iris"),
    ("version", .int 1), ("status", .str "active")]])])]

/-- A superscript two is a digit to the decoder and no integer to the reader of integers. -/
theorem not_documented_of_superscript :
    ∃ (c : Client) (e : ClientError), (run (c.listDatasets none .none) {}).1 = .error e ∧
      ¬ e.Documented ∧ ∃ payload fault, Response.ListingFault payload fault ∧ e = .decode fault := by
  have hpayload : Json.ofBytes? superscriptResponse.toUTF8 = some superscriptPayload := by
    rw [Json.ofBytes?_toUTF8]
    cbv
  have hlisting : Response.listing true superscriptPayload =
      .error (.integer "²" .malformed) := by cbv
  have herror : (run (listDatasets ⟨{}, fun _ _ => .ok superscriptResponse.toUTF8⟩ none .none)
      {}).1 = .error (.decode (.integer "²" .malformed)) := by
    change (run (get _ "/data/list" _ _) {}).1 = _
    rw [run_get]
    simp only [decodeAnswer, hpayload, hlisting]
    rfl
  refine ⟨_, _, herror, id, ?_⟩
  obtain ⟨_, payload, fault, -, -, hfault, heq⟩ :=
    ((documented_or_misread _ _).2.1 _ _ _ herror).resolve_left id
  exact ⟨payload, fault, hfault, heq⟩

end Client

end DatasetCatalog.Catalog
