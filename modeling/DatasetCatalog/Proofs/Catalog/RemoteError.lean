import DatasetCatalog.Proofs.Catalog.Documented
import DatasetCatalog.Proofs.Number.IntegerText

/-! # What the client makes of a refused request

  The service tells three facts by a failed precondition whose body is an error record: that
  nothing is listed, that a data set does not exist, and that its attributes are not known. An
  error says such a fact only with the right status, a body that is an error record, and the code
  of the fact; it then counts for the operation that asks for the fact and for no other. Every
  other error reaches the caller as it is.
-/

namespace DatasetCatalog.Catalog

open Text

/-! ### Error records -/

/-- The value is the integer, or a text that spells it. -/
inductive IsInteger : Json → Int → Prop where
  | number (n : Int) : IsInteger (.number (.int n)) n
  | text {s : String} {n : Int} (h : Numeral.Spells (strip s.toList) n) : IsInteger (.str s) n

/-- The value is a text or a number. -/
def IsText (v : Json) : Prop := (∃ s, v = .str s) ∨ ∃ n, v = .number n

/-- The field is a text or a number, null, or not there. -/
def MayBeText (fields : List (String × Json)) (name : String) : Prop :=
  ∀ v, fields.lookup name = some v → v = .null ∨ IsText v

/-- The value is an error record with the code. There may be other fields in it. -/
def ErrorRecord (payload : Json) (code : Int) : Prop :=
  ∃ record v, payload.field? "error" = some (.obj record) ∧
    record.lookup "code" = some v ∧ IsInteger v code ∧ MayBeText record "message" ∧
    MayBeText record "additional_information"

/-! ### Decoding error records -/

variable {path : String} {v : Json} {n : Int}

theorem looksInteger_iff {s : List Char} :
    looksInteger s = true ↔ Numeral.DigitLike ((strip s).dropWhile (· == '-')) := by
  simp [looksInteger, Numeral.DigitLike]

theorem decodeInteger_eq_ok_iff : decodeInteger path v = .ok n ↔ IsInteger v n := by
  constructor
  · intro h
    unfold decodeInteger at h
    split at h
    · exact absurd h nofun
    · obtain rfl := Except.ok.inj h
      exact .number _
    · next s =>
      split at h
      · next hlooks =>
        split at h
        · next m hread =>
          obtain rfl := Except.ok.inj h
          exact .text (Numeral.spells_iff.2 ⟨looksInteger_iff.1 hlooks, hread⟩)
        · exact absurd h nofun
      · exact absurd h nofun
    · exact absurd h nofun
  · intro h
    cases h with
    | number => rfl
    | text h =>
      obtain ⟨hlooks, hread⟩ := Numeral.spells_iff.1 h
      unfold decodeInteger
      simp only [if_pos (looksInteger_iff.2 hlooks), hread]

theorem exists_decodeText_iff (path : String) (v : Json) :
    (∃ s, decodeText path v = .ok s) ↔ IsText v := by
  cases v <;> simp [decodeText, IsText]

section Fields

variable {fields : List (String × Json)} {name : String} {specs : List FieldSpec} {r : Record}

theorem presentValue_eq_some_iff :
    presentValue fields name = some v ↔ fields.lookup name = some v ∧ v ≠ .null := by
  unfold presentValue
  split
  · next h => simp_all
  · next hnull =>
    constructor
    · intro h
      refine ⟨h, ?_⟩
      rintro rfl
      exact hnull h
    · exact And.left

/-- A field that has to be there is decoded in front of the others. -/
theorem decodeFields_must_eq_ok_iff {shape : Shape} :
    decodeFields path fields (Schema.must name shape :: specs) = .ok r ↔
      ∃ v value r', presentValue fields name = some v ∧
        decodeShape (fieldPath path name) shape v = .ok value ∧
        decodeFields path fields specs = .ok r' ∧ r = (name, value) :: r' := by
  rw [decodeFields]
  simp only [Schema.must, if_true]
  cases presentValue fields name with
  | none => simp
  | some v =>
    simp only [bind_eq_ok_iff, pure, Except.pure, Except.ok.injEq]
    constructor
    · rintro ⟨value, hvalue, r', hr', rfl⟩
      exact ⟨v, value, r', rfl, hvalue, hr', rfl⟩
    · rintro ⟨v', value, r', hv', hvalue, hr', rfl⟩
      obtain rfl := Option.some.inj hv'
      exact ⟨value, hvalue, r', hr', rfl⟩

/-- A text that may be there is decoded unless the field holds something else. -/
theorem exists_decodeFields_mayText_iff :
    (∃ r, decodeFields path fields (Schema.may name .text :: specs) = .ok r) ↔
      MayBeText fields name ∧ ∃ r, decodeFields path fields specs = .ok r := by
  rw [decodeFields]
  simp only [Schema.may, Bool.false_eq_true, if_false]
  cases hvalue : presentValue fields name with
  | none =>
    have hmay : MayBeText fields name := by
      intro v hv
      by_contra hnot
      have hpresent := presentValue_eq_some_iff.2 ⟨hv, fun hnull => hnot (.inl hnull)⟩
      rw [hvalue] at hpresent
      cases hpresent
    exact (and_iff_right hmay).symm
  | some v =>
    obtain ⟨hlookup, hnull⟩ := presentValue_eq_some_iff.1 hvalue
    have hmay : MayBeText fields name ↔ IsText v := by
      unfold MayBeText
      simp [hlookup, hnull]
    rw [hmay, ← exists_decodeText_iff (fieldPath path name)]
    simp only [decodeShape, bind_eq_ok_iff, map_eq_ok_iff]
    constructor
    · rintro ⟨r, _, ⟨s, hs, rfl⟩, r', hr', -⟩
      exact ⟨⟨s, hs⟩, r', hr'⟩
    · rintro ⟨⟨s, hs⟩, r', hr'⟩
      exact ⟨_, _, ⟨s, hs, rfl⟩, r', hr', rfl⟩

end Fields

namespace Response

theorem unwrap_eq_ok_iff {payload : Json} {key : String} :
    unwrap payload key = .ok v ↔ payload.field? key = some v := by
  refine ⟨field?_of_unwrap, fun h => ?_⟩
  cases payload with
  | obj fields =>
    have hlookup : fields.lookup key = some v := h
    unfold unwrap
    simp only [hlookup]
  | _ => exact absurd h nofun

/-- The fields of an error record: a code, and texts that may be there. -/
theorem exists_error_fields_iff {record : List (String × Json)} :
    (∃ r, decodeFields path record Schema.error.fields = .ok r ∧
        Record.integer? r "code" = some n) ↔
      ∃ v, record.lookup "code" = some v ∧ IsInteger v n ∧ MayBeText record "message" ∧
        MayBeText record "additional_information" := by
  have hcode : ∀ r' value, Record.integer? (("code", FieldValue.integer value) :: r') "code" =
      some value := fun _ _ => rfl
  have htexts : (∃ r, decodeFields path record [Schema.may "message" .text,
        Schema.may "additional_information" .text] = .ok r) ↔
      MayBeText record "message" ∧ MayBeText record "additional_information" := by
    rw [exists_decodeFields_mayText_iff, exists_decodeFields_mayText_iff]
    simp [decodeFields]
  rw [← htexts]
  simp only [Schema.error, decodeFields_must_eq_ok_iff, presentValue_eq_some_iff, decodeShape,
    map_eq_ok_iff]
  constructor
  · rintro ⟨_, ⟨v, _, r', ⟨hlookup, -⟩, ⟨m, hm, rfl⟩, hr', rfl⟩, hn⟩
    obtain rfl := Option.some.inj ((hcode r' m).symm.trans hn)
    exact ⟨v, hlookup, decodeInteger_eq_ok_iff.1 hm, r', hr'⟩
  · rintro ⟨v, hlookup, hv, r', hr'⟩
    have hnull : v ≠ .null := by
      rintro rfl
      cases hv
    exact ⟨_, ⟨v, _, r', ⟨hlookup, hnull⟩, ⟨n, decodeInteger_eq_ok_iff.2 hv, rfl⟩, hr', rfl⟩,
      hcode r' n⟩

/-- **The code of a body is that of the error record it holds.** -/
theorem errorCode?_eq_some_iff {body : ByteArray} :
    errorCode? body = some n ↔
      ∃ payload, Json.ofBytes? body = some payload ∧ ErrorRecord payload n := by
  have henvelope : ∀ payload, (∃ r, envelope Schema.error false payload = .ok r ∧
      Record.integer? r "code" = some n) ↔ ErrorRecord payload n := by
    intro payload
    simp only [envelope, bind_eq_ok_iff, unwrap_eq_ok_iff]
    constructor
    · rintro ⟨r, ⟨v, hv, hr⟩, hn⟩
      cases v with
      | obj record =>
        rw [decodeRecord_lenient] at hr
        obtain ⟨v, hlookup, hcode, hmessage, hinformation⟩ :=
          exists_error_fields_iff.1 ⟨r, hr, hn⟩
        exact ⟨record, v, hv, hlookup, hcode, hmessage, hinformation⟩
      | _ => cases hr
    · rintro ⟨record, v, hrecord, hcode⟩
      obtain ⟨r, hr, hn⟩ := exists_error_fields_iff.2 ⟨v, hcode⟩
      exact ⟨r, ⟨.obj record, hrecord, (decodeRecord_lenient ..).trans hr⟩, hn⟩
  unfold errorCode?
  simp only [Option.bind_eq_bind, Option.bind_eq_some_iff, ← henvelope]
  refine exists_congr fun payload => and_congr_right fun _ => ?_
  cases envelope Schema.error false payload <;> simp

end Response

/-! ### Told facts -/

/-- The error is a failed precondition, and its body is an error record with the code. -/
def Tells (e : NetworkError) (code : Int) : Prop :=
  ∃ body payload, e.fault = .status 412 (some body) ∧ Json.ofBytes? body = some payload ∧
    ErrorRecord payload code

namespace Client

variable {α : Type} {c : Client} {t : Trace} {e : NetworkError}

theorem ofBytes?_of_empty {body : ByteArray} (h : body.size = 0) : Json.ofBytes? body = none := by
  obtain rfl := ByteArray.size_eq_zero_iff.1 h
  decide

theorem serviceCode_eq_some_iff {code : Int} : serviceCode e = some code ↔ Tells e code := by
  obtain ⟨url, fault⟩ := e
  unfold serviceCode Tells
  cases fault with
  | failed text => simp [NetworkError.status?]
  | status status body =>
    cases body with
    | none => simp [NetworkError.body?]
    | some body =>
      have hbody : NetworkError.body? ⟨url, .status status (some body)⟩ =
        if body.size = 0 then none else some body := rfl
      by_cases hsize : body.size = 0
      · -- an empty body is no JSON
        simp [hbody, hsize, ofBytes?_of_empty hsize]
      · simp [NetworkError.status?, hbody, hsize, Response.errorCode?_eq_some_iff]

/-- The transport refuses the request of a path. -/
def Refuses (c : Client) (t : Trace) (path : String) (e : NetworkError) : Prop :=
  c.transport t.requests (Request.address c.settings path) = .error e

/-! ### Operations -/

theorem listTags_of_refuses (h : c.Refuses t Request.tags e) :
    (run c.listTags t).1 = .error (.network e) := by
  unfold listTags
  rw [run_get_of_refused h]
  rfl

/-- A refused listing is empty when the service tells so. -/
theorem listDatasets_of_refuses {tag : Option String} {filter : FilterChoice} {path : String}
    (hpath : Request.listing tag filter = .ok path) (h : c.Refuses t path e) :
    (Tells e 372 → (run (c.listDatasets tag filter) t).1 = .ok []) ∧
      (¬ Tells e 372 → (run (c.listDatasets tag filter) t).1 = .error (.network e)) := by
  have hrun : (run (c.listDatasets tag filter) t).1 =
      if serviceCode e = some noResults then .ok [] else .error (.network e) := by
    unfold listDatasets
    rw [hpath]
    dsimp only
    rw [run_get_of_refused h]
    split <;> rfl
  rw [hrun, ← serviceCode_eq_some_iff]
  exact ⟨fun h => if_pos h, fun h => if_neg h⟩

theorem attributes_of_refuses {id : Int} (h : c.Refuses t (Request.features id) e) :
    ((∃ code, 271 ≤ code ∧ code ≤ 274 ∧ Tells e code) → (run (c.attributes id) t).1 = .ok []) ∧
      ((¬ ∃ code, 271 ≤ code ∧ code ≤ 274 ∧ Tells e code) →
        (run (c.attributes id) t).1 = .error (.network e)) := by
  have hcodes : ∀ code : Int, code ∈ featuresUnavailable ↔ 271 ≤ code ∧ code ≤ 274 := by
    intro code
    simp only [featuresUnavailable, List.mem_cons, List.not_mem_nil, or_false]
    omega
  unfold attributes
  rw [run_get_of_refused h]
  cases hcode : serviceCode e with
  | none =>
    have hnot : ¬ ∃ code, 271 ≤ code ∧ code ≤ 274 ∧ Tells e code := by
      rintro ⟨code, -, -, htells⟩
      exact absurd (hcode.symm.trans (serviceCode_eq_some_iff.2 htells)) nofun
    exact ⟨fun h => absurd h hnot, fun _ => rfl⟩
  | some code =>
    have htells : ∀ code', Tells e code' ↔ code = code' := by
      intro code'
      rw [← serviceCode_eq_some_iff, hcode, Option.some.injEq]
    simp only [htells]
    by_cases hmem : code ∈ featuresUnavailable
    · have hrange := (hcodes code).1 hmem
      simp only [if_pos hmem]
      exact ⟨fun _ => rfl, fun hnot => absurd ⟨code, hrange.1, hrange.2, rfl⟩ hnot⟩
    · simp only [if_neg hmem]
      refine ⟨?_, fun _ => rfl⟩
      rintro ⟨_, hlow, hhigh, rfl⟩
      exact absurd ((hcodes code).2 ⟨hlow, hhigh⟩) hmem

/-- The service tells that there is no such data set, by the status or by a code. -/
def TellsUnknown (e : NetworkError) : Prop := e.status? = some 404 ∨ Tells e 111

theorem tellsUnknown_iff :
    TellsUnknown e ↔ e.status? = some 404 ∨ serviceCode e = some unknownDataset :=
  or_congr_right serviceCode_eq_some_iff.symm

theorem described_of_refuses {id : Int} (h : c.Refuses t (Request.description id) e) :
    (TellsUnknown e → (run (c.described id) t).1 = .error (.notFound id (some e))) ∧
      (¬ TellsUnknown e → (run (c.described id) t).1 = .error (.network e)) := by
  have hrun : (run (c.described id) t).1 =
      if e.status? = some 404 ∨ serviceCode e = some unknownDataset then
        .error (.notFound id (some e))
      else .error (.network e) := by
    unfold described
    rw [run_get_of_refused h]
    split <;> rfl
  rw [hrun, tellsUnknown_iff]
  exact ⟨fun h => if_pos h, fun h => if_neg h⟩

/-- What fails in the request of the description fails the operation. -/
theorem describe_of_described_error {id : Int} (hid : 0 ≤ id) {error : ClientError}
    (h : (run (c.described id) t).1 = .error error) :
    (run (c.describe id) t).1 = .error error := by
  rw [run_describe, if_neg (Int.not_lt.2 hid)]
  rcases hdescribed : run (c.described id) t with ⟨r, t'⟩
  rw [hdescribed] at h
  obtain rfl : r = _ := h
  rfl

/-- Once the description is there, the attributes decide. -/
theorem describe_of_described_ok {id : Int} (hid : 0 ≤ id) {d : Description}
    (h : (run (c.described id) t).1 = .ok d) :
    (run (c.describe id) t).1 = (run (c.attributes id)
      (t.request (Request.address c.settings (Request.description id)))).1.map
        fun declared => { d with attributes := declared } := by
  have htrace := run_described_snd c id t
  rw [run_describe, if_neg (Int.not_lt.2 hid)]
  rcases hdescribed : run (c.described id) t with ⟨r, t'⟩
  rw [hdescribed] at h htrace
  obtain rfl : r = _ := h
  obtain rfl : t' = _ := htrace
  dsimp only
  rcases run (c.attributes id) _ with ⟨r, t''⟩
  cases r <;> rfl

theorem described_of_answers {id : Int} {payload : Json} {d : Description}
    (h : c.Answers t (Request.description id) payload)
    (hd : Response.description c.settings.strictDecoding payload = .ok d) :
    (run (c.described id) t).1 = .ok d := by
  obtain ⟨bytes, hbytes, hpayload⟩ := h
  unfold described
  rw [run_get, hbytes]
  simp only [decodeAnswer, hpayload, hd]
  rfl

/-- A request that is not refused ends in a value or in an error of decoding. -/
theorem refuses_of_get_error {path : String} {decode : Json → Except DecodeError α}
    {meaning : NetworkError → Exchange α} {error : ClientError}
    (h : (run (c.get path decode meaning) t).1 = .error error)
    (hdecode : ∀ fault, error ≠ .decode fault) :
    ∃ e, c.Refuses t path e ∧
      (run (meaning e) (t.request (Request.address c.settings path))).1 = .error error := by
  rw [run_get] at h
  split at h
  · next bytes _ =>
    obtain ⟨fault, -, hfault⟩ := mapError_eq_error_iff.1 h
    exact absurd hfault.symm (hdecode fault)
  · next e he => exact ⟨e, he, h⟩

/-- The request of the attributes never tells that there is no such data set. -/
theorem attributes_ne_notFound {id i : Int} {cause : Option NetworkError} :
    (run (c.attributes id) t).1 ≠ .error (.notFound i cause) := by
  intro h
  obtain ⟨e, -, h⟩ := refuses_of_get_error h fun _ => nofun
  split at h
  · split at h
    · exact absurd h nofun
    · exact absurd h nofun
  · exact absurd h nofun

/-- Only a refused description tells that there is no such data set. -/
theorem refuses_of_notFound {id i : Int}
    (h : (run (c.describe id) t).1 = .error (.notFound i (some e))) :
    i = id ∧ 0 ≤ id ∧ c.Refuses t (Request.description id) e ∧ TellsUnknown e := by
  by_cases hid : id < 0
  · rw [run_describe, if_pos hid] at h
    exact absurd h nofun
  have hid := Int.not_lt.1 hid
  cases hdescribed : (run (c.described id) t).1 with
  | ok d =>
    -- then the attributes have failed
    rw [describe_of_described_ok hid hdescribed] at h
    exact absurd (map_eq_error_iff.1 h) attributes_ne_notFound
  | error error =>
    rw [describe_of_described_error hid hdescribed] at h
    obtain rfl := Except.error.inj h
    obtain ⟨e', hrefuses, hmeaning⟩ := refuses_of_get_error hdescribed fun _ => nofun
    split at hmeaning
    · next htells =>
      obtain ⟨rfl, hcause⟩ := ClientError.notFound.inj (Except.error.inj hmeaning)
      obtain rfl := Option.some.inj hcause
      exact ⟨rfl, hid, hrefuses, tellsUnknown_iff.2 htells⟩
    · exact absurd hmeaning nofun

/-- **What becomes of a refused request.** The error `e` comes from the transport, with any status
    or none and any body or none.

    A refused listing is empty exactly when the service tells with code 372 that nothing is listed.
    A data set is reported as unknown because of `e` exactly when `e` refuses its description and
    tells so, by status 404 or by code 111. Refused attributes leave a description as it is,
    without attributes, exactly when one of the codes 271 to 274 tells that they are not known.
    In every other case, and for tags and artifacts always, the caller gets `e` itself. -/
theorem outcome_of_refused (c : Client) (t : Trace) (e : NetworkError) :
    (c.Refuses t Request.tags e → (run c.listTags t).1 = .error (.network e)) ∧
    (∀ tag filter path, Request.listing tag filter = .ok path → c.Refuses t path e →
      ((run (c.listDatasets tag filter) t).1 = .ok [] ↔ Tells e 372) ∧
      (¬ Tells e 372 → (run (c.listDatasets tag filter) t).1 = .error (.network e))) ∧
    (∀ id i, (run (c.describe id) t).1 = .error (.notFound i (some e)) ↔
      i = id ∧ 0 ≤ id ∧ c.Refuses t (Request.description id) e ∧
        (e.status? = some 404 ∨ Tells e 111)) ∧
    (∀ id, 0 ≤ id → c.Refuses t (Request.description id) e →
      ¬ (e.status? = some 404 ∨ Tells e 111) →
        (run (c.describe id) t).1 = .error (.network e)) ∧
    (∀ id payload d, 0 ≤ id → c.Answers t (Request.description id) payload →
      Response.description c.settings.strictDecoding payload = .ok d →
      c.Refuses (t.request (Request.address c.settings (Request.description id)))
        (Request.features id) e →
      ((run (c.describe id) t).1 = .ok { d with attributes := [] } ↔
        ∃ code, 271 ≤ code ∧ code ≤ 274 ∧ Tells e code) ∧
      ((¬ ∃ code, 271 ≤ code ∧ code ≤ 274 ∧ Tells e code) →
        (run (c.describe id) t).1 = .error (.network e))) ∧
    ∀ d : Description, c.transport t.requests (Request.withKey c.settings d.url) = .error e →
      (run (c.download d) t).1 = .error (.network e) := by
  refine ⟨listTags_of_refuses, ?_, ?_, ?_, ?_, ?_⟩
  · intro tag filter path hpath hrefuses
    obtain ⟨htells, hnot⟩ := listDatasets_of_refuses hpath hrefuses
    refine ⟨⟨fun hempty => ?_, htells⟩, hnot⟩
    by_contra hcode
    exact absurd ((hnot hcode).symm.trans hempty) nofun
  · intro id i
    constructor
    · exact refuses_of_notFound
    · rintro ⟨rfl, hid, hrefuses, htells⟩
      exact describe_of_described_error hid ((described_of_refuses hrefuses).1 htells)
  · intro id hid hrefuses hnot
    exact describe_of_described_error hid ((described_of_refuses hrefuses).2 hnot)
  · intro id payload d hid hanswers hd hrefuses
    have hdescribe := describe_of_described_ok hid (described_of_answers hanswers hd)
    obtain ⟨htells, hnot⟩ := attributes_of_refuses hrefuses
    have herror : (¬ ∃ code, 271 ≤ code ∧ code ≤ 274 ∧ Tells e code) →
        (run (c.describe id) t).1 = .error (.network e) := by
      intro hcode
      rw [hdescribe, hnot hcode]
      rfl
    refine ⟨⟨fun hempty => ?_, fun hcode => ?_⟩, herror⟩
    · by_contra hcode
      exact absurd ((herror hcode).symm.trans hempty) nofun
    · rw [hdescribe, htells hcode]
      rfl
  · intro d h
    unfold download
    rw [run_bind, run_fetch, h]
    rfl

/-- An error that tells a fact by a quoted code, next to a message and an unknown field. -/
def tellingError (code : String) : NetworkError :=
  ⟨"https://catalog.test", .status 412 (some ("\x7b\"error\": \x7b\"code\": \"" ++ code ++
    "\", \"message\": 1, \"retry\": true\x7d\x7d").toUTF8)⟩

/-- A response that describes a data set. -/
def anneal : String :=
  "\x7b\"data_set_description\": \x7b\"id\": 2, \"name\": \"anneal\", \"version\": 1, " ++
    "\"format\": \"ARFF\", \"url\": \"https://catalog.test/2\"\x7d\x7d"

/-- The response as a value. -/
def annealPayload : Json :=
  .obj [("data_set_description", .obj [("id", .int 2), ("name", .str "anneal"), ("version", .int 1),
    ("format", .str "ARFF"), ("url", .str "https://catalog.test/2")])]

theorem tells_tellingError {code : String} {n : Int}
    (hjson : Json.ofBytes? ("\x7b\"error\": \x7b\"code\": \"" ++ code ++
        "\", \"message\": 1, \"retry\": true\x7d\x7d").toUTF8 =
      some (.obj [("error", .obj [("code", .str code), ("message", .int 1), ("retry", .bool true)])]))
    (hcode : decodeInteger "$" (.str code) = .ok n) : Tells (tellingError code) n := by
  refine ⟨_, _, rfl, hjson, _, _, rfl, rfl, decodeInteger_eq_ok_iff.1 hcode, ?_, ?_⟩
  · intro v hv
    exact .inr (.inr ⟨_, (Option.some.inj hv).symm⟩)
  · intro v hv
    exact absurd hv nofun

/-- A client whose requests are refused behind the given number of responses. -/
def refusing (responses : Nat) (e : NetworkError) : Client :=
  ⟨{}, fun earlier _ => if earlier.length < responses then .ok anneal.toUTF8 else .error e⟩

/-- Nothing is listed, an unknown data set, attributes that are not known, and no response. -/
theorem outcome_of_refused_told :
    (run ((refusing 0 (tellingError "372")).listDatasets none .none) {}).1 = .ok [] ∧
    (run ((refusing 0 (tellingError " 111")).describe 2) {}).1 =
      .error (.notFound 2 (some (tellingError " 111"))) ∧
    (∃ d, (run ((refusing 1 (tellingError "273")).describe 2) {}).1 = .ok d ∧
      d.name = "anneal" ∧ d.attributes = []) ∧
    (run (refusing 0 ⟨"https://catalog.test", .failed "reset"⟩).listTags {}).1 =
      .error (.network ⟨"https://catalog.test", .failed "reset"⟩) := by
  have hlist : Tells (tellingError "372") 372 := by
    refine tells_tellingError ?_ (by decide)
    rw [Json.ofBytes?_toUTF8]
    cbv
  have hunknown : Tells (tellingError " 111") 111 := by
    refine tells_tellingError ?_ (by decide)
    rw [Json.ofBytes?_toUTF8]
    cbv
  have hpending : Tells (tellingError "273") 273 := by
    refine tells_tellingError ?_ (by decide)
    rw [Json.ofBytes?_toUTF8]
    cbv
  have hpayload : Json.ofBytes? anneal.toUTF8 = some annealPayload := by
    rw [Json.ofBytes?_toUTF8]
    cbv
  have hd : Response.description true annealPayload = .ok {
      id := 2, name := "anneal", version := 1, text := "", citation := {}, format := "ARFF"
      url := "https://catalog.test/2" } := by cbv
  refine ⟨?_, ?_, ?_, ?_⟩
  · have hrefused := (outcome_of_refused (refusing 0 (tellingError "372")) {}
      (tellingError "372")).2.1 none .none "/data/list" rfl rfl
    exact hrefused.1.2 hlist
  · have hrefused := (outcome_of_refused (refusing 0 (tellingError " 111")) {}
      (tellingError " 111")).2.2.1 2 2
    exact hrefused.2 ⟨rfl, by decide, rfl, .inr hunknown⟩
  · have hrefused := (outcome_of_refused (refusing 1 (tellingError "273")) {}
      (tellingError "273")).2.2.2.2.1 2 annealPayload _ (by decide) ⟨_, rfl, hpayload⟩ hd rfl
    exact ⟨_, hrefused.1.2 ⟨273, by decide, by decide, hpending⟩, rfl, rfl⟩
  · exact (outcome_of_refused (refusing 0 _) {} _).1 rfl

end Client

end DatasetCatalog.Catalog
