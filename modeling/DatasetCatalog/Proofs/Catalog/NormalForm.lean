import DatasetCatalog.Proofs.Catalog.Trim
import DatasetCatalog.Proofs.Forall2

/-! # Decoded records are in normal form

  A decoded record has the fields of its schema that the payload holds, in the order of the schema,
  each of the type that its shape promises. Read as a payload it decodes to itself, and strictly so.
  A value that stands for a list of itself alone may be written as that list: neither a result nor
  an error tells the two apart.
-/

namespace DatasetCatalog.Catalog

open Text

/-! ### Payloads -/

/-- The payload has a field of the name that is not null. -/
def holds (payload : Json) (name : String) : Bool :=
  match payload.field? name with
  | none | some .null => false
  | some _ => true

/-- A decoded value as a value of a payload. -/
def FieldValue.json : FieldValue → Json
  | .text s => .str s
  | .integer n => .int n
  | .truth b => .bool b
  | .texts xs => .arr (xs.map .str)
  | .records xs => .arr (xs.map .obj)
  | .any v => v

/-- A decoded record as a payload. -/
def Record.json (r : Record) : Json := .obj (r.map fun field => (field.1, field.2.json))

/-- The values that a shape promises. -/
inductive Shape.Promises : Shape → Json → Prop where
  | text (s : String) : Promises .text (.str s)
  | integer (n : Int) : Promises .integer (.int n)
  | truth (b : Bool) : Promises .truth (.bool b)
  | texts (xs : List String) : Promises .texts (.arr (xs.map .str))
  | records (xs : List (List (String × Json))) : Promises .records (.arr (xs.map .obj))
  | any {v : Json} (h : v ≠ .null) : Promises .any v

/-- The second value is the first one, alone in a list. -/
def Spread (v v' : Json) : Prop := v ≠ .null ∧ (∀ items, v ≠ .arr items) ∧ v' = .arr [v]

/-- The shape is of lists. -/
def Shape.OfLists (shape : Shape) : Prop := shape = .texts ∨ shape = .records

/-- The second payload is the first one, but for values of fields of lists that it has alone in a
    list. -/
inductive Schema.Spreads (schema : Schema) : Json → Json → Prop where
  | obj {fields fields' : List (String × Json)}
      (h : List.Forall₂ (fun field field' => field'.1 = field.1 ∧ (field'.2 = field.2 ∨
        Spread field.2 field'.2 ∧ ∃ spec ∈ schema.fields,
          spec.name = field.1 ∧ spec.shape.OfLists)) fields fields') :
      Spreads schema (.obj fields) (.obj fields')

variable {schema : Schema} {strict : Bool} {path : String} {v v' : Json}
  {fields fields' : List (String × Json)}

theorem holds_eq_isSome (fields : List (String × Json)) (name : String) :
    holds (.obj fields) name = (presentValue fields name).isSome := by
  simp only [holds, presentValue, Json.field?]
  cases fields.lookup name with
  | none => rfl
  | some v => cases v <;> rfl

theorem ne_null_of_presentValue {name : String} (h : presentValue fields name = some v) :
    v ≠ .null := by
  rintro rfl
  unfold presentValue at h
  split at h
  · exact absurd h nofun
  · next hnull => exact hnull h

/-! ### Values in normal form -/

theorem Shape.Promises.ne_null {shape : Shape} (h : shape.Promises v) : v ≠ .null := by
  cases h with
  | any h => exact h
  | _ => exact nofun

/-- A decoded value is of the type that its shape promises. -/
theorem promises_of_decodeShape {shape : Shape} {value : FieldValue} (hnull : v ≠ .null)
    (h : decodeShape path shape v = .ok value) : shape.Promises value.json := by
  cases shape with
  | any =>
    obtain rfl := Except.ok.inj h
    exact .any hnull
  | other name => exact absurd h nofun
  | text =>
    obtain ⟨s, -, rfl⟩ := map_eq_ok_iff.1 h
    exact .text s
  | integer =>
    obtain ⟨n, -, rfl⟩ := map_eq_ok_iff.1 h
    exact .integer n
  | truth =>
    obtain ⟨b, -, rfl⟩ := map_eq_ok_iff.1 h
    exact .truth b
  | texts =>
    obtain ⟨xs, -, rfl⟩ := map_eq_ok_iff.1 h
    exact .texts xs
  | records =>
    obtain ⟨xs, -, rfl⟩ := map_eq_ok_iff.1 h
    exact .records xs

/-- Items that are decoded to what they were made of. -/
theorem decodeItems_map_ok {α : Type} {decode : String → Json → Except DecodeError α}
    {write : α → Json} (hwrite : ∀ path x, decode path (write x) = .ok x) (i : Nat) (xs : List α) :
    decodeItems decode path i (xs.map write) = .ok xs := by
  induction xs generalizing i with
  | nil => rfl
  | cons x xs ih =>
    exact bind_eq_ok_iff.2 ⟨x, hwrite _ x, bind_eq_ok_iff.2 ⟨xs, ih (i + 1), rfl⟩⟩

/-- A decoded value decodes to itself. -/
theorem decodeShape_json {shape : Shape} {value : FieldValue} (path' : String)
    (h : decodeShape path shape v = .ok value) : decodeShape path' shape value.json = .ok value := by
  cases shape with
  | any =>
    obtain rfl := Except.ok.inj h
    rfl
  | other name => exact absurd h nofun
  | text | integer | truth =>
    obtain ⟨x, -, rfl⟩ := map_eq_ok_iff.1 h
    rfl
  | texts =>
    obtain ⟨xs, -, rfl⟩ := map_eq_ok_iff.1 h
    have htext : ∀ path x, decodeText path (.str x) = .ok x := fun _ _ => rfl
    exact map_eq_ok_iff.2 ⟨xs, decodeItems_map_ok htext 0 xs, rfl⟩
  | records =>
    obtain ⟨xs, -, rfl⟩ := map_eq_ok_iff.1 h
    have hobject : ∀ path fields, decodeObject path (.obj fields) = .ok fields := fun _ _ => rfl
    exact map_eq_ok_iff.2 ⟨xs, decodeItems_map_ok hobject 0 xs, rfl⟩

/-! ### Records in normal form -/

/-- The fields that are decoded are those that the payload holds, in order. -/
theorem forall₂_of_decodeFields {specs : List FieldSpec} {r : Record}
    (h : decodeFields path fields specs = .ok r) :
    List.Forall₂ (fun spec field => field.1 = spec.name ∧
        ∃ v, presentValue fields spec.name = some v ∧
          decodeShape (fieldPath path spec.name) spec.shape v = .ok field.2)
      (specs.filter fun spec => holds (.obj fields) spec.name) r := by
  induction specs generalizing r with
  | nil =>
    obtain rfl := Except.ok.inj h
    exact .nil
  | cons spec rest ih =>
    simp only [decodeFields] at h
    cases hv : presentValue fields spec.name with
    | none =>
      rw [hv] at h
      simp only at h
      have hholds : holds (.obj fields) spec.name = false := by
        rw [holds_eq_isSome, hv]
        rfl
      rw [List.filter_cons, hholds]
      split at h
      · cases h
      · exact ih h
    | some v =>
      rw [hv] at h
      have hholds : holds (.obj fields) spec.name = true := by
        rw [holds_eq_isSome, hv]
        rfl
      rw [List.filter_cons, hholds]
      obtain ⟨value, hvalue, h⟩ := bind_eq_ok_iff.1 h
      obtain ⟨record, hrecord, h⟩ := bind_eq_ok_iff.1 h
      obtain rfl := Except.ok.inj h
      exact .cons ⟨rfl, v, hv, hvalue⟩ (ih hrecord)

/-- Decoded fields are of the types that their shapes promise. -/
theorem promises_of_decodeFields {r : Record} (h : decodeFields path fields schema.fields = .ok r) :
    List.Forall₂ (fun spec field => field.1 = spec.name ∧ spec.shape.Promises field.2.json)
      (schema.fields.filter fun spec => holds (.obj fields) spec.name) r := by
  refine (forall₂_of_decodeFields h).imp ?_
  rintro spec field ⟨hname, v, hv, hvalue⟩
  exact ⟨hname, promises_of_decodeShape (ne_null_of_presentValue hv) hvalue⟩

/-- The names of decoded fields are names of the schema, in order. -/
theorem names_sublist {r : Record} (h : decodeFields path fields schema.fields = .ok r) :
    (r.map (·.1)).Sublist (schema.fields.map (·.name)) := by
  have hnames : r.map (·.1) =
      (schema.fields.filter fun spec => holds (.obj fields) spec.name).map (·.name) :=
    (map_eq_of_forall₂ (forall₂_of_decodeFields h) fun _ _ hfield => hfield.1.symm).symm
  rw [hnames]
  exact List.filter_sublist.map _

/-- Of fields of distinct names, each is found as what the payload has under its name. -/
theorem lookup_of_present (hdistinct : (schema.fields.map (·.name)).Nodup) {r : Record}
    (h : decodeFields path fields schema.fields = .ok r) {spec : FieldSpec}
    (hspec : spec ∈ schema.fields) (hv : presentValue fields spec.name = some v) :
    ∃ value, decodeShape (fieldPath path spec.name) spec.shape v = .ok value ∧
      r.lookup spec.name = some value := by
  have hholds : holds (.obj fields) spec.name = true := by
    rw [holds_eq_isSome, hv]
    rfl
  obtain ⟨field, hfield, hname, v', hv', hvalue⟩ := exists_of_mem_forall₂
    (forall₂_of_decodeFields h) (List.mem_filter.2 ⟨hspec, hholds⟩)
  obtain rfl := Option.some.inj (hv.symm.trans hv')
  refine ⟨field.2, hvalue, ?_⟩
  rw [← hname]
  exact lookup_of_mem (hdistinct.sublist (names_sublist h)) hfield

/-- What the payload does not have is not found. -/
theorem lookup_of_absent {r : Record} (h : decodeFields path fields schema.fields = .ok r)
    {name : String} (hnone : presentValue fields name = none) : r.lookup name = none := by
  apply lookup_eq_none_of_not_mem
  intro hname
  obtain ⟨field, hfield, rfl⟩ := List.mem_map.1 hname
  obtain ⟨spec, -, hname', v, hv, -⟩ := exists_of_forall₂_mem (forall₂_of_decodeFields h) hfield
  rw [hname', hv] at hnone
  exact absurd hnone nofun

/-- Fields that have what was decoded, and nothing in place of what was not there, decode to the
    same record. -/
theorem decodeFields_of_decoded {specs : List FieldSpec} {r : Record}
    (h : decodeFields path fields specs = .ok r)
    (hfound : ∀ field ∈ r, presentValue fields' field.1 = some field.2.json)
    (habsent : ∀ spec ∈ specs, presentValue fields spec.name = none →
      presentValue fields' spec.name = none) :
    decodeFields path fields' specs = .ok r := by
  induction specs generalizing r with
  | nil => exact h
  | cons spec rest ih =>
    have habsent' := fun spec' hspec' => habsent spec' (List.mem_cons_of_mem spec hspec')
    simp only [decodeFields] at h ⊢
    cases hv : presentValue fields spec.name with
    -- a field that was left out is left out again, so it is not required
    | none =>
      rw [hv] at h
      rw [habsent spec List.mem_cons_self hv]
      simp only at h ⊢
      split at h
      · cases h
      · next hrequired =>
        rw [if_neg hrequired]
        exact ih h hfound habsent'
    | some v =>
      rw [hv] at h
      obtain ⟨value, hvalue, h⟩ := bind_eq_ok_iff.1 h
      obtain ⟨record, hrecord, h⟩ := bind_eq_ok_iff.1 h
      obtain rfl := Except.ok.inj h
      rw [hfound (spec.name, value) List.mem_cons_self]
      have hrest := ih hrecord (fun field hfield => hfound field (List.mem_cons_of_mem _ hfield))
        habsent'
      exact bind_eq_ok_iff.2 ⟨value, decodeShape_json _ hvalue,
        bind_eq_ok_iff.2 ⟨record, hrest, rfl⟩⟩

theorem lookup_json (r : Record) (name : String) :
    (r.map fun field => (field.1, field.2.json)).lookup name =
      (r.lookup name).map FieldValue.json :=
  lookup_map_values (fun _ (value : FieldValue) => value.json) r name

/-- The record of decoded fields, as a payload, has no field that the schema does not have. -/
theorem unknownField_json {r : Record} (h : decodeFields path fields schema.fields = .ok r) :
    unknownField schema (r.map fun field => (field.1, field.2.json)) = none := by
  have hknown : ((r.map fun field => (field.1, field.2.json)).map (·.1)).filter
      (· ∉ schema.fields.map (·.name)) = [] := by
    rw [List.map_map, List.filter_eq_nil_iff]
    intro name hname
    have hmem := (names_sublist h).subset hname
    simpa using hmem
  unfold unknownField
  rw [hknown, List.mergeSort_nil, List.head?_nil]

theorem decodeRecord_json (hdistinct : (schema.fields.map (·.name)).Nodup) {r : Record}
    (h : decodeFields path fields schema.fields = .ok r) :
    decodeRecord schema true path r.json = .ok r := by
  refine (decodeRecord_of_known (unknownField_json h)).trans (decodeFields_of_decoded h ?_ ?_)
  · intro field hfield
    obtain ⟨spec, -, -, hpromise⟩ := exists_of_forall₂_mem (promises_of_decodeFields h) hfield
    refine presentValue_of_lookup ?_ hpromise.ne_null
    rw [lookup_json, lookup_of_mem (hdistinct.sublist (names_sublist h)) hfield, Option.map_some]
  · intro spec _ hnone
    unfold presentValue
    rw [lookup_json, lookup_of_absent h hnone]
    rfl

/-! ### Values alone in a list -/

/-- A shape of lists takes a value for the list of it alone. -/
theorem decodeShape_of_spread {shape : Shape} (hlists : shape.OfLists) (h : Spread v v') :
    decodeShape path shape v' = decodeShape path shape v := by
  obtain ⟨-, hlist, rfl⟩ := h
  have hitems : asItems (.arr [v]) = asItems v := by
    cases v with
    | arr items => exact absurd rfl (hlist items)
    | _ => rfl
  rcases hlists with rfl | rfl
  · simp only [decodeShape, hitems]
  · simp only [decodeShape, hitems]

/-- Fields of which each is decoded alike are decoded alike. -/
theorem decodeFields_congr_shape {specs : List FieldSpec}
    (h : ∀ spec ∈ specs, Option.Rel
      (fun v v' => ∀ path, decodeShape path spec.shape v' = decodeShape path spec.shape v)
      (presentValue fields spec.name) (presentValue fields' spec.name)) :
    decodeFields path fields' specs = decodeFields path fields specs := by
  induction specs with
  | nil => rfl
  | cons spec rest ih =>
    have ih := ih fun spec' hspec' => h spec' (List.mem_cons_of_mem spec hspec')
    have hspec := h spec List.mem_cons_self
    simp only [decodeFields, ih]
    generalize presentValue fields spec.name = x at hspec
    generalize presentValue fields' spec.name = x' at hspec
    cases hspec with
    | none => rfl
    | some hshape => simp only [hshape]

/-- Fields of distinct names are told apart by them. -/
theorem eq_of_name_eq (hdistinct : (schema.fields.map (·.name)).Nodup) {spec spec' : FieldSpec}
    (hspec : spec ∈ schema.fields) (hspec' : spec' ∈ schema.fields) (h : spec.name = spec'.name) :
    spec = spec' :=
  List.inj_on_of_nodup_map hdistinct hspec hspec' h

theorem decodeRecord_of_spreads (hdistinct : (schema.fields.map (·.name)).Nodup)
    {payload payload' : Json} (h : schema.Spreads payload payload') :
    decodeRecord schema strict path payload' = decodeRecord schema strict path payload := by
  obtain ⟨hfields⟩ := h
  rename_i fields fields'
  have hkeys : fields'.map (·.1) = fields.map (·.1) :=
    (map_eq_of_forall₂ hfields fun _ _ hfield => hfield.1.symm).symm
  have hunknown : unknownField schema fields' = unknownField schema fields := by
    unfold unknownField
    rw [hkeys]
  have hdecoded : decodeFields path fields' schema.fields =
      decodeFields path fields schema.fields := by
    apply decodeFields_congr_shape
    intro spec hspec
    have hvalues := lookup_forall₂ hfields spec.name
    unfold presentValue
    generalize fields.lookup spec.name = x at hvalues
    generalize fields'.lookup spec.name = x' at hvalues
    cases hvalues with
    | none => exact .none
    | @some v v' hvalue =>
      rcases hvalue with rfl | ⟨hspread, spec', hspec', hname, hlists⟩
      · dsimp only
        split
        · exact .none
        · exact .some fun _ => rfl
      -- the field is of lists in the schema, and no other field of the schema has its name
      · obtain rfl := eq_of_name_eq hdistinct hspec' hspec hname
        have hshape : ∀ path, decodeShape path spec'.shape v' = decodeShape path spec'.shape v :=
          fun _ => decodeShape_of_spread hlists hspread
        obtain ⟨hnull, -, rfl⟩ := hspread
        cases v with
        | null => exact absurd rfl hnull
        | _ => exact .some hshape
  cases hunknown' : unknownField schema fields with
  | none =>
    rw [decodeRecord_of_known (hunknown.trans hunknown'), decodeRecord_of_known hunknown', hdecoded]
  | some name =>
    rw [decodeRecord_of_unknown (hunknown.trans hunknown'), decodeRecord_of_unknown hunknown',
      hdecoded]

/-- **Decoding gives a normal form.** What a schema of distinct fields decodes to has exactly the
    fields that the payload holds, in the order of the schema and of the types that the shapes
    promise; decoded once more, strictly, it stays the same. A payload that has values of fields of
    lists alone in a list decodes to the same record or fails with the same error. -/
theorem decodeRecord_normal (hdistinct : (schema.fields.map (·.name)).Nodup) (strict : Bool)
    (path : String) (payload : Json) :
    (∀ out, decodeRecord schema strict path payload = .ok out →
      List.Forall₂ (fun spec field => field.1 = spec.name ∧ spec.shape.Promises field.2.json)
        (schema.fields.filter fun spec => holds payload spec.name) out ∧
      decodeRecord schema true path out.json = .ok out) ∧
    ∀ payload', schema.Spreads payload payload' →
      decodeRecord schema strict path payload' = decodeRecord schema strict path payload := by
  refine ⟨?_, fun payload' h => decodeRecord_of_spreads hdistinct h⟩
  intro out h
  rcases decodeRecord_cases schema strict path payload with ⟨e, -, heq⟩ | ⟨fields, rfl, heq⟩
  · exact absurd (heq.symm.trans h) nofun
  · have hdecoded := heq.symm.trans h
    exact ⟨promises_of_decodeFields hdecoded, decodeRecord_json hdistinct hdecoded⟩

/-- A schema with a field of every shape. -/
def mixedSchema : Schema := ⟨"mixed", [Schema.must "title" .text, Schema.may "count" .integer,
  Schema.may "open" .truth, Schema.may "tag" .texts, Schema.may "part" .records,
  Schema.may "extra" .any, Schema.may "note" .text]⟩

/-- A payload in another order than the schema, with values of other types, a single tag, a single
    part, a null and an unknown field. -/
def mixedPayload : Json := .obj [("tag", .int 5), ("part", .obj [("a", .null)]), ("views", .int 0),
  ("note", .null), ("count", .str " -12"), ("title", .int 1), ("open", .str "TRUE"),
  ("extra", .arr [.null])]

/-- The payload with the tag and the part alone in a list. -/
def spreadPayload : Json := .obj [("tag", .arr [.int 5]), ("part", .arr [.obj [("a", .null)]]),
  ("views", .int 0), ("note", .null), ("count", .str " -12"), ("title", .int 1),
  ("open", .str "TRUE"), ("extra", .arr [.null])]

/-- What the payload decodes to. -/
def mixedRecord : Record := [("title", .text "1"), ("count", .integer (-12)), ("open", .truth true),
  ("tag", .texts ["5"]), ("part", .records [[("a", .null)]]), ("extra", .any (.arr [.null]))]

theorem spreads_mixedPayload : mixedSchema.Spreads mixedPayload spreadPayload := by
  have htag : Schema.may "tag" .texts ∈ mixedSchema.fields := by decide
  have hpart : Schema.may "part" .records ∈ mixedSchema.fields := by decide
  refine .obj (.cons ⟨rfl, .inr ⟨⟨nofun, nofun, rfl⟩, _, htag, rfl, .inl rfl⟩⟩
    (.cons ⟨rfl, .inr ⟨⟨nofun, nofun, rfl⟩, _, hpart, rfl, .inr rfl⟩⟩ ?_))
  exact List.forall₂_same.2 fun _ _ => ⟨rfl, .inl rfl⟩

/-- A payload that is decoded leniently, with the same payload where what stands alone is a list. -/
theorem decodeRecord_normal_of_mixed :
    decodeRecord mixedSchema false "$" mixedPayload = .ok mixedRecord ∧
    decodeRecord mixedSchema true "$" mixedRecord.json = .ok mixedRecord ∧
    decodeRecord mixedSchema false "$" spreadPayload = .ok mixedRecord := by
  have hdecoded : decodeRecord mixedSchema false "$" mixedPayload = .ok mixedRecord :=
    decodeRecord_lenient mixedSchema "$" _
  have hdistinct : (mixedSchema.fields.map (·.name)).Nodup := by decide
  obtain ⟨hnormal, hspreads⟩ := decodeRecord_normal hdistinct false "$" mixedPayload
  refine ⟨hdecoded, (hnormal _ hdecoded).2, ?_⟩
  rw [hspreads _ spreads_mixedPayload, hdecoded]

end DatasetCatalog.Catalog
