import DatasetCatalog.Catalog.Request
import DatasetCatalog.Proofs.Filter.Path
import DatasetCatalog.Proofs.Text.Percent

/-! # The address of a listing

  An address is cut at its first `#` into what is requested and a fragment, and the former at its
  first `?` into a path and a query. The address of a listing is put together from the address of
  the catalog, the tag, the filter and the key of the caller. Tag and key are percent encoded, so
  they can neither end a segment nor begin a query or a fragment. The values of a filter are sent
  as they are: all that is known of them is that they hold no slash. So the address has the parts
  that were meant exactly when no value holds one of the two marks.
-/

namespace DatasetCatalog.Catalog

open Text

/-! ### Parts of an address -/

/-- A text before the first separator, and the text behind it, if there is one. -/
def cut (sep : Char) (s : List Char) : List Char × Option (List Char) :=
  (s.takeWhile (· != sep), (s.dropWhile (· != sep)).tail?)

theorem cut_of_notMem {sep : Char} {s : List Char} (h : sep ∉ s) : cut sep s = (s, none) := by
  have hall : ∀ c ∈ s, (c != sep) = true := fun c hc =>
    bne_iff_ne.2 fun heq => h (heq ▸ hc)
  unfold cut
  rw [List.takeWhile_eq_self_iff.2 hall, List.dropWhile_eq_nil_iff.2 hall]
  rfl

theorem cut_append_cons {sep : Char} {s : List Char} (h : sep ∉ s) (rest : List Char) :
    cut sep (s ++ sep :: rest) = (s, some rest) := by
  have hall : ∀ c ∈ s, (c != sep) = true := fun c hc =>
    bne_iff_ne.2 fun heq => h (heq ▸ hc)
  unfold cut
  rw [List.takeWhile_append_of_pos hall, List.dropWhile_append_of_pos hall]
  simp

theorem notMem_cut (sep : Char) (s : List Char) : sep ∉ (cut sep s).1 := fun h => by
  simpa using List.mem_takeWhile_imp h

theorem mem_of_mem_cut {sep c : Char} {s : List Char} (h : c ∈ (cut sep s).1) : c ∈ s :=
  (List.takeWhile_prefix _).mem h

/-- The text holds neither of the marks that end a path. -/
def Unmarked (s : List Char) : Prop := '?' ∉ s ∧ '#' ∉ s

instance (s : List Char) : Decidable (Unmarked s) := instDecidableAnd

theorem unmarked_append_iff {s t : List Char} :
    Unmarked (s ++ t) ↔ Unmarked s ∧ Unmarked t := by
  simp only [Unmarked, List.mem_append, not_or]
  tauto

theorem unmarked_flatMap_iff {α : Type} {f : α → List Char} {xs : List α} :
    Unmarked (xs.flatMap f) ↔ ∀ x ∈ xs, Unmarked (f x) := by
  simp only [Unmarked, List.mem_flatMap, not_exists, not_and]
  exact ⟨fun h x hx => ⟨h.1 x hx, h.2 x hx⟩,
    fun h => ⟨fun x hx => (h x hx).1, fun x hx => (h x hx).2⟩⟩

/-- The parts of an address that tell a server what is asked for. -/
structure Address where
  /-- What stands before the query, the scheme and the host included. -/
  path : List Char
  query : Option (List Char)
  fragment : Option (List Char)

namespace Address

/-- The address that a text spells. -/
def ofText (s : List Char) : Address :=
  let (front, fragment) := cut '#' s
  let (path, query) := cut '?' front
  ⟨path, query, fragment⟩

/-- No mark stands in the path of an address. -/
theorem unmarked_path_ofText (s : List Char) : Unmarked (ofText s).path :=
  ⟨notMem_cut '?' _, fun h => notMem_cut '#' s (mem_of_mem_cut h)⟩

/-- The parameters of a query, names and values decoded. -/
def parameters (query : List Char) : List (List UInt8 × List UInt8) :=
  (splitOn '&' query).map fun piece =>
    let (name, value) := cut '=' piece
    (Percent.decodeQuery name, Percent.decodeQuery (value.getD []))

end Address

/-! ### What a caller means -/

namespace Request

/-- The names and values that a filter sends. -/
def sent : FilterChoice → List (List Char × List Char)
  | .none => []
  | .path text => (Filter.pairUp (splitOn '/' (Filter.trimPath text.toList))).getD []
  | .constraints pairs =>
    match Filter.ofConstraints pairs with
    | .ok f => f.map Filter.pieces
    | .error _ => []

/-- A name and a value as segments of a path. -/
def segments (pair : List Char × List Char) : List Char := '/' :: pair.1 ++ '/' :: pair.2

/-- The text is what the path has for the tag: nothing without a tag, and else a single segment
    that decodes to the stripped tag. -/
def TagPath (tag : Option String) (text : List Char) : Prop :=
  match tag with
  | none => text = []
  | some tag => ∃ segment, text = "/tag/".toList ++ segment ∧
      Percent.decode segment = Percent.bytes (String.ofList (strip tag.toList)) ∧
      '/' ∉ segment ∧ Unmarked segment

/-- The query carries the key of the caller and nothing else. -/
def CarriesKey (key : Option String) (query : Option (List Char)) : Prop :=
  match key with
  | none | some "" => query = none
  | some key => ∃ text, query = some text ∧
      Address.parameters text = [(Percent.bytes "api_key", Percent.bytes key)]

/-- The parts of the address are what the caller means by the tag, the filter and the key. -/
structure Composed (settings : Settings) (tag : Option String) (filter : FilterChoice)
    (address : Address) : Prop where
  /-- The path is that of the listing, with the segments of the tag and the filter. -/
  path : ∃ tagged, TagPath tag tagged ∧ address.path =
    settings.apiUrl.toList ++ "/data/list".toList ++ tagged ++ (sent filter).flatMap segments
  /-- The query carries the key. -/
  query : CarriesKey settings.apiKey address.query
  /-- There is no fragment. -/
  fragment : address.fragment = none

/-! ### Segments -/

/-- The pieces of a text, each with its separator, are the text behind a separator. -/
theorem flatMap_splitOn (sep : Char) (s : List Char) :
    (splitOn sep s).flatMap (sep :: ·) = sep :: s := by
  induction s with
  | nil => rfl
  | cons c s ih =>
    unfold splitOn
    split
    · next heq => rw [List.flatMap_cons, ih, heq]; rfl
    · cases hsplit : splitOn sep s with
      | nil =>
        rw [hsplit] at ih
        cases ih
      | cons first rest =>
        rw [hsplit, List.flatMap_cons, List.cons_append] at ih
        simp only [List.flatMap_cons, List.cons_append, (List.cons.inj ih).2]

theorem flatMap_pairUp {pieces : List (List Char)} {pairs : List (List Char × List Char)}
    (h : Filter.pairUp pieces = some pairs) :
    pairs.flatMap segments = pieces.flatMap ('/' :: ·) := by
  induction pieces using Filter.pairUp.induct generalizing pairs with
  | case1 => obtain rfl := Option.some.inj h; rfl
  | case2 => exact absurd h nofun
  | case3 a b rest ih =>
    obtain ⟨tail, htail, rfl⟩ := Option.map_eq_some_iff.1 h
    rw [List.flatMap_cons, ih htail]
    simp [segments]

theorem mem_of_pairUp {pieces : List (List Char)} {pairs : List (List Char × List Char)}
    (h : Filter.pairUp pieces = some pairs) {pair : List Char × List Char} (hp : pair ∈ pairs) :
    pair.2 ∈ pieces := by
  induction pieces using Filter.pairUp.induct generalizing pairs with
  | case1 => obtain rfl := Option.some.inj h; exact absurd hp List.not_mem_nil
  | case2 => exact absurd h nofun
  | case3 a b rest ih =>
    obtain ⟨tail, htail, rfl⟩ := Option.map_eq_some_iff.1 h
    rcases List.mem_cons.1 hp with rfl | hp
    · exact List.mem_cons_of_mem _ List.mem_cons_self
    · exact List.mem_cons_of_mem _ (List.mem_cons_of_mem _ (ih htail hp))

/-- Texts that are paired up and joined again make up the text behind a slash. -/
theorem flatMap_segments {s : List Char} {pairs : List (List Char × List Char)}
    (h : Filter.pairUp (splitOn '/' s) = some pairs) :
    pairs.flatMap segments = '/' :: s :=
  (flatMap_pairUp h).trans (flatMap_splitOn '/' s)

/-! ### The filter -/

/-- The pair has the name of a quality and a value without a slash. -/
def IsSetting (pair : List Char × List Char) : Prop :=
  (∃ q : Quality, q.name.toList = pair.1) ∧ '/' ∉ pair.2

theorem unmarked_segments_iff {pair : List Char × List Char} (h : IsSetting pair) :
    Unmarked (segments pair) ↔ Unmarked pair.2 := by
  have hname : Unmarked ('/' :: pair.1) := by
    obtain ⟨⟨q, hq⟩, -⟩ := h
    rw [← hq]
    cases q <;> decide
  have hslash : Unmarked ['/'] := by decide
  have happend : segments pair = ('/' :: pair.1) ++ (['/'] ++ pair.2) := rfl
  rw [happend, unmarked_append_iff, unmarked_append_iff]
  exact ⟨fun h => h.2.2, fun h => ⟨hname, hslash, h⟩⟩

theorem toList_under {text : String} (h : text ≠ "") :
    (filterSegments.under text).toList = '/' :: text.toList := by
  unfold filterSegments.under
  rw [if_neg h, String.toList_append]
  rfl

/-- The segments of a filter that constraints give. -/
theorem filterSegments_constraints {pairs : List (String × Constraint)} {text : String}
    (h : filterSegments (.constraints pairs) = .ok text) :
    text.toList = (sent (.constraints pairs)).flatMap segments ∧
      ∀ pair ∈ sent (.constraints pairs), IsSetting pair := by
  have hcompiled : ∃ f, Filter.ofConstraints pairs = .ok f ∧
      filterSegments.under (Filter.path f) = text := by
    cases pairs with
    | nil => exact ⟨[], rfl, Except.ok.inj h⟩
    | cons pair rest =>
      obtain ⟨p, hp, htext⟩ := bind_eq_ok_iff.1 h
      obtain ⟨f, hf, rfl⟩ := map_eq_ok_iff.1 hp
      exact ⟨f, hf, Except.ok.inj htext⟩
  obtain ⟨f, hf, rfl⟩ := hcompiled
  obtain ⟨hvalid, -⟩ := Filter.valid_of_ofConstraints hf
  have hsent : sent (.constraints pairs) = f.map Filter.pieces := by
    simp only [sent, hf]
  rw [hsent]
  constructor
  · by_cases hne : f = []
    · subst hne
      rfl
    · have hpairs := Filter.pairUp_splitOn_path hvalid hne
      have hpath : Filter.path f ≠ "" := by
        intro hnil
        rw [hnil] at hpairs
        exact absurd hpairs nofun
      rw [toList_under hpath, flatMap_segments hpairs]
  · intro pair hpair
    obtain ⟨entry, hentry, rfl⟩ := List.mem_map.1 hpair
    exact ⟨⟨entry.1, rfl⟩, (Filter.pieces_chars (hvalid.settings entry hentry)).2.2⟩

/-- The segments of a filter that is given as a path. -/
theorem filterSegments_path {given text : String} (h : filterSegments (.path given) = .ok text) :
    text.toList = (sent (.path given)).flatMap segments ∧
      ∀ pair ∈ sent (.path given), IsSetting pair := by
  have hread : ∃ f, Filter.ofPath given = .ok f ∧
      filterSegments.under (String.ofList (Filter.trimPath given.toList)) = text := by
    by_cases hempty : given = ""
    · subst hempty
      exact ⟨[], by decide, (by decide : _ = "").trans (Except.ok.inj h)⟩
    · simp only [filterSegments] at h
      obtain ⟨f, hf, htext⟩ := bind_eq_ok_iff.1 h
      exact ⟨f, hf, Except.ok.inj htext⟩
  obtain ⟨f, hf, rfl⟩ := hread
  unfold Filter.ofPath at hf
  simp only at hf
  split at hf
  · next hnil =>
    have hnone : sent (.path given) = [] := by
      simp only [sent, hnil]
      rfl
    rw [hnil, hnone]
    exact ⟨rfl, fun _ hpair => absurd hpair List.not_mem_nil⟩
  next hne =>
  split at hf
  · cases hf
  next pairs hpairs =>
  have hsent : sent (.path given) = pairs := by
    simp only [sent, hpairs, Option.getD_some]
  rw [hsent]
  constructor
  · rw [toList_under (by simpa using hne), String.toList_ofList, flatMap_segments hpairs]
  · intro pair hpair
    refine ⟨?_, notMem_of_mem_splitOn (mem_of_pairUp hpairs hpair)⟩
    -- every pair has set a quality
    obtain ⟨hsets, -, -⟩ := Filter.collect_eq_ok_iff.1 hf
    obtain ⟨entry, -, hset⟩ := exists_of_mem_forall₂ hsets
      (List.mem_map_of_mem (f := fun piece => (String.ofList piece.1, piece.2)) hpair)
    exact ⟨entry.1, by rw [Quality.name_of_ofName? hset.1, String.toList_ofList]⟩

theorem filterSegments_eq_ok {filter : FilterChoice} {text : String}
    (h : filterSegments filter = .ok text) :
    text.toList = (sent filter).flatMap segments ∧ ∀ pair ∈ sent filter, IsSetting pair := by
  cases filter with
  | none => obtain rfl := Except.ok.inj h; exact ⟨rfl, nofun⟩
  | path given => exact filterSegments_path h
  | constraints pairs => exact filterSegments_constraints h

/-! ### The tag -/

/-- A character of an encoded text is none of those that structure an address. -/
theorem notMem_encode {c : Char} (hc : Percent.isEncoded c = false) (s : String) :
    c ∉ (Percent.encode s).toList := fun hmem =>
  Bool.false_ne_true (hc.symm.trans (Percent.isEncoded_encode hmem))

theorem notMem_encodeQuery {c : Char} (hc : Percent.isEncoded c = false) (hplus : c ≠ '+')
    (s : String) : c ∉ (Percent.encodeQuery s).toList := fun hmem => by
  rcases Percent.isEncoded_encodeQuery hmem with henc | rfl
  · exact Bool.false_ne_true (hc.symm.trans henc)
  · exact hplus rfl

theorem unmarked_encode (s : String) : Unmarked (Percent.encode s).toList :=
  ⟨notMem_encode rfl s, notMem_encode rfl s⟩

theorem TagPath.unmarked {tag : Option String} {text : List Char} (h : TagPath tag text) :
    Unmarked text := by
  cases tag with
  | none =>
    obtain rfl : text = [] := h
    decide
  | some tag =>
    obtain ⟨segment, rfl, -, -, hsegment⟩ := h
    exact unmarked_append_iff.2 ⟨by decide, hsegment⟩

theorem tagPath_of_tagSegments {tag text : String} (h : tagSegments tag = .ok text) :
    TagPath (some tag) text.toList := by
  simp only [tagSegments] at h
  split at h
  · exact absurd h nofun
  · obtain rfl := Except.ok.inj h
    exact ⟨_, String.toList_append, Percent.decode_encode _, notMem_encode rfl _,
      unmarked_encode _⟩

/-- The path of a listing goes on with the tag and the filter. -/
theorem listing_eq_ok {tag : Option String} {filter : FilterChoice} {path : String}
    (h : listing tag filter = .ok path) :
    (∃ tagged, TagPath tag tagged ∧
      path.toList = "/data/list".toList ++ tagged ++ (sent filter).flatMap segments) ∧
    ∀ pair ∈ sent filter, IsSetting pair := by
  have hparts : ∃ tagged filtered, TagPath tag tagged.toList ∧
      filterSegments filter = .ok filtered ∧ "/data/list" ++ tagged ++ filtered = path := by
    cases tag with
    | none =>
      obtain ⟨tagged, htag, h⟩ := bind_eq_ok_iff.1 h
      obtain ⟨filtered, hfilter, hpath⟩ := bind_eq_ok_iff.1 h
      obtain rfl := Except.ok.inj htag
      exact ⟨"", filtered, rfl, hfilter, Except.ok.inj hpath⟩
    | some tag =>
      obtain ⟨tagged, htag, h⟩ := bind_eq_ok_iff.1 h
      obtain ⟨filtered, hfilter, hpath⟩ := bind_eq_ok_iff.1 h
      exact ⟨tagged, filtered, tagPath_of_tagSegments htag, hfilter, Except.ok.inj hpath⟩
  obtain ⟨tagged, filtered, htag, hfilter, rfl⟩ := hparts
  obtain ⟨hsent, hsetting⟩ := filterSegments_eq_ok hfilter
  exact ⟨⟨tagged.toList, htag, by rw [String.toList_append, String.toList_append, hsent]⟩,
    hsetting⟩

/-! ### The whole address -/

/-- The query that carries a key. -/
def keyQuery (key : String) : List Char :=
  "api_key".toList ++ '=' :: (Percent.encodeQuery key).toList

theorem notMem_keyQuery {c : Char} (hc : c = '#' ∨ c = '&') (key : String) : c ∉ keyQuery key := by
  intro hmem
  rcases List.mem_append.1 hmem with hmem | hmem
  · rcases hc with rfl | rfl <;> exact absurd hmem (by decide)
  rcases List.mem_cons.1 hmem with heq | hmem
  · rcases hc with rfl | rfl <;> exact absurd heq (by decide)
  · rcases hc with rfl | rfl <;> exact notMem_encodeQuery rfl (by decide) key hmem

theorem parameters_keyQuery (key : String) :
    Address.parameters (keyQuery key) = [(Percent.bytes "api_key", Percent.bytes key)] := by
  have hname : Percent.decodeQuery "api_key".toList = Percent.bytes "api_key" :=
    Percent.decodeQuery_of_notMem (by decide) (by decide)
  unfold Address.parameters
  rw [splitOn_of_notMem (notMem_keyQuery (.inr rfl) key), List.map_singleton]
  unfold keyQuery
  rw [cut_append_cons (by decide)]
  dsimp only [Option.getD_some]
  rw [Percent.decodeQuery_encodeQuery, hname]

/-- The key is appended as a query to an address without marks. -/
theorem toList_withKey (settings : Settings) {url : String} (h : '?' ∉ url.toList) :
    (settings.apiKey = none ∨ settings.apiKey = some "") ∧ withKey settings url = url ∨
    ∃ key, settings.apiKey = some key ∧ key ≠ "" ∧
      (withKey settings url).toList = url.toList ++ '?' :: keyQuery key := by
  unfold withKey
  split
  · next hkey => exact .inl ⟨.inl hkey, rfl⟩
  · next hkey => exact .inl ⟨.inr hkey, rfl⟩
  · next key hne hkey =>
    refine .inr ⟨key, hkey, hne, ?_⟩
    rw [if_neg h]
    simp only [String.toList_append, List.append_assoc]
    rfl

/-- An address without marks is the path, and the key its query. -/
theorem ofText_withKey (settings : Settings) {url : String} (h : Unmarked url.toList) :
    ∃ query, Address.ofText (withKey settings url).toList = ⟨url.toList, query, none⟩ ∧
      CarriesKey settings.apiKey query := by
  obtain ⟨hquery, hfragment⟩ := h
  rcases toList_withKey settings hquery with ⟨hkey, heq⟩ | ⟨key, hkey, hne, heq⟩
  · refine ⟨none, ?_, by rcases hkey with hkey | hkey <;> rw [hkey] <;> rfl⟩
    rw [heq]
    simp only [Address.ofText, cut_of_notMem hfragment, cut_of_notMem hquery]
  · have hwhole : '#' ∉ url.toList ++ '?' :: keyQuery key := by
      rw [List.mem_append, List.mem_cons]
      rintro (hmem | hmem | hmem)
      · exact hfragment hmem
      · exact absurd hmem (by decide)
      · exact notMem_keyQuery (.inl rfl) key hmem
    refine ⟨some (keyQuery key), ?_, ?_⟩
    · rw [heq]
      simp only [Address.ofText, cut_of_notMem hwhole, cut_append_cons hquery]
    · rw [hkey]
      unfold CarriesKey
      split
      · next hnone => exact absurd hnone nofun
      · next hempty => exact absurd (Option.some.inj hempty) hne
      · next key' _ hsome =>
        obtain rfl := Option.some.inj hsome
        exact ⟨_, rfl, parameters_keyQuery key⟩

/-- **What the tag and the filter can do to the address of a listing.** Whenever a listing is
    requested, the filter sends names of qualities with values that hold no slash. The address
    then has the path, the query and the fragment that are meant, whatever the tag and the key,
    exactly when no value of the filter holds a question mark or a hash sign. -/
theorem composed_listing_iff {settings : Settings} {tag : Option String} {filter : FilterChoice}
    {path : String} (hurl : Unmarked settings.apiUrl.toList)
    (h : listing tag filter = .ok path) :
    (∀ pair ∈ sent filter, IsSetting pair) ∧
    (Composed settings tag filter (Address.ofText (address settings path).toList) ↔
      ∀ pair ∈ sent filter, Unmarked pair.2) := by
  obtain ⟨⟨tagged, htag, hpath⟩, hsetting⟩ := listing_eq_ok h
  have hvalues : Unmarked ((sent filter).flatMap segments) ↔
      ∀ pair ∈ sent filter, Unmarked pair.2 := by
    rw [unmarked_flatMap_iff]
    exact forall₂_congr fun pair hpair => unmarked_segments_iff (hsetting pair hpair)
  rw [← hvalues]
  refine ⟨hsetting, ?_, ?_⟩
  · -- a mark in a value would stand in the path, where there is none
    rintro ⟨⟨tagged', -, heq⟩, -, -⟩
    have hfree := Address.unmarked_path_ofText (address settings path).toList
    rw [heq] at hfree
    exact (unmarked_append_iff.1 hfree).2
  · intro hfree
    have hwhole : Unmarked (settings.apiUrl ++ path).toList := by
      rw [String.toList_append, hpath]
      simp only [unmarked_append_iff]
      exact ⟨hurl, ⟨by decide, htag.unmarked⟩, hfree⟩
    obtain ⟨query, haddress, hkey⟩ := ofText_withKey settings hwhole
    unfold address
    rw [haddress]
    refine ⟨⟨tagged, htag, ?_⟩, hkey, rfl⟩
    simp only [String.toList_append, hpath, List.append_assoc]

/-- A name that is searched for with a question mark and a hash sign in it breaks the path off and
    hides the key from the server. -/
theorem not_composed_of_question_mark :
    ∃ settings : Settings, Unmarked settings.apiUrl.toList ∧ settings.apiKey = some "k" ∧
      listing none (.constraints [("data_name", .text "a?b#c")]) =
        .ok "/data/list/data_name/a?b#c" ∧
      ¬ Composed settings none (.constraints [("data_name", .text "a?b#c")])
        (Address.ofText (address settings "/data/list/data_name/a?b#c").toList) := by
  have hurl : Unmarked ({ apiKey := some "k" } : Settings).apiUrl.toList := by decide
  have hlisting : listing none (.constraints [("data_name", .text "a?b#c")]) =
      .ok "/data/list/data_name/a?b#c" := by decide
  refine ⟨{ apiKey := some "k" }, hurl, rfl, hlisting, ?_⟩
  rw [(composed_listing_iff hurl hlisting).2]
  intro hvalues
  exact absurd (hvalues ("data_name".toList, "a?b#c".toList) (by decide)) (by decide)

end Request

end DatasetCatalog.Catalog
