import DatasetCatalog.Catalog.Request
import DatasetCatalog.Proofs.Filter.Path

/-! # Filters as constraints and as paths

  A caller may give the constraints of a filter, or the path that they are compiled to. The path
  takes another way: it is trimmed, split, and every setting in it is read and checked again, with
  the bounds of ranges rounded to doubles. A compiled path passes all this and is sent as it is, so
  both ways lead to the same listing. What remains to fail is the tag, and it fails both ways.
-/

namespace DatasetCatalog.Catalog.Request

open Text

variable {given : List (String × Constraint)} {p : String}

/-! ### The segments of a filter -/

theorem filterSegments_of_compile (h : Filter.compile given = .ok p) :
    filterSegments (.constraints given) = .ok (filterSegments.under p) := by
  cases given with
  | nil =>
    -- without constraints nothing is compiled, and the path is empty
    obtain rfl : "" = p := Except.ok.inj h
    rfl
  | cons pair rest =>
    show (do return filterSegments.under (← Filter.compile (pair :: rest))) = _
    rw [h]
    rfl

/-- A path that is read, and that trimming leaves as it is, is sent as it is. -/
theorem filterSegments_of_trimmed {back : Filter} (hread : Filter.ofPath p = .ok back)
    (htrim : Filter.trimPath p.toList = p.toList) :
    filterSegments (.path p) = .ok (filterSegments.under p) := by
  by_cases hempty : p = ""
  · subst hempty
    rfl
  · have hsegments : filterSegments (.path p) = (do
        let _ ← Filter.ofPath p
        return filterSegments.under (String.ofList (Filter.trimPath p.toList))) := by
      unfold filterSegments
      split
      · next heq => exact absurd heq nofun
      · next heq => exact absurd (FilterChoice.path.inj heq) hempty
      · next heq => exact absurd heq nofun
      · next heq => exact absurd heq nofun
      · next heq => rw [FilterChoice.path.inj heq]
    rw [hsegments, hread, htrim, String.ofList_toList]
    rfl

/-! ### The tag -/

/-- The tag is blank, or it would be more than one segment. -/
def BadTag (tag : String) : Prop := strip tag.toList = [] ∨ '/' ∈ strip tag.toList

/-- Segments of a filter that are there leave it to the tag whether there is a listing. -/
theorem listing_of_filterSegments {filter : FilterChoice} {text : String}
    (h : filterSegments filter = .ok text) (tag : Option String) :
    (∃ path, listing tag filter = .ok path) ∨
      ∃ t, tag = some t ∧ BadTag t ∧
        listing tag filter = .error (.badTag (String.ofList (strip t.toList))) := by
  unfold listing
  rw [h]
  cases tag with
  | none => exact .inl ⟨_, rfl⟩
  | some t =>
    by_cases hbad : BadTag t
    · right
      have htag : tagSegments t = .error (.badTag (String.ofList (strip t.toList))) := if_pos hbad
      simp only [htag]
      exact ⟨t, rfl, hbad, rfl⟩
    · left
      have htag : tagSegments t =
          .ok ("/tag/" ++ Percent.encode (String.ofList (strip t.toList))) := if_neg hbad
      simp only [htag]
      exact ⟨_, rfl⟩

/-! ### Both ways -/

/-- **The two ways to give a filter agree.** The path that constraints compile to is read, with the
    given names in the given order, and it has neither white space nor slashes at its ends. With
    any tag it makes the listing that the constraints make; there is one unless the tag is bad. -/
theorem listing_path_of_compile (h : Filter.compile given = .ok p) (tag : Option String) :
    (∃ back, Filter.ofPath p = .ok back ∧ back.map (·.1.name) = given.map (·.1)) ∧
    strip p.toList = p.toList ∧ stripBy (· == '/') p.toList = p.toList ∧
    listing tag (.path p) = listing tag (.constraints given) ∧
    ((∃ path, listing tag (.constraints given) = .ok path) ∨
      ∃ t, tag = some t ∧ BadTag t ∧ listing tag (.constraints given) =
        .error (.badTag (String.ofList (strip t.toList)))) := by
  obtain ⟨f, hvalid, hnames, rfl⟩ := Filter.exists_valid_of_compile h
  have hread := Filter.ofPath_path hvalid
  have hreread := (Filter.map_name_reread f).trans hnames
  have hgiven := filterSegments_of_compile h
  have hpath := filterSegments_of_trimmed hread (Filter.trimPath_path hvalid)
  have hsame : listing tag (.path (Filter.path f)) = listing tag (.constraints given) := by
    unfold listing
    rw [hgiven, hpath]
  exact ⟨⟨f.reread, hread, hreread⟩, Filter.strip_path hvalid, Filter.stripBy_slash_path hvalid,
    hsame, listing_of_filterSegments hgiven tag⟩

/-- A lower bound between two doubles is rounded when the path is read, up to the upper bound, and
    the path is still sent as it was compiled. -/
theorem listing_path_of_rounded_bound :
    Filter.compile [("number_instances", .items [.number (.int 9007199254740993),
        .number (.int 9007199254740993)]), ("status", .text " active ")] =
      .ok "number_instances/9007199254740993..9007199254740993/status/active" ∧
    listing (some " a b ") (.path
        "number_instances/9007199254740993..9007199254740993/status/active") =
      .ok "/data/list/tag/a%20b/number_instances/9007199254740993..9007199254740993/status/active" := by
  have hgiven : Filter.compile [("number_instances", .items [.number (.int 9007199254740993),
      .number (.int 9007199254740993)]), ("status", .text " active ")] =
    .ok "number_instances/9007199254740993..9007199254740993/status/active" := by decide
  have hlisting : listing (some " a b ") (.constraints [("number_instances",
      .items [.number (.int 9007199254740993), .number (.int 9007199254740993)]),
      ("status", .text " active ")]) = .ok
      "/data/list/tag/a%20b/number_instances/9007199254740993..9007199254740993/status/active" := by
    decide
  obtain ⟨-, -, -, hsame, -⟩ := listing_path_of_compile hgiven (some " a b ")
  exact ⟨hgiven, hsame.trans hlisting⟩

end DatasetCatalog.Catalog.Request
