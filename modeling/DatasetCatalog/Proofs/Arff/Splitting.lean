import DatasetCatalog.Proofs.Arff.Quotes
import DatasetCatalog.Proofs.Except
import DatasetCatalog.Proofs.Text.Blank

/-! # Commas outside quotes

  The inside of a sparse row is split at the commas outside quotes. The search for them takes one
  character after the other and a quoted value as a whole, and fails at a quote that is not
  closed. Nothing is lost: joined by commas, the items are the text again, and each of them on its
  own is one item.
-/

namespace DatasetCatalog.Arff

open Text

/-! ### The first item -/

@[simp] theorem prependItem_ne_nil (front : List Char) (items : List (List Char)) :
    prependItem front items ≠ [] := by
  cases items <;> simp [prependItem]

theorem prependItem_append (front back : List Char) (items : List (List Char)) :
    prependItem front (prependItem back items) = prependItem (front ++ back) items := by
  cases items with
  | nil => rfl
  | cons item items =>
    show (front ++ (back ++ item)) :: items = (front ++ back ++ item) :: items
    rw [List.append_assoc]

theorem length_le_prependItem (front : List Char) (items : List (List Char)) :
    items.length ≤ (prependItem front items).length := by
  cases items <;> simp [prependItem]

theorem joinWith_prependItem (sep front : List Char) (items : List (List Char)) :
    joinWith sep (prependItem front items) = front ++ joinWith sep items := by
  cases items with
  | nil => simp [prependItem, joinWith]
  | cons item items => exact joinWith_append_cons sep front item items

/-! ### Texts that are passed -/

/-- The search for the next comma passes the text, whatever follows it. -/
def Passed (text : List Char) : Prop :=
  ∀ line total rest, sparseItemsFrom line total (text ++ rest) =
    (sparseItemsFrom line total rest).map (prependItem text)

theorem sparseItemsFrom_nil (line total : Nat) : sparseItemsFrom line total [] = .ok [[]] := by
  rw [sparseItemsFrom]

/-- There is always an item. -/
theorem ne_nil_of_sparseItemsFrom {line total : Nat} {s : List Char} {items : List (List Char)}
    (h : sparseItemsFrom line total s = .ok items) : items ≠ [] := by
  cases s with
  | nil =>
    rw [sparseItemsFrom_nil] at h
    cases h
    exact List.cons_ne_nil _ _
  | cons c rest =>
    rw [sparseItemsFrom_cons] at h
    split at h
    · split at h
      · cases h
      · obtain ⟨more, -, rfl⟩ := map_eq_ok_iff.1 h
        exact prependItem_ne_nil _ _
    · split at h
      · obtain ⟨more, -, rfl⟩ := map_eq_ok_iff.1 h
        exact List.cons_ne_nil _ _
      · obtain ⟨more, -, rfl⟩ := map_eq_ok_iff.1 h
        exact prependItem_ne_nil _ _

theorem passed_nil : Passed [] := by
  intro line total rest
  rw [List.nil_append]
  cases h : sparseItemsFrom line total rest with
  | error e => rfl
  | ok items =>
    cases items with
    | nil => exact absurd rfl (ne_nil_of_sparseItemsFrom h)
    | cons item items => rfl

theorem Passed.append {front back : List Char} (hf : Passed front) (hb : Passed back) :
    Passed (front ++ back) := by
  intro line total rest
  rw [List.append_assoc, hf, hb]
  cases sparseItemsFrom line total rest with
  | error e => rfl
  | ok items => exact congrArg Except.ok (prependItem_append front back items)

theorem passed_singleton {c : Char} (hq : isQuote c = false) (hc : c ≠ ',') : Passed [c] := by
  intro line total rest
  rw [List.singleton_append, sparseItemsFrom_cons, if_neg (by simp [hq]), if_neg hc]

/-- Characters other than commas and quotes are passed one by one. -/
theorem passed_of_forall {text : List Char} (h : ∀ c ∈ text, isQuote c = false ∧ c ≠ ',') :
    Passed text := by
  induction text with
  | nil => exact passed_nil
  | cons c text ih =>
    obtain ⟨⟨hq, hc⟩, hrest⟩ := List.forall_mem_cons.1 h
    exact (passed_singleton hq hc).append (ih hrest)

/-- A quote and what is read up to the closing one are passed as a whole, with the commas in
    between. -/
theorem passed_of_quotedBody {quote : Char} {inside content : List Char}
    (hq : isQuote quote = true)
    (h : ∀ rest, quotedBody quote (inside ++ rest) = some (content, rest)) :
    Passed (quote :: inside) := by
  intro line total rest
  have htake : (inside ++ rest).take ((inside ++ rest).length - rest.length) = inside := by
    rw [List.length_append, Nat.add_sub_cancel, List.take_left']
    rfl
  rw [List.cons_append, sparseItemsFrom_cons, if_pos hq, h]
  simp only [htake]

theorem passed_quoted (value : List Char) : Passed (quoted value) := by
  have hbody : ∀ rest, quotedBody '\'' (value.flatMap escapeQuoted ++ ['\''] ++ rest) =
      some (value, rest) := by
    intro rest
    rw [List.append_assoc, List.singleton_append]
    exact quotedBody_flatMap value rest
  rw [quoted, List.cons_append]
  exact passed_of_quotedBody (by decide) hbody

theorem passed_quoteValue (value : List Char) : Passed (quoteValue value) := by
  cases h : needsQuoting value with
  | true =>
    rw [quoteValue_of_needsQuoting h]
    exact passed_quoted value
  | false =>
    rw [quoteValue_of_bare h]
    apply passed_of_forall
    intro c hc
    have hf := needsQuote_of_needsQuoting h hc
    simp only [needsQuote, decide_eq_false_iff_not, List.mem_cons, not_or] at hf
    simp [isQuote, hf]

/-- A text that is passed is one item. -/
theorem Passed.sparseItemsFrom_eq {text : List Char} (h : Passed text) (line total : Nat) :
    sparseItemsFrom line total text = .ok [text] := by
  have hpass := h line total []
  rw [List.append_nil, sparseItemsFrom_nil] at hpass
  rw [hpass]
  simp [prependItem, Except.map]

/-- Joined texts are split at the commas between them. -/
theorem sparseItemsFrom_joinWith {texts : List (List Char)} (hne : texts ≠ [])
    (h : ∀ text ∈ texts, Passed text) (line total : Nat) :
    sparseItemsFrom line total (joinWith [','] texts) = .ok texts := by
  induction texts with
  | nil => exact absurd rfl hne
  | cons text texts ih =>
    obtain ⟨htext, htexts⟩ := List.forall_mem_cons.1 h
    by_cases hlast : texts = []
    · subst hlast
      exact htext.sparseItemsFrom_eq line total
    · have hcomma : isQuote ',' = false := rfl
      rw [joinWith_cons hlast, List.append_assoc, htext, List.singleton_append,
        sparseItemsFrom_cons, if_neg (by simp [hcomma]), if_pos rfl, ih hlast htexts]
      simp [prependItem, Except.map]

/-! ### What the items are -/

theorem ne_backslash_of_isQuote {quote : Char} (h : isQuote quote = true) : quote ≠ '\\' := by
  rintro rfl
  exact absurd h (by decide)

/-- Joined by commas, the items are the text. -/
theorem joinWith_of_sparseItemsFrom {line total : Nat} {s : List Char} {items : List (List Char)}
    (h : sparseItemsFrom line total s = .ok items) : joinWith [','] items = s := by
  fun_induction sparseItemsFrom line total s generalizing items with
  | case1 =>
    cases h
    rfl
  | case2 c rest hc hq => cases h
  | case3 c rest hc content after hq ih =>
    obtain ⟨more, hmore, rfl⟩ := map_eq_ok_iff.1 h
    obtain ⟨inside, rfl, -⟩ := exists_quotedBody_append (ne_backslash_of_isQuote hc) hq
    rw [joinWith_prependItem, ih hmore, List.length_append, Nat.add_sub_cancel, List.take_left' rfl]
    rfl
  | case4 rest hc ih =>
    obtain ⟨more, hmore, rfl⟩ := map_eq_ok_iff.1 h
    rw [joinWith_cons (ne_nil_of_sparseItemsFrom hmore), ih hmore]
    rfl
  | case5 c rest hc hcomma ih =>
    obtain ⟨more, hmore, rfl⟩ := map_eq_ok_iff.1 h
    rw [joinWith_prependItem, ih hmore]
    rfl

theorem Passed.prependItem {front : List Char} {items : List (List Char)} (hf : Passed front)
    (h : ∀ item ∈ items, Passed item) : ∀ item ∈ prependItem front items, Passed item := by
  cases items with
  | nil => exact List.forall_mem_singleton.2 hf
  | cons item items =>
    obtain ⟨hitem, hitems⟩ := List.forall_mem_cons.1 h
    exact List.forall_mem_cons.2 ⟨hf.append hitem, hitems⟩

/-- Each item is one that the search passes, since it is put together from what its steps pass. -/
theorem passed_of_sparseItemsFrom {line total : Nat} {s : List Char} {items : List (List Char)}
    (h : sparseItemsFrom line total s = .ok items) : ∀ item ∈ items, Passed item := by
  fun_induction sparseItemsFrom line total s generalizing items with
  | case1 =>
    cases h
    exact List.forall_mem_singleton.2 passed_nil
  | case2 c rest hc hq => cases h
  | case3 c rest hc content after hq ih =>
    obtain ⟨more, hmore, rfl⟩ := map_eq_ok_iff.1 h
    obtain ⟨inside, rfl, hinside⟩ := exists_quotedBody_append (ne_backslash_of_isQuote hc) hq
    rw [List.length_append, Nat.add_sub_cancel, List.take_left' rfl]
    exact (passed_of_quotedBody hc hinside).prependItem (ih hmore)
  | case4 rest hc ih =>
    obtain ⟨more, hmore, rfl⟩ := map_eq_ok_iff.1 h
    exact List.forall_mem_cons.2 ⟨passed_nil, ih hmore⟩
  | case5 c rest hc hcomma ih =>
    obtain ⟨more, hmore, rfl⟩ := map_eq_ok_iff.1 h
    exact (passed_singleton (by simpa using hc) hcomma).prependItem (ih hmore)

/-! ### Places outside quotes -/

/-- The search for commas comes to the position: it stands outside quotes. -/
inductive Outside (text : List Char) : Nat → Prop where
  /-- The search begins at the front. -/
  | zero : Outside text 0
  /-- A character that is no quote is passed. -/
  | char {i : Nat} {c : Char} (h : Outside text i) (hc : text[i]? = some c)
      (hq : isQuote c = false) : Outside text (i + 1)
  /-- A quoted value is passed as a whole. -/
  | value {i stop : Nat} {quote : Char} (h : Outside text i) (hquote : text[i]? = some quote)
      (hq : isQuote quote = true) (hstop : Closes text i stop) : Outside text (stop + 1)

/-- A quote outside quotes that nothing closes. -/
structure Unterminated (text : List Char) (start : Nat) : Prop where
  /-- It is no part of a quoted value in front of it. -/
  outside : Outside text start
  /-- It is a quote. -/
  opens : ∃ quote, text[start]? = some quote ∧ isQuote quote = true
  /-- Nothing closes it. -/
  unclosed : ∀ stop, ¬Closes text start stop

/-- The items are what the commas outside quotes leave of the text. -/
structure Splits (text : List Char) (items : List (List Char)) : Prop where
  /-- There is an item. -/
  ne_nil : items ≠ []
  /-- Joined by commas, the items are the text. -/
  join : joinWith [','] items = text
  /-- The quotes of an item are closed in it. -/
  closed : ∀ item ∈ items, ∀ i, ¬Unterminated item i
  /-- No item holds a comma outside quotes. -/
  comma : ∀ item ∈ items, ∀ i, Outside item i → item[i]? ≠ some ','

section Search

variable {text : List Char} {line i : Nat}

/-- The search of the whole ends as that of the part does, and finds no fewer items. -/
def Extends (whole part : Except FormatError (List (List Char))) : Prop :=
  ∃ f : List (List Char) → List (List Char), (∀ more, more.length ≤ (f more).length) ∧
    whole = part.map f

theorem Extends.refl (whole : Except FormatError (List (List Char))) : Extends whole whole := by
  refine ⟨id, fun _ => Nat.le_refl _, ?_⟩
  cases whole <;> rfl

theorem Extends.of_map {whole part : Except FormatError (List (List Char))}
    {g : List (List Char) → List (List Char)} (h : Extends whole (part.map g))
    (hg : ∀ more, more.length ≤ (g more).length) : Extends whole part := by
  obtain ⟨f, hf, rfl⟩ := h
  refine ⟨fun more => f (g more), fun more => Nat.le_trans (hg more) (hf (g more)), ?_⟩
  cases part <;> rfl

/-- The search of the whole text takes the course of the search from any place it comes to. -/
theorem Outside.extends (h : Outside text i) (line total : Nat) :
    Extends (sparseItemsFrom line total text) (sparseItemsFrom line total (text.drop i)) := by
  induction h with
  | zero => exact .refl _
  | @char i c _ hc hq ih =>
    rw [drop_eq_cons_of_getElem? hc, sparseItemsFrom_cons, if_neg (by simp [hq])] at ih
    -- a comma begins another item, any other character stands in front of the first one
    split at ih
    · exact ih.of_map (by simp)
    · exact ih.of_map (length_le_prependItem _)
  | @value i stop quote _ hquote hq hstop ih =>
    obtain ⟨content, hbody⟩ := (exists_quotedBody_iff hquote (ne_backslash_of_isQuote hq)).2
      ⟨stop, hstop, rfl⟩
    rw [drop_eq_cons_of_getElem? hquote, sparseItemsFrom_cons, if_pos hq, hbody] at ih
    exact ih.of_map (length_le_prependItem _)

/-- A text that is split has no open quote. -/
theorem not_unterminated_of_sparseItemsFrom {total : Nat} {items : List (List Char)}
    (h : sparseItemsFrom line total text = .ok items) (start : Nat) :
    ¬Unterminated text start := by
  rintro ⟨houtside, ⟨quote, hquote, hq⟩, hopen⟩
  obtain ⟨f, -, hsearch⟩ := houtside.extends line total
  have hbody := (quotedBody_eq_none_iff hquote (ne_backslash_of_isQuote hq)).2 hopen
  rw [h, drop_eq_cons_of_getElem? hquote, sparseItemsFrom_cons, if_pos hq, hbody] at hsearch
  cases hsearch

/-- A single item holds no comma outside quotes. -/
theorem getElem?_ne_comma_of_sparseItemsFrom {total : Nat} {item : List Char}
    (h : sparseItemsFrom line total text = .ok [item]) (houtside : Outside text i) :
    text[i]? ≠ some ',' := by
  intro hcomma
  obtain ⟨f, hf, hsearch⟩ := houtside.extends line total
  rw [h, drop_eq_cons_of_getElem? hcomma, sparseItemsFrom_cons, if_neg (by decide), if_pos rfl]
    at hsearch
  obtain ⟨_, hrest, hitem⟩ := map_eq_ok_iff.1 hsearch.symm
  obtain ⟨more, hmore, rfl⟩ := map_eq_ok_iff.1 hrest
  -- the comma ends an item, and behind it there is another one
  have hpos := List.length_pos_of_ne_nil (ne_nil_of_sparseItemsFrom hmore)
  have hlength := hf ([] :: more)
  rw [hitem, List.length_singleton, List.length_cons] at hlength
  omega

/-- The search that has come to a place outside quotes fails only at an open quote, and tells where
    it stands. -/
theorem unterminated_of_sparseItemsFrom (h : Outside text i) {e : FormatError}
    (herror : sparseItemsFrom line text.length (text.drop i) = .error e) :
    ∃ start : Nat, Unterminated text start ∧ e = ⟨line, .unterminatedQuote (start + 1)⟩ := by
  -- the place moves on with the rest of the text, as far as the quote at fault
  generalize hs : text.drop i = s at herror
  generalize htotal : text.length = total at herror
  fun_induction sparseItemsFrom line total s generalizing i with
  | case1 => cases herror
  | case2 c rest hc hq =>
    obtain ⟨hi, rfl⟩ := getElem?_of_drop_eq_cons hs
    have hopen := (quotedBody_eq_none_iff hi (ne_backslash_of_isQuote hc)).1 hq
    refine ⟨i, ⟨h, ⟨c, hi, hc⟩, hopen⟩, ?_⟩
    have hlt := (List.getElem?_eq_some_iff.1 hi).1
    have hcolumn : total - (text.drop (i + 1)).length = i + 1 := by
      rw [List.length_drop]
      omega
    rw [← Except.error.inj herror, hcolumn]
    rfl
  | case3 c rest hc content after hq ih =>
    obtain ⟨hi, rfl⟩ := getElem?_of_drop_eq_cons hs
    obtain ⟨stop, hstop, hrest⟩ :=
      (exists_quotedBody_iff hi (ne_backslash_of_isQuote hc)).1 ⟨content, hq⟩
    exact ih (.value h hi hc hstop) hrest (map_eq_error_iff.1 herror)
  | case4 rest hc ih =>
    obtain ⟨hi, hrest⟩ := getElem?_of_drop_eq_cons hs
    exact ih (.char h hi rfl) hrest (map_eq_error_iff.1 herror)
  | case5 c rest hc hcomma ih =>
    obtain ⟨hi, hrest⟩ := getElem?_of_drop_eq_cons hs
    exact ih (.char h hi (by simpa using hc)) hrest (map_eq_error_iff.1 herror)

end Search

/-- **Splitting the items of a sparse row loses nothing.** It fails only at a quote that is not
    closed, and otherwise gives items that joined by commas are the text, none of which holds a
    comma outside quotes or is split again. A quoted value ends behind its beginning, just behind
    the first quote of its kind that belongs to no escape, so each step of the search moves on. -/
theorem splits_or_unterminated (line : Nat) (text : List Char) :
    ((∃ start : Nat, Unterminated text start ∧
        sparseItems line text = .error ⟨line, .unterminatedQuote (start + 1)⟩) ∨
      ∃ items, sparseItems line text = .ok items ∧ Splits text items ∧
        ∀ item ∈ items, sparseItems line item = .ok [item]) ∧
    (∀ start content stop, quotedAt line text start = some (.ok (content, stop)) →
      start < stop ∧ stop ≤ text.length) ∧
    ∀ start quote, text[start]? = some quote → quote ≠ '\\' →
      (quotedAt line text start = some (.error ⟨line, .unterminatedQuote (start + 1)⟩) ∧
        ∀ stop, ¬Closes text start stop) ∨
      ∃ content stop, quotedAt line text start = some (.ok (content, stop + 1)) ∧
        Closes text start stop := by
  refine ⟨?_, ?_, ?_⟩
  · cases h : sparseItems line text with
    | error e =>
      obtain ⟨start, hstart, rfl⟩ := unterminated_of_sparseItemsFrom .zero h
      exact .inl ⟨start, hstart, rfl⟩
    | ok items =>
      have hitem : ∀ item ∈ items, sparseItems line item = .ok [item] := by
        intro item hitem
        exact (passed_of_sparseItemsFrom h item hitem).sparseItemsFrom_eq line _
      refine .inr ⟨items, rfl, ?_, hitem⟩
      constructor
      · exact ne_nil_of_sparseItemsFrom h
      · exact joinWith_of_sparseItemsFrom h
      · intro item hmem
        exact not_unterminated_of_sparseItemsFrom (hitem item hmem)
      · intro item hmem i
        exact getElem?_ne_comma_of_sparseItemsFrom (hitem item hmem)
  · intro start content stop h
    exact bounds_of_quotedAt h
  · intro start quote hquote hb
    exact quotedAt_outcome hquote hb line

/-- A row with a backslash in front of a quote, a comma and an escaped quote between quotes, and
    a backslash at its end. -/
theorem splits_of_backslashes :
    Splits "0 \\'a,\\'b', 1 c\\".toList ["0 \\'a,\\'b'".toList, " 1 c\\".toList] ∧
    quotedAt 1 "0 \\'a,\\'b', 1 c\\".toList 3 = some (.ok ("a,'b".toList, 10)) ∧
    (3 < 10 ∧ 10 ≤ "0 \\'a,\\'b', 1 c\\".toList.length) ∧
    Closes "0 \\'a,\\'b', 1 c\\".toList 3 9 := by
  obtain ⟨hsplit, hbounds, hread⟩ := splits_or_unterminated 1 "0 \\'a,\\'b', 1 c\\".toList
  have hitems : sparseItems 1 "0 \\'a,\\'b', 1 c\\".toList =
      .ok ["0 \\'a,\\'b'".toList, " 1 c\\".toList] := by
    cbv
  have hquoted : quotedAt 1 "0 \\'a,\\'b', 1 c\\".toList 3 =
      some (.ok ("a,'b".toList, 10)) := by
    decide +kernel
  refine ⟨?_, hquoted, hbounds 3 _ 10 hquoted, ?_⟩
  · obtain ⟨start, -, herror⟩ | ⟨items, hok, hsplits, -⟩ := hsplit
    · rw [hitems] at herror
      cases herror
    · rw [hitems] at hok
      cases hok
      exact hsplits
  · obtain ⟨herror, -⟩ | ⟨content, stop, hok, hcloses⟩ := hread 3 '\'' (by decide) (by decide)
    · rw [hquoted] at herror
      cases herror
    · rw [hquoted] at hok
      cases hok
      exact hcloses

/-- An escaped quote closes nothing. -/
example : sparseItems 1 "0 a, 1 'b\\'".toList = .error ⟨1, .unterminatedQuote 8⟩ := by
  cbv

end DatasetCatalog.Arff
