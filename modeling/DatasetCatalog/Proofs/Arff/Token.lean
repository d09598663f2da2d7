import DatasetCatalog.Arff.Header
import DatasetCatalog.Proofs.Forall2
import DatasetCatalog.Proofs.Text.Blank

/-! # Written values read back

  A value is written *bare* or between quotes. A bare value is one that neither the splitting of
  a row, nor the stripping of a cell, nor the recognition of a line can mistake for something
  else. Between quotes, escaping and unescaping undo each other. Joined by commas, with any spaces
  and tabs around them, written values are split into the same values again.
-/

namespace DatasetCatalog.Arff

open Text

/-! ### Values between quotes -/

/-- A value between quotes. -/
def quoted (value : List Char) : List Char := '\'' :: value.flatMap escapeQuoted ++ ['\'']

theorem quotedBody_cons {quote c : Char} (hb : c ≠ '\\') (hq : c ≠ quote) (rest : List Char) :
    quotedBody quote (c :: rest) =
      (quotedBody quote rest).map fun (body, after) => (c :: body, after) := by
  rw [quotedBody, if_neg hq]
  intro _ _ hc
  exact absurd hc hb

theorem quotedBody_escape (quote c : Char) (rest : List Char) :
    quotedBody quote ('\\' :: c :: rest) =
      (quotedBody quote rest).map fun (body, after) => (unescape c ++ body, after) := by
  rw [quotedBody]

/-- The escaped form of a character stands for that character. -/
theorem quotedBody_escapeQuoted (c : Char) (rest : List Char) :
    quotedBody '\'' (escapeQuoted c ++ rest) =
      (quotedBody '\'' rest).map fun (body, after) => (c :: body, after) := by
  -- five characters have an escape of their own, all others stand for themselves
  unfold escapeQuoted
  by_cases h₁ : c = '\\'
  · subst h₁
    exact quotedBody_escape '\'' '\\' rest
  by_cases h₂ : c = '\''
  · subst h₂
    exact quotedBody_escape '\'' '\'' rest
  by_cases h₃ : c = '\n'
  · subst h₃
    exact quotedBody_escape '\'' 'n' rest
  by_cases h₄ : c = '\t'
  · subst h₄
    exact quotedBody_escape '\'' 't' rest
  by_cases h₅ : c = '\r'
  · subst h₅
    exact quotedBody_escape '\'' 'r' rest
  rw [if_neg h₁, if_neg h₂, if_neg h₃, if_neg h₄, if_neg h₅]
  exact quotedBody_cons h₁ h₂ rest

/-- Reading up to the closing quote recovers the escaped value. -/
theorem quotedBody_flatMap (value rest : List Char) :
    quotedBody '\'' (value.flatMap escapeQuoted ++ '\'' :: rest) = some (value, rest) := by
  induction value with
  | nil => simp [quotedBody]
  | cons c value ih =>
    rw [List.flatMap_cons, List.append_assoc, quotedBody_escapeQuoted, ih]
    rfl

theorem newline_notMem_escapeQuoted (c : Char) : '\n' ∉ escapeQuoted c := by
  unfold escapeQuoted
  by_cases h : c = '\n'
  · subst h
    decide
  · have h' : '\n' ≠ c := fun he => h he.symm
    split_ifs <;> simp [h']

theorem newline_notMem_quoted (value : List Char) : '\n' ∉ quoted value := by
  unfold quoted
  simp only [List.cons_append, List.mem_cons, List.mem_append, List.mem_flatMap, not_or]
  refine ⟨by decide, ?_, by decide⟩
  rintro ⟨c, -, hc⟩
  exact newline_notMem_escapeQuoted c hc

theorem solid_quoted (value : List Char) : Solid (quoted value) where
  ne_nil := by simp [quoted]
  head := by
    intro c hc
    have : c = '\'' := by simpa [quoted, eq_comm] using hc
    subst this
    decide
  last := by
    intro c hc
    unfold quoted at hc
    rw [List.getLast?_concat] at hc
    have : c = '\'' := by simpa [eq_comm] using hc
    subst this
    decide

/-! ### Bare values -/

/-- A value that is read back without quotes, wherever it stands. -/
structure Bare (value : List Char) : Prop where
  /-- It survives stripping. -/
  solid : Solid value
  /-- It is not split. -/
  comma : ',' ∉ value
  /-- It stays on its line. -/
  newline : '\n' ∉ value
  /-- It is no name with a type behind it. -/
  name : ∀ c ∈ value, endsName c = false
  /-- It begins no quoted value, no comment, no keyword and no braces. -/
  head : ∀ c, value.head? = some c → isQuote c = false ∧ c ≠ '%' ∧ c ≠ '@' ∧ c ≠ '{'

/-- The search for the next comma passes a bare value. -/
theorem Bare.before_comma {value : List Char} (h : Bare value) :
    ∀ c ∈ value, decide (c ≠ ',') = true := by
  intro c hc
  have hne : c ≠ ',' := fun he => h.comma (he ▸ hc)
  exact decide_eq_true hne

/-- A value that needs no quotes holds none of the characters that ask for them. -/
theorem needsQuote_of_needsQuoting {value : List Char} (h : needsQuoting value = false)
    {c : Char} (hc : c ∈ value) : needsQuote c = false := by
  have hany : value.any needsQuote = false := by
    simp only [needsQuoting, Bool.or_eq_false_iff] at h
    exact h.2
  simpa using List.any_eq_false.1 hany c hc

/-- A value that needs no quotes is bare. -/
theorem bare_of_needsQuoting {value : List Char} (h : needsQuoting value = false) :
    Bare value := by
  have hfree : ∀ c ∈ value, needsQuote c = false := fun c hc => needsQuote_of_needsQuoting h hc
  simp only [needsQuoting, Bool.or_eq_false_iff, List.isEmpty_eq_false_iff,
    decide_eq_false_iff_not, not_not, beq_eq_false_iff_ne] at h
  obtain ⟨⟨⟨hne, hstrip⟩, hat⟩, -⟩ := h
  refine ⟨solid_of_strip_eq hne hstrip, ?_, ?_, ?_, ?_⟩
  · intro hc
    exact absurd (hfree _ hc) (by decide)
  · intro hc
    exact absurd (hfree _ hc) (by decide)
  · intro c hc
    have hf := hfree c hc
    simp only [needsQuote, decide_eq_false_iff_not, List.mem_cons, not_or] at hf
    simp [endsName, hf]
  · intro c hc
    have hf := hfree c (List.mem_of_head? hc)
    simp only [needsQuote, decide_eq_false_iff_not, List.mem_cons, not_or] at hf
    have hat' : c ≠ '@' := fun he => hat (by rw [hc, he])
    simp [isQuote, hf, hat']

/-- The usual missing marker is bare, although a value of this text would be quoted. -/
theorem bare_questionMark : Bare ['?'] where
  solid := ⟨by simp, by simp; decide, by simp; decide⟩
  comma := by decide
  newline := by decide
  name := by simp; decide
  head := by simp; decide

/-! ### Cells -/

/-- The text `text` is a way of writing the cell `raw`. -/
inductive Writes : List Char → RawCell → Prop where
  /-- A value between quotes. -/
  | quoted (value : List Char) : Writes (quoted value) ⟨value, true⟩
  /-- A bare value. -/
  | bare {value : List Char} (h : Bare value) : Writes value ⟨value, false⟩

namespace Writes

variable {text : List Char} {raw : RawCell}

theorem solid (h : Writes text raw) : Solid text := by
  cases h with
  | quoted value => exact solid_quoted value
  | bare h => exact h.solid

theorem newline (h : Writes text raw) : '\n' ∉ text := by
  cases h with
  | quoted value => exact newline_notMem_quoted value
  | bare h => exact h.newline

/-- The text of a cell begins no comment, no keyword and no braces. -/
theorem head (h : Writes text raw) {c : Char} (hc : text.head? = some c) :
    c ≠ '%' ∧ c ≠ '@' ∧ c ≠ '{' := by
  cases h with
  | quoted value =>
    have : c = '\'' := by simpa [Arff.quoted, eq_comm] using hc
    subst this
    decide
  | bare h => exact (h.head c hc).2

end Writes

/-- The cases of `cellsFrom`, without what shows that it ends. -/
theorem cellsFrom_eq (line total : Nat) (s : List Char) : cellsFrom line total s =
    match s.dropWhile isFill with
    | [] => .ok [⟨[], false⟩]
    | c :: body =>
      if isQuote c then
        match quotedBody c body with
        | none => .error ⟨line, .unterminatedQuote (total - body.length : Nat)⟩
        | some (value, after) =>
          match after.dropWhile isFill with
          | [] => .ok [⟨value, true⟩]
          | d :: more =>
            if d = ',' then (cellsFrom line total more).map (⟨value, true⟩ :: ·)
            else .error ⟨line, .afterQuote d⟩
      else
        match (c :: body).dropWhile (· ≠ ',') with
        | [] => .ok [⟨strip ((c :: body).takeWhile (· ≠ ',')), false⟩]
        | _ :: more =>
          (cellsFrom line total more).map
            (⟨strip ((c :: body).takeWhile (· ≠ ',')), false⟩ :: ·) := by
  rw [cellsFrom]
  split
  · next hs => rw [hs]
  · next c body hs =>
    rw [hs]
    dsimp only
    split
    · split
      · next hq => rw [hq]
      · next value after hq =>
        rw [hq]
        dsimp only
        split
        · next ha => rw [ha]
        · next ha => rw [ha]
    · split
      · next hm => rw [hm]
      · next hm => rw [hm]

/-- Nothing is dropped in front of a solid text. -/
theorem dropWhile_isFill_append {s : List Char} (h : Solid s) (rest : List Char) :
    (s ++ rest).dropWhile isFill = s ++ rest := by
  apply dropWhile_eq_self
  intro c hc
  rw [List.head?_append_of_ne_nil _ h.ne_nil] at hc
  have hblank := h.head c hc
  by_contra hf
  have hc' : c = ' ' ∨ c = '\t' := by
    simpa [isFill, or_iff_not_imp_left] using hf
  rcases hc' with rfl | rfl
  · exact absurd hblank (by decide)
  · exact absurd hblank (by decide)

/-- The text is a way of writing the cell, with any spaces and tabs around it. -/
inductive Spaced : List Char → RawCell → Prop where
  | intro {front text back : List Char} {raw : RawCell} (hfront : ∀ c ∈ front, isFill c = true)
      (h : Writes text raw) (hback : ∀ c ∈ back, isFill c = true) :
      Spaced (front ++ text ++ back) raw

theorem Writes.spaced {text : List Char} {raw : RawCell} (h : Writes text raw) :
    Spaced text raw := by
  have hs := @Spaced.intro [] text [] raw (by simp) h (by simp)
  rwa [List.nil_append, List.append_nil] at hs

theorem dropWhile_isFill_spaced {front text : List Char} {raw : RawCell}
    (hfront : ∀ c ∈ front, isFill c = true) (h : Writes text raw) (rest : List Char) :
    (front ++ text ++ rest).dropWhile isFill = text ++ rest := by
  rw [List.append_assoc, List.dropWhile_append_of_pos hfront, dropWhile_isFill_append h.solid]

/-- Spaces and tabs behind a bare value hold no comma and are stripped. -/
theorem Bare.fill {text back : List Char} (h : Bare text) (hback : ∀ c ∈ back, isFill c = true) :
    (∀ c ∈ text ++ back, decide (c ≠ ',') = true) ∧ strip (text ++ back) = text := by
  have hchars : ∀ c ∈ back, c = ' ' ∨ c = '\t' := by
    intro c hc
    have := hback c hc
    simpa [isFill] using this
  constructor
  · intro c hc
    rcases List.mem_append.1 hc with htext | hfill
    · exact h.before_comma c htext
    · rcases hchars c hfill with rfl | rfl
      · decide
      · decide
  · have hblank : ∀ c ∈ back, isBlank c = true := by
      intro c hc
      rcases hchars c hc with rfl | rfl
      · decide
      · decide
    have hstrip := @strip_surrounded [] back (by simp) hblank text
    rw [List.nil_append] at hstrip
    rw [hstrip, h.solid.strip_eq]

/-- A written cell is read up to the comma behind it. -/
theorem cellsFrom_append_comma {text : List Char} {raw : RawCell} (h : Spaced text raw)
    (line total : Nat) (rest : List Char) :
    cellsFrom line total (text ++ ',' :: rest) = (cellsFrom line total rest).map (raw :: ·) := by
  obtain @⟨front, text, back, raw, hfront, h, hback⟩ := h
  rw [cellsFrom_eq, List.append_assoc, dropWhile_isFill_spaced hfront h]
  cases h with
  | quoted value =>
    have hq := quotedBody_flatMap value (back ++ ',' :: rest)
    have hcomma : (back ++ ',' :: rest).dropWhile isFill = ',' :: rest := by
      rw [List.dropWhile_append_of_pos hback]
      rfl
    simp only [Arff.quoted, List.cons_append, List.append_assoc, List.nil_append]
    rw [if_pos (by decide), hq]
    simp only [hcomma, if_true]
  | bare h =>
    obtain ⟨hfree, hstrip⟩ := h.fill hback
    cases text with
    | nil => exact absurd rfl h.solid.ne_nil
    | cons c body =>
      have hc := (h.head c rfl).1
      have htake : (c :: body ++ (back ++ ',' :: rest)).takeWhile (· ≠ ',') =
          c :: body ++ back := by
        rw [← List.append_assoc, List.takeWhile_append_of_pos hfree]
        simp
      have hdrop : (c :: body ++ (back ++ ',' :: rest)).dropWhile (· ≠ ',') = ',' :: rest := by
        rw [← List.append_assoc, List.dropWhile_append_of_pos hfree]
        simp
      simp only [List.cons_append] at htake hdrop hstrip ⊢
      rw [if_neg (by simp [hc]), htake, hdrop, hstrip]

/-- A written cell at the end of a row. -/
theorem cellsFrom_last {text : List Char} {raw : RawCell} (h : Spaced text raw)
    (line total : Nat) : cellsFrom line total text = .ok [raw] := by
  obtain @⟨front, text, back, raw, hfront, h, hback⟩ := h
  rw [cellsFrom_eq, dropWhile_isFill_spaced hfront h]
  cases h with
  | quoted value =>
    have hq := quotedBody_flatMap value back
    have hend : back.dropWhile isFill = [] := List.dropWhile_eq_nil_iff.2 hback
    simp only [Arff.quoted, List.cons_append, List.append_assoc, List.nil_append]
    rw [if_pos (by decide), hq]
    simp only [hend]
  | bare h =>
    obtain ⟨hfree, hstrip⟩ := h.fill hback
    cases text with
    | nil => exact absurd rfl h.solid.ne_nil
    | cons c body =>
      have hc := (h.head c rfl).1
      simp only [List.cons_append] at hfree hstrip ⊢
      rw [if_neg (by simp [hc]), List.dropWhile_eq_nil_iff.2 hfree,
        List.takeWhile_eq_self_iff.2 hfree, hstrip]

/-- Splitting recovers the cells whose texts were joined, with any spaces and tabs around them. -/
theorem cellsFrom_spaced {texts : List (List Char)} {raws : List RawCell}
    (h : List.Forall₂ Spaced texts raws) (hne : texts ≠ []) (line total : Nat) :
    cellsFrom line total (joinWith [','] texts) = .ok raws := by
  induction h with
  | nil => exact absurd rfl hne
  | @cons text raw texts raws htext htexts ih =>
    -- the last cell has no comma behind it
    by_cases hts : texts = []
    · subst hts
      cases htexts
      exact cellsFrom_last htext line total
    · rw [joinWith_cons hts, List.append_assoc, List.singleton_append,
        cellsFrom_append_comma htext, ih hts]
      rfl

/-- Splitting recovers the cells whose texts were joined. -/
theorem cellsFrom_joinWith {texts : List (List Char)} {raws : List RawCell}
    (h : List.Forall₂ Writes texts raws) (hne : texts ≠ []) (line total : Nat) :
    cellsFrom line total (joinWith [','] texts) = .ok raws :=
  cellsFrom_spaced (h.imp fun _ _ hw => hw.spaced) hne line total

/-! ### Items of a sparse row -/

/-- The cases of `sparseItemsFrom`, without what shows that it ends. -/
theorem sparseItemsFrom_cons (line total : Nat) (c : Char) (rest : List Char) :
    sparseItemsFrom line total (c :: rest) =
      if isQuote c then
        match quotedBody c rest with
        | none => .error ⟨line, .unterminatedQuote (total - rest.length : Nat)⟩
        | some (_, after) =>
          (sparseItemsFrom line total after).map
            (prependItem (c :: rest.take (rest.length - after.length)))
      else if c = ',' then (sparseItemsFrom line total rest).map ([] :: ·)
      else (sparseItemsFrom line total rest).map (prependItem [c]) := by
  rw [sparseItemsFrom]
  split
  · split
    · next hq => rw [hq]
    · next hq => rw [hq]
  · rfl

/-! ### The written form of a value -/

/-- The cell that a written value is read as. -/
def rawOf (value : List Char) : RawCell := ⟨value, needsQuoting value⟩

theorem quoteValue_of_needsQuoting {value : List Char} (h : needsQuoting value = true) :
    quoteValue value = quoted value := by
  simp [quoteValue, quoted, h]

theorem quoteValue_of_bare {value : List Char} (h : needsQuoting value = false) :
    quoteValue value = value := by
  simp [quoteValue, h]

/-- Escaping changes nothing in a value that needs no quotes. -/
theorem flatMap_escapeQuoted_of_bare {value : List Char} (h : needsQuoting value = false) :
    value.flatMap escapeQuoted = value := by
  have hid : ∀ c ∈ value, escapeQuoted c = [c] := by
    intro c hc
    have hf := needsQuote_of_needsQuoting h hc
    simp only [needsQuote, decide_eq_false_iff_not, List.mem_cons, not_or] at hf
    simp [escapeQuoted, hf]
  clear h
  induction value with
  | nil => rfl
  | cons c value ih =>
    rw [List.flatMap_cons, hid c (by simp), ih fun x hx => hid x (by simp [hx])]
    rfl

theorem writes_quoteValue (value : List Char) : Writes (quoteValue value) (rawOf value) := by
  unfold rawOf
  cases h : needsQuoting value with
  | true =>
    rw [quoteValue_of_needsQuoting h]
    exact .quoted value
  | false =>
    rw [quoteValue_of_bare h]
    exact .bare (bare_of_needsQuoting h)

/-- A written value differs from the value exactly when it is between quotes. -/
theorem quoteValue_ne_iff (value : List Char) :
    quoteValue value ≠ value ↔ needsQuoting value = true := by
  constructor
  · intro hne
    by_contra hbare
    exact hne (quoteValue_of_bare (by simpa using hbare))
  · intro hquote heq
    -- two quotes and the escaped characters are longer than the characters
    have hlength : ∀ value : List Char, value.length ≤ (value.flatMap escapeQuoted).length := by
      intro value
      induction value with
      | nil => exact Nat.le_refl _
      | cons c value ih =>
        have hc : 1 ≤ (escapeQuoted c).length := by
          unfold escapeQuoted
          split_ifs <;> simp
        rw [List.flatMap_cons, List.length_append, List.length_cons]
        omega
    have hsame := congrArg List.length heq
    rw [quoteValue_of_needsQuoting hquote, quoted, List.length_append, List.length_cons,
      List.length_singleton] at hsame
    have := hlength value
    omega

/-! ### Values with space around them -/

/-- A value, and the spaces and tabs that stand around its written form. -/
structure SpacedValue where
  /-- What stands in front. -/
  before : List Char
  /-- The value. -/
  value : List Char
  /-- What stands behind. -/
  after : List Char
  /-- Spaces and tabs stand in front. -/
  before_fill : ∀ c ∈ before, isFill c = true
  /-- Spaces and tabs stand behind. -/
  after_fill : ∀ c ∈ after, isFill c = true

/-- The written value with the space around it. -/
def SpacedValue.text (v : SpacedValue) : List Char := v.before ++ quoteValue v.value ++ v.after

/-- **Splitting undoes writing and joining.** Values that are written with any spaces and tabs
    around them and joined by commas are split into the same values again, and a value counts as
    quoted exactly when its written form is not the value itself. -/
theorem cells_joinWith_text (line : Nat) {vs : List SpacedValue} (hne : vs ≠ []) :
    cells line (joinWith [','] (vs.map SpacedValue.text)) =
      .ok (vs.map fun v => ⟨v.value, decide (quoteValue v.value ≠ v.value)⟩) := by
  have hraw : ∀ v : SpacedValue,
      (⟨v.value, decide (quoteValue v.value ≠ v.value)⟩ : RawCell) = rawOf v.value := by
    intro v
    have hquoted : decide (quoteValue v.value ≠ v.value) = needsQuoting v.value := by
      rw [Bool.eq_iff_iff, decide_eq_true_iff]
      exact quoteValue_ne_iff v.value
    rw [hquoted, rawOf]
  have hspaced : List.Forall₂ Spaced (vs.map SpacedValue.text) (vs.map fun v => rawOf v.value) := by
    rw [List.forall₂_map_left_iff, List.forall₂_map_right_iff, List.forall₂_same]
    intro v _
    exact .intro v.before_fill (writes_quoteValue v.value) v.after_fill
  simp only [hraw]
  exact cellsFrom_spaced hspaced (by simpa using hne) line _

/-- An empty value, one of a quote, a backslash and a comma, and a bare one, with space around
    them. -/
theorem cells_joinWith_odd_values : ∃ vs : List SpacedValue, vs ≠ [] ∧
    joinWith [','] (vs.map SpacedValue.text) = "\t'' , '\\'\\\\,'\t,a ".toList ∧
    cells 1 "\t'' , '\\'\\\\,'\t,a ".toList =
      .ok [⟨[], true⟩, ⟨['\'', '\\', ','], true⟩, ⟨['a'], false⟩] := by
  let vs : List SpacedValue :=
    [⟨['\t'], [], [' '], by simp [isFill], by simp [isFill]⟩,
      ⟨[' '], ['\'', '\\', ','], ['\t'], by simp [isFill], by simp [isFill]⟩,
      ⟨[], ['a'], [' '], by simp, by simp [isFill]⟩]
  have hne : vs ≠ [] := List.cons_ne_nil _ _
  have htext : joinWith [','] (vs.map SpacedValue.text) = "\t'' , '\\'\\\\,'\t,a ".toList := by
    decide +kernel
  have hcells := cells_joinWith_text 1 hne
  rw [htext] at hcells
  exact ⟨vs, hne, htext, hcells⟩

end DatasetCatalog.Arff
