import DatasetCatalog.Proofs.Arff.Token

/-! # Where a quoted value ends

  A value between quotes ends at the first quote of its kind that no backslash takes into an
  escape. A backslash takes the character behind it, which may be a backslash itself and then
  takes nothing. The reader goes over the value from escape to escape and never looks behind the
  closing quote.
-/

namespace DatasetCatalog.Arff

/-! ### The text from a position on -/

theorem getElem?_of_drop_eq_cons {text rest : List Char} {k : Nat} {c : Char}
    (h : text.drop k = c :: rest) : text[k]? = some c ∧ text.drop (k + 1) = rest := by
  constructor
  · rw [← List.head?_drop, h, List.head?_cons]
  · rw [← List.tail_drop, h, List.tail_cons]

theorem drop_eq_cons_of_getElem? {text : List Char} {k : Nat} {c : Char}
    (h : text[k]? = some c) : text.drop k = c :: text.drop (k + 1) := by
  obtain ⟨hlt, rfl⟩ := List.getElem?_eq_some_iff.1 h
  exact List.drop_eq_getElem_cons hlt

/-! ### Escapes and closing quotes -/

/-- The character at the position belongs to the backslash in front of it, which is not escaped
    itself. -/
def Escaped (text : List Char) : Nat → Prop
  | 0 => False
  | i + 1 => text[i]? = some '\\' ∧ ¬Escaped text i

/-- The quote at `start` is closed by the one at `stop`. -/
structure Closes (text : List Char) (start stop : Nat) : Prop where
  /-- It stands behind the opening quote. -/
  behind : start < stop
  /-- It stands in the text. -/
  inside : stop < text.length
  /-- It is a quote of the same kind. -/
  same : text[stop]? = text[start]?
  /-- It belongs to no escape. -/
  free : ¬Escaped text stop
  /-- It is the first such quote. -/
  first : ∀ i, start < i → i < stop → text[i]? = text[start]? → Escaped text i

/-! ### The way of the reader -/

/-- A backslash with nothing behind it ends the text. -/
theorem eq_nil_of_lone_backslash {c : Char} {rest : List Char}
    (hlast : ∀ d more, c = '\\' → rest = d :: more → False) (hslash : c = '\\') : rest = [] := by
  cases rest with
  | nil => rfl
  | cons d more => exact (hlast d more hslash rfl).elim

/-- Between the quote at `start` and position `k` no quote has closed the value, and no escape
    reaches over `k`. -/
structure Open (text : List Char) (start k : Nat) : Prop where
  /-- The position stands behind the opening quote. -/
  behind : start < k
  /-- The character at the position belongs to no escape. -/
  free : ¬Escaped text k
  /-- Quotes in front of the position are escaped. -/
  escaped : ∀ i, start < i → i < k → text[i]? = text[start]? → Escaped text i

/-- What a reader that has passed the quote at `start` may come to. -/
inductive Stops (text : List Char) (start : Nat) : Option (List Char × List Char) → Prop where
  /-- It stops behind the closing quote. -/
  | closed {stop : Nat} (content : List Char) (h : Closes text start stop) :
      Stops text start (some (content, text.drop (stop + 1)))
  /-- Nothing closes the value. -/
  | unclosed (h : ∀ stop, ¬Closes text start stop) : Stops text start none

section Reading

variable {text : List Char} {start k : Nat} {quote : Char}

/-- Where the reader stops does not depend on what it makes of the characters. -/
theorem Stops.map {result : Option (List Char × List Char)} (h : Stops text start result)
    (f : List Char → List Char) :
    Stops text start (result.map fun (body, after) => (f body, after)) := by
  cases h with
  | closed content h => exact .closed (f content) h
  | unclosed h => exact .unclosed h

/-- Behind the opening quote nothing is escaped. -/
theorem open_succ (hquote : text[start]? = some quote) (hb : quote ≠ '\\') :
    Open text start (start + 1) where
  behind := Nat.lt_succ_self start
  free := by
    rintro ⟨hslash, -⟩
    rw [hquote] at hslash
    exact hb (Option.some.inj hslash)
  escaped := by
    intro i hi hk
    omega

namespace Open

/-- A character that is neither the quote nor a backslash is passed. -/
theorem char (h : Open text start k) {c : Char} (hc : text[k]? = some c) (hslash : c ≠ '\\')
    (hne : text[k]? ≠ text[start]?) : Open text start (k + 1) where
  behind := Nat.lt_succ_of_lt h.behind
  free := by
    rintro ⟨hk, -⟩
    rw [hc] at hk
    exact hslash (Option.some.inj hk)
  escaped := by
    intro i hi hik hsame
    obtain rfl | hlt := Nat.eq_or_lt_of_le (Nat.le_of_lt_succ hik)
    · exact absurd hsame hne
    · exact h.escaped i hi hlt hsame

/-- An escape is passed as a whole. -/
theorem escape (h : Open text start k) (hc : text[k]? = some '\\')
    (hne : text[k]? ≠ text[start]?) : Open text start (k + 2) where
  behind := Nat.lt_add_right 2 h.behind
  free := by
    -- the character in between is escaped, so it escapes nothing
    rintro ⟨-, hfree⟩
    exact hfree ⟨hc, h.free⟩
  escaped := by
    intro i hi hik hsame
    obtain rfl | hle := Nat.eq_or_lt_of_le (Nat.le_of_lt_succ hik)
    · exact ⟨hc, h.free⟩
    · obtain rfl | hlt := Nat.eq_or_lt_of_le (Nat.le_of_lt_succ hle)
      · exact absurd hsame hne
      · exact h.escaped i hi hlt hsame

/-- Whatever closes the value does not stand in front of the position. -/
theorem le_of_closes (h : Open text start k) {stop : Nat} (hstop : Closes text start stop) :
    k ≤ stop := by
  by_contra hlt
  exact hstop.free (h.escaped stop hstop.behind (Nat.lt_of_not_le hlt) hstop.same)

/-- An unescaped quote at the position closes the value. -/
theorem closes (h : Open text start k) (hk : k < text.length)
    (hsame : text[k]? = text[start]?) : Closes text start k :=
  ⟨h.behind, hk, hsame, h.free, h.escaped⟩

/-- The reader comes to the closing quote, or to the end of the text when there is none. -/
theorem stops (h : Open text start k) (hquote : text[start]? = some quote) (hb : quote ≠ '\\') :
    Stops text start (quotedBody quote (text.drop k)) := by
  generalize hs : text.drop k = s
  -- one case for each kind of step; `k` moves on with the rest of the text
  fun_induction quotedBody quote s generalizing k with
  | case1 =>
    refine .unclosed ?_
    intro stop hstop
    have hend := List.drop_eq_nil_iff.1 hs
    have hle := h.le_of_closes hstop
    have := hstop.inside
    omega
  | case2 c rest ih =>
    obtain ⟨hk, hnext⟩ := getElem?_of_drop_eq_cons hs
    obtain ⟨-, hrest⟩ := getElem?_of_drop_eq_cons hnext
    have hne : text[k]? ≠ text[start]? := by
      rw [hk, hquote]
      exact fun he => hb (Option.some.inj he).symm
    exact (ih (h.escape hk hne) hrest).map _
  | case3 rest =>
    obtain ⟨hk, rfl⟩ := getElem?_of_drop_eq_cons hs
    have hlt : k < text.length := (List.getElem?_eq_some_iff.1 hk).1
    exact .closed [] (h.closes hlt (hk.trans hquote.symm))
  | case4 c rest hlast hc ih =>
    obtain ⟨hk, hrest⟩ := getElem?_of_drop_eq_cons hs
    have hne : text[k]? ≠ text[start]? := by
      rw [hk, hquote]
      exact fun he => hc (Option.some.inj he)
    by_cases hslash : c = '\\'
    · -- a backslash that is no escape ends the text
      obtain rfl := eq_nil_of_lone_backslash hlast hslash
      refine .unclosed ?_
      intro stop hstop
      have hend := List.drop_eq_nil_iff.1 hrest
      have hle := h.le_of_closes hstop
      have hlt := hstop.inside
      obtain rfl : stop = k := by omega
      exact hne hstop.same
    · exact (ih (h.char hk hslash hne) hrest).map _

end Open

/-- A value is closed at one place. -/
theorem Closes.unique {stop stop' : Nat} (h : Closes text start stop)
    (h' : Closes text start stop') : stop = stop' := by
  obtain hlt | heq | hlt := Nat.lt_trichotomy stop stop'
  · exact absurd (h'.first stop h.behind hlt h.same) h.free
  · exact heq
  · exact absurd (h.first stop' h'.behind hlt h'.same) h'.free

/-- The reader that begins behind the opening quote stops behind the closing one. -/
theorem exists_quotedBody_iff (hquote : text[start]? = some quote) (hb : quote ≠ '\\')
    {after : List Char} :
    (∃ content, quotedBody quote (text.drop (start + 1)) = some (content, after)) ↔
      ∃ stop, Closes text start stop ∧ text.drop (stop + 1) = after := by
  have hstops := (open_succ hquote hb).stops hquote hb
  generalize quotedBody quote (text.drop (start + 1)) = result at hstops
  cases hstops with
  | @closed stop content h =>
    constructor
    · rintro ⟨content', hcontent⟩
      cases hcontent
      exact ⟨stop, h, rfl⟩
    · rintro ⟨stop', h', rfl⟩
      obtain rfl := h.unique h'
      exact ⟨content, rfl⟩
  | unclosed h =>
    constructor
    · rintro ⟨content, hcontent⟩
      cases hcontent
    · rintro ⟨stop, hstop, -⟩
      exact absurd hstop (h stop)

/-- The reader fails when nothing closes the value. -/
theorem quotedBody_eq_none_iff (hquote : text[start]? = some quote) (hb : quote ≠ '\\') :
    quotedBody quote (text.drop (start + 1)) = none ↔ ∀ stop, ¬Closes text start stop := by
  have hstops := (open_succ hquote hb).stops hquote hb
  generalize quotedBody quote (text.drop (start + 1)) = result at hstops
  cases hstops with
  | @closed stop content h =>
    constructor
    · intro hnone
      cases hnone
    · intro hopen
      exact absurd h (hopen stop)
  | unclosed h => exact ⟨fun _ => h, fun _ => rfl⟩

end Reading

/-- What a value holds does not depend on what follows its closing quote. -/
theorem exists_quotedBody_append {quote : Char} (hb : quote ≠ '\\') {s content after : List Char}
    (h : quotedBody quote s = some (content, after)) :
    ∃ inside, s = inside ++ after ∧
      ∀ rest, quotedBody quote (inside ++ rest) = some (content, rest) := by
  fun_induction quotedBody quote s generalizing content with
  | case1 => cases h
  | case2 c tail ih =>
    obtain ⟨⟨content, _⟩, hbody, heq⟩ := Option.map_eq_some_iff.1 h
    cases heq
    obtain ⟨inside, rfl, hinside⟩ := ih hbody
    refine ⟨'\\' :: c :: inside, rfl, ?_⟩
    intro rest
    rw [List.cons_append, List.cons_append, quotedBody_escape, hinside]
    rfl
  | case3 tail =>
    cases h
    refine ⟨[quote], rfl, ?_⟩
    intro rest
    rw [List.singleton_append, quotedBody, if_pos rfl]
    intro _ _ hslash
    exact absurd hslash hb
  | case4 c tail hlast hc ih =>
    obtain ⟨⟨content, _⟩, hbody, heq⟩ := Option.map_eq_some_iff.1 h
    cases heq
    have hslash : c ≠ '\\' := by
      intro hslash
      rw [eq_nil_of_lone_backslash hlast hslash] at hbody
      cases hbody
    obtain ⟨inside, rfl, hinside⟩ := ih hbody
    refine ⟨c :: inside, rfl, ?_⟩
    intro rest
    rw [List.cons_append, quotedBody_cons hslash hc, hinside]
    rfl

/-! ### A value and its place -/

/-- A value ends behind its beginning and inside the text. -/
theorem bounds_of_quotedAt {line : Nat} {text : List Char} {start : Nat} {content : List Char}
    {stop : Nat} (h : quotedAt line text start = some (.ok (content, stop))) :
    start < stop ∧ stop ≤ text.length := by
  unfold quotedAt at h
  split at h
  · cases h
  · next quote body hdrop =>
    have hlength := congrArg List.length hdrop
    rw [List.length_drop, List.length_cons] at hlength
    have h := Option.some.inj h
    split at h
    · cases h
    · next content after hbody =>
      have hafter := length_of_quotedBody hbody
      cases h
      omega

/-- A value that begins with a quote ends just behind the closing quote; without one, reading it
    fails. -/
theorem quotedAt_outcome {text : List Char} {start : Nat} {quote : Char}
    (hquote : text[start]? = some quote) (hb : quote ≠ '\\') (line : Nat) :
    (quotedAt line text start = some (.error ⟨line, .unterminatedQuote (start + 1)⟩) ∧
        ∀ stop, ¬Closes text start stop) ∨
      ∃ content stop, quotedAt line text start = some (.ok (content, stop + 1)) ∧
        Closes text start stop := by
  have hdrop := drop_eq_cons_of_getElem? hquote
  have hstops := (open_succ hquote hb).stops hquote hb
  generalize hbody : quotedBody quote (text.drop (start + 1)) = result at hstops
  cases hstops with
  | @closed stop content h =>
    right
    refine ⟨content, stop, ?_, h⟩
    have hend : text.length - (text.drop (stop + 1)).length = stop + 1 := by
      have := h.inside
      rw [List.length_drop]
      omega
    simp only [quotedAt, hdrop, hbody, hend]
  | unclosed h =>
    left
    refine ⟨?_, h⟩
    simp only [quotedAt, hdrop, hbody]

end DatasetCatalog.Arff
