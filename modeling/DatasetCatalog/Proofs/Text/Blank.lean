import DatasetCatalog.Text.Blank
import Mathlib.Data.List.Basic
import Mathlib.Data.List.Induction
import Mathlib.Data.List.TakeWhile

/-! # Stripped texts, words and pieces

  A text is *solid* when it has a first and a last character and neither is blank. Stripping
  leaves a solid text alone and makes every other text solid or empty, so solid texts are what
  survives a line or a cell that is stripped on reading. Joining pieces and splitting at the
  separator undo each other as long as no piece holds the separator.
-/

namespace DatasetCatalog.Text

/-! ### Solid texts -/

/-- The text is not empty and neither begins nor ends blank. -/
structure Solid (s : List Char) : Prop where
  /-- There is a character. -/
  ne_nil : s ≠ []
  /-- The first character is not blank. -/
  head : ∀ c, s.head? = some c → isBlank c = false
  /-- The last character is not blank. -/
  last : ∀ c, s.getLast? = some c → isBlank c = false

theorem dropWhile_eq_self {p : Char → Bool} {s : List Char}
    (h : ∀ c, s.head? = some c → p c = false) : s.dropWhile p = s := by
  cases s with
  | nil => rfl
  | cons c rest => simp [h c rfl]

theorem dropEndWhile_eq_self {p : Char → Bool} {s : List Char}
    (h : ∀ c, s.getLast? = some c → p c = false) : dropEndWhile p s = s := by
  unfold dropEndWhile
  rw [dropWhile_eq_self (by simpa using h), List.reverse_reverse]

theorem stripBy_eq_self {p : Char → Bool} {s : List Char}
    (hhead : ∀ c, s.head? = some c → p c = false)
    (hlast : ∀ c, s.getLast? = some c → p c = false) : stripBy p s = s := by
  unfold stripBy
  rw [dropWhile_eq_self hhead, dropEndWhile_eq_self hlast]

theorem Solid.strip_eq {s : List Char} (h : Solid s) : strip s = s :=
  stripBy_eq_self h.head h.last

theorem dropEndWhile_prefix_self (p : Char → Bool) (s : List Char) : dropEndWhile p s <+: s := by
  have hsuffix := List.dropWhile_suffix (l := s.reverse) p
  rw [← List.reverse_prefix, List.reverse_reverse] at hsuffix
  exact hsuffix

theorem strip_infix_self (s : List Char) : strip s <:+: s :=
  (dropEndWhile_prefix_self isBlank (s.dropWhile isBlank)).isInfix.trans
    (List.dropWhile_suffix isBlank).isInfix

theorem head?_dropEndWhile {p : Char → Bool} {s : List Char} (h : dropEndWhile p s ≠ []) :
    (dropEndWhile p s).head? = s.head? := by
  -- dropping from the end leaves a prefix, which begins like the text unless it is empty
  obtain ⟨t, ht⟩ := dropEndWhile_prefix_self p s
  conv_rhs => rw [← ht]
  rw [List.head?_append_of_ne_nil _ h]

/-- What stripping leaves is solid, if it leaves anything. -/
theorem solid_strip {s : List Char} (h : strip s ≠ []) : Solid (strip s) where
  ne_nil := h
  head := by
    intro c hc
    have hd := head?_dropEndWhile (p := isBlank) (s := s.dropWhile isBlank) h
    have hc' : (s.dropWhile isBlank).head? = some c := by rw [← hd]; exact hc
    have := List.head?_dropWhile_not isBlank s
    rw [hc'] at this
    simpa using this
  last := by
    intro c hc
    have := List.head?_dropWhile_not isBlank (s.dropWhile isBlank).reverse
    unfold strip stripBy dropEndWhile at hc
    rw [List.getLast?_reverse] at hc
    rw [hc] at this
    simpa using this

/-- A text that stripping leaves alone is solid, if it is not empty. -/
theorem solid_of_strip_eq {s : List Char} (hne : s ≠ []) (h : strip s = s) : Solid s :=
  h ▸ solid_strip (h.symm ▸ hne)

theorem Solid.append {a m b : List Char} (ha : Solid a) (hb : Solid b) : Solid (a ++ m ++ b) where
  ne_nil := by
    have := ha.ne_nil
    simp [this]
  head := by
    rw [List.append_assoc, List.head?_append_of_ne_nil _ ha.ne_nil]
    exact ha.head
  last := by
    rw [List.getLast?_append_of_ne_nil _ hb.ne_nil]
    exact hb.last

/-- What is dropped at the ends satisfies the condition. -/
theorem exists_stripBy (p : Char → Bool) (s : List Char) : ∃ front back,
    s = front ++ stripBy p s ++ back ∧ (∀ c ∈ front, p c = true) ∧ ∀ c ∈ back, p c = true := by
  refine ⟨s.takeWhile p, ((s.dropWhile p).reverse.takeWhile p).reverse, ?_,
    fun c => List.mem_takeWhile_imp, fun c hc => ?_⟩
  · unfold stripBy dropEndWhile
    rw [List.append_assoc, ← List.reverse_append, List.takeWhile_append_dropWhile,
      List.reverse_reverse, List.takeWhile_append_dropWhile]
  · exact List.mem_takeWhile_imp (List.mem_reverse.1 hc)

theorem strip_cons_of_blank {c : Char} (hc : isBlank c = true) (s : List Char) :
    strip (c :: s) = strip s := by
  simp [strip, stripBy, hc]

theorem strip_concat_of_blank (s : List Char) {c : Char} (hc : isBlank c = true) :
    strip (s ++ [c]) = strip s := by
  unfold strip stripBy
  rw [List.dropWhile_append]
  split
  -- a text of blanks is stripped to nothing, with one more or without
  · next hempty =>
    rw [List.isEmpty_iff.1 hempty]
    simp [hc]
  · simp [dropEndWhile, hc]

/-- White space around a text is stripped. -/
theorem strip_surrounded {front back : List Char} (hfront : ∀ c ∈ front, isBlank c = true)
    (hback : ∀ c ∈ back, isBlank c = true) (s : List Char) :
    strip (front ++ s ++ back) = strip s := by
  have hleft : strip (front ++ s) = strip s := by
    induction front with
    | nil => rfl
    | cons c front ih =>
      rw [List.cons_append, strip_cons_of_blank (hfront c List.mem_cons_self)]
      exact ih fun d hd => hfront d (List.mem_cons_of_mem c hd)
  rw [← hleft]
  clear hleft
  induction back using List.reverseRecOn with
  | nil => rw [List.append_nil]
  | append_singleton back c ih =>
    rw [← List.append_assoc, strip_concat_of_blank _ (hback c (by simp))]
    exact ih fun d hd => hback d (by simp [hd])

theorem strip_of_forall_blank {s : List Char} (h : ∀ c ∈ s, isBlank c = true) : strip s = [] := by
  have hs : strip (s ++ [] ++ []) = strip [] := strip_surrounded h (by simp) []
  rwa [List.append_nil, List.append_nil] at hs

/-- A text that is not blank begins, when it is stripped, with its first character that is not
    blank. -/
theorem head?_strip {s : List Char} {c : Char} (h : (s.dropWhile isBlank).head? = some c) :
    (strip s).head? = some c := by
  have hne : strip s ≠ [] := by
    intro hnil
    have hc := List.head?_dropWhile_not isBlank s
    rw [h] at hc
    obtain ⟨rest, hrest⟩ := List.head?_eq_some_iff.1 h
    unfold strip stripBy dropEndWhile at hnil
    rw [hrest, List.reverse_eq_nil_iff, List.dropWhile_eq_nil_iff] at hnil
    exact absurd (hnil c (by simp)) (by simpa using hc)
  exact (head?_dropEndWhile hne).trans h

/-! ### Words -/

/-- The first word of a text that goes on with a blank. -/
theorem splitWord_append (word : List Char) (c : Char) (rest : List Char)
    (hw : ∀ d ∈ word, isBlank d = false) (hc : isBlank c = true) :
    (splitWord (word ++ c :: rest)).1 = word := by
  unfold splitWord
  induction word with
  | nil => simp [hc]
  | cons d word ih =>
    have hd := hw d (by simp)
    have ih' := ih fun x hx => hw x (by simp [hx])
    simpa [hd] using ih'

/-- A word and a solid text behind it are told apart by the blank between them. -/
theorem splitWord_append_of_solid (word : List Char) {c : Char} {rest : List Char}
    (hw : ∀ d ∈ word, isBlank d = false) (hc : isBlank c = true) (hrest : Solid rest) :
    splitWord (word ++ c :: rest) = (word, rest) := by
  have hkept : ∀ d ∈ word, (!isBlank d) = true := by
    intro d hd
    rw [hw d hd]
    rfl
  apply Prod.ext
  · exact splitWord_append word c rest hw hc
  · unfold splitWord
    simp only
    rw [List.dropWhile_append_of_pos hkept, List.dropWhile_cons_of_neg (by simp [hc]),
      List.dropWhile_cons_of_pos hc, dropWhile_eq_self hrest.head]

/-! ### Pieces -/

/-- The first piece ends at the first separator. -/
theorem splitOn_append_cons {sep : Char} {piece : List Char} (hp : sep ∉ piece)
    (rest : List Char) : splitOn sep (piece ++ sep :: rest) = piece :: splitOn sep rest := by
  induction piece with
  | nil => simp [splitOn]
  | cons c piece ih =>
    have hc : c ≠ sep := fun h => hp (by simp [h])
    have ih' := ih fun h => hp (by simp [h])
    rw [List.cons_append, splitOn, if_neg hc, ih']

theorem splitOn_of_notMem {sep : Char} {piece : List Char} (hp : sep ∉ piece) :
    splitOn sep piece = [piece] := by
  induction piece with
  | nil => rfl
  | cons c piece ih =>
    have hc : c ≠ sep := fun h => hp (by simp [h])
    have ih' := ih fun h => hp (by simp [h])
    rw [splitOn, if_neg hc, ih']

/-- No piece holds the separator. -/
theorem notMem_of_mem_splitOn {sep : Char} {s piece : List Char} (h : piece ∈ splitOn sep s) :
    sep ∉ piece := by
  induction s generalizing piece with
  | nil => simp_all [splitOn]
  | cons c s ih =>
    by_cases hc : c = sep
    · rw [splitOn, if_pos hc, List.mem_cons] at h
      obtain rfl | h := h
      · exact List.not_mem_nil
      · exact ih h
    · have hsep : sep ∉ [c] := by simpa using Ne.symm hc
      rw [splitOn, if_neg hc] at h
      revert h ih
      cases splitOn sep s with
      | nil => simp_all
      | cons first rest =>
        intro ih h
        obtain rfl | h := List.mem_cons.1 h
        · have hfirst := ih List.mem_cons_self
          simp_all
        · exact ih (List.mem_cons_of_mem _ h)

theorem joinWith_cons {sep : List Char} {piece : List Char} {pieces : List (List Char)}
    (h : pieces ≠ []) : joinWith sep (piece :: pieces) = piece ++ sep ++ joinWith sep pieces := by
  cases pieces with
  | nil => exact absurd rfl h
  | cons next rest => rfl

/-- Splitting recovers the pieces that were joined and closed by a separator. -/
theorem splitOn_joinWith {sep : Char} {pieces : List (List Char)} (hne : pieces ≠ [])
    (hp : ∀ piece ∈ pieces, sep ∉ piece) (rest : List Char) :
    splitOn sep (joinWith [sep] pieces ++ sep :: rest) = pieces ++ splitOn sep rest := by
  induction pieces with
  | nil => exact absurd rfl hne
  | cons piece pieces ih =>
    have hpiece := hp piece (by simp)
    by_cases h : pieces = []
    · subst h
      simpa [joinWith] using splitOn_append_cons hpiece rest
    · have ih' := ih h fun p hmem => hp p (by simp [hmem])
      rw [joinWith_cons h]
      simp only [List.append_assoc, List.cons_append, List.nil_append]
      rw [splitOn_append_cons hpiece, ih']

/-- Splitting recovers the pieces that were joined. -/
theorem splitOn_joinWith_last {sep : Char} {pieces : List (List Char)} (hne : pieces ≠ [])
    (hp : ∀ piece ∈ pieces, sep ∉ piece) : splitOn sep (joinWith [sep] pieces) = pieces := by
  induction pieces with
  | nil => exact absurd rfl hne
  | cons piece pieces ih =>
    have hpiece := hp piece (by simp)
    by_cases h : pieces = []
    · subst h
      exact splitOn_of_notMem hpiece
    · have ih' := ih h fun p hmem => hp p (by simp [hmem])
      rw [joinWith_cons h, List.append_assoc, List.singleton_append,
        splitOn_append_cons hpiece, ih']

theorem splitOn_ne_nil (sep : Char) (s : List Char) : splitOn sep s ≠ [] := by
  cases s with
  | nil => simp [splitOn]
  | cons c s =>
    rw [splitOn]
    split
    · simp
    · split
      all_goals simp

/-- Joining recovers the text that was split. -/
theorem joinWith_splitOn (sep : Char) (s : List Char) : joinWith [sep] (splitOn sep s) = s := by
  induction s with
  | nil => rfl
  | cons c s ih =>
    have hne := splitOn_ne_nil sep s
    rw [splitOn]
    split
    · next hc => rw [joinWith_cons hne, ih, hc, List.nil_append, List.singleton_append]
    · split
      · next hnil => exact absurd hnil hne
      · next piece pieces hpieces =>
        rw [hpieces] at ih
        -- the character goes to the first piece, which may be the only one
        cases pieces with
        | nil => exact congrArg (c :: ·) ih
        | cons next rest => exact congrArg (c :: ·) ih

/-- A separator between two texts ends the last piece of the first. -/
theorem splitOn_append_sep (sep : Char) (s t : List Char) :
    splitOn sep (s ++ sep :: t) = splitOn sep s ++ splitOn sep t := by
  conv_lhs => rw [← joinWith_splitOn sep s]
  exact splitOn_joinWith (splitOn_ne_nil sep s) (fun _ => notMem_of_mem_splitOn) t

theorem joinWith_append_cons (sep front piece : List Char) (pieces : List (List Char)) :
    joinWith sep ((front ++ piece) :: pieces) = front ++ joinWith sep (piece :: pieces) := by
  cases pieces with
  | nil => rfl
  | cons next rest => simp [joinWith]

/-- A longer separator is the same as a longer beginning of every piece but the first. -/
theorem joinWith_append (sep front piece : List Char) (pieces : List (List Char)) :
    joinWith (sep ++ front) (piece :: pieces) =
      joinWith sep (piece :: pieces.map (front ++ ·)) := by
  induction pieces generalizing piece with
  | nil => rfl
  | cons next rest ih =>
    have hnext : next :: rest ≠ [] := List.cons_ne_nil _ _
    have hmap : (next :: rest).map (front ++ ·) ≠ [] := List.cons_ne_nil _ _
    rw [joinWith_cons hnext, joinWith_cons hmap, ih, List.map_cons, joinWith_append_cons]
    simp only [List.append_assoc]

/-- Joined solid pieces are solid. -/
theorem solid_joinWith {sep : List Char} {pieces : List (List Char)} (hne : pieces ≠ [])
    (h : ∀ piece ∈ pieces, Solid piece) : Solid (joinWith sep pieces) := by
  induction pieces with
  | nil => exact absurd rfl hne
  | cons piece pieces ih =>
    have hpiece := h piece (by simp)
    by_cases hps : pieces = []
    · subst hps
      exact hpiece
    · rw [joinWith_cons hps]
      exact hpiece.append (ih hps fun p hmem => h p (by simp [hmem]))

/-- A joined text begins as its first piece does. -/
theorem head?_joinWith {sep piece : List Char} {pieces : List (List Char)} (h : piece ≠ []) :
    (joinWith sep (piece :: pieces)).head? = piece.head? := by
  cases pieces with
  | nil => rfl
  | cons next rest =>
    rw [joinWith_cons (by simp), List.append_assoc, List.head?_append_of_ne_nil _ h]

/-- A character of a joined text stands in a piece or in the separator. -/
theorem mem_joinWith {sep : List Char} {pieces : List (List Char)} {c : Char}
    (h : c ∈ joinWith sep pieces) : c ∈ sep ∨ ∃ piece ∈ pieces, c ∈ piece := by
  induction pieces with
  | nil => simp [joinWith] at h
  | cons piece pieces ih =>
    by_cases hps : pieces = []
    · subst hps
      exact .inr ⟨piece, by simp, h⟩
    · rw [joinWith_cons hps, List.append_assoc, List.mem_append, List.mem_append] at h
      rcases h with h | h | h
      · exact .inr ⟨piece, by simp, h⟩
      · exact .inl h
      · obtain hs | ⟨p, hp, hc⟩ := ih h
        · exact .inl hs
        · exact .inr ⟨p, by simp [hp], hc⟩

end DatasetCatalog.Text
