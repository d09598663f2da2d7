import DatasetCatalog.Proofs.Filter.Setting
import DatasetCatalog.Proofs.Forall2

/-! # Paths of filters, written and read

  The path of a filter is split at its slashes into the names and texts that it was joined from,
  and each text is read as its setting with the bounds rounded. So a path that constraints give is
  always read, with the same qualities in the same order; but it is written again in the same way
  only if every bound of a range is the value of a double. An integer bound that no double equals
  is written with all its digits and read as the double nearest to it.
-/

namespace DatasetCatalog

namespace Quality

theorem ofName?_name (q : Quality) : ofName? q.name = some q := by
  cases q <;> decide

theorem name_of_ofName? {s : String} {q : Quality} (h : ofName? s = some q) : q.name = s := by
  simpa using List.find?_some h

/-- A name begins and ends with a letter and holds no slash. -/
theorem name_chars (q : Quality) :
    Text.Solid q.name.toList ∧ '/' ∉ q.name.toList := by
  have hne : q.name.toList.isEmpty = false := by cases q <;> rfl
  have hall : q.name.toList.all (fun c => !Text.isBlank c && c != '/') = true := by
    cases q <;> rfl
  have hchars : ∀ c ∈ q.name.toList, Text.isBlank c = false ∧ c ≠ '/' := by
    intro c hc
    simpa using List.all_eq_true.1 hall c hc
  exact ⟨⟨List.isEmpty_eq_false_iff.1 hne, fun c hc => (hchars c (List.mem_of_head? hc)).1,
    fun c hc => (hchars c (List.mem_of_getLast? hc)).1⟩, fun h => (hchars '/' h).2 rfl⟩

end Quality

namespace Filter

open Text

/-! ### Taking pairs one by one -/

section Collect

variable {α : Type} {setting : Quality → α → Except FilterError Setting}

/-- The quality of the name, with the setting that is given for it. -/
def Sets (setting : Quality → α → Except FilterError Setting) (pair : String × α)
    (entry : Quality × Setting) : Prop :=
  Quality.ofName? pair.1 = some entry.1 ∧ setting entry.1 pair.2 = .ok entry.2

/-- Pairs form a filter when each of them sets a quality and no quality occurs twice. -/
theorem collect_eq_ok_iff {seen : List Quality} {pairs : List (String × α)} {f : Filter} :
    collect setting seen pairs = .ok f ↔
      List.Forall₂ (Sets setting) pairs f ∧ (f.map (·.1)).Nodup ∧ ∀ q ∈ f.map (·.1), q ∉ seen := by
  induction pairs generalizing seen f with
  | nil =>
    unfold collect
    rw [List.forall₂_nil_left_iff]
    constructor
    · rintro ⟨⟩
      simp
    · rintro ⟨rfl, -⟩
      rfl
  | cons pair rest ih =>
    obtain ⟨name, given⟩ := pair
    rw [List.forall₂_cons_left_iff]
    unfold collect
    constructor
    · intro h
      split at h
      · exact absurd h nofun
      next q hq =>
      split at h
      · exact absurd h nofun
      next hseen =>
      obtain ⟨s, hs, h⟩ := bind_eq_ok_iff.1 h
      obtain ⟨tail, htail, h⟩ := bind_eq_ok_iff.1 h
      obtain rfl := Except.ok.inj h
      obtain ⟨hsets, hnodup, hnew⟩ := ih.1 htail
      refine ⟨⟨(q, s), tail, ⟨hq, hs⟩, hsets, rfl⟩, ?_, ?_⟩
      · rw [List.map_cons, List.nodup_cons]
        exact ⟨fun hmem => hnew q hmem List.mem_cons_self, hnodup⟩
      · rw [List.map_cons, List.forall_mem_cons]
        exact ⟨hseen, fun x hx hmem => hnew x hx (List.mem_cons_of_mem q hmem)⟩
    · rintro ⟨⟨⟨q, s⟩, tail, ⟨hq, hs⟩, hsets, rfl⟩, hnodup, hnew⟩
      rw [List.map_cons, List.nodup_cons] at hnodup
      rw [List.map_cons, List.forall_mem_cons] at hnew
      have htail := ih.2 ⟨hsets, hnodup.2, fun x hx hmem => by
        rcases List.mem_cons.1 hmem with rfl | hmem
        · exact hnodup.1 hx
        · exact hnew.2 x hx hmem⟩
      simp only at hq hs
      rw [hq]
      simp only
      rw [if_neg hnew.1, hs, htail]
      rfl

end Collect

/-- A filter with valid settings for distinct qualities. -/
structure Valid (f : Filter) : Prop where
  /-- No quality is set twice. -/
  nodup : (f.map (·.1)).Nodup
  /-- Every setting is valid for its quality. -/
  settings : ∀ entry ∈ f, entry.2.Valid entry.1

theorem valid_of_ofConstraints {pairs : List (String × Constraint)} {f : Filter}
    (h : ofConstraints pairs = .ok f) : f.Valid ∧ f.map (·.1.name) = pairs.map (·.1) := by
  obtain ⟨hsets, hnodup, -⟩ := collect_eq_ok_iff.1 h
  refine ⟨⟨hnodup, fun entry hentry => ?_⟩, ?_⟩
  · obtain ⟨pair, -, hset⟩ := exists_of_forall₂_mem hsets hentry
    exact valid_of_settingOf hset.2
  · clear h hnodup
    induction hsets with
    | nil => rfl
    | cons hset _ ih => rw [List.map_cons, List.map_cons, ih, Quality.name_of_ofName? hset.1]

/-- What constraints compile to is the path of a valid filter of the same names. -/
theorem exists_valid_of_compile {given : List (String × Constraint)} {p : String}
    (h : compile given = .ok p) :
    ∃ f : Filter, f.Valid ∧ f.map (·.1.name) = given.map (·.1) ∧ p = path f := by
  obtain ⟨f, hf, hpath⟩ := map_eq_ok_iff.1 h
  obtain ⟨hvalid, hnames⟩ := valid_of_ofConstraints hf
  exact ⟨f, hvalid, hnames, hpath.symm⟩

/-! ### The pieces of a path -/

/-- The name and the text of an entry. -/
def pieces (entry : Quality × Setting) : List Char × List Char :=
  (entry.1.name.toList, entry.2.text.toList)

theorem toList_path_singleton (entry : Quality × Setting) :
    (path [entry]).toList = (pieces entry).1 ++ '/' :: (pieces entry).2 := by
  unfold path
  rw [String.toList_intercalate]
  simp [pieces, List.intercalate]

theorem toList_path_cons (entry : Quality × Setting) {f : Filter} (hf : f ≠ []) :
    (path (entry :: f)).toList =
      (pieces entry).1 ++ '/' :: ((pieces entry).2 ++ '/' :: (path f).toList) := by
  unfold path
  rw [List.map_cons, String.intercalate_cons_of_ne_nil (by simpa using hf)]
  simp [pieces]

/-- The text of a valid setting is solid and holds no slash. -/
theorem Setting.Valid.text_chars {q : Quality} {s : Setting} (h : s.Valid q) :
    Solid s.text.toList ∧ '/' ∉ s.text.toList := by
  cases h with
  | value hsolid hslash => exact ⟨hsolid, hslash⟩
  | @range lo hi hnumeric hbounded hlo hhi hle =>
    have hchars : ∀ c ∈ (Setting.range lo hi).text.toList, Numeral.isNumeralChar c = true := by
      rw [toList_rangeText]
      intro c hc
      simp only [List.mem_append, List.mem_cons] at hc
      rcases hc with hc | rfl | rfl | hc
      · exact chars_boundText hlo c hc
      · decide
      · decide
      · exact chars_boundText hhi c hc
    refine ⟨solid_of_isNumeralChar ?_ hchars, fun hslash => absurd (hchars '/' hslash) (by decide)⟩
    rw [toList_rangeText]
    simp

/-- Both pieces are solid and hold no slash. -/
theorem pieces_chars {entry : Quality × Setting} (h : entry.2.Valid entry.1) :
    (Solid (pieces entry).1 ∧ '/' ∉ (pieces entry).1) ∧
      Solid (pieces entry).2 ∧ '/' ∉ (pieces entry).2 :=
  ⟨entry.1.name_chars, h.text_chars⟩

section Path

variable {f : Filter}

theorem Valid.tail {entry : Quality × Setting} (h : Valid (entry :: f)) : f.Valid where
  nodup := (List.nodup_cons.1 h.nodup).2
  settings := fun e he => h.settings e (List.mem_cons_of_mem entry he)

/-- A path is split into the names and texts that it was joined from. -/
theorem pairUp_splitOn_path (h : f.Valid) (hf : f ≠ []) :
    pairUp (splitOn '/' (path f).toList) = some (f.map pieces) := by
  induction f with
  | nil => exact absurd rfl hf
  | cons entry f ih =>
    obtain ⟨⟨-, hname⟩, -, htext⟩ := pieces_chars (h.settings entry List.mem_cons_self)
    by_cases hne : f = []
    · subst hne
      rw [toList_path_singleton, splitOn_append_cons hname, splitOn_of_notMem htext]
      rfl
    · rw [toList_path_cons entry hne, splitOn_append_cons hname, splitOn_append_cons htext,
        pairUp, ih h.tail hne]
      rfl

/-- A path begins as its first name does. -/
theorem head?_path {entry : Quality × Setting} (h : Valid (entry :: f)) :
    (path (entry :: f)).toList.head? = (pieces entry).1.head? := by
  have hname := (pieces_chars (h.settings entry List.mem_cons_self)).1.1.ne_nil
  by_cases hne : f = []
  · subst hne
    rw [toList_path_singleton, List.head?_append_of_ne_nil _ hname]
  · rw [toList_path_cons entry hne, List.head?_append_of_ne_nil _ hname]

/-- A path ends as its last text does. -/
theorem getLast?_path (h : f.Valid) (hf : f ≠ []) :
    ∃ entry ∈ f, (path f).toList.getLast? = (pieces entry).2.getLast? := by
  induction f with
  | nil => exact absurd rfl hf
  | cons entry f ih =>
    have htext := (pieces_chars (h.settings entry List.mem_cons_self)).2.1.ne_nil
    by_cases hne : f = []
    · subst hne
      refine ⟨entry, List.mem_cons_self, ?_⟩
      rw [toList_path_singleton, List.append_cons, List.getLast?_append_of_ne_nil _ htext]
    · obtain ⟨last, hmem, hlast⟩ := ih h.tail hne
      refine ⟨last, List.mem_cons_of_mem entry hmem, ?_⟩
      have hpath : (path f).toList ≠ [] := by
        intro hnil
        rw [hnil] at hlast
        have htext' := (pieces_chars (h.tail.settings last hmem)).2.1.ne_nil
        exact htext' (List.getLast?_eq_none_iff.1 hlast.symm)
      rw [toList_path_cons entry hne, List.append_cons, List.append_cons (pieces entry).2,
        ← List.append_assoc, List.getLast?_append_of_ne_nil _ hpath, hlast]

/-- A path begins with a letter of a name and ends with a character of a text, which is neither
    white space nor a slash. -/
theorem stripBy_path {p : Char → Bool} (h : f.Valid)
    (hp : ∀ c, isBlank c = false → c ≠ '/' → p c = false) :
    stripBy p (path f).toList = (path f).toList := by
  cases f with
  | nil => rfl
  | cons entry f =>
    obtain ⟨⟨hname, hslash⟩, -⟩ := pieces_chars (h.settings entry List.mem_cons_self)
    obtain ⟨last, hmem, hlast⟩ := getLast?_path h (by simp)
    obtain ⟨-, htext, hslash'⟩ := pieces_chars (h.settings last hmem)
    have hhead := head?_path h
    apply stripBy_eq_self
    · intro c hc
      rw [hhead] at hc
      exact hp c (hname.head c hc) fun heq => hslash (heq ▸ List.mem_of_head? hc)
    · intro c hc
      rw [hlast] at hc
      exact hp c (htext.last c hc) fun heq => hslash' (heq ▸ List.mem_of_getLast? hc)

/-- A path has no white space at its ends. -/
theorem strip_path (h : f.Valid) : strip (path f).toList = (path f).toList :=
  stripBy_path h fun _ hblank _ => hblank

/-- A path has no slash at its ends. -/
theorem stripBy_slash_path (h : f.Valid) :
    stripBy (· == '/') (path f).toList = (path f).toList :=
  stripBy_path h fun _ _ hslash => beq_false_of_ne hslash

/-- A path is taken as it is. -/
theorem trimPath_path (h : f.Valid) : trimPath (path f).toList = (path f).toList := by
  unfold trimPath
  rw [strip_path h, stripBy_slash_path h]

/-! ### Reading a path -/

/-- The filter with the bounds of all its ranges rounded. -/
def reread (f : Filter) : Filter := f.map fun entry => (entry.1, entry.2.reread)

theorem Valid.reread (h : f.Valid) : f.reread.Valid where
  nodup := by
    have hqualities : f.reread.map (·.1) = f.map (·.1) := by
      unfold Filter.reread
      rw [List.map_map]
      rfl
    rw [hqualities]
    exact h.nodup
  settings := by
    intro entry hentry
    obtain ⟨given, hgiven, rfl⟩ := List.mem_map.1 hentry
    exact (h.settings given hgiven).reread

/-- Rounding the bounds leaves the names as they are. -/
theorem map_name_reread (f : Filter) : f.reread.map (·.1.name) = f.map (·.1.name) := by
  unfold Filter.reread
  rw [List.map_map]
  rfl

/-- **The path of a valid filter is read as the filter with its bounds rounded.** -/
theorem ofPath_path (h : f.Valid) : ofPath (path f) = .ok f.reread := by
  unfold ofPath
  rw [trimPath_path h]
  by_cases hne : f = []
  · subst hne
    rfl
  have hpath : (path f).toList ≠ [] := by
    intro hnil
    have hpairs := pairUp_splitOn_path h hne
    rw [hnil] at hpairs
    cases hpairs
  -- every piece is read as the piece of the entry that it was made of
  have hsets : List.Forall₂ (Sets readSetting)
      ((f.map pieces).map fun piece => (String.ofList piece.1, piece.2)) f.reread := by
    unfold Filter.reread
    rw [List.map_map, List.forall₂_map_left_iff, List.forall₂_map_right_iff, List.forall₂_same]
    intro entry hentry
    refine ⟨?_, readSetting_text (h.settings entry hentry)⟩
    simp only [pieces, Function.comp_apply, String.ofList_toList]
    exact entry.1.ofName?_name
  simp only
  rw [if_neg hpath, pairUp_splitOn_path h hne]
  exact collect_eq_ok_iff.2 ⟨hsets, h.reread.nodup, fun _ _ => List.not_mem_nil⟩

/-- A valid filter is what its own constraints give. -/
theorem ofConstraints_constraints (h : f.Valid) : ofConstraints f.constraints = .ok f := by
  have hsets : List.Forall₂ (Sets settingOf) f.constraints f := by
    unfold constraints
    rw [List.forall₂_map_left_iff, List.forall₂_same]
    intro entry hentry
    exact ⟨entry.1.ofName?_name, settingOf_constraint (h.settings entry hentry)⟩
  exact collect_eq_ok_iff.2 ⟨hsets, h.nodup, nofun⟩

/-! ### Writing a path again -/

/-- The bounds of all ranges of a filter. -/
def bounds (f : Filter) : List Number := f.flatMap fun entry => entry.2.bounds

/-- **A filter is written again in the same way exactly when some double equals each of its
    bounds.** -/
theorem path_reread_iff (h : f.Valid) : path f.reread = path f ↔ ∀ a ∈ f.bounds, a.IsDouble := by
  have htexts : path f.reread = path f ↔ ∀ entry ∈ f, entry.2.reread.text = entry.2.text := by
    constructor
    · intro heq entry hentry
      have hne : f ≠ [] := List.ne_nil_of_mem hentry
      have hpairs := pairUp_splitOn_path h hne
      rw [← heq, pairUp_splitOn_path h.reread (by simpa [Filter.reread] using hne)] at hpairs
      have hpieces := Option.some.inj hpairs
      unfold Filter.reread at hpieces
      rw [List.map_map] at hpieces
      have hentry' := List.map_inj_left.1 hpieces entry hentry
      exact String.toList_inj.1 (congrArg Prod.snd hentry')
    · intro htext
      unfold path Filter.reread
      rw [List.map_map]
      congr 1
      refine List.map_inj_left.2 fun entry hentry => ?_
      simp only [Function.comp_apply, htext entry hentry]
  unfold bounds
  rw [htexts]
  simp only [List.mem_flatMap, forall_exists_index, and_imp]
  constructor
  · intro htext a entry hentry
    exact (text_reread_iff (h.settings entry hentry)).1 (htext entry hentry) a
  · intro hdouble entry hentry
    exact (text_reread_iff (h.settings entry hentry)).2 fun a ha => hdouble a entry hentry ha

theorem isNaN_of_mem_bounds (h : f.Valid) {a : Number} (ha : a ∈ f.bounds) : a.isNaN = false := by
  obtain ⟨⟨q, s⟩, hentry, ha⟩ := List.mem_flatMap.1 ha
  have hvalid := h.settings _ hentry
  cases hvalid with
  | value => exact absurd ha (List.not_mem_nil)
  | range hnumeric hbounded hlo hhi hle =>
    rcases List.mem_append.1 ha with ha | ha
    · exact hlo a (Option.mem_toList.1 ha)
    · exact hhi a (Option.mem_toList.1 ha)

end Path

/-! ### Constraints, their path, and the path read back -/

/-- **What becomes of a path that constraints give when it is read and written again.** It is
    always read, and the filter that is read has the given names in the given order. It sets every
    quality as the constraints do, but for the bounds of ranges, of which each is rounded to the
    nearest double: it has the same value as before exactly when some double equals it, and the
    path is the same as before exactly when that holds of every bound. -/
theorem ofPath_compile {given : List (String × Constraint)} {p : String}
    (h : compile given = .ok p) :
    ∃ f back again, ofConstraints given = .ok f ∧ ofPath p = .ok back ∧
      back.map (·.1.name) = given.map (·.1) ∧ back = f.reread ∧
      compile back.constraints = .ok again ∧
      (∀ a ∈ f.bounds, a.reread.same a = true ↔ a.IsDouble) ∧
      (again = p ↔ ∀ a ∈ f.bounds, a.IsDouble) := by
  obtain ⟨f, hf, rfl⟩ := map_eq_ok_iff.1 h
  obtain ⟨hvalid, hnames⟩ := valid_of_ofConstraints hf
  have hagain : compile f.reread.constraints = .ok (path f.reread) :=
    map_eq_ok_iff.2 ⟨f.reread, ofConstraints_constraints hvalid.reread, rfl⟩
  have hback : f.reread.map (·.1.name) = given.map (·.1) := by
    rw [← hnames]
    unfold Filter.reread
    rw [List.map_map]
    rfl
  exact ⟨f, f.reread, path f.reread, hf, ofPath_path hvalid, hback, rfl, hagain,
    fun a ha => Number.reread_same_iff (isNaN_of_mem_bounds hvalid ha), path_reread_iff hvalid⟩

/-- The least positive integer that no double equals, as a lower bound, is read as its even
    neighbour. -/
theorem not_same_of_odd_bound :
    compile [("number_instances", .items [.number (.int 9007199254740993), .absent])] =
        .ok "number_instances/9007199254740993.." ∧
      ∃ back again, ofPath "number_instances/9007199254740993.." = .ok back ∧
        back = [(.instances, .range (some (.int 9007199254740992)) none)] ∧
        compile back.constraints = .ok again ∧ again ≠ "number_instances/9007199254740993.." := by
  have hgiven : compile [("number_instances", .items [.number (.int 9007199254740993), .absent])] =
      .ok "number_instances/9007199254740993.." := by decide
  refine ⟨hgiven, ?_⟩
  obtain ⟨f, back, again, hf, hback, -, rfl, hagain, -, hsame⟩ := ofPath_compile hgiven
  obtain rfl : [(.instances, .range (some (.int 9007199254740993)) none)] = f :=
    Except.ok.inj (Eq.trans (by decide) hf)
  refine ⟨_, again, hback, by decide, hagain, ?_⟩
  rw [ne_eq, hsame]
  intro hdouble
  obtain ⟨x, hx⟩ := hdouble (.int 9007199254740993) (by decide)
  exact absurd (Number.toInt?_nearest hx) (by decide)

end Filter

end DatasetCatalog
