import DatasetCatalog.Proofs.Filter.Path

/-! # The normal form of a path

  A path may be written by hand, with numbers in any spelling and with white space around names and
  texts. What is read of it keeps none of this: a single value is a trimmed text, and a bound is
  the double that its text spells, as an integer when it is whole. So the path that is compiled of
  it is read as the same filter again, and compiling that once more changes nothing.
-/

namespace DatasetCatalog

open Text

/-- A number that was read is read again as it is. -/
theorem Number.reread_integral (x : Binary64) :
    (Number.float x).integral.reread = (Number.float x).integral := by
  cases hx : x.toInt? with
  | some n =>
    have hint : (float x).integral = int n := by
      unfold integral
      simp only [hx]
    -- the integer is the value of the double that it was made of
    rw [hint, reread_int ⟨x, hx⟩]
  | none =>
    have hfloat : (float x).integral = float x := by
      unfold integral
      simp only [hx]
    rw [hfloat]
    exact hfloat

namespace Filter

variable {q : Quality} {s : Setting} {f : Filter} {p : String}

/-! ### Settings that were read -/

/-- A bound that is read from a text is open, or the double that the text spells. -/
theorem readBound_eq_ok {t : List Char} {c : Constraint} (h : readBound q t = .ok c) :
    c = .absent ∨ ∃ x, c = .number (Number.float x).integral := by
  unfold readBound at h
  split at h
  · exact .inl (Except.ok.inj h).symm
  · split at h
    · exact absurd h nofun
    · next x hx => exact .inr ⟨x, (Except.ok.inj h).symm⟩

/-- What passes as a bound of a range that was read is read again as it is. -/
theorem reread_of_readBound {t : List Char} {b : Option Number}
    (h : readBound q t = .ok (boundConstraint b)) : b.map Number.reread = b := by
  cases b with
  | none => rfl
  | some a =>
    obtain habsent | ⟨x, hx⟩ := readBound_eq_ok h
    · exact absurd habsent nofun
    · obtain rfl : a = (Number.float x).integral := Constraint.number.inj hx
      rw [Option.map_some, Number.reread_integral]

/-- A range has the bounds that it was made of. -/
theorem exists_bounds_of_rangeOf {c d : Constraint} (h : rangeOf q c d = .ok s) :
    ∃ lo hi, s = .range lo hi ∧ c = boundConstraint lo ∧ d = boundConstraint hi := by
  unfold rangeOf at h
  simp only [throw_bind_eq] at h
  split at h
  · exact absurd h nofun
  split at h
  · exact absurd h nofun
  obtain ⟨lo, hlo, h⟩ := bind_eq_ok_iff.1 h
  obtain ⟨hi, hhi, h⟩ := bind_eq_ok_iff.1 h
  refine ⟨lo, hi, ?_, (isBound_of_checkBound hlo).2, (isBound_of_checkBound hhi).2⟩
  split at h
  · split at h
    · exact absurd h nofun
    · exact (Except.ok.inj h).symm
  · exact (Except.ok.inj h).symm

/-- **A setting that was read is read again as it is**: nothing of it is rounded any more. -/
theorem reread_of_readSetting {t : List Char} (h : readSetting q t = .ok s) : s.reread = s := by
  unfold readSetting at h
  split at h
  · unfold readRange at h
    obtain ⟨c, hc, h⟩ := bind_eq_ok_iff.1 h
    obtain ⟨d, hd, h⟩ := bind_eq_ok_iff.1 h
    obtain ⟨lo, hi, rfl, rfl, rfl⟩ := exists_bounds_of_rangeOf h
    show Setting.range (lo.map Number.reread) (hi.map Number.reread) = _
    rw [reread_of_readBound hc, reread_of_readBound hd]
  · unfold readValue at h
    simp only at h
    split at h
    · exact absurd h nofun
    split at h
    · exact absurd h nofun
    split at h
    · exact absurd h nofun
    obtain rfl := Except.ok.inj h
    rfl

/-! ### Filters that were read -/

/-- A filter that was read is valid, and rounding its bounds leaves it as it is. -/
theorem valid_of_ofPath (h : ofPath p = .ok f) : f.Valid ∧ f.reread = f := by
  unfold ofPath at h
  simp only at h
  split at h
  · obtain rfl := Except.ok.inj h
    exact ⟨⟨List.nodup_nil, fun entry hentry => absurd hentry List.not_mem_nil⟩, rfl⟩
  split at h
  · exact absurd h nofun
  next pairs hpairs =>
  obtain ⟨hsets, hnodup, -⟩ := collect_eq_ok_iff.1 h
  have hread : ∀ entry ∈ f, ∃ t, readSetting entry.1 t = .ok entry.2 := by
    intro entry hentry
    obtain ⟨pair, -, hset⟩ := exists_of_forall₂_mem hsets hentry
    exact ⟨pair.2, hset.2⟩
  refine ⟨⟨hnodup, fun entry hentry => ?_⟩, ?_⟩
  · obtain ⟨t, ht⟩ := hread entry hentry
    exact valid_of_readSetting ht
  · unfold Filter.reread
    refine (List.map_congr_left fun entry hentry => ?_).trans f.map_id
    obtain ⟨t, ht⟩ := hread entry hentry
    rw [reread_of_readSetting ht]
    rfl

/-- A path that is read and compiled again. -/
def recompile (p : String) : Except FilterError String := do compile (← ofPath p).constraints

/-- **What is read of a path is a normal form.** It always compiles, the compiled path is read as
    the same filter, with the same names in the same order, the same texts and the same bounds, and
    recompiling a path twice is recompiling it once. -/
theorem normal_of_ofPath (h : ofPath p = .ok f) : ∃ normal, compile f.constraints = .ok normal ∧
    ofPath normal = .ok f ∧ recompile p = .ok normal ∧ recompile normal = .ok normal := by
  obtain ⟨hvalid, hreread⟩ := valid_of_ofPath h
  have hcompile : compile f.constraints = .ok (path f) :=
    map_eq_ok_iff.2 ⟨f, ofConstraints_constraints hvalid, rfl⟩
  have hread : ofPath (path f) = .ok f := (ofPath_path hvalid).trans (congrArg _ hreread)
  have hrecompile : ∀ {given : String}, ofPath given = .ok f → recompile given = .ok (path f) :=
    fun hgiven => bind_eq_ok_iff.2 ⟨f, hgiven, hcompile⟩
  exact ⟨path f, hcompile, hread, hrecompile h, hrecompile hread⟩

/-- Bounds with an exponent, digits of another script, a sign of zero and too many digits, beside a
    text with inner dots. -/
theorem normal_of_odd_spellings :
    let given := " /number_instances/ +1_0E1 .. \u0663\u0660\u0660.50 /data_name/  a . b. " ++
      "/number_features/-0.0../number_classes/..9007199254740993/data_id/..InfinitY/"
    ∃ f normal, ofPath given = .ok f ∧
      f = [(.instances,
          .range (some (.int 100)) (some (.float (Binary64.ofDecimal false 3005 (-1))))),
        (.dataName, .value "a . b."), (.features, .range (some (.int 0)) none),
        (.classes, .range none (some (.int 9007199254740992))),
        (.dataId, .range none (some (.float (.infinite false))))] ∧
      normal = "number_instances/100..300.5/data_name/a . b./number_features/0.." ++
        "/number_classes/..9007199254740992/data_id/..inf" ∧
      compile f.constraints = .ok normal ∧ ofPath normal = .ok f ∧
      recompile given = .ok normal ∧ recompile normal = .ok normal := by
  intro given
  let f : Filter :=
    [(.instances, .range (some (.int 100)) (some (.float (Binary64.ofDecimal false 3005 (-1))))),
      (.dataName, .value "a . b."), (.features, .range (some (.int 0)) none),
      (.classes, .range none (some (.int 9007199254740992))),
      (.dataId, .range none (some (.float (.infinite false))))]
  have hread : ofPath given = .ok f := by decide +kernel
  obtain ⟨normal, hcompile, hnormal⟩ := normal_of_ofPath hread
  have htext : compile f.constraints = .ok ("number_instances/100..300.5/data_name/a . b." ++
      "/number_features/0.." ++ "/number_classes/..9007199254740992/data_id/..inf") := by
    decide +kernel
  obtain rfl := Except.ok.inj (hcompile.symm.trans htext)
  exact ⟨f, _, hread, rfl, by decide +kernel, hcompile, hnormal⟩

end Filter

end DatasetCatalog
