import DatasetCatalog.Json.Reader
import DatasetCatalog.Json.Writer
import DatasetCatalog.Proofs.Number.Written

/-! # Records, written and read

  A record of integers and plain strings is read back as it was written. The only exception are
  integers of more digits than a numeral may have: a record that holds one of them is not read.
-/

namespace DatasetCatalog.Json

open Text Numeral Binary64

/-! ### Plain strings -/

/-- A character that a string holds as it is: a visible one of ASCII, or a space, but neither a
    quote nor a backslash. -/
def isPlain (c : Char) : Bool :=
  decide (0x20 ≤ c.toNat) && decide (c.toNat < 0x7F) && c != '"' && c != '\\'

theorem isPlain_iff {c : Char} :
    isPlain c = true ↔ (0x20 ≤ c.toNat ∧ c.toNat < 0x7F) ∧ c ≠ '"' ∧ c ≠ '\\' := by
  simp [isPlain, and_assoc]

/-- All characters of the string are plain. -/
def Plain (s : String) : Prop := ∀ c ∈ s.toList, isPlain c = true

instance (s : String) : Decidable (Plain s) :=
  decidable_of_iff (s.toList.all isPlain = true) List.all_eq_true

theorem Plain.append {s t : String} (hs : Plain s) (ht : Plain t) : Plain (s ++ t) := by
  intro c hc
  rw [String.toList_append, List.mem_append] at hc
  exact hc.elim (hs c) (ht c)

/-- Digits are plain, in every base up to sixteen. -/
theorem isPlain_of_mem_toDigits {b : Nat} (hb : 1 < b) (hb' : b ≤ 16) (n : Nat) :
    ∀ c ∈ Nat.toDigits b n, isPlain c = true := by
  have hdigit : ∀ m < 16, isPlain (Nat.digitChar m) = true := by decide
  induction n using Nat.strongRecOn with
  | ind n ih =>
    intro c hc
    rw [Nat.toDigits_eq_if hb] at hc
    split at hc
    · next hlt =>
      rw [List.mem_singleton.1 hc]
      exact hdigit n (by omega)
    · next hle =>
      have hpos : 0 < n := by omega
      obtain hc | hc := List.mem_append.1 hc
      · exact ih (n / b) (Nat.div_lt_self hpos hb) c hc
      · rw [List.mem_singleton.1 hc]
        exact hdigit _ (Nat.lt_of_lt_of_le (Nat.mod_lt n (by omega)) hb')

theorem escapeChar_of_isPlain {c : Char} (h : isPlain c = true) : escapeChar c = [c] := by
  obtain ⟨⟨hlow, hhigh⟩, hquote, hslash⟩ := isPlain_iff.1 h
  have hne : ∀ e : Char, e.toNat < 0x20 → c ≠ e := fun e he hce => by
    rw [hce] at hlow
    omega
  unfold escapeChar
  rw [if_neg (by simp [hquote, hslash]), if_neg (hne _ (by decide)), if_neg (hne _ (by decide)),
    if_neg (hne _ (by decide)), if_neg (hne _ (by decide)), if_neg (hne _ (by decide)),
    if_pos ⟨hlow, hhigh⟩]

theorem quote_of_plain {s : String} (h : Plain s) : quote s = '"' :: (s.toList ++ ['"']) := by
  have hflat : s.toList.flatMap escapeChar = s.toList := by
    have hcongr := List.flatMap_congr fun c hc => escapeChar_of_isPlain (h c hc)
    rw [hcongr]
    simp
  rw [quote, hflat]
  rfl

theorem stringBody_of_plain {body : List Char} (h : ∀ c ∈ body, isPlain c = true) {fuel : Nat}
    (hfuel : body.length < fuel) (rest : List Char) :
    stringBody fuel (body ++ '"' :: rest) = some (body, rest) := by
  induction body generalizing fuel with
  | nil =>
    obtain ⟨fuel, rfl⟩ := Nat.exists_eq_succ_of_ne_zero (Nat.ne_zero_of_lt hfuel)
    simp [stringBody]
  | cons c body ih =>
    obtain ⟨fuel, rfl⟩ := Nat.exists_eq_succ_of_ne_zero (Nat.ne_zero_of_lt hfuel)
    obtain ⟨hc, hbody⟩ := List.forall_mem_cons.1 h
    obtain ⟨⟨hlow, -⟩, hquote, hslash⟩ := isPlain_iff.1 hc
    have ih := ih hbody (Nat.lt_of_succ_lt_succ hfuel)
    rw [List.cons_append]
    unfold stringBody
    rw [if_neg hquote, if_neg hslash, if_neg (Nat.not_lt.2 hlow), ih]
    rfl

theorem readString_of_plain {s : String} (h : Plain s) (rest : List Char) :
    readString (s.toList ++ '"' :: rest) = some (s, rest) := by
  have hlength : s.toList.length < (s.toList ++ '"' :: rest).length + 1 := by
    rw [List.length_append]
    omega
  rw [readString, stringBody_of_plain h hlength]
  simp

/-! ### Integers -/

/-- Only zero is written with a zero in front. -/
theorem eq_zero_of_decimalDigits {n : Nat} {rest : List Char}
    (h : decimalDigits n = '0' :: rest) : n = 0 := by
  have hdigit : ∀ m < 10, Nat.digitChar m = '0' → m = 0 := by decide
  induction n using Nat.strongRecOn generalizing rest with
  | ind n ih =>
    rw [decimalDigits, Nat.toDigits_eq_if (by decide)] at h
    split at h
    · next hlt => exact hdigit n hlt (List.cons.inj h).1
    · next hle =>
      have hzero : n / 10 = 0 := by
        cases hfront : Nat.toDigits 10 (n / 10) with
        | nil => exact absurd hfront Nat.toDigits_ne_nil
        | cons c front =>
          rw [hfront] at h
          have hzero : decimalDigits (n / 10) = '0' :: front := by
            rw [decimalDigits, hfront, (List.cons.inj h).1]
          exact ih (n / 10) (by omega) hzero
      omega

/-- The text behind a value ends it: a line break or a comma. -/
def Ends (rest : List Char) : Prop := rest.head? = some ',' ∨ rest.head? = some '\n'

theorem Ends.eq_cons {rest : List Char} (h : Ends rest) :
    ∃ tail, rest = ',' :: tail ∨ rest = '\n' :: tail := by
  obtain hcomma | hbreak := h
  · obtain ⟨tail, htail⟩ := List.head?_eq_some_iff.1 hcomma
    exact ⟨tail, .inl htail⟩
  · obtain ⟨tail, htail⟩ := List.head?_eq_some_iff.1 hbreak
    exact ⟨tail, .inr htail⟩

theorem unsigned_decimalDigits (negative : Bool) (n : Nat) {rest : List Char} (h : Ends rest) :
    unsigned negative (decimalDigits n ++ rest) =
      if (decimalDigits n).length ≤ digitLimit then
        some (.int (if negative then -(n : Int) else n), rest)
      else none := by
  have hhead : ∀ c, rest.head? = some c → isAsciiDigit c = false := by
    obtain ⟨tail, rfl | rfl⟩ := h.eq_cons
    · rintro c ⟨⟩
      rfl
    · rintro c ⟨⟩
      rfl
  have hdigits := takeWhile_digits_append (isAsciiDigit_decimalDigits n) hhead
  have hwhole : wholePart (decimalDigits n ++ rest) = some (decimalDigits n, rest) := by
    unfold wholePart
    split
    · next tail htail =>
      -- a zero in front is the whole number
      obtain ⟨c, more, hmore, -⟩ := head_decimalDigits n
      rw [hmore, List.cons_append] at htail
      have hzero : n = 0 := eq_zero_of_decimalDigits ((List.cons.inj htail).1 ▸ hmore)
      subst hzero
      have hmore' : more = [] := by
        have := hmore
        rw [decimalDigits, Nat.toDigits_zero] at this
        exact (List.cons.inj this).2.symm
      rw [hmore', List.nil_append] at htail
      rw [(List.cons.inj htail).2]
      rfl
    · simp only [hdigits.1, hdigits.2]
      exact if_neg Nat.toDigits_ne_nil
  have hfraction : fractionPart rest = none := by
    obtain ⟨tail, rfl | rfl⟩ := h.eq_cons <;> rfl
  have hexponent : exponentPart rest = none := by
    obtain ⟨tail, rfl | rfl⟩ := h.eq_cons <;> rfl
  unfold unsigned
  rw [hwhole]
  simp only [Option.bind_eq_bind, Option.bind_some, hfraction, hexponent,
    digitsValue_decimalDigits]
  by_cases hlong : (decimalDigits n).length ≤ digitLimit
  · rw [if_pos hlong, if_neg (Nat.not_lt.2 hlong)]
  · rw [if_neg hlong, if_pos (Nat.lt_of_not_le hlong)]

theorem readNumber_integerText (n : Int) {rest : List Char} (h : Ends rest) :
    readNumber ((integerText n).toList ++ rest) =
      if fitsInteger n then some (.int n, rest) else none := by
  obtain ⟨c, more, hmore, hc⟩ := head_decimalDigits n.natAbs
  rw [toList_integerText, fitsInteger]
  simp only [decide_eq_true_eq]
  by_cases hneg : n < 0
  · have hword : afterWord "Infinity" (decimalDigits n.natAbs ++ rest) = none := by
      have hI : c ≠ 'I' := by
        rintro rfl
        exact absurd hc (by decide)
      rw [hmore, afterWord, if_neg]
      simp [hI.symm]
    have hvalue : -(n.natAbs : Int) = n := by omega
    have hunsigned := unsigned_decimalDigits true n.natAbs h
    simp only [if_true, hvalue] at hunsigned
    rw [signed, if_pos (decide_eq_true hneg), List.cons_append, readNumber, hword]
    exact hunsigned
  · have hvalue : (n.natAbs : Int) = n := by omega
    have hunsigned := unsigned_decimalDigits false n.natAbs h
    simp only [Bool.false_eq_true, if_false, hvalue] at hunsigned
    rw [signed, if_neg (by simpa using hneg)]
    rw [hmore, List.cons_append] at hunsigned ⊢
    unfold readNumber
    split
    · next hd => cases hd; exact absurd hc (by decide)
    · next hd => cases hd; exact absurd hc (by decide)
    · next hd => cases hd; exact absurd hc (by decide)
    · exact hunsigned

/-! ### Values -/

/-- An integer or a plain string. -/
inductive Simple : Json → Prop where
  | int (n : Int) : Simple (.int n)
  | str {s : String} (h : Plain s) : Simple (.str s)

/-- The value is no integer of too many digits. -/
def fits : Json → Bool
  | .number (.int n) => fitsInteger n
  | _ => true

theorem head_integerText (n : Int) : ∃ c more, (integerText n).toList = c :: more ∧
    (c = '-' ∨ isAsciiDigit c = true) := by
  obtain ⟨c, more, hmore, hc⟩ := head_decimalDigits n.natAbs
  rw [toList_integerText, signed, hmore]
  split
  · exact ⟨'-', _, rfl, .inl rfl⟩
  · exact ⟨c, more, rfl, .inr hc⟩

/-- A simple value is read back in front of what ends it. -/
theorem readValue_write {v : Json} (hv : Simple v) (fuel : Nat) {rest : List Char} (h : Ends rest) :
    readValue (fuel + 1) (write v ++ rest) = if fits v then some (v, rest) else none := by
  cases hv with
  | str hs =>
    rw [write, quote_of_plain hs, List.cons_append, List.append_assoc, List.singleton_append,
      readValue, readString_of_plain hs]
    rfl
  | int n =>
    have hread := readNumber_integerText n h
    have hwrite : write (.int n) = (integerText n).toList := rfl
    obtain ⟨c, more, hmore, hc⟩ := head_integerText n
    rw [hwrite]
    rw [hmore, List.cons_append] at hread ⊢
    -- neither a sign nor a digit begins a value of another kind
    have hkind : readValue (fuel + 1) (c :: (more ++ rest)) =
        (readNumber (c :: (more ++ rest))).map fun r => (.number r.1, r.2) := by
      unfold readValue
      split
      all_goals first
        | rfl
        | (next heq => cases heq; exact absurd hc (by decide))
    rw [hkind, hread]
    show _ = if fitsInteger n then _ else _
    split
    · rfl
    · rfl

/-! ### Records -/

/-- A line of a record. -/
def line (pair : String × Json) : List Char :=
  ' ' :: ' ' :: quote pair.1 ++ ':' :: ' ' :: write pair.2

theorem writeRecord_eq (fields : List (String × Json)) :
    writeRecord fields =
      '\x7b' :: '\n' :: joinWith [',', '\n'] (fields.map line) ++ ['\n', '\x7d'] :=
  rfl

/-- A field with a plain key and a simple value. -/
structure SimpleField (pair : String × Json) : Prop where
  key : Plain pair.1
  value : Simple pair.2

variable {pair : String × Json} {fields : List (String × Json)}

theorem skip_line (h : SimpleField pair) (rest : List Char) :
    skip (line pair ++ rest) =
      '"' :: (pair.1.toList ++ '"' :: ':' :: ' ' :: (write pair.2 ++ rest)) := by
  rw [line, quote_of_plain h.key]
  simp [skip, isSpace]

/-- A value does not begin with white space. -/
theorem skip_write {v : Json} (hv : Simple v) (rest : List Char) :
    skip (' ' :: (write v ++ rest)) = write v ++ rest := by
  obtain ⟨c, more, hmore, hc⟩ : ∃ c more, write v = c :: more ∧ isSpace c = false := by
    cases hv with
    | str hs => exact ⟨'"', _, by rw [write, quote_of_plain hs], rfl⟩
    | int n =>
      obtain ⟨c, more, hmore, hc⟩ := head_integerText n
      refine ⟨c, more, hmore, ?_⟩
      cases hspace : isSpace c with
      | false => rfl
      | true =>
        simp only [isSpace, Bool.or_eq_true, beq_iff_eq] at hspace
        obtain ((rfl | rfl) | rfl) | rfl := hspace <;> exact absurd hc (by decide)
  rw [hmore, List.cons_append, skip, List.dropWhile_cons_of_pos (by rfl), List.dropWhile_cons_of_neg]
  simp [hc]

/-- The key of a line is read, and the value in front of what ends the line. -/
theorem readFields_line (hpair : SimpleField pair) (fuel : Nat) :
    readFields (fuel + 2) (skip (line pair ++ ['\n', '\x7d'])) =
        (if fits pair.2 then some ([pair], []) else none) ∧
      ∀ more, readFields (fuel + 2) (skip (line pair ++ ',' :: more)) =
        if fits pair.2 then
          (readFields (fuel + 1) (skip more)).bind fun r => some (pair :: r.1, r.2)
        else none := by
  have hcolon : ∀ t, skip (':' :: t) = ':' :: t := fun t => rfl
  constructor
  · have hends : Ends ['\n', '\x7d'] := .inr rfl
    rw [skip_line hpair, readFields, readString_of_plain hpair.key]
    simp only [Option.bind_eq_bind, Option.bind_some, hcolon, skip_write hpair.value,
      readValue_write hpair.value fuel hends]
    split
    · rfl
    · rfl
  · intro more
    have hends : Ends (',' :: more) := .inl rfl
    rw [skip_line hpair, readFields, readString_of_plain hpair.key]
    simp only [Option.bind_eq_bind, Option.bind_some, hcolon, skip_write hpair.value,
      readValue_write hpair.value fuel hends]
    split
    · rfl
    · rfl

/-- The lines of a record are read back, up to the closing brace. -/
theorem readFields_lines (hne : fields ≠ []) (h : ∀ pair ∈ fields, SimpleField pair) {fuel : Nat}
    (hfuel : fields.length < fuel) :
    readFields fuel (skip (joinWith [',', '\n'] (fields.map line) ++ ['\n', '\x7d'])) =
      if fields.all (fun pair => fits pair.2) then some (fields, []) else none := by
  induction fields generalizing fuel with
  | nil => exact absurd rfl hne
  | cons pair fields ih =>
    obtain ⟨hpair, hfields⟩ := List.forall_mem_cons.1 h
    obtain ⟨fuel, rfl⟩ := Nat.exists_eq_succ_of_ne_zero (Nat.ne_zero_of_lt hfuel)
    have hlength := Nat.lt_of_succ_lt_succ hfuel
    obtain ⟨fuel, rfl⟩ := Nat.exists_eq_succ_of_ne_zero (Nat.ne_zero_of_lt hlength)
    obtain ⟨hlast, hline⟩ := readFields_line hpair fuel
    cases fields with
    | nil =>
      rw [List.map_singleton, joinWith, hlast, List.all_cons, List.all_nil, Bool.and_true]
    | cons next fields =>
      have ih := ih (List.cons_ne_nil _ _) hfields hlength
      have hcomma : ∀ t, [',', '\n'] ++ t = ',' :: '\n' :: t := fun t => rfl
      have hbreak : ∀ t, skip ('\n' :: t) = skip t := fun t => rfl
      rw [List.map_cons, joinWith_cons (by simp), List.append_assoc, List.append_assoc, hcomma,
        hline, hbreak, ih, List.all_cons (a := pair)]
      by_cases hpairFits : fits pair.2 = true
      · rw [if_pos hpairFits, hpairFits, Bool.true_and]
        split
        · rfl
        · rfl
      · simp [hpairFits]

theorem length_le_length_joinWith (sep : List Char) {pieces : List (List Char)}
    (h : ∀ piece ∈ pieces, piece ≠ []) : pieces.length ≤ (joinWith sep pieces).length := by
  induction pieces with
  | nil => exact Nat.zero_le _
  | cons piece pieces ih =>
    obtain ⟨hpiece, hpieces⟩ := List.forall_mem_cons.1 h
    have hpos := List.length_pos_iff.2 hpiece
    cases pieces with
    | nil => exact hpos
    | cons next pieces =>
      have ih := ih hpieces
      rw [joinWith_cons (by simp), List.length_append, List.length_append, List.length_cons]
      omega

/-- A record begins with the quote of its first key. -/
theorem skip_lines (fields : List (String × Json)) (h : SimpleField pair) (rest : List Char) :
    ∃ more, skip (joinWith [',', '\n'] ((pair :: fields).map line) ++ rest) = '"' :: more := by
  cases fields with
  | nil => exact ⟨_, skip_line h rest⟩
  | cons next fields =>
    rw [List.map_cons, joinWith_cons (by simp), List.append_assoc, List.append_assoc]
    exact ⟨_, skip_line h _⟩

theorem readValue_writeRecord (hne : fields ≠ []) (h : ∀ pair ∈ fields, SimpleField pair) {fuel : Nat}
    (hfuel : fields.length < fuel) :
    readValue (fuel + 1) (writeRecord fields) =
      if fields.all (fun pair => fits pair.2) then some (.obj (ofPairs fields), []) else none := by
  have hread := readFields_lines hne h hfuel
  obtain ⟨pair, rest, rfl⟩ := List.exists_cons_of_ne_nil hne
  obtain ⟨more, hmore⟩ := skip_lines rest (h pair List.mem_cons_self) ['\n', '\x7d']
  have hbreak : ∀ t, skip ('\n' :: t) = skip t := fun t => rfl
  rw [hmore] at hread
  rw [writeRecord_eq, List.cons_append, List.cons_append, readValue, hbreak, hmore]
  show (readFields fuel ('"' :: more)).map _ = _
  rw [hread]
  split
  · rfl
  · rfl

/-- **A record is read back as it was written**, unless an integer in it has too many digits. -/
theorem parse?_writeRecord (hne : fields ≠ []) (h : ∀ pair ∈ fields, SimpleField pair) :
    parse? (writeRecord fields) =
      if fields.all (fun pair => fits pair.2) then some (.obj (ofPairs fields)) else none := by
  have hskip : skip (writeRecord fields) = writeRecord fields := rfl
  have hline : ∀ piece ∈ fields.map line, piece ≠ [] := by
    intro piece hpiece
    obtain ⟨pair, -, rfl⟩ := List.mem_map.1 hpiece
    exact List.cons_ne_nil _ _
  have hlength := length_le_length_joinWith [',', '\n'] hline
  have hfuel : fields.length < 2 * (writeRecord fields).length + 1 := by
    rw [List.length_map] at hlength
    rw [writeRecord_eq]
    simp only [List.length_append, List.length_cons]
    omega
  rw [parse?, hskip, readValue_writeRecord hne h hfuel]
  split
  · rfl
  · rfl

/-- The bytes of a text spell what the text does. -/
theorem ofBytes?_toUTF8 (s : String) : ofBytes? s.toUTF8 = parse? s.toList := by
  have hutf8 : String.fromUTF8? s.toUTF8 = some s := dif_pos s.isValidUTF8
  unfold ofBytes?
  rw [hutf8, Option.bind_some]

end DatasetCatalog.Json
