import DatasetCatalog.Proofs.Except
import DatasetCatalog.Proofs.Keyed
import DatasetCatalog.Proofs.Number.Order
import DatasetCatalog.Settings.Resolve

/-! # Where settings come from

  Each setting comes from its environment variable, else from the settings file, else from the
  defaults, and the settings as a whole are in order; a file or a value that cannot be used is told
  as an error of the settings. Four kinds of values are exceptions: a timeout that is an integer
  beyond the doubles, a cache in a home directory that is not known, and a value with an integer of
  too many digits to be written end in an error of another kind, and a timeout that is not a number
  is taken.
-/

namespace DatasetCatalog.Settings

variable {homes : Path.Homes} {home : Path} {s next : Settings} {key : String} {v : Json}
  {e : SettingsError}

/-! ### Values that cannot be used -/

/-- The value tells no seconds. -/
def NoSeconds : Json → Prop
  | .null | .arr _ | .obj _ => True
  | .str text => Binary64.ofText? text.toList = none
  | .bool _ | .number _ => False

/-- No double is near the value. -/
def BeyondDoubles (v : Json) : Prop := ∃ n, v = .number (.int n) ∧ Binary64.ofInt? n = none

/-- The path lies in a home directory that is not known. -/
def InUnknownHome (homes : Path.Homes) (p : Path) : Prop :=
  ∃ name rest, p = ⟨0, name :: rest⟩ ∧ name.toList.head? = some '~' ∧ homes name = none

/-- The settings that are kept as texts. -/
def textKeys : List String := ["api_url", "api_key", "cache_root"]

/-- The value is no value of the setting. -/
def Misfits (key : String) (v : Json) : Prop :=
  key = "timeout_sec" ∧ NoSeconds v ∨
    (key = "strict_decoding" ∨ key = "show_progress") ∧ ∀ b, v ≠ .bool b

/-- The value is no value of the setting, and an error of the settings tells so. -/
def Refused (key : String) (v : Json) : Prop := v.isWritable = true ∧ Misfits key v

/-- The value is no value of the setting, and an error of another kind tells so. A value with an
    integer of too many digits can neither be kept as a text nor be cited. -/
def Unforeseen (homes : Path.Homes) (key : String) (v : Json) : Prop :=
  v.isWritable = false ∧ (key ∈ textKeys ∨ Misfits key v) ∨
    key = "timeout_sec" ∧ BeyondDoubles v ∨
    key = "cache_root" ∧ InUnknownHome homes (.ofText v.asText)

/-- The value can be used. -/
def Fits (homes : Path.Homes) (key : String) (v : Json) : Prop :=
  ¬Refused key v ∧ ¬Unforeseen homes key v

theorem not_unforeseen_of_refused (h : Refused key v) : ¬Unforeseen homes key v := by
  obtain ⟨hshort, hmisfits⟩ := h
  rintro (⟨hlong, -⟩ | ⟨htimeout, n, rfl, -⟩ | ⟨hroot, -⟩)
  · exact Bool.false_ne_true (hlong.symm.trans hshort)
  · rcases hmisfits with ⟨-, hnone⟩ | ⟨hflag, -⟩
    · exact hnone
    · exact absurd hflag (by simp [htimeout])
  · exact absurd hmisfits (by simp [Misfits, hroot])

/-! ### Errors -/

/-- An error of the settings tells that a value is refused, and one of another kind that it is
    unforeseen. -/
def Tells (refused unforeseen : Prop) : SettingsError → Prop
  | .config _ => refused
  | _ => unforeseen

theorem Tells.imp {p p' q q' : Prop} (h : Tells p q e) (hp : p → p') (hq : q → q') :
    Tells p' q' e := by
  cases e with
  | config c => exact hp h
  | unknownUser | timeoutTooLarge | tooManyDigits | unreadable | foreign => exact hq h

theorem written_cases (v : Json) :
    v.isWritable = true ∧ written v = .ok v ∨
      v.isWritable = false ∧ written v = .error .tooManyDigits := by
  unfold written
  cases v.isWritable with
  | true => exact .inl ⟨rfl, rfl⟩
  | false => exact .inr ⟨rfl, rfl⟩

/-- A value is cited in an error of the settings, if it can be. -/
theorem tells_of_cited {α : Type} {cite : Json → ConfigError}
    (h : (do throw (.config (cite (← written v))) : Except SettingsError α) = .error e) :
    Tells (v.isWritable = true) (v.isWritable = false) e := by
  rcases written_cases v with ⟨hshort, hv⟩ | ⟨hlong, hv⟩
  · rw [hv] at h
    obtain rfl := Except.error.inj h
    exact hshort
  · rw [hv] at h
    obtain rfl := Except.error.inj h
    exact hlong

theorem tells_of_secondsOf (h : secondsOf v = .error e) :
    Tells (v.isWritable = true ∧ NoSeconds v)
      (v.isWritable = false ∧ NoSeconds v ∨ BeyondDoubles v) e := by
  cases v with
  | null | arr | obj =>
    exact (tells_of_cited h).imp (fun hshort => ⟨hshort, trivial⟩)
      fun hlong => .inl ⟨hlong, trivial⟩
  | bool b => exact absurd h nofun
  | number n =>
    cases n with
    | float x => exact absurd h nofun
    | int n =>
      cases hx : Binary64.ofInt? n with
      | none =>
        simp only [secondsOf, hx] at h
        obtain rfl := Except.error.inj h
        exact .inr ⟨n, rfl, hx⟩
      | some x =>
        simp only [secondsOf, hx] at h
        exact absurd h nofun
  | str text =>
    cases hx : Binary64.ofText? text.toList with
    | none =>
      simp only [secondsOf, hx] at h
      obtain rfl := Except.error.inj h
      exact ⟨rfl, hx⟩
    | some x =>
      simp only [secondsOf, hx] at h
      exact absurd h nofun

theorem tells_of_truthOf (h : truthOf key v = .error e) :
    Tells (v.isWritable = true ∧ ∀ b, v ≠ .bool b) (v.isWritable = false ∧ ∀ b, v ≠ .bool b) e := by
  cases v with
  | bool b => exact absurd h nofun
  | null | number | str | arr | obj =>
    exact (tells_of_cited h).imp (fun hshort => ⟨hshort, nofun⟩) fun hlong => ⟨hlong, nofun⟩

/-- A path begins with a tilde, or stays as it is when it is expanded. -/
theorem expand_cases (homes : Path.Homes) (p : Path) :
    expand homes p = .ok p ∨ ∃ name rest, p = ⟨0, name :: rest⟩ ∧
      name.toList.head? = some '~' ∧ expand homes p = match homes name with
        | some home => .ok ⟨home.slashes, home.names ++ rest⟩
        | none => .error (.unknownUser name) := by
  obtain ⟨slashes, names⟩ := p
  cases slashes with
  | succ n => exact .inl rfl
  | zero =>
    cases names with
    | nil => exact .inl rfl
    | cons first rest =>
      unfold expand Path.expandHome
      by_cases htilde : first.toList.head? = some '~'
      · refine .inr ⟨first, rest, rfl, htilde, ?_⟩
        simp only [if_neg (not_not.2 htilde)]
        cases homes first with
        | none => rfl
        | some home => rfl
      · refine .inl ?_
        simp only [if_pos htilde]

theorem tells_of_expand {p : Path} (h : expand homes p = .error e) :
    Tells False (InUnknownHome homes p) e := by
  rcases expand_cases homes p with hsame | ⟨name, rest, rfl, htilde, hexpand⟩
  · exact absurd (hsame.symm.trans h) nofun
  · rw [hexpand] at h
    cases hhome : homes name with
    | none =>
      rw [hhome] at h
      obtain rfl := Except.error.inj h
      exact ⟨name, rest, rfl, htilde, hhome⟩
    | some home =>
      rw [hhome] at h
      exact absurd h nofun

theorem error_of_written {α : Type} {f : Json → Except SettingsError α}
    (h : written v >>= f = .error e) :
    v.isWritable = false ∧ e = .tooManyDigits ∨ v.isWritable = true ∧ f v = .error e := by
  rcases written_cases v with ⟨hshort, hv⟩ | ⟨hlong, hv⟩
  · rw [hv] at h
    exact .inr ⟨hshort, h⟩
  · rw [hv] at h
    exact .inl ⟨hlong, (Except.error.inj h).symm⟩

/-- A value that cannot be set is refused or unforeseen, as the error tells. -/
theorem tells_of_set (h : set homes s key v = .error e) :
    Tells (Refused key v) (Unforeseen homes key v) e := by
  have hlong : key ∈ textKeys → v.isWritable = false → e = .tooManyDigits →
      Tells (Refused key v) (Unforeseen homes key v) e := by
    rintro htext hlong rfl
    exact .inl ⟨hlong, .inl htext⟩
  have herror : ∀ {α : Type} {x : Except SettingsError α} {f : α → Settings},
      (do return f (← x)) = .error e → x = .error e := by
    intro α x f hbind
    rcases bind_eq_error_iff.1 hbind with hx | ⟨a, -, hpure⟩
    · exact hx
    · exact absurd hpure nofun
  -- a text can only be too long, a number or a flag can also be of the wrong kind
  unfold set at h
  split at h
  · next hurl =>
    rcases error_of_written h with ⟨hv, he⟩ | ⟨-, hpure⟩
    · exact hlong (by simp [textKeys, hurl]) hv he
    · exact absurd hpure nofun
  split at h
  · next hkey =>
    rcases error_of_written h with ⟨hv, he⟩ | ⟨-, hpure⟩
    · exact hlong (by simp [textKeys, hkey]) hv he
    · exact absurd hpure nofun
  split at h
  · next hroot =>
    rcases error_of_written h with ⟨hv, he⟩ | ⟨-, hexpand⟩
    · exact hlong (by simp [textKeys, hroot]) hv he
    · exact (tells_of_expand (herror hexpand)).imp False.elim
        fun hhome => .inr (.inr ⟨hroot, hhome⟩)
  split at h
  · next htimeout =>
    refine (tells_of_secondsOf (herror h)).imp
      (fun hnone => ⟨hnone.1, .inl ⟨htimeout, hnone.2⟩⟩) ?_
    rintro (hnone | hlarge)
    · exact .inl ⟨hnone.1, .inr (.inl ⟨htimeout, hnone.2⟩)⟩
    · exact .inr (.inl ⟨htimeout, hlarge⟩)
  split at h
  · next hstrict =>
    exact (tells_of_truthOf (herror h)).imp
      (fun hother => ⟨hother.1, .inr ⟨.inl hstrict, hother.2⟩⟩)
      fun hother => .inl ⟨hother.1, .inr (.inr ⟨.inl hstrict, hother.2⟩)⟩
  split at h
  · next hprogress =>
    exact (tells_of_truthOf (herror h)).imp
      (fun hother => ⟨hother.1, .inr ⟨.inr hprogress, hother.2⟩⟩)
      fun hother => .inl ⟨hother.1, .inr (.inr ⟨.inr hprogress, hother.2⟩)⟩
  · exact absurd h nofun

/-! ### Setting one value -/

theorem cited_ne_ok {α : Type} {cite : Json → ConfigError} {a : α} :
    (do throw (.config (cite (← written v))) : Except SettingsError α) ≠ .ok a := by
  rcases written_cases v with ⟨-, hv⟩ | ⟨-, hv⟩
  · rw [hv]
    exact nofun
  · rw [hv]
    exact nofun

theorem secondsOf_ok {x : Number} (h : secondsOf v = .ok x) :
    ¬NoSeconds v ∧ ¬BeyondDoubles v ∧ ∃ y, x = .float y := by
  cases v with
  | null | arr | obj => exact absurd h cited_ne_ok
  | bool b =>
    obtain rfl := Except.ok.inj h
    exact ⟨id, nofun, _, rfl⟩
  | number n =>
    cases n with
    | float y =>
      obtain rfl := Except.ok.inj h
      exact ⟨id, nofun, y, rfl⟩
    | int n =>
      cases hy : Binary64.ofInt? n with
      | none =>
        simp only [secondsOf, hy] at h
        exact absurd h nofun
      | some y =>
        simp only [secondsOf, hy] at h
        obtain rfl := Except.ok.inj h
        refine ⟨id, ?_, y, rfl⟩
        rintro ⟨m, heq, hm⟩
        cases heq
        exact absurd (hy.symm.trans hm) nofun
  | str text =>
    cases hy : Binary64.ofText? text.toList with
    | none =>
      simp only [secondsOf, hy] at h
      exact absurd h nofun
    | some y =>
      simp only [secondsOf, hy] at h
      obtain rfl := Except.ok.inj h
      refine ⟨?_, nofun, y, rfl⟩
      intro hnone
      exact absurd (hy.symm.trans hnone) nofun

theorem truthOf_ok {b : Bool} (h : truthOf key v = .ok b) : v = .bool b := by
  cases v with
  | bool b' =>
    obtain rfl := Except.ok.inj h
    rfl
  | null | number | str | arr | obj => exact absurd h cited_ne_ok

theorem written_ok {u : Json} (h : written v = .ok u) : v.isWritable = true ∧ u = v := by
  rcases written_cases v with ⟨hshort, hv⟩ | ⟨-, hv⟩
  · exact ⟨hshort, (Except.ok.inj (hv.symm.trans h)).symm⟩
  · exact absurd (hv.symm.trans h) nofun

theorem expand_ok {p q : Path} (h : expand homes p = .ok q) : ¬InUnknownHome homes p := by
  rintro ⟨name, rest, rfl, htilde, hnone⟩
  unfold expand Path.expandHome at h
  simp only [if_neg (not_not.2 htilde), hnone] at h
  exact absurd h nofun

/-- A field holds what is found for it, and stays what it was when nothing is. -/
def Taken {α : Type} (holds : Json → α → Prop) (found : Option Json) (before after : α) : Prop :=
  match found with
  | some v => holds v after
  | none => after = before

/-- Each field of the settings holds what is found under its name. -/
structure TakenFrom (homes : Path.Homes) (found : String → Option Json) (s next : Settings) :
    Prop where
  apiUrl : Taken (fun v url => url = trimUrl v.asText) (found "api_url") s.apiUrl next.apiUrl
  apiKey : Taken (fun v key => key = keyOf v) (found "api_key") s.apiKey next.apiKey
  cacheRoot : Taken (fun v root => expand homes (.ofText v.asText) = .ok root)
    (found "cache_root") s.cacheRoot next.cacheRoot
  timeout : Taken (fun v x => secondsOf v = .ok x) (found "timeout_sec") s.timeout next.timeout
  strictDecoding : Taken (fun v b => v = .bool b) (found "strict_decoding")
    s.strictDecoding next.strictDecoding
  showProgress : Taken (fun v b => v = .bool b) (found "show_progress")
    s.showProgress next.showProgress

/-- The value of one name. -/
def only (key : String) (v : Json) (name : String) : Option Json :=
  if name = key then some v else none

/-- A value that is set can be used, and its field holds it. -/
theorem set_ok (h : set homes s key v = .ok next) :
    Fits homes key v ∧ TakenFrom homes (only key v) s next := by
  -- one case for each setting: its own field takes the value, and the others are left alone
  unfold set at h
  by_cases hurl : key = "api_url"
  · subst hurl
    obtain ⟨u, hu, hnext⟩ := bind_eq_ok_iff.1 ((if_pos rfl).symm.trans h)
    obtain ⟨hshort, rfl⟩ := written_ok hu
    obtain rfl := Except.ok.inj hnext
    refine ⟨⟨by simp [Refused, Misfits], by simp [Unforeseen, hshort]⟩, ?_⟩
    constructor <;> simp [Taken, only]
  rw [if_neg hurl] at h
  by_cases hkey : key = "api_key"
  · subst hkey
    obtain ⟨u, hu, hnext⟩ := bind_eq_ok_iff.1 ((if_pos rfl).symm.trans h)
    obtain ⟨hshort, rfl⟩ := written_ok hu
    obtain rfl := Except.ok.inj hnext
    refine ⟨⟨by simp [Refused, Misfits], by simp [Unforeseen, hshort]⟩, ?_⟩
    constructor <;> simp [Taken, only]
  rw [if_neg hkey] at h
  by_cases hroot : key = "cache_root"
  · subst hroot
    obtain ⟨u, hu, hexpand⟩ := bind_eq_ok_iff.1 ((if_pos rfl).symm.trans h)
    obtain ⟨hshort, rfl⟩ := written_ok hu
    obtain ⟨q, hq, hnext⟩ := bind_eq_ok_iff.1 hexpand
    obtain rfl := Except.ok.inj hnext
    refine ⟨⟨by simp [Refused, Misfits], by simp [Unforeseen, hshort, expand_ok hq]⟩, ?_⟩
    constructor <;> simp [Taken, only, hq]
  rw [if_neg hroot] at h
  by_cases htimeout : key = "timeout_sec"
  · subst htimeout
    obtain ⟨x, hx, hnext⟩ := bind_eq_ok_iff.1 ((if_pos rfl).symm.trans h)
    obtain rfl := Except.ok.inj hnext
    obtain ⟨hsome, hnear, -⟩ := secondsOf_ok hx
    refine ⟨⟨by simp [Refused, Misfits, hsome],
      by simp [Unforeseen, Misfits, textKeys, hsome, hnear]⟩, ?_⟩
    constructor <;> simp [Taken, only, hx]
  rw [if_neg htimeout] at h
  by_cases hstrict : key = "strict_decoding"
  · subst hstrict
    obtain ⟨b, hb, hnext⟩ := bind_eq_ok_iff.1 ((if_pos rfl).symm.trans h)
    obtain rfl := Except.ok.inj hnext
    obtain rfl := truthOf_ok hb
    refine ⟨⟨by simp [Refused, Misfits], by simp [Unforeseen, Misfits, textKeys]⟩, ?_⟩
    constructor <;> simp [Taken, only]
  rw [if_neg hstrict] at h
  by_cases hprogress : key = "show_progress"
  · subst hprogress
    obtain ⟨b, hb, hnext⟩ := bind_eq_ok_iff.1 ((if_pos rfl).symm.trans h)
    obtain rfl := Except.ok.inj hnext
    obtain rfl := truthOf_ok hb
    refine ⟨⟨by simp [Refused, Misfits], by simp [Unforeseen, Misfits, textKeys]⟩, ?_⟩
    constructor <;> simp [Taken, only]
  rw [if_neg hprogress] at h
  obtain rfl := Except.ok.inj h
  refine ⟨⟨by simp [Refused, Misfits, htimeout, hstrict, hprogress], by simp [Unforeseen, Misfits,
    textKeys, hurl, hkey, hroot, htimeout, hstrict, hprogress]⟩, ?_⟩
  constructor <;> simp [Taken, only, Ne.symm hurl, Ne.symm hkey, Ne.symm hroot,
    Ne.symm htimeout, Ne.symm hstrict, Ne.symm hprogress]

/-! ### Setting many values -/

variable {values : List (String × Json)}

theorem Taken.cons {α : Type} {holds : Json → α → Prop} {name : String} {a b c : α}
    (hfresh : key ∉ values.map (·.1)) (hfirst : Taken holds (only key v name) a b)
    (hrest : Taken holds (values.lookup name) b c) :
    Taken holds (((key, v) :: values).lookup name) a c := by
  unfold only at hfirst
  by_cases hname : name = key
  · subst hname
    rw [if_pos rfl] at hfirst
    rw [lookup_eq_none_of_not_mem hfresh] at hrest
    obtain rfl : c = b := hrest
    rw [List.lookup_cons_self]
    exact hfirst
  · rw [if_neg hname] at hfirst
    obtain rfl : b = a := hfirst
    rw [List.lookup_cons, beq_false_of_ne hname]
    exact hrest

theorem TakenFrom.cons (hfresh : key ∉ values.map (·.1))
    (hfirst : TakenFrom homes (only key v) s next) {last : Settings}
    (hrest : TakenFrom homes (values.lookup ·) next last) :
    TakenFrom homes (((key, v) :: values).lookup ·) s last where
  apiUrl := hfirst.apiUrl.cons hfresh hrest.apiUrl
  apiKey := hfirst.apiKey.cons hfresh hrest.apiKey
  cacheRoot := hfirst.cacheRoot.cons hfresh hrest.cacheRoot
  timeout := hfirst.timeout.cons hfresh hrest.timeout
  strictDecoding := hfirst.strictDecoding.cons hfresh hrest.strictDecoding
  showProgress := hfirst.showProgress.cons hfresh hrest.showProgress

/-- The first value of a list that cannot be used. -/
inductive FirstFault (homes : Path.Homes) : List (String × Json) → String → Json → Prop where
  | here {key : String} {v : Json} {rest : List (String × Json)} (h : ¬Fits homes key v) :
      FirstFault homes ((key, v) :: rest) key v
  | later {first : String × Json} {rest : List (String × Json)} {key : String} {v : Json}
      (hfirst : Fits homes first.1 first.2) (h : FirstFault homes rest key v) :
      FirstFault homes (first :: rest) key v

theorem FirstFault.unique {key' : String} {v' : Json} (h : FirstFault homes values key v)
    (h' : FirstFault homes values key' v') : key' = key ∧ v' = v := by
  induction h with
  | here hfault =>
    cases h' with
    | here => exact ⟨rfl, rfl⟩
    | later hfits => exact absurd hfits hfault
  | later hfits _ ih =>
    cases h' with
    | here hfault => exact absurd hfits hfault
    | later _ h' => exact ih h'

theorem FirstFault.not_fits (h : FirstFault homes values key v) :
    ¬∀ x ∈ values, Fits homes x.1 x.2 := by
  intro hall
  induction h with
  | here hfault => exact hfault (hall _ List.mem_cons_self)
  | later _ _ ih => exact ih fun x hx => hall x (List.mem_cons_of_mem _ hx)

/-- The first value that cannot be used ends it. -/
theorem setAll_error (h : setAll homes values s = .error e) :
    ∃ key v, FirstFault homes values key v ∧ Tells (Refused key v) (Unforeseen homes key v) e := by
  induction values generalizing s with
  | nil => exact absurd h nofun
  | cons first values ih =>
    rcases bind_eq_error_iff.1 h with hset | ⟨next, hset, hrest⟩
    · have htells := tells_of_set hset
      refine ⟨first.1, first.2, .here ?_, htells⟩
      intro hfits
      cases e with
      | config c => exact hfits.1 htells
      | unknownUser | timeoutTooLarge | tooManyDigits | unreadable | foreign =>
        exact hfits.2 htells
    · obtain ⟨key, v, hfirst, htells⟩ := ih hrest
      exact ⟨key, v, .later (set_ok hset).1 hfirst, htells⟩

/-- When all values can be used, each field holds what the list has for it. -/
theorem setAll_ok (hkeys : (values.map (·.1)).Nodup) {last : Settings}
    (h : setAll homes values s = .ok last) :
    (∀ x ∈ values, Fits homes x.1 x.2) ∧ TakenFrom homes (values.lookup ·) s last := by
  induction values generalizing s with
  | nil =>
    obtain rfl := Except.ok.inj h
    exact ⟨nofun, rfl, rfl, rfl, rfl, rfl, rfl⟩
  | cons first values ih =>
    obtain ⟨hfresh, hkeys⟩ := List.nodup_cons.1 hkeys
    obtain ⟨next, hset, hrest⟩ := bind_eq_ok_iff.1 h
    obtain ⟨hfits, hfirst⟩ := set_ok hset
    obtain ⟨hall, htaken⟩ := ih hkeys hrest
    exact ⟨List.forall_mem_cons.2 ⟨hfits, hall⟩, hfirst.cons hfresh htaken⟩

/-! ### Layers -/

section Layers

variable {env : Environment} {given : List (String × Json)} {file : Option (Path × SettingsFile)}

/-- What the settings file gives; no file gives nothing. -/
def givenIn : Option (Path × SettingsFile) → Except SettingsError (List (String × Json))
  | some (path, content) => givenBy path content
  | none => .ok []

/-- What is found for a setting: its environment variable when that is not empty, else the value
    that the settings file gives. -/
def layered? (env : Environment) (given : List (String × Json)) (key : String) : Option Json :=
  let own :=
    if key = "api_url" then givenVariable env "OPENML_API_URL"
    else if key = "api_key" then givenVariable env "OPENML_API_KEY"
    else if key = "cache_root" then givenVariable env "OPENML_CACHE_DIR"
    else none
  (own.map Json.str).or (given.lookup key)

/-- The defaults of a caller with the given home directory. -/
def defaults (home : Path) : Settings :=
  { cacheRoot := ⟨home.slashes, home.names ++ [".cache", "openml_catalog"]⟩ }

/-- Values with a variable in the place of a setting, unless the variable is empty. -/
def replacedBy (env : Environment) (values : List (String × Json))
    (replacement : String × String) : List (String × Json) :=
  match givenVariable env replacement.1 with
  | some v => Json.setField values replacement.2 (.str v)
  | none => values

theorem withEnvironment_eq (env : Environment) (given : List (String × Json)) :
    withEnvironment env given = replacements.foldl (replacedBy env) given := rfl

theorem lookup_replacedBy (env : Environment) (values : List (String × Json))
    (replacement : String × String) (key : String) :
    (replacedBy env values replacement).lookup key =
      if key = replacement.2 then
        ((givenVariable env replacement.1).map Json.str).or (values.lookup key)
      else values.lookup key := by
  unfold replacedBy
  cases givenVariable env replacement.1 with
  | none => exact (ite_self _).symm
  | some v => exact Json.lookup_setField key

theorem nodup_replacedBy (env : Environment) (h : (values.map (·.1)).Nodup)
    (replacement : String × String) : ((replacedBy env values replacement).map (·.1)).Nodup := by
  unfold replacedBy
  cases givenVariable env replacement.1 with
  | none => exact h
  | some v => exact Json.nodup_setField h

/-- **The environment goes before the file.** -/
theorem lookup_withEnvironment (env : Environment) (given : List (String × Json)) (key : String) :
    (withEnvironment env given).lookup key = layered? env given key := by
  simp only [withEnvironment_eq, replacements, List.foldl_cons, List.foldl_nil,
    lookup_replacedBy, layered?]
  by_cases hurl : key = "api_url"
  · simp [hurl]
  by_cases hkey : key = "api_key"
  · simp [hkey]
  by_cases hroot : key = "cache_root"
  · simp [hroot]
  simp [hurl, hkey, hroot]

theorem nodup_withEnvironment (env : Environment) (h : (given.map (·.1)).Nodup) :
    ((withEnvironment env given).map (·.1)).Nodup := by
  rw [withEnvironment_eq]
  exact List.foldlRecOn (motive := fun values => (values.map (·.1)).Nodup) replacements
    (replacedBy env) h fun _ hvalues replacement _ => nodup_replacedBy env hvalues replacement

/-- Settings that are checked as a whole, with the directory of the cache. -/
def settle (homes : Path.Homes) (s : Settings) : Except SettingsError Settings :=
  match s.checked with
  | .error e => throw (.config e)
  | .ok s => do return { s with cacheRoot := ← expand homes s.cacheRoot }

theorem resolve_eq (homes : Path.Homes) (file : Option (Path × SettingsFile))
    (env : Environment) :
    resolve homes file env =
      givenIn file >>= fun given =>
        setAll homes (withEnvironment env given) {} >>= settle homes := by
  cases file with
  | none => rfl
  | some named => rfl

/-! ### Settings that are in order -/

/-- The address is not empty and has no slash at its end, and the timeout is above zero. -/
structure Proper (s : Settings) : Prop where
  apiUrl : s.apiUrl ≠ ""
  apiUrl_last : s.apiUrl.toList.getLast? ≠ some '/'
  timeout : (Number.int 0).lt s.timeout = true

theorem getLast?_trimUrl (text : String) : (trimUrl text).toList.getLast? ≠ some '/' := by
  intro hlast
  unfold trimUrl Text.dropEndWhile at hlast
  rw [String.toList_ofList, List.getLast?_reverse] at hlast
  have hkept := List.head?_dropWhile_not (· == '/') text.toList.reverse
  rw [hlast] at hkept
  exact absurd hkept nofun

/-- As seconds the value is not a number. -/
def TellsNaN (v : Json) : Prop := secondsOf v = .ok (.float .nan)

theorem checked_cases (s : Settings) :
    (∃ c, s.checked = .error c) ∧ (s.apiUrl = "" ∨ s.timeout.le (.int 0) = true) ∨
      s.checked = .ok s ∧ s.apiUrl ≠ "" ∧ s.timeout.le (.int 0) = false := by
  unfold checked
  by_cases hurl : s.apiUrl = ""
  · rw [if_pos hurl]
    exact .inl ⟨⟨_, rfl⟩, .inl hurl⟩
  · rw [if_neg hurl]
    cases hle : s.timeout.le (.int 0) with
    | true => exact .inl ⟨⟨_, rfl⟩, .inr rfl⟩
    | false => exact .inr ⟨rfl, hurl, rfl⟩

section Taken

variable {found : String → Option Json} {last : Settings}

theorem apiUrl_eq_empty_iff (h : TakenFrom homes found {} last) :
    last.apiUrl = "" ↔ ∃ v, found "api_url" = some v ∧ trimUrl v.asText = "" := by
  have hurl := h.apiUrl
  cases hfound : found "api_url" with
  | none =>
    rw [hfound] at hurl
    obtain hurl : last.apiUrl = ({} : Settings).apiUrl := hurl
    rw [hurl]
    exact iff_of_false (by decide) (by simp)
  | some v =>
    rw [hfound] at hurl
    obtain hurl : last.apiUrl = trimUrl v.asText := hurl
    simp [hurl]

theorem getLast?_apiUrl (h : TakenFrom homes found {} last) :
    last.apiUrl.toList.getLast? ≠ some '/' := by
  have hurl := h.apiUrl
  cases hfound : found "api_url" with
  | none =>
    rw [hfound] at hurl
    obtain hurl : last.apiUrl = ({} : Settings).apiUrl := hurl
    rw [hurl]
    decide
  | some v =>
    rw [hfound] at hurl
    obtain hurl : last.apiUrl = trimUrl v.asText := hurl
    rw [hurl]
    exact getLast?_trimUrl v.asText

theorem isNaN_timeout_iff (h : TakenFrom homes found {} last) :
    last.timeout.isNaN = true ↔ ∃ v, found "timeout_sec" = some v ∧ TellsNaN v := by
  have htimeout := h.timeout
  cases hfound : found "timeout_sec" with
  | none =>
    rw [hfound] at htimeout
    obtain htimeout : last.timeout = ({} : Settings).timeout := htimeout
    rw [htimeout]
    exact iff_of_false (by decide +kernel) (by simp)
  | some v =>
    rw [hfound] at htimeout
    obtain htimeout : secondsOf v = .ok last.timeout := htimeout
    obtain ⟨-, -, x, hx⟩ := secondsOf_ok htimeout
    unfold TellsNaN
    rw [hx] at htimeout ⊢
    simp only [Option.some.injEq, exists_eq_left', htimeout, Except.ok.injEq, Number.float.injEq]
    cases x with
    | nan => simp [Number.isNaN, Binary64.isNaN]
    | infinite negative => simp [Number.isNaN, Binary64.isNaN]
    | finite negative m e hc => simp [Number.isNaN, Binary64.isNaN]

theorem expand_of_absolute {p : Path} (h : p.slashes ≠ 0) : expand homes p = .ok p := by
  obtain ⟨slashes, names⟩ := p
  cases slashes with
  | zero => exact absurd rfl h
  | succ n => rfl

/-- The caller has a home directory, and all home directories that are known are absolute. -/
structure Housed (homes : Path.Homes) (home : Path) : Prop where
  own : homes "~" = some home
  absolute : ∀ name p, homes name = some p → p.slashes ≠ 0

/-- A path that has been expanded stays as it is. -/
theorem expand_expanded (hhoused : Housed homes home) {p q : Path} (h : expand homes p = .ok q) :
    expand homes q = .ok q := by
  rcases expand_cases homes p with hsame | ⟨name, rest, rfl, -, hexpand⟩
  · obtain rfl := Except.ok.inj (hsame.symm.trans h)
    exact hsame
  · rw [hexpand] at h
    cases hhome : homes name with
    | none =>
      rw [hhome] at h
      exact absurd h nofun
    | some other =>
      rw [hhome] at h
      obtain rfl := Except.ok.inj h
      exact expand_of_absolute (hhoused.absolute name other hhome)

/-- The cache is looked for where it was found, or in the home directory. -/
theorem exists_expand_cacheRoot (hhoused : Housed homes home) (h : TakenFrom homes found {} last) :
    ∃ q, expand homes last.cacheRoot = .ok q ∧
      TakenFrom homes found (defaults home) { last with cacheRoot := q } := by
  have hroot := h.cacheRoot
  cases hfound : found "cache_root" with
  | none =>
    rw [hfound] at hroot
    obtain hroot : last.cacheRoot = ({} : Settings).cacheRoot := hroot
    have hexpand : expand homes ({} : Settings).cacheRoot = .ok (defaults home).cacheRoot := by
      have htilde : ¬"~".toList.head? ≠ some '~' := by decide
      unfold expand Path.expandHome
      simp only [if_neg htilde, hhoused.own]
      rfl
    refine ⟨(defaults home).cacheRoot, by rw [hroot, hexpand], { h with cacheRoot := ?_ }⟩
    rw [hfound]
    rfl
  | some v =>
    rw [hfound] at hroot
    obtain hroot : expand homes (.ofText v.asText) = .ok last.cacheRoot := hroot
    refine ⟨last.cacheRoot, expand_expanded hhoused hroot, { h with cacheRoot := ?_ }⟩
    rw [hfound]
    exact hroot

end Taken

/-! ### What is promised -/

/-- The outcome is as promised: settings that are in order, each from the layer that goes before
    the others, or an error of the settings. -/
def AsPromised (homes : Path.Homes) (home : Path) (file : Option (Path × SettingsFile))
    (env : Environment) : Except SettingsError Settings → Prop
  | .ok s => s.Proper ∧
      ∃ given, givenIn file = .ok given ∧ TakenFrom homes (layered? env given) (defaults home) s
  | .error e => ∃ c, e = .config c

/-- The values end in an error that is none of the settings, or in a timeout that is not a
    number. -/
inductive Astray (homes : Path.Homes) (env : Environment) (given : List (String × Json)) :
    Prop where
  | unforeseen {key : String} {v : Json}
      (hfirst : FirstFault homes (withEnvironment env given) key v) (h : Unforeseen homes key v)
  | notANumber {v : Json} (hfit : ∀ x ∈ withEnvironment env given, Fits homes x.1 x.2)
      (hurl : ∀ url, layered? env given "api_url" = some url → trimUrl url.asText ≠ "")
      (hfound : layered? env given "timeout_sec" = some v) (h : TellsNaN v)

/-- The file cannot be read: it is no file of text, or the reader of YAML fails on it. -/
def Unread (content : SettingsFile) : Prop :=
  content = .unreadable ∨ ∃ e, content = .text (.failed e)

/-- The settings stray from what is promised: the file cannot be read, or its values go astray. -/
inductive Strays (homes : Path.Homes) (file : Option (Path × SettingsFile)) (env : Environment) :
    Prop where
  | unread {path : Path} {content : SettingsFile} (h : file = some (path, content))
      (hcontent : Unread content)
  | astray {given : List (String × Json)} (hgiven : givenIn file = .ok given)
      (h : Astray homes env given)

theorem givenIn_cases (file : Option (Path × SettingsFile)) :
    (∃ path content, file = some (path, content) ∧ Unread content ∧
      ∃ e, givenIn file = .error e ∧ ∀ c, e ≠ .config c) ∨
      (∃ c, givenIn file = .error (.config c)) ∨ ∃ given, givenIn file = .ok given := by
  cases file with
  | none => exact .inr (.inr ⟨[], rfl⟩)
  | some named =>
    obtain ⟨path, content⟩ := named
    cases content with
    | unreadable =>
      exact .inl ⟨path, .unreadable, rfl, .inl rfl, .unreadable path, rfl, fun _ => nofun⟩
    | missing => exact .inr (.inl ⟨_, rfl⟩)
    | text reading =>
      cases reading with
      | failed e =>
        exact .inl ⟨path, .text (.failed e), rfl, .inr ⟨e, rfl⟩, .foreign e, rfl, fun _ => nofun⟩
      | malformed => exact .inr (.inl ⟨_, rfl⟩)
      | value v =>
        cases hsection : sectionOf path v with
        | error c => exact .inr (.inl ⟨c, by simp only [givenIn, givenBy, hsection]⟩)
        | ok given => exact .inr (.inr ⟨given, by simp only [givenIn, givenBy, hsection]⟩)

/-- When all values can be used, the check of the settings as a whole lets nothing pass but a
    timeout that is not a number. -/
theorem astray_iff_of_fits {last : Settings}
    (hfit : ∀ x ∈ withEnvironment env given, Fits homes x.1 x.2)
    (htaken : TakenFrom homes (layered? env given) {} last) :
    Astray homes env given ↔ last.apiUrl ≠ "" ∧ last.timeout.isNaN = true := by
  constructor
  · rintro (⟨hfirst, -⟩ | ⟨-, hurl, htimeout, hnan⟩)
    · exact absurd hfit hfirst.not_fits
    · refine ⟨?_, (isNaN_timeout_iff htaken).2 ⟨_, htimeout, hnan⟩⟩
      intro hempty
      obtain ⟨url, hsome, htrim⟩ := (apiUrl_eq_empty_iff htaken).1 hempty
      exact hurl url hsome htrim
  · rintro ⟨hurl, hnan⟩
    obtain ⟨v, htimeout, htells⟩ := (isNaN_timeout_iff htaken).1 hnan
    refine .notANumber hfit ?_ htimeout htells
    intro url hsome htrim
    exact hurl ((apiUrl_eq_empty_iff htaken).2 ⟨url, hsome, htrim⟩)

theorem asPromised_settle_iff (hhoused : Housed homes home) (hgiven : givenIn file = .ok given)
    {last : Settings} (htaken : TakenFrom homes (layered? env given) {} last) :
    AsPromised homes home file env (settle homes last) ↔
      ¬(last.apiUrl ≠ "" ∧ last.timeout.isNaN = true) := by
  unfold settle
  rcases checked_cases last with ⟨⟨c, hchecked⟩, hwhy⟩ | ⟨hchecked, hurl, hpositive⟩
  · rw [hchecked]
    refine iff_of_true ⟨c, rfl⟩ ?_
    rintro ⟨hurl, hnan⟩
    rcases hwhy with hempty | hle
    · exact hurl hempty
    · exact absurd ((Number.isNaN_of_le hle).1.symm.trans hnan) nofun
  · obtain ⟨q, hexpand, hlayers⟩ := exists_expand_cacheRoot hhoused htaken
    rw [hchecked]
    simp only [hexpand]
    show (Proper { last with cacheRoot := q } ∧ ∃ given, _) ↔ _
    cases hnan : last.timeout.isNaN with
    | true =>
      refine iff_of_false ?_ (not_not.2 ⟨hurl, rfl⟩)
      rintro ⟨hproper, -⟩
      have hle := (Bool.and_eq_true_iff.1 hproper.timeout).1
      exact absurd ((Number.isNaN_of_le hle).2.symm.trans hnan) nofun
    | false =>
      have hlast := getLast?_apiUrl htaken
      have hproper : Proper { last with cacheRoot := q } :=
        ⟨hurl, hlast, Number.lt_of_not_le hnan rfl hpositive⟩
      exact iff_of_true ⟨hproper, given, hgiven, hlayers⟩ fun h => absurd h.2 nofun

/-- **What resolving comes to, for the values of a file.** -/
theorem asPromised_of_given (hhoused : Housed homes home) (hgiven : givenIn file = .ok given)
    (hkeys : (given.map (·.1)).Nodup) :
    AsPromised homes home file env (resolve homes file env) ↔ ¬Astray homes env given := by
  rw [resolve_eq, hgiven]
  show AsPromised homes home file env (setAll homes (withEnvironment env given) {} >>= _) ↔ _
  cases hset : setAll homes (withEnvironment env given) {} with
  | error e =>
    obtain ⟨key, v, hfirst, htells⟩ := setAll_error hset
    cases e with
    | config c =>
      refine iff_of_true ⟨c, rfl⟩ ?_
      rintro (⟨hfirst', hforeign⟩ | ⟨hfit, -, -, -⟩)
      · obtain ⟨rfl, rfl⟩ := hfirst.unique hfirst'
        exact not_unforeseen_of_refused htells hforeign
      · exact hfirst.not_fits hfit
    | unknownUser | timeoutTooLarge | tooManyDigits | unreadable | foreign =>
      refine iff_of_false ?_ (not_not.2 (.unforeseen hfirst htells))
      rintro ⟨c, hc⟩
      exact absurd hc nofun
  | ok last =>
    obtain ⟨hfit, htaken⟩ := setAll_ok (nodup_withEnvironment env hkeys) hset
    have hlayered : TakenFrom homes (layered? env given) {} last := by
      simpa only [lookup_withEnvironment] using htaken
    rw [astray_iff_of_fits hfit hlayered]
    exact asPromised_settle_iff hhoused hgiven hlayered

/-- **Resolving gives settings in order, each from the layer that goes before the others, or an
    error of the settings**, exactly when the settings file can be read and none of these is met: a
    timeout beyond the doubles, a home directory that is not known, a value that would have to be
    written with an integer of too many digits, and a timeout that is not a number. -/
theorem asPromised_resolve_iff (hhoused : Housed homes home)
    (hkeys : ∀ given, givenIn file = .ok given → (given.map (·.1)).Nodup) :
    AsPromised homes home file env (resolve homes file env) ↔ ¬Strays homes file env := by
  rcases givenIn_cases file with
    ⟨path, content, hfile, hunread, e, hgiven, hother⟩ | ⟨c, hgiven⟩ | ⟨given, hgiven⟩
  · have hresolve : resolve homes file env = .error e := by
      rw [resolve_eq, hgiven]
      rfl
    rw [hresolve]
    refine iff_of_false ?_ (not_not.2 (.unread hfile hunread))
    rintro ⟨c, hc⟩
    exact hother c hc
  · have hresolve : resolve homes file env = .error (.config c) := by
      rw [resolve_eq, hgiven]
      rfl
    rw [hresolve]
    refine iff_of_true ⟨c, rfl⟩ ?_
    rintro (⟨rfl, hunread⟩ | ⟨hok, -⟩)
    · rcases hunread with rfl | ⟨e, rfl⟩
      · exact absurd hgiven nofun
      · exact absurd hgiven nofun
    · exact absurd (hgiven.symm.trans hok) nofun
  · rw [asPromised_of_given hhoused hgiven (hkeys given hgiven)]
    refine not_congr ⟨.astray hgiven, ?_⟩
    rintro (⟨rfl, hunread⟩ | ⟨hok, hastray⟩)
    · rcases hunread with rfl | ⟨e, rfl⟩
      · exact absurd hgiven nofun
      · exact absurd hgiven nofun
    · obtain rfl := Except.ok.inj (hgiven.symm.trans hok)
      exact hastray

/-- The settings file `settings.yaml` of a caller who sets an address and a timeout. -/
def fileOf (timeout : Json) : Option (Path × SettingsFile) :=
  some (⟨0, ["settings.yaml"]⟩, .text (.value (.obj [("openml_catalog", .obj
    [("api_url", .str "https://catalog.test/"), ("timeout_sec", timeout)])])))

theorem givenIn_fileOf (timeout : Json) : givenIn (fileOf timeout) =
    .ok [("api_url", .str "https://catalog.test/"), ("timeout_sec", timeout)] := by
  simp [fileOf, givenIn, givenBy, sectionOf, mapping?, saysNothing, Settings.section, keys]

/-- The homes of two users, of whom `root` is the other one. -/
def twoHomes : Path.Homes := fun name =>
  if name = "~" then some ⟨1, ["home", "user"]⟩
  else if name = "~root" then some ⟨1, ["root"]⟩ else none

/-- The timeout `nan` is taken, with a cache in the home directory of another user. -/
theorem not_asPromised_nan :
    let home : Path := ⟨1, ["home", "user"]⟩
    let env : Environment := [("OPENML_CACHE_DIR", "~root/cache")]
    Housed twoHomes home ∧
      (∀ given, givenIn (fileOf (.str "nan")) = .ok given → (given.map (·.1)).Nodup) ∧
      ¬AsPromised twoHomes home (fileOf (.str "nan")) env
        (resolve twoHomes (fileOf (.str "nan")) env) ∧
      resolve twoHomes (fileOf (.str "nan")) env = .ok
        { apiUrl := "https://catalog.test", cacheRoot := ⟨1, ["root", "cache"]⟩
          timeout := .float .nan } := by
  intro home env
  have hhoused : Housed twoHomes home := by
    refine ⟨rfl, fun name p hp => ?_⟩
    unfold twoHomes at hp
    split at hp
    · obtain rfl := Option.some.inj hp
      decide
    · split at hp
      · obtain rfl := Option.some.inj hp
        decide
      · exact absurd hp nofun
  have hgiven := givenIn_fileOf (.str "nan")
  have hkeys : ∀ given, givenIn (fileOf (.str "nan")) = .ok given →
      (given.map (·.1)).Nodup := by
    intro given hok
    obtain rfl := Except.ok.inj (hgiven.symm.trans hok)
    decide
  refine ⟨hhoused, hkeys, ?_, ?_⟩
  · rw [asPromised_resolve_iff hhoused hkeys, not_not]
    refine .astray hgiven (.notANumber (v := .str "nan") ?_ ?_ rfl rfl)
    · have hwritable : ∀ text, (Json.str text).isWritable = true := fun _ => rfl
      have hurl : Fits twoHomes "api_url" (.str "https://catalog.test/") := by
        simp [Fits, Refused, Misfits, Unforeseen, hwritable]
      have htimeout : Fits twoHomes "timeout_sec" (.str "nan") := by
        have hsome : ¬NoSeconds (.str "nan") := nofun
        simp [Fits, Refused, Misfits, Unforeseen, hwritable, hsome, BeyondDoubles]
      have hroot : Fits twoHomes "cache_root" (.str "~root/cache") := by
        have hpath : Path.ofText "~root/cache" = ⟨0, ["~root", "cache"]⟩ := by decide
        simp [Fits, Refused, Misfits, Unforeseen, hwritable, InUnknownHome, Json.asText, hpath,
          twoHomes]
      show ∀ x ∈ [("api_url", Json.str "https://catalog.test/"), ("timeout_sec", .str "nan"),
        ("cache_root", .str "~root/cache")], Fits twoHomes x.1 x.2
      simp only [List.forall_mem_cons, hurl, htimeout, hroot, true_and]
      exact nofun
    · intro url hurl
      obtain rfl := Option.some.inj hurl
      decide
  · decide +kernel

end Layers

end DatasetCatalog.Settings
