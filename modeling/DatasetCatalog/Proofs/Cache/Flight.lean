import DatasetCatalog.Cache.Flight
import Mathlib.Tactic.Common

/-! # One load at a time

  What holds in every state that callers sharing flights can reach, whatever the order of their
  steps. Each flight belongs to the one caller that has registered it, and the phase of that caller
  tells everything about the flight: whether it is registered, what its outcome is, whether those
  who wait have been woken. So a data set has one flight on the register at most, and one load at
  most, and whoever waits for a flight receives what its owner has ended with.
-/

namespace DatasetCatalog.Flight

variable {σ ρ : Type} {calls : List (Call σ ρ)} {s s' : State σ ρ}

/-! ### Owners and leaders -/

/-- The flight that a caller has registered itself. -/
def Phase.own? : Phase ρ → Option Nat
  | loading flight | loaded flight _ | removed flight _ | led flight _ => some flight
  | _ => none

/-- The caller has registered the flight and not yet taken it off: its load is due or running, or
    has just ended. -/
def Phase.Leads (flight : Nat) : Phase ρ → Prop
  | loading f | loaded f _ => f = flight
  | _ => False

/-- The caller has registered the flight and not yet woken those who wait for it. -/
def Phase.Flies (flight : Nat) : Phase ρ → Prop
  | loading f | loaded f _ | removed f _ => f = flight
  | _ => False

/-- The caller registered the flight. -/
def Owns (s : State σ ρ) (i f : Nat) : Prop := ∃ p, s.phases[i]? = some p ∧ p.own? = some f

/-- The caller leads the flight of a data set. -/
def Leads (calls : List (Call σ ρ)) (s : State σ ρ) (i : Nat) (d : Int) (f : Nat) : Prop :=
  ∃ call p, calls[i]? = some call ∧ call.dataset = d ∧ s.phases[i]? = some p ∧ p.Leads f

theorem Phase.own?_of_leads {p : Phase ρ} {f : Nat} (h : p.Leads f) : p.own? = some f := by
  cases p with
  | loading | loaded => exact congrArg some h
  | idle | removed | led | waiting | received | gaveUp => exact h.elim

/-- The outcome is one that the caller's own load has in some world. -/
def Call.Gives (call : Call σ ρ) (o : ρ) : Prop := ∃ world, (call.load world).1 = some o

/-- What the phase of a caller tells about its flight. -/
def Phase.Agrees (call : Call σ ρ) (s : State σ ρ) : Phase ρ → Prop
  | idle => True
  | loading f => s.registered.lookup call.dataset = some f ∧
      s.flights[f]? = some ⟨call.dataset, none, false⟩
  | loaded f o => call.Gives o ∧ s.registered.lookup call.dataset = some f ∧
      s.flights[f]? = some ⟨call.dataset, some (call.share o), false⟩
  | removed f o => call.Gives o ∧
      s.flights[f]? = some ⟨call.dataset, some (call.share o), false⟩
  | led f o => call.Gives o ∧ s.flights[f]? = some ⟨call.dataset, some (call.share o), true⟩
  | waiting f => ∃ r, s.flights[f]? = some r ∧ r.dataset = call.dataset
  | received f o => s.flights[f]? = some ⟨call.dataset, some o, true⟩
  | gaveUp f o => call.givingUp = some o ∧ ∃ r, s.flights[f]? = some r ∧ r.dataset = call.dataset

/-- **The invariant of a run.** -/
structure Invariant (calls : List (Call σ ρ)) (s : State σ ρ) : Prop where
  /-- Every caller has a phase. -/
  length : s.phases.length = calls.length
  /-- The phases tell the truth about the flights. -/
  agrees : ∀ (i : Nat) (call : Call σ ρ) (p : Phase ρ),
    calls[i]? = some call → s.phases[i]? = some p → p.Agrees call s
  /-- A flight was registered by one caller only. -/
  owner_unique : ∀ i j f, Owns s i f → Owns s j f → i = j
  /-- Every flight was registered by a caller. -/
  owned : ∀ f, f < s.flights.length → ∃ i, Owns s i f
  /-- A registered flight has its leader. -/
  leader : ∀ d f, s.registered.lookup d = some f → ∃ i, Leads calls s i d f

namespace Invariant

theorem exists_call (h : Invariant calls s) {i : Nat} {p : Phase ρ}
    (hp : s.phases[i]? = some p) : ∃ call, calls[i]? = some call := by
  have hlt : i < calls.length := h.length ▸ (List.getElem?_eq_some_iff.1 hp).1
  exact ⟨_, List.getElem?_eq_getElem hlt⟩

/-- What a caller owns is a flight. -/
theorem lt_of_owns (h : Invariant calls s) {i f : Nat} (ho : Owns s i f) :
    f < s.flights.length := by
  obtain ⟨p, hp, hown⟩ := ho
  obtain ⟨call, hcall⟩ := h.exists_call hp
  have hagrees := h.agrees i call p hcall hp
  have hlt : ∀ {r : Record ρ}, s.flights[f]? = some r → f < s.flights.length :=
    fun hr => (List.getElem?_eq_some_iff.1 hr).1
  cases p with
  | loading =>
    obtain rfl := Option.some.inj hown
    exact hlt hagrees.2
  | loaded =>
    obtain rfl := Option.some.inj hown
    exact hlt hagrees.2.2
  | removed | led =>
    obtain rfl := Option.some.inj hown
    exact hlt hagrees.2
  | idle | waiting | received | gaveUp => exact absurd hown nofun

/-- A registered flight is a flight of the data set without a result that has been told. -/
theorem flight_of_registered (h : Invariant calls s) {d : Int} {f : Nat}
    (hf : s.registered.lookup d = some f) :
    ∃ o, s.flights[f]? = some ⟨d, o, false⟩ := by
  obtain ⟨i, call, p, hcall, rfl, hp, hleads⟩ := h.leader d f hf
  have hagrees := h.agrees i call p hcall hp
  cases p with
  | loading =>
    obtain rfl := hleads
    exact ⟨_, hagrees.2⟩
  | loaded =>
    obtain rfl := hleads
    exact ⟨_, hagrees.2.2⟩
  | idle | removed | led | waiting | received | gaveUp => exact hleads.elim

end Invariant

/-! ### One caller moves -/

/-- One caller goes from a phase to another one, and all others stay where they are. -/
structure Moves (s s' : State σ ρ) (i : Nat) (p p' : Phase ρ) : Prop where
  /-- Where it stood. -/
  before : s.phases[i]? = some p
  /-- Where it stands. -/
  after : s'.phases[i]? = some p'
  /-- The others have not moved. -/
  others : ∀ j, j ≠ i → s'.phases[j]? = s.phases[j]?
  /-- There are as many callers as before. -/
  length : s'.phases.length = s.phases.length

theorem moves_of_set {i : Nat} {p p' : Phase ρ} (hp : s.phases[i]? = some p)
    (h : s'.phases = s.phases.set i p') : Moves s s' i p p' where
  before := hp
  after := by
    rw [h, List.getElem?_set_self (List.getElem?_eq_some_iff.1 hp).1]
  others := fun j hj => by rw [h, List.getElem?_set_ne (Ne.symm hj)]
  length := by rw [h, List.length_set]

namespace Moves

variable {i : Nat} {p p' : Phase ρ}

theorem owns_other (m : Moves s s' i p p') {j f : Nat} (hj : j ≠ i) :
    Owns s' j f ↔ Owns s j f := by
  unfold Owns
  rw [m.others j hj]

theorem owns_self (m : Moves s s' i p p') {f : Nat} : Owns s' i f ↔ p'.own? = some f := by
  constructor
  · rintro ⟨q, hq, hown⟩
    obtain rfl := Option.some.inj (m.after.symm.trans hq)
    exact hown
  · intro hown
    exact ⟨p', m.after, hown⟩

theorem owned_self (m : Moves s s' i p p') {f : Nat} : Owns s i f ↔ p.own? = some f := by
  constructor
  · rintro ⟨q, hq, hown⟩
    obtain rfl := Option.some.inj (m.before.symm.trans hq)
    exact hown
  · intro hown
    exact ⟨p, m.before, hown⟩

theorem leads_other (m : Moves s s' i p p') {j f : Nat} {d : Int} (hj : j ≠ i) :
    Leads calls s' j d f ↔ Leads calls s j d f := by
  unfold Leads
  rw [m.others j hj]

/-- A move that keeps the caller's own flight keeps the invariant, as long as the phases of all
    callers still agree with the flights and the register still has its leaders. -/
theorem invariant (m : Moves s s' i p p') (h : Invariant calls s) (hown : p'.own? = p.own?)
    (hflights : s'.flights.length = s.flights.length)
    (hself : ∀ call, calls[i]? = some call → p'.Agrees call s')
    (hothers : ∀ (j : Nat) (call : Call σ ρ) (q : Phase ρ), j ≠ i → calls[j]? = some call →
      s.phases[j]? = some q → q.Agrees call s → q.Agrees call s')
    (hleader : ∀ d f, s'.registered.lookup d = some f → ∃ j, Leads calls s' j d f) :
    Invariant calls s' where
  length := m.length.trans h.length
  agrees := by
    intro j call q hcall hq
    by_cases hj : j = i
    · subst hj
      obtain rfl := Option.some.inj (m.after.symm.trans hq)
      exact hself call hcall
    · rw [m.others j hj] at hq
      exact hothers j call q hj hcall hq (h.agrees j call q hcall hq)
  owner_unique := by
    have hsame : ∀ j f, Owns s' j f ↔ Owns s j f := by
      intro j f
      by_cases hj : j = i
      · subst hj
        rw [m.owns_self, m.owned_self, hown]
      · exact m.owns_other hj
    intro j k f hj hk
    exact h.owner_unique j k f ((hsame j f).1 hj) ((hsame k f).1 hk)
  owned := by
    intro f hf
    obtain ⟨j, hj⟩ := h.owned f (hflights ▸ hf)
    refine ⟨j, ?_⟩
    by_cases hji : j = i
    · subst hji
      rw [m.owns_self, hown]
      exact m.owned_self.1 hj
    · exact (m.owns_other hji).2 hj
  leader := hleader

end Moves

/-! ### The steps -/

section Steps

variable {i : Nat}

/-- An agreement looks at the register and the flights only. -/
theorem Phase.Agrees.congr {call : Call σ ρ} {q : Phase ρ} (h : q.Agrees call s)
    (hregistered : s'.registered = s.registered) (hflights : s'.flights = s.flights) :
    q.Agrees call s' := by
  cases q with
  | idle => trivial
  | loading | loaded | removed | led | waiting | received | gaveUp =>
    unfold Phase.Agrees at h ⊢
    simpa only [hregistered, hflights] using h

/-- Leaders stay when the register stays and nobody stops leading. -/
theorem Moves.leader {p p' : Phase ρ} (m : Moves s s' i p p') (h : Invariant calls s)
    (hregistered : s'.registered = s.registered) (hleads : ∀ f, p.Leads f → p'.Leads f) :
    ∀ d f, s'.registered.lookup d = some f → ∃ j, Leads calls s' j d f := by
  intro d f hf
  rw [hregistered] at hf
  obtain ⟨j, hj⟩ := h.leader d f hf
  refine ⟨j, ?_⟩
  by_cases hji : j = i
  · subst hji
    obtain ⟨call, q, hcall, hd, hq, hl⟩ := hj
    obtain rfl := Option.some.inj (m.before.symm.trans hq)
    exact ⟨call, p', hcall, hd, m.after, hleads f hl⟩
  · exact (m.leads_other hji).2 hj

/-- A caller joins a flight. -/
theorem Invariant.join (h : Invariant calls s) {call : Call σ ρ} {f : Nat}
    (hidle : s.phases[i]? = some .idle) (hcall : calls[i]? = some call)
    (hf : s.registered.lookup call.dataset = some f) :
    Invariant calls (s.setPhase i (.waiting f)) := by
  have m : Moves s (s.setPhase i (.waiting f)) i .idle (.waiting f) := moves_of_set hidle rfl
  refine m.invariant h rfl rfl ?_ (fun j call q _ _ _ hq => hq.congr rfl rfl)
    (m.leader h rfl fun f hf => hf.elim)
  intro call' hcall'
  obtain rfl := Option.some.inj (hcall.symm.trans hcall')
  obtain ⟨o, ho⟩ := h.flight_of_registered hf
  exact ⟨_, ho, rfl⟩

/-- A waiting caller ends, and nothing else changes. -/
theorem Invariant.endWait (h : Invariant calls s) {f : Nat} {p' : Phase ρ}
    (hwaiting : s.phases[i]? = some (.waiting f)) (hown : p'.own? = none)
    (hagrees : ∀ call, calls[i]? = some call → p'.Agrees call s) :
    Invariant calls (s.setPhase i p') := by
  have m : Moves s (s.setPhase i p') i (.waiting f) p' := moves_of_set hwaiting rfl
  exact m.invariant h hown rfl (fun call hcall => (hagrees call hcall).congr rfl rfl)
    (fun j call q _ _ _ hq => hq.congr rfl rfl) (m.leader h rfl fun f hf => hf.elim)

/-! ### A new flight -/

/-- The state in which a caller has registered a flight of its own. -/
def State.registering (s : State σ ρ) (i : Nat) (d : Int) : State σ ρ :=
  { s.setPhase i (.loading s.flights.length) with
    registered := (d, s.flights.length) :: s.registered
    flights := s.flights ++ [{ dataset := d }] }

theorem lookup_registering (s : State σ ρ) (i : Nat) (d d' : Int) :
    (s.registering i d).registered.lookup d' =
      if d' = d then some s.flights.length else s.registered.lookup d' := by
  show List.lookup d' ((d, s.flights.length) :: s.registered) = _
  rw [List.lookup_cons]
  split
  · next heq => rw [if_pos (by simpa using heq)]
  · next hne => rw [if_neg (by simpa using hne)]

theorem flight_registering {f : Nat} {r : Record ρ} (d : Int) (hr : s.flights[f]? = some r) :
    (s.registering i d).flights[f]? = some r :=
  (List.getElem?_append_left (List.getElem?_eq_some_iff.1 hr).1).trans hr

theorem moves_registering (d : Int) (hidle : s.phases[i]? = some .idle) :
    Moves s (s.registering i d) i .idle (.loading s.flights.length) :=
  moves_of_set hidle rfl

/-- What others know stays true: they know older flights, of other data sets. -/
theorem Phase.Agrees.registering {call : Call σ ρ} {q : Phase ρ} {d : Int}
    (h : q.Agrees call s) (hnone : s.registered.lookup d = none) :
    q.Agrees call (s.registering i d) := by
  -- a data set with a leader is not the one that nobody leads
  have hlookup : ∀ f, s.registered.lookup call.dataset = some f →
      (s.registering i d).registered.lookup call.dataset = some f := by
    intro f hf
    rw [lookup_registering, if_neg, hf]
    rintro rfl
    exact absurd (hnone.symm.trans hf) nofun
  cases q with
  | idle => trivial
  | loading => exact ⟨hlookup _ h.1, flight_registering d h.2⟩
  | loaded => exact ⟨h.1, hlookup _ h.2.1, flight_registering d h.2.2⟩
  | removed | led => exact ⟨h.1, flight_registering d h.2⟩
  | received => exact flight_registering d h
  | waiting =>
    obtain ⟨r, hr, hd⟩ := h
    exact ⟨r, flight_registering d hr, hd⟩
  | gaveUp =>
    obtain ⟨hgiving, r, hr, hd⟩ := h
    exact ⟨hgiving, r, flight_registering d hr, hd⟩

/-- The new flight is the caller's, and all others have the owners that they had. -/
theorem owns_registering (d : Int) (hidle : s.phases[i]? = some .idle) {j f : Nat} :
    Owns (s.registering i d) j f ↔ (j = i ∧ f = s.flights.length) ∨ Owns s j f := by
  have m := moves_registering d hidle
  by_cases hj : j = i
  · subst hj
    have hnothing : ¬Owns s j f := fun ho => absurd (m.owned_self.1 ho) nofun
    rw [m.owns_self]
    simp only [Phase.own?, Option.some.injEq, true_and, hnothing, or_false]
    exact eq_comm
  · rw [m.owns_other hj]
    simp only [hj, false_and, false_or]

/-- Leaders stay, since none of them was idle. -/
theorem Leads.registering (d : Int) (hidle : s.phases[i]? = some .idle) {j f : Nat} {d' : Int}
    (h : Leads calls s j d' f) : Leads calls (s.registering i d) j d' f := by
  have hj : j ≠ i := by
    rintro rfl
    obtain ⟨-, q, -, -, hq, hleads⟩ := h
    obtain rfl := Option.some.inj (hidle.symm.trans hq)
    exact hleads
  exact ((moves_registering d hidle).leads_other hj).2 h

/-- A caller registers a flight of its own. -/
theorem Invariant.register (h : Invariant calls s) {call : Call σ ρ}
    (hidle : s.phases[i]? = some .idle) (hcall : calls[i]? = some call)
    (hnone : s.registered.lookup call.dataset = none) :
    Invariant calls (s.registering i call.dataset) where
  length := (moves_registering call.dataset hidle).length.trans h.length
  agrees := by
    have m := moves_registering call.dataset hidle
    intro j call' q hcall' hq
    by_cases hj : j = i
    · subst hj
      obtain rfl := Option.some.inj (m.after.symm.trans hq)
      obtain rfl := Option.some.inj (hcall.symm.trans hcall')
      exact ⟨by rw [lookup_registering, if_pos rfl], List.getElem?_concat_length⟩
    · rw [m.others j hj] at hq
      exact (h.agrees j call' q hcall' hq).registering hnone
  owner_unique := by
    intro j k f hj hk
    rcases (owns_registering _ hidle).1 hj with ⟨rfl, rfl⟩ | hold
    · rcases (owns_registering _ hidle).1 hk with ⟨rfl, -⟩ | hold'
      · rfl
      · exact absurd (h.lt_of_owns hold') (Nat.lt_irrefl _)
    · rcases (owns_registering _ hidle).1 hk with ⟨rfl, rfl⟩ | hold'
      · exact absurd (h.lt_of_owns hold) (Nat.lt_irrefl _)
      · exact h.owner_unique j k f hold hold'
  owned := by
    intro f hf
    have hlength : f < s.flights.length + 1 := lt_of_lt_of_eq hf List.length_append
    rcases Nat.lt_succ_iff_lt_or_eq.1 hlength with hlt | rfl
    · obtain ⟨j, hj⟩ := h.owned f hlt
      exact ⟨j, (owns_registering _ hidle).2 (.inr hj)⟩
    · exact ⟨i, (owns_registering _ hidle).2 (.inl ⟨rfl, rfl⟩)⟩
  leader := by
    intro d f hf
    rw [lookup_registering] at hf
    split at hf
    · next hd =>
      subst hd
      exact ⟨i, call, _, hcall, rfl, (moves_registering _ hidle).after, Option.some.inj hf⟩
    · obtain ⟨j, hj⟩ := h.leader d f hf
      exact ⟨j, hj.registering _ hidle⟩

/-! ### A changed flight -/

/-- What others know of a flight stays true when its owner changes it before anybody has been
    woken. -/
theorem Phase.Agrees.setFlight {call : Call σ ρ} {q : Phase ρ} {f : Nat}
    {change : Record ρ → Record ρ} (h : q.Agrees call s)
    (hregistered : s'.registered = s.registered)
    (hflights : s'.flights = s.flights.modify f change)
    (hchange : ∀ r, (change r).dataset = r.dataset) (hown : q.own? ≠ some f)
    (hopen : ∀ d o, s.flights[f]? ≠ some ⟨d, o, true⟩) : q.Agrees call s' := by
  have hsame : ∀ g, g ≠ f → s'.flights[g]? = s.flights[g]? := by
    intro g hg
    rw [hflights, List.getElem?_modify_ne _ _ (Ne.symm hg)]
  have hdataset : ∀ (g : Nat) (r : Record ρ), s.flights[g]? = some r →
      ∃ r', s'.flights[g]? = some r' ∧ r'.dataset = r.dataset := by
    intro g r hr
    by_cases hg : g = f
    · subst hg
      refine ⟨change r, ?_, hchange r⟩
      rw [hflights, List.getElem?_modify_eq, hr]
      rfl
    · exact ⟨r, by rw [hsame g hg, hr], rfl⟩
  cases q with
  | idle => trivial
  | loading g =>
    have hg : g ≠ f := fun heq => hown (congrArg some heq)
    exact ⟨hregistered ▸ h.1, (hsame g hg).trans h.2⟩
  | loaded g =>
    have hg : g ≠ f := fun heq => hown (congrArg some heq)
    exact ⟨h.1, hregistered ▸ h.2.1, (hsame g hg).trans h.2.2⟩
  | removed g | led g =>
    have hg : g ≠ f := fun heq => hown (congrArg some heq)
    exact ⟨h.1, (hsame g hg).trans h.2⟩
  | received g =>
    have hg : g ≠ f := fun heq => hopen _ _ (heq ▸ h)
    exact (hsame g hg).trans h
  | waiting g =>
    obtain ⟨r, hr, hd⟩ := h
    obtain ⟨r', hr', hd'⟩ := hdataset g r hr
    exact ⟨r', hr', hd'.trans hd⟩
  | gaveUp g =>
    obtain ⟨hgiving, r, hr, hd⟩ := h
    obtain ⟨r', hr', hd'⟩ := hdataset g r hr
    exact ⟨hgiving, r', hr', hd'.trans hd⟩

/-- Nobody else owns the flight of its owner. -/
theorem Invariant.own?_ne (h : Invariant calls s) {j f : Nat} {q : Phase ρ} (hi : Owns s i f)
    (hj : j ≠ i) (hq : s.phases[j]? = some q) : q.own? ≠ some f :=
  fun hown => hj (h.owner_unique j i f ⟨q, hq, hown⟩ hi)

/-- A load ends. -/
theorem Invariant.land (h : Invariant calls s) {call : Call σ ρ} {f : Nat} {o : ρ} (world : σ)
    (hloading : s.phases[i]? = some (.loading f)) (hcall : calls[i]? = some call)
    (hgives : call.Gives o) :
    Invariant calls (s.land i f o (call.share o) world) := by
  have m : Moves s (s.land i f o (call.share o) world) i (.loading f) (.loaded f o) :=
    moves_of_set hloading rfl
  have hopen := h.agrees i call _ hcall hloading
  refine m.invariant h rfl (List.length_modify ..) ?_ ?_ (m.leader h rfl fun g hg => hg)
  · intro call' hcall'
    obtain rfl := Option.some.inj (hcall.symm.trans hcall')
    refine ⟨hgives, hopen.1, ?_⟩
    show (s.flights.modify f _)[f]? = _
    rw [List.getElem?_modify_eq, hopen.2]
    rfl
  · intro j call' q hj _ hq hagrees
    refine hagrees.setFlight rfl rfl (fun _ => rfl)
      (h.own?_ne ⟨_, hloading, rfl⟩ hj hq) fun d o' hdone => ?_
    rw [hopen.2] at hdone
    exact absurd hdone (by simp)

/-- Those who wait are woken. -/
theorem Invariant.wake (h : Invariant calls s) {f : Nat} {o : ρ}
    (hremoved : s.phases[i]? = some (.removed f o)) :
    Invariant calls ((s.setPhase i (.led f o)).setFlight f fun r => { r with done := true }) := by
  have m : Moves s ((s.setPhase i (.led f o)).setFlight f fun r => { r with done := true }) i
      (.removed f o) (.led f o) := moves_of_set hremoved rfl
  obtain ⟨call, hcall⟩ := h.exists_call hremoved
  have hopen := h.agrees i call _ hcall hremoved
  refine m.invariant h rfl (List.length_modify ..) ?_ ?_ (m.leader h rfl fun g hg => hg.elim)
  · intro call' hcall'
    obtain rfl := Option.some.inj (hcall.symm.trans hcall')
    refine ⟨hopen.1, ?_⟩
    show (s.flights.modify f _)[f]? = _
    rw [List.getElem?_modify_eq, hopen.2]
    rfl
  · intro j call' q hj _ hq hagrees
    refine hagrees.setFlight rfl rfl (fun _ => rfl)
      (h.own?_ne ⟨_, hremoved, rfl⟩ hj hq) fun d o' hdone => ?_
    rw [hopen.2] at hdone
    exact absurd hdone (by simp)

theorem lookup_filter_ne {α : Type} (l : List (Int × α)) (d d' : Int) :
    (l.filter fun (e, _) => e ≠ d).lookup d' = if d' = d then none else l.lookup d' := by
  induction l with
  | nil => simp
  | cons entry rest ih =>
    obtain ⟨e, a⟩ := entry
    rw [List.filter_cons]
    by_cases he : e = d
    · rw [if_neg (by simpa using he), ih]
      by_cases hd : d' = d
      · rw [if_pos hd, if_pos hd]
      · have hne : (d' == e) = false := by simpa [he] using hd
        rw [if_neg hd, if_neg hd, List.lookup_cons, hne]
    · rw [if_pos (by simpa using he), List.lookup_cons, List.lookup_cons, ih]
      by_cases hd : d' = e
      · simp [hd, he]
      · have hne : (d' == e) = false := by simpa using hd
        rw [hne]

theorem lookup_unregister (s : State σ ρ) (d d' : Int) :
    (s.unregister d).registered.lookup d' = if d' = d then none else s.registered.lookup d' :=
  lookup_filter_ne s.registered d d'

/-- A flight is taken off the register. -/
theorem Invariant.unregister (h : Invariant calls s) {call : Call σ ρ} {f : Nat} {o : ρ}
    (hloaded : s.phases[i]? = some (.loaded f o)) (hcall : calls[i]? = some call) :
    Invariant calls ((s.setPhase i (.removed f o)).unregister call.dataset) := by
  have m : Moves s ((s.setPhase i (.removed f o)).unregister call.dataset) i (.loaded f o)
      (.removed f o) := moves_of_set hloaded rfl
  have hopen := h.agrees i call _ hcall hloaded
  refine m.invariant h rfl rfl ?_ ?_ ?_
  · intro call' hcall'
    obtain rfl := Option.some.inj (hcall.symm.trans hcall')
    exact ⟨hopen.1, hopen.2.2⟩
  · intro j call' q hj hcall' hq hagrees
    -- another leader leads another data set, since the register has one flight for each
    have hdataset : ∀ g, q.own? = some g → s.registered.lookup call'.dataset = some g →
        ((s.setPhase i (.removed f o)).unregister call.dataset).registered.lookup call'.dataset =
          some g := by
      intro g hown hg
      rw [lookup_unregister, if_neg]
      · exact hg
      · intro heq
        rw [heq, hopen.2.1] at hg
        obtain rfl := Option.some.inj hg
        exact h.own?_ne ⟨_, hloaded, rfl⟩ hj hq hown
    cases q with
    | loading => exact ⟨hdataset _ rfl hagrees.1, hagrees.2⟩
    | loaded => exact ⟨hagrees.1, hdataset _ rfl hagrees.2.1, hagrees.2.2⟩
    | idle | removed | led | waiting | received | gaveUp => exact hagrees
  · intro d g hg
    rw [lookup_unregister] at hg
    split at hg
    · exact absurd hg nofun
    · next hd =>
      obtain ⟨j, hj⟩ := h.leader d g hg
      have hji : j ≠ i := by
        rintro rfl
        obtain ⟨call', q, hcall', hd', -⟩ := hj
        obtain rfl := Option.some.inj (hcall.symm.trans hcall')
        exact hd hd'.symm
      exact ⟨j, (m.leads_other hji).2 hj⟩

/-! ### What a step does -/

theorem step_call_cases (h : s.step calls (.call i) = some s') :
    ∃ call, s.phases[i]? = some .idle ∧ calls[i]? = some call ∧ s' = s.enter i call.dataset := by
  unfold State.step at h
  simp only at h
  split at h
  · next call hidle hcall => exact ⟨call, hidle, hcall, (Option.some.inj h).symm⟩
  · exact absurd h nofun

theorem step_load_cases (h : s.step calls (.load i) = some s') :
    ∃ call f o world, s.phases[i]? = some (.loading f) ∧ calls[i]? = some call ∧
      call.load s.world = (some o, world) ∧ s' = s.land i f o (call.share o) world := by
  unfold State.step at h
  simp only at h
  split at h
  · next f call hloading hcall =>
    split at h
    · next o world hload =>
      exact ⟨call, f, o, world, hloading, hcall, hload, (Option.some.inj h).symm⟩
    · exact absurd h nofun
  · exact absurd h nofun

theorem step_remove_cases (h : s.step calls (.remove i) = some s') :
    ∃ call f o, s.phases[i]? = some (.loaded f o) ∧ calls[i]? = some call ∧
      s' = (s.setPhase i (.removed f o)).unregister call.dataset := by
  unfold State.step at h
  simp only at h
  split at h
  · next f o call hloaded hcall => exact ⟨call, f, o, hloaded, hcall, (Option.some.inj h).symm⟩
  · exact absurd h nofun

theorem step_wake_cases (h : s.step calls (.wake i) = some s') :
    ∃ f o, s.phases[i]? = some (.removed f o) ∧
      s' = (s.setPhase i (.led f o)).setFlight f fun r => { r with done := true } := by
  unfold State.step at h
  simp only at h
  split at h
  · next f o hremoved => exact ⟨f, o, hremoved, (Option.some.inj h).symm⟩
  · exact absurd h nofun

theorem step_receive_cases (h : s.step calls (.receive i) = some s') :
    ∃ f d o, s.phases[i]? = some (.waiting f) ∧ s.flights[f]? = some ⟨d, some o, true⟩ ∧
      s' = s.setPhase i (.received f o) := by
  unfold State.step at h
  simp only at h
  split at h
  · next f hwaiting =>
    split at h
    · next d o hflight => exact ⟨f, d, o, hwaiting, hflight, (Option.some.inj h).symm⟩
    · exact absurd h nofun
  · exact absurd h nofun

theorem step_giveUp_cases (h : s.step calls (.giveUp i) = some s') :
    ∃ call f d o' o, s.phases[i]? = some (.waiting f) ∧ calls[i]? = some call ∧
      s.flights[f]? = some ⟨d, o', false⟩ ∧ call.givingUp = some o ∧
      s' = s.setPhase i (.gaveUp f o) := by
  unfold State.step at h
  simp only at h
  split at h
  · next f call hwaiting hcall =>
    split at h
    · next d o' hflight =>
      obtain ⟨o, hgiving, rfl⟩ := Option.map_eq_some_iff.1 h
      exact ⟨call, f, d, o', o, hwaiting, hcall, hflight, hgiving, rfl⟩
    · exact absurd h nofun
  · exact absurd h nofun

end Steps

/-! ### Every run -/

theorem invariant_initial (world : σ) : Invariant calls (initial calls.length world) := by
  have hidle : ∀ (i : Nat) (p : Phase ρ),
      (initial calls.length world : State σ ρ).phases[i]? = some p → p = .idle := by
    intro i p hp
    exact List.eq_of_mem_replicate (List.mem_of_getElem? hp)
  have hnone : ∀ i f, ¬Owns (initial calls.length world : State σ ρ) i f := by
    rintro i f ⟨p, hp, hown⟩
    obtain rfl := hidle i p hp
    exact absurd hown nofun
  exact {
    length := List.length_replicate
    agrees := by
      intro i call p _ hp
      obtain rfl := hidle i p hp
      trivial
    owner_unique := fun i j f hi => absurd hi (hnone i f)
    owned := fun f hf => absurd hf (Nat.not_lt_zero f)
    leader := fun d f hf => absurd hf nofun }

/-- **Every step keeps the invariant.** -/
theorem Invariant.step (h : Invariant calls s) {label : Label σ}
    (hstep : s.step calls label = some s') : Invariant calls s' := by
  cases label with
  | call i =>
    obtain ⟨call, hidle, hcall, rfl⟩ := step_call_cases hstep
    unfold State.enter
    split
    · next f hf => exact h.join hidle hcall hf
    · next hnone => exact h.register hidle hcall hnone
  | load i =>
    obtain ⟨call, f, o, world, hloading, hcall, hload, rfl⟩ := step_load_cases hstep
    exact h.land world hloading hcall ⟨s.world, congrArg Prod.fst hload⟩
  | remove i =>
    obtain ⟨call, f, o, hloaded, hcall, rfl⟩ := step_remove_cases hstep
    exact h.unregister hloaded hcall
  | wake i =>
    obtain ⟨f, o, hremoved, rfl⟩ := step_wake_cases hstep
    exact h.wake hremoved
  | receive i =>
    obtain ⟨f, d, o, hwaiting, hflight, rfl⟩ := step_receive_cases hstep
    refine h.endWait hwaiting rfl fun call hcall => ?_
    obtain ⟨r, hr, hd⟩ := h.agrees i call _ hcall hwaiting
    obtain rfl := Option.some.inj (hflight.symm.trans hr)
    obtain rfl := hd
    exact hflight
  | giveUp i =>
    obtain ⟨call, f, d, o', o, hwaiting, hcall, hflight, hgiving, rfl⟩ := step_giveUp_cases hstep
    refine h.endWait hwaiting rfl fun call' hcall' => ?_
    obtain rfl := Option.some.inj (hcall.symm.trans hcall')
    exact ⟨hgiving, h.agrees i call _ hcall hwaiting⟩
  | elsewhere world =>
    obtain rfl := Option.some.inj hstep
    exact ⟨h.length, fun i call p hcall hp => (h.agrees i call p hcall hp).congr rfl rfl,
      h.owner_unique, h.owned, h.leader⟩

/-- **Every state that can be reached has the invariant.** -/
theorem Reachable.invariant (h : Reachable calls s) : Invariant calls s := by
  induction h with
  | init world => exact invariant_initial world
  | step label _ hstep ih => exact ih.step hstep

theorem Reachable.steps {labels : List (Label σ)} (h : Reachable calls s)
    (hsteps : s.steps calls labels = some s') : Reachable calls s' := by
  induction labels generalizing s with
  | nil =>
    obtain rfl := Option.some.inj hsteps
    exact h
  | cons label rest ih =>
    obtain ⟨next, hnext, hrest⟩ := Option.bind_eq_some_iff.1 hsteps
    exact ih (.step label h hnext) hrest

/-! ### What the invariant promises -/

namespace Invariant

theorem registered_of_leads (h : Invariant calls s) {i f : Nat} {d : Int}
    (hi : Leads calls s i d f) : s.registered.lookup d = some f := by
  obtain ⟨call, p, hcall, rfl, hp, hleads⟩ := hi
  have hagrees := h.agrees i call p hcall hp
  cases p with
  | loading =>
    obtain rfl := hleads
    exact hagrees.1
  | loaded =>
    obtain rfl := hleads
    exact hagrees.2.1
  | idle | removed | led | waiting | received | gaveUp => exact hleads.elim

theorem owns_of_leads {i f : Nat} {d : Int} (hi : Leads calls s i d f) : Owns s i f := by
  obtain ⟨call, p, -, -, hp, hleads⟩ := hi
  exact ⟨p, hp, Phase.own?_of_leads hleads⟩

/-- A data set has one leader at most. -/
theorem leads_unique (h : Invariant calls s) {i j f g : Nat} {d : Int}
    (hi : Leads calls s i d f) (hj : Leads calls s j d g) : i = j ∧ f = g := by
  have hfg : f = g :=
    Option.some.inj ((h.registered_of_leads hi).symm.trans (h.registered_of_leads hj))
  subst hfg
  exact ⟨h.owner_unique i j f (owns_of_leads hi) (owns_of_leads hj), rfl⟩

/-- The owner of a flight, and what its phase tells about the flight. -/
theorem owner_cases (h : Invariant calls s) {f : Nat} {r : Record ρ}
    (hr : s.flights[f]? = some r) :
    ∃ (i : Nat) (call : Call σ ρ), calls[i]? = some call ∧ call.dataset = r.dataset ∧
      ((s.phases[i]? = some (.loading f) ∧ r.outcome = none ∧ r.done = false) ∨
        ∃ own, call.Gives own ∧ r.outcome = some (call.share own) ∧
          ((s.phases[i]? = some (.loaded f own) ∧ r.done = false) ∨
            (s.phases[i]? = some (.removed f own) ∧ r.done = false) ∨
            (s.phases[i]? = some (.led f own) ∧ r.done = true))) := by
  obtain ⟨i, p, hp, hown⟩ := h.owned f (List.getElem?_eq_some_iff.1 hr).1
  obtain ⟨call, hcall⟩ := h.exists_call hp
  have hagrees := h.agrees i call p hcall hp
  refine ⟨i, call, hcall, ?_⟩
  cases p with
  | idle | waiting | received | gaveUp => exact absurd hown nofun
  | loading =>
    obtain rfl := Option.some.inj hown
    obtain rfl := Option.some.inj (hr.symm.trans hagrees.2)
    exact ⟨rfl, .inl ⟨hp, rfl, rfl⟩⟩
  | loaded _ own =>
    obtain rfl := Option.some.inj hown
    obtain rfl := Option.some.inj (hr.symm.trans hagrees.2.2)
    exact ⟨rfl, .inr ⟨own, hagrees.1, rfl, .inl ⟨hp, rfl⟩⟩⟩
  | removed _ own =>
    obtain rfl := Option.some.inj hown
    obtain rfl := Option.some.inj (hr.symm.trans hagrees.2)
    exact ⟨rfl, .inr ⟨own, hagrees.1, rfl, .inr (.inl ⟨hp, rfl⟩)⟩⟩
  | led _ own =>
    obtain rfl := Option.some.inj hown
    obtain rfl := Option.some.inj (hr.symm.trans hagrees.2)
    exact ⟨rfl, .inr ⟨own, hagrees.1, rfl, .inr (.inr ⟨hp, rfl⟩)⟩⟩

/-- Who waits is not forgotten: the flight is done, and its outcome can be received, or its owner
    has not woken anybody yet. -/
theorem waits_cases (h : Invariant calls s) {i f : Nat}
    (hwaiting : s.phases[i]? = some (.waiting f)) :
    (∃ o, s.step calls (.receive i) = some (s.setPhase i (.received f o))) ∨
      ∃ (j : Nat) (p : Phase ρ), s.phases[j]? = some p ∧ p.Flies f := by
  obtain ⟨call, hcall⟩ := h.exists_call hwaiting
  obtain ⟨⟨d, outcome, done⟩, hr, -⟩ := h.agrees i call _ hcall hwaiting
  obtain ⟨j, call, -, -, hphase⟩ := h.owner_cases hr
  obtain ⟨hp, -⟩ | ⟨own, -, houtcome, ⟨hp, -⟩ | ⟨hp, -⟩ | ⟨-, hdone⟩⟩ := hphase
  · exact .inr ⟨j, _, hp, rfl⟩
  · exact .inr ⟨j, _, hp, rfl⟩
  · exact .inr ⟨j, _, hp, rfl⟩
  · obtain rfl := houtcome
    obtain rfl := hdone
    refine .inl ⟨call.share own, ?_⟩
    simp only [State.step, hwaiting, hr]

end Invariant

end DatasetCatalog.Flight
