import DatasetCatalog.Cache.Basic
import DatasetCatalog.Proofs.Cache.Flight
import DatasetCatalog.Proofs.World

/-! # Single flight

  Any number of callers ask one cache for artifacts, each with its own way to fetch and its own
  patience, and their steps are interleaved in any order. In every state that they can reach there
  is one load at most for each data set, and all who have joined it end alike, unless they give up
  waiting. To give up is a timeout only when the wait could be begun: a caller whose patience is
  too long ends with an error of its own.
-/

namespace DatasetCatalog.Cache

open Flight DatasetCatalog.Action

variable {ε : Type}

/-! ### Alone -/

theorem exec_thenLand {α δ : Type} (c : Cache) (id : Int) (x : Action δ α) (w : World) :
    (c.thenLand id x).exec w = match x.exec w with
      | (none, next) => (none, next)
      | (some o, next) => (some o, { next with flights := next.flights.erase (c.number, id) }) := by
  unfold thenLand land
  rw [exec_bind, exec_attempt]
  rcases x.exec w with ⟨_ | o, next⟩
  · rfl
  · simp only [exec_bind, exec_change, exec_ofExcept]

/-- What a caller does that finds no flight of its data set: its load, with a flight registered
    meanwhile. -/
theorem exec_getOrFetch (c : Cache) (r : Request ε) {w : World}
    (h : (c.number, r.dataset) ∉ w.flights) :
    (c.getOrFetch r.dataset r.expected r.timeout r.fetch).exec w =
      match (c.load r).exec { w with flights := (c.number, r.dataset) :: w.flights } with
      | (none, next) => (none, next)
      | (some o, next) =>
        (some o, { next with flights := next.flights.erase (c.number, r.dataset) }) := by
  have hin : decide ((c.number, r.dataset) ∈ w.flights) = false := decide_eq_false h
  unfold getOrFetch begin load inFlight
  simp only [exec_bind, exec_look, hin, Bool.false_eq_true, if_false, exec_change, exec_attempt,
    exec_mapError]
  generalize (c.probe r.dataset).exec _ = looked
  -- the process stops, the entry cannot be read, there is none, or there is one
  obtain ⟨_ | _ | _ | artifact, next⟩ := looked
  · rfl
  · simp only [land, exec_bind, exec_change, exec_throw]
  · simp only [exec_pure, exec_bind, exec_mapError]
    obtain ⟨_ | e | fetched, next'⟩ := r.fetch.exec next
    · rfl
    · exact e.elim
    · simp only [complete, exec_thenLand]
      rcases (c.thenRelease r.dataset (c.store r.dataset r.expected fetched)).exec next' with
        ⟨_ | o, last⟩
      · rfl
      · rfl
  · simp only [land, exec_bind, exec_change, exec_pure]

/-! ### The promise -/

/-- The outcome of a caller of the cache. -/
abbrev Outcome (ε : Type) := Except (GetError ε) Artifact

variable {c : Cache} {requests : List (Request ε)} {s : State World (Outcome ε)}

/-- The caller leads the flight of a data set: it has registered the flight and not yet taken it
    off the register. -/
abbrev LeadsAmong (c : Cache) (requests : List (Request ε)) (s : State World (Outcome ε)) (i : Nat)
    (d : Int) (f : Nat) : Prop :=
  Leads (requests.map c.caller) s i d f

/-- **The promise of single flight**, as it stands in a state. -/
structure SingleFlight (c : Cache) (requests : List (Request ε)) (s : State World (Outcome ε)) :
    Prop where
  /-- One caller at most leads a flight of a data set. -/
  one_leader : ∀ i j d f g, LeadsAmong c requests s i d f → LeadsAmong c requests s j d g →
    i = j ∧ f = g
  /-- A flight is registered for a data set exactly while a caller leads it. -/
  registered_iff : ∀ d f, s.registered.lookup d = some f ↔ ∃ i, LeadsAmong c requests s i d f
  /-- A load is a leader's own: its outcome is that of the leader's request, and the flight gets
      what others may see of it. -/
  own_load : ∀ (i : Nat) (s' : State World (Outcome ε)),
    s.step (requests.map c.caller) (.load i) = some s' →
    ∃ (r : Request ε) (f : Nat) (o : Outcome ε), requests[i]? = some r ∧
      s.phases[i]? = some (.loading f) ∧ ((c.load r).exec s.world).1 = some o ∧
      s'.phases[i]? = some (.loaded f o) ∧
      s'.flights[f]? = some ⟨r.dataset, some (o.mapError (GetError.shared r.dataset)), false⟩
  /-- The outcome of a flight is that of its leader's own load, in the form that others may see. -/
  outcome : ∀ (f : Nat) (d : Int) (o : Outcome ε) (done : Bool),
    s.flights[f]? = some ⟨d, some o, done⟩ →
    ∃ (i : Nat) (r : Request ε) (own : Outcome ε), requests[i]? = some r ∧ r.dataset = d ∧
      (∃ w, ((c.load r).exec w).1 = some own) ∧ o = own.mapError (GetError.shared d) ∧
      (s.phases[i]? = some (.loaded f own) ∨ s.phases[i]? = some (.removed f own) ∨
        s.phases[i]? = some (.led f own))
  /-- A flight that is done has a result or an error. -/
  done_outcome : ∀ (f : Nat) (d : Int) (o : Option (Outcome ε)),
    s.flights[f]? = some ⟨d, o, true⟩ → o.isSome = true
  /-- Who has joined a flight and not given up ends with the outcome of the flight, and never hears
      that a fetch was broken off. -/
  received : ∀ (i f : Nat) (o : Outcome ε), s.phases[i]? = some (.received f o) →
    (∃ r, requests[i]? = some r ∧ s.flights[f]? = some ⟨r.dataset, some o, true⟩) ∧
      ∀ cause, o ≠ .error (.interrupted cause)
  /-- Who waits is not forgotten: the outcome can be received, or the leader of the flight still
      has to wake those who wait. -/
  waits : ∀ i f : Nat, s.phases[i]? = some (.waiting f) →
    (∃ o, s.step (requests.map c.caller) (.receive i) = some (s.setPhase i (.received f o))) ∨
      ∃ (j : Nat) (p : Phase (Outcome ε)), s.phases[j]? = some p ∧ p.Flies f
  /-- Who has given up ends with a timeout, unless the wait could not be begun. -/
  gave_up : ∀ (i f : Nat) (o : Outcome ε), s.phases[i]? = some (.gaveUp f o) →
    ∃ (r : Request ε) (seconds : Number), requests[i]? = some r ∧ r.timeout = some seconds ∧
      (isTooLong seconds = false → o = .error (.fetch (.gaveUp r.dataset seconds))) ∧
      (isTooLong seconds = true → o = .error .waitTooLong)
  /-- Giving up changes no flight. -/
  gives_up : ∀ (i : Nat) (s' : State World (Outcome ε)),
    s.step (requests.map c.caller) (.giveUp i) = some s' →
    s'.flights = s.flights ∧ s'.registered = s.registered ∧ s'.world = s.world ∧
      (∃ (f : Nat) (o : Outcome ε), s'.phases[i]? = some (.gaveUp f o)) ∧
      ∀ j, j ≠ i → s'.phases[j]? = s.phases[j]?
  /-- A leader that is through leaves no flight of its data set on the register. -/
  removes : ∀ (i : Nat) (s' : State World (Outcome ε)),
    s.step (requests.map c.caller) (.remove i) = some s' →
    ∃ r, requests[i]? = some r ∧ s'.registered.lookup r.dataset = none
  /-- A flight that is done, well or badly, is joined by nobody any more. -/
  ended : ∀ (f : Nat) (d d' : Int) (o : Option (Outcome ε)),
    s.flights[f]? = some ⟨d, o, true⟩ → s.registered.lookup d' ≠ some f
  /-- A caller that finds no flight starts a new one, which it leads itself. -/
  starts : ∀ (i : Nat) (r : Request ε), requests[i]? = some r → s.phases[i]? = some .idle →
    s.registered.lookup r.dataset = none →
    ∃ s', s.step (requests.map c.caller) (.call i) = some s' ∧
      LeadsAmong c requests s' i r.dataset s.flights.length ∧
      s'.phases[i]? = some (.loading s.flights.length) ∧
      s'.flights = s.flights ++ [⟨r.dataset, none, false⟩]

/-- The numbers of a request can be written. -/
def Request.IsWritable (r : Request ε) : Prop :=
  fitsInteger r.dataset = true ∧ ∀ n, r.timeout = some (.int n) → fitsInteger n = true

/-- A state that callers reach whose requests have numbers that can be written. Where one of them
    cannot, neither files nor messages have their names. -/
structure Reaches (c : Cache) (requests : List (Request ε)) (s : State World (Outcome ε)) :
    Prop where
  writable : ∀ r ∈ requests, r.IsWritable
  reachable : Reachable (requests.map c.caller) s

/-! ### One promise after the other -/

theorem exists_request {i : Nat} {call : Call World (Outcome ε)}
    (h : (requests.map c.caller)[i]? = some call) :
    ∃ r, requests[i]? = some r ∧ call = c.caller r := by
  rw [List.getElem?_map, Option.map_eq_some_iff] at h
  obtain ⟨r, hr, rfl⟩ := h
  exact ⟨r, hr, rfl⟩

/-- What the others see is never that a fetch was broken off, but an error of fetching. -/
theorem shared_ne_interrupted (id : Int) (o : Outcome ε) (cause : ε) :
    o.mapError (GetError.shared id) ≠ .error (.interrupted cause) := by
  cases o with
  | ok artifact => exact nofun
  | error e => cases e <;> exact nofun

section Promises

variable {i f : Nat} {s' : State World (Outcome ε)}

/-- A leader loads for itself, and its flight gets what others may see. -/
theorem own_load_of_step (h : Invariant (requests.map c.caller) s)
    (hstep : s.step (requests.map c.caller) (.load i) = some s') :
    ∃ (r : Request ε) (f : Nat) (o : Outcome ε), requests[i]? = some r ∧
      s.phases[i]? = some (.loading f) ∧ ((c.load r).exec s.world).1 = some o ∧
      s'.phases[i]? = some (.loaded f o) ∧
      s'.flights[f]? =
        some ⟨r.dataset, some (o.mapError (GetError.shared r.dataset)), false⟩ := by
  have hagrees := (h.step hstep).agrees i
  obtain ⟨call, f, o, world, hloading, hcall, hload, rfl⟩ := step_load_cases hstep
  obtain ⟨r, hr, rfl⟩ := exists_request hcall
  have m : Moves s (s.land i f o ((c.caller r).share o) world) i _ (.loaded f o) :=
    moves_of_set hloading rfl
  refine ⟨r, f, o, hr, hloading, congrArg Prod.fst hload, m.after, ?_⟩
  exact (hagrees _ _ hcall m.after).2.2

/-- The outcome of a flight is what its leader's load came to. -/
theorem exists_leader_of_outcome (h : Invariant (requests.map c.caller) s) {d : Int}
    {o : Outcome ε} {done : Bool} (hf : s.flights[f]? = some ⟨d, some o, done⟩) :
    ∃ (i : Nat) (r : Request ε) (own : Outcome ε), requests[i]? = some r ∧ r.dataset = d ∧
      (∃ w, ((c.load r).exec w).1 = some own) ∧ o = own.mapError (GetError.shared d) ∧
      (s.phases[i]? = some (.loaded f own) ∨ s.phases[i]? = some (.removed f own) ∨
        s.phases[i]? = some (.led f own)) := by
  obtain ⟨i, call, hcall, rfl, ⟨-, hnone, -⟩ | ⟨own, hgives, hshared, hphase⟩⟩ := h.owner_cases hf
  · exact absurd hnone nofun
  · obtain ⟨r, hr, rfl⟩ := exists_request hcall
    refine ⟨i, r, own, hr, rfl, hgives, Option.some.inj hshared, ?_⟩
    obtain ⟨hp, -⟩ | ⟨hp, -⟩ | ⟨hp, -⟩ := hphase
    · exact .inl hp
    · exact .inr (.inl hp)
    · exact .inr (.inr hp)

theorem isSome_outcome_of_done (h : Invariant (requests.map c.caller) s) {d : Int}
    {o : Option (Outcome ε)} (hf : s.flights[f]? = some ⟨d, o, true⟩) : o.isSome = true := by
  obtain ⟨i, call, -, -, ⟨-, -, hdone⟩ | ⟨own, -, hshared, -⟩⟩ := h.owner_cases hf
  · exact absurd hdone nofun
  · exact Option.isSome_of_eq_some hshared

/-- Who has received something has received the outcome of the flight. -/
theorem flight_of_received (h : Invariant (requests.map c.caller) s) {o : Outcome ε}
    (hp : s.phases[i]? = some (.received f o)) :
    (∃ r, requests[i]? = some r ∧ s.flights[f]? = some ⟨r.dataset, some o, true⟩) ∧
      ∀ cause, o ≠ .error (.interrupted cause) := by
  obtain ⟨call, hcall⟩ := h.exists_call hp
  have hflight := h.agrees i call _ hcall hp
  obtain ⟨r, hr, rfl⟩ := exists_request hcall
  refine ⟨⟨r, hr, hflight⟩, fun cause => ?_⟩
  obtain ⟨-, -, own, -, -, -, rfl, -⟩ := exists_leader_of_outcome h hflight
  exact shared_ne_interrupted _ own cause

/-- Who has given up had a time to wait, and it tells the error. -/
theorem outcome_of_gaveUp (h : Invariant (requests.map c.caller) s) {o : Outcome ε}
    (hp : s.phases[i]? = some (.gaveUp f o)) :
    ∃ (r : Request ε) (seconds : Number), requests[i]? = some r ∧ r.timeout = some seconds ∧
      (isTooLong seconds = false → o = .error (.fetch (.gaveUp r.dataset seconds))) ∧
      (isTooLong seconds = true → o = .error .waitTooLong) := by
  obtain ⟨call, hcall⟩ := h.exists_call hp
  obtain ⟨hgiving, -⟩ := h.agrees i call _ hcall hp
  obtain ⟨r, hr, rfl⟩ := exists_request hcall
  obtain ⟨seconds, hseconds, rfl⟩ := Option.map_eq_some_iff.1 hgiving
  refine ⟨r, seconds, hr, hseconds, ?_, ?_⟩
  · intro hshort
    simp [givingUp, hshort]
  · intro hlong
    simp [givingUp, hlong]

/-- Whoever gives up leaves everything else as it is. -/
theorem unchanged_of_giveUp (hstep : s.step (requests.map c.caller) (.giveUp i) = some s') :
    s'.flights = s.flights ∧ s'.registered = s.registered ∧ s'.world = s.world ∧
      (∃ (f : Nat) (o : Outcome ε), s'.phases[i]? = some (.gaveUp f o)) ∧
      ∀ j, j ≠ i → s'.phases[j]? = s.phases[j]? := by
  obtain ⟨call, f, d, o', o, hwaiting, -, -, -, rfl⟩ := step_giveUp_cases hstep
  have m : Moves s (s.setPhase i (.gaveUp f o)) i _ (.gaveUp f o) := moves_of_set hwaiting rfl
  exact ⟨rfl, rfl, rfl, ⟨f, o, m.after⟩, m.others⟩

theorem lookup_of_remove (hstep : s.step (requests.map c.caller) (.remove i) = some s') :
    ∃ r, requests[i]? = some r ∧ s'.registered.lookup r.dataset = none := by
  obtain ⟨call, f, o, -, hcall, rfl⟩ := step_remove_cases hstep
  obtain ⟨r, hr, rfl⟩ := exists_request hcall
  refine ⟨r, hr, ?_⟩
  rw [lookup_unregister]
  exact if_pos rfl

theorem lookup_ne_of_done (h : Invariant (requests.map c.caller) s) {d : Int}
    {o : Option (Outcome ε)} (hf : s.flights[f]? = some ⟨d, o, true⟩) (d' : Int) :
    s.registered.lookup d' ≠ some f := by
  intro hregistered
  obtain ⟨o', ho⟩ := h.flight_of_registered hregistered
  rw [hf] at ho
  exact absurd (Option.some.inj ho) (by simp)

/-- A caller that finds no flight registers one. -/
theorem exists_step_call {r : Request ε} (hr : requests[i]? = some r)
    (hidle : s.phases[i]? = some .idle) (hnone : s.registered.lookup r.dataset = none) :
    ∃ s', s.step (requests.map c.caller) (.call i) = some s' ∧
      LeadsAmong c requests s' i r.dataset s.flights.length ∧
      s'.phases[i]? = some (.loading s.flights.length) ∧
      s'.flights = s.flights ++ [⟨r.dataset, none, false⟩] := by
  have hcall : (requests.map c.caller)[i]? = some (c.caller r) := by
    rw [List.getElem?_map, hr]
    rfl
  have hstep : s.step (requests.map c.caller) (.call i) = some (s.registering i r.dataset) := by
    simp only [State.step, hidle, hcall]
    show some (s.enter i r.dataset) = _
    simp only [State.enter, hnone]
    rfl
  have hafter := (moves_registering r.dataset hidle).after
  exact ⟨_, hstep, ⟨c.caller r, _, hcall, rfl, hafter, rfl⟩, hafter, rfl⟩

end Promises

/-- **Single flight**: whatever the callers ask for, whatever their fetches come to, and in whatever
    order their steps are taken, the promise holds in every state that they reach. -/
theorem single_flight (h : Reaches c requests s) : SingleFlight c requests s :=
  have hinv := h.reachable.invariant
  { one_leader := fun _ _ _ _ _ hi hj => hinv.leads_unique hi hj
    registered_iff := fun d f =>
      ⟨hinv.leader d f, fun ⟨_, hi⟩ => hinv.registered_of_leads hi⟩
    own_load := fun _ _ hstep => own_load_of_step hinv hstep
    outcome := fun _ _ _ _ hf => exists_leader_of_outcome hinv hf
    done_outcome := fun _ _ _ hf => isSome_outcome_of_done hinv hf
    received := fun _ _ _ hp => flight_of_received hinv hp
    waits := fun _ _ hp => hinv.waits_cases hp
    gave_up := fun _ _ _ hp => outcome_of_gaveUp hinv hp
    gives_up := fun _ _ hstep => unchanged_of_giveUp hstep
    removes := fun _ _ hstep => lookup_of_remove hstep
    ended := fun _ _ d' _ hf => lookup_ne_of_done hinv hf d'
    starts := fun _ _ hr hidle hnone => exists_step_call hr hidle hnone }

/-- Five callers that want one data set; the fetch of the first one is broken off, the third one
    does not wait for more than a second, and the fourth one would wait for too long. -/
def fiveRequests : List (Request String) :=
  [⟨7, none, none, pure (.interruption "stop")⟩, ⟨7, none, none, pure (.bytes .empty)⟩,
    ⟨7, none, some (.int 1), pure (.bytes .empty)⟩,
    ⟨7, none, some (.int 10000000000), pure (.bytes .empty)⟩,
    ⟨7, none, none, pure (.bytes .empty)⟩]

/-- The first caller leads and is broken off, the second one hears of it, the third one has given up
    before, the fourth one has not begun to wait, and the fifth one, who comes later, leads a flight
    of its own. -/
theorem single_flight_broken_off :
    ∃ s, Reaches { root := ⟨0, ["cache"]⟩ } fiveRequests s ∧
      s.phases = [.led 0 (.error (.interrupted "stop")),
        .received 0 (.error (.fetch (.interrupted 7 "stop"))),
        .gaveUp 0 (.error (.fetch (.gaveUp 7 (.int 1)))), .gaveUp 0 (.error .waitTooLong),
        .loading 1] ∧
      SingleFlight { root := ⟨0, ["cache"]⟩ } fiveRequests s := by
  have hrun : ((initial 5 {}).steps (fiveRequests.map (Cache.caller { root := ⟨0, ["cache"]⟩ }))
      [.call 0, .call 1, .call 2, .call 3, .giveUp 2, .giveUp 3, .load 0, .remove 0, .wake 0,
        .receive 1, .call 4]).map (·.phases) =
      some [.led 0 (.error (.interrupted "stop")),
        .received 0 (.error (.fetch (.interrupted 7 "stop"))),
        .gaveUp 0 (.error (.fetch (.gaveUp 7 (.int 1)))), .gaveUp 0 (.error .waitTooLong),
        .loading 1] := rfl
  obtain ⟨s, hs, hphases⟩ := Option.map_eq_some_iff.1 hrun
  have hreaches : Reaches { root := ⟨0, ["cache"]⟩ } fiveRequests s := by
    refine ⟨?_, (show Reachable _ _ from .init ({} : World)).steps hs⟩
    have hid : fitsInteger 7 = true := by decide +kernel
    have hone : ∀ n, some (Number.int 1) = some (.int n) → fitsInteger n = true := by
      intro n hn
      obtain rfl := Number.int.inj (Option.some.inj hn)
      decide +kernel
    have hlong : ∀ n, some (Number.int 10000000000) = some (.int n) → fitsInteger n = true := by
      intro n hn
      obtain rfl := Number.int.inj (Option.some.inj hn)
      decide +kernel
    simp only [fiveRequests, List.forall_mem_cons]
    exact ⟨⟨hid, nofun⟩, ⟨hid, nofun⟩, ⟨hid, hone⟩, ⟨hid, hlong⟩, ⟨hid, nofun⟩,
      List.forall_mem_nil _⟩
  exact ⟨s, hreaches, hphases, single_flight hreaches⟩

end DatasetCatalog.Cache
