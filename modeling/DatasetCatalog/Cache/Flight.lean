/-! # Flights — concurrent callers of the cache

  Callers that want an artifact at the same time share one flight per data set: the first one
  registers the flight and loads, the others wait for its outcome. The steps below are those
  between which other callers can act: to join or register a flight, the load, to take the flight
  off the register, to wake those who wait, the end of a wait, and a wait that is given up. What
  the waiting callers receive is the shared form of what the loading one ends with.
-/

namespace DatasetCatalog.Flight

variable {σ ρ : Type}

/-! ### State -/

/-- What a caller wants, and what it does when it is the one that loads. -/
structure Call (σ ρ : Type) where
  /-- The data set. -/
  dataset : Int
  /-- The outcome of giving up, for a caller that does not wait for ever. -/
  givingUp : Option ρ
  /-- Its own load in a world; no outcome means that the process stops. -/
  load : σ → Option ρ × σ
  /-- What the other callers see of an outcome of its load. -/
  share : ρ → ρ

/-- Where a caller stands. -/
inductive Phase (ρ : Type) where
  | idle
  /-- Its flight is registered, and its load is due. -/
  | loading (flight : Nat)
  /-- Its load has ended, and its flight is still registered. -/
  | loaded (flight : Nat) (outcome : ρ)
  /-- Its flight is registered no longer, and nobody has been woken. -/
  | removed (flight : Nat) (outcome : ρ)
  /-- It has ended with the outcome of its own load. -/
  | led (flight : Nat) (outcome : ρ)
  | waiting (flight : Nat)
  /-- It has ended with the outcome of the flight that it waited for. -/
  | received (flight : Nat) (outcome : ρ)
  /-- It has ended because it did not wait longer. -/
  | gaveUp (flight : Nat) (outcome : ρ)
  deriving DecidableEq

/-- What the callers of a flight share. -/
structure Record (ρ : Type) where
  /-- The data set. -/
  dataset : Int
  /-- The result or the error, once there is one. -/
  outcome : Option ρ := none
  /-- Those who wait have been woken. -/
  done : Bool := false
  deriving DecidableEq

/-- All callers and flights, and the world that loads act on. -/
structure State (σ ρ : Type) where
  /-- The phases of the callers. -/
  phases : List (Phase ρ)
  /-- The flights that are registered for data sets. -/
  registered : List (Int × Nat)
  /-- All flights so far. -/
  flights : List (Record ρ)
  world : σ
  deriving DecidableEq

/-- Callers that have not called yet. -/
def initial (callers : Nat) (world : σ) : State σ ρ := ⟨List.replicate callers .idle, [], [], world⟩

/-! ### Labels -/

/-- A step of one caller, or of somebody else. -/
inductive Label (σ : Type) where
  /-- It calls: it joins the flight that is registered, or registers one. -/
  | call (caller : Nat)
  /-- Its load is done, and the outcome is there for its flight. -/
  | load (caller : Nat)
  /-- It takes the flight of its data set off the register. -/
  | remove (caller : Nat)
  /-- It wakes those who wait for its flight. -/
  | wake (caller : Nat)
  /-- It receives the outcome that it waits for. -/
  | receive (caller : Nat)
  /-- It gives up waiting. -/
  | giveUp (caller : Nat)
  /-- Something else changes the world. -/
  | elsewhere (world : σ)
  deriving DecidableEq

/-! ### Steps -/

namespace State

/-- The state with another phase of a caller. -/
def setPhase (s : State σ ρ) (caller : Nat) (phase : Phase ρ) : State σ ρ :=
  { s with phases := s.phases.set caller phase }

/-- The state with a changed flight. -/
def setFlight (s : State σ ρ) (flight : Nat) (change : Record ρ → Record ρ) : State σ ρ :=
  { s with flights := s.flights.modify flight change }

/-- A caller joins the flight of its data set, or registers one. -/
def enter (s : State σ ρ) (caller : Nat) (dataset : Int) : State σ ρ :=
  match s.registered.lookup dataset with
  | some flight => s.setPhase caller (.waiting flight)
  | none =>
    let flight := s.flights.length
    { s.setPhase caller (.loading flight) with
      registered := (dataset, flight) :: s.registered, flights := s.flights ++ [{ dataset }] }

/-- A load ends with an outcome, of which the flight gets the shared form. -/
def land (s : State σ ρ) (caller flight : Nat) (outcome shared : ρ) (world : σ) : State σ ρ :=
  { (s.setPhase caller (.loaded flight outcome)).setFlight flight
      fun r => { r with outcome := some shared } with world }

/-- No flight is registered for a data set any more. -/
def unregister (s : State σ ρ) (dataset : Int) : State σ ρ :=
  { s with registered := s.registered.filter fun (d, _) => d ≠ dataset }

/-- The state behind a step, when the step can be taken. -/
def step (calls : List (Call σ ρ)) (s : State σ ρ) : Label σ → Option (State σ ρ)
  | .call i => match s.phases[i]?, calls[i]? with
    | some .idle, some call => some (s.enter i call.dataset)
    | _, _ => none
  | .load i => match s.phases[i]?, calls[i]? with
    | some (.loading flight), some call => match call.load s.world with
      | (some outcome, world) => some (s.land i flight outcome (call.share outcome) world)
      | (none, _) => none
    | _, _ => none
  | .remove i => match s.phases[i]?, calls[i]? with
    | some (.loaded flight outcome), some call =>
      some ((s.setPhase i (.removed flight outcome)).unregister call.dataset)
    | _, _ => none
  | .wake i => match s.phases[i]? with
    | some (.removed flight outcome) =>
      some ((s.setPhase i (.led flight outcome)).setFlight flight fun r => { r with done := true })
    | _ => none
  | .receive i => match s.phases[i]? with
    | some (.waiting flight) => match s.flights[flight]? with
      | some ⟨_, some outcome, true⟩ => some (s.setPhase i (.received flight outcome))
      | _ => none
    | _ => none
  | .giveUp i => match s.phases[i]?, calls[i]? with
    | some (.waiting flight), some call => match s.flights[flight]? with
      | some ⟨_, _, false⟩ =>
        call.givingUp.map fun outcome => s.setPhase i (.gaveUp flight outcome)
      | _ => none
    | _, _ => none
  | .elsewhere world => some { s with world }

/-- The state behind steps that can be taken one after the other. -/
def steps (calls : List (Call σ ρ)) (s : State σ ρ) : List (Label σ) → Option (State σ ρ)
  | [] => some s
  | label :: rest => (s.step calls label).bind fun next => next.steps calls rest

/-- The outcome of a caller that has ended. -/
def outcomeOf? (s : State σ ρ) (caller : Nat) : Option ρ :=
  match s.phases[caller]? with
  | some (.led _ outcome) | some (.received _ outcome) | some (.gaveUp _ outcome) => some outcome
  | _ => none

end State

/-- The states that can be reached. -/
inductive Reachable (calls : List (Call σ ρ)) : State σ ρ → Prop where
  | init (world : σ) : Reachable calls (initial calls.length world)
  | step {s s' : State σ ρ} (label : Label σ) :
      Reachable calls s → s.step calls label = some s' → Reachable calls s'

/-! ### One shared load -/

/-- The outcomes when the first caller loads, all others join its flight, the load ends with an
    outcome and everybody receives it. -/
def shared (callers : Nat) (dataset : Int) (share : ρ → ρ) (outcome : ρ) : List (Option ρ) :=
  let call : Call Unit ρ := { dataset, givingUp := none, load := fun w => (some outcome, w), share }
  let calls := List.replicate callers call
  let everyone := List.range callers
  let labels := everyone.map .call ++ [.load 0, .remove 0, .wake 0] ++
    (everyone.drop 1).map .receive
  match (initial callers ()).steps calls labels with
  | some s => everyone.map s.outcomeOf?
  | none => everyone.map fun _ => none

end DatasetCatalog.Flight
