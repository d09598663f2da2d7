import DatasetCatalog.Catalog.Client

/-! # Exchanges, step by step

  An exchange starts with a trace and ends with a result and a longer trace. Of its steps only a
  request depends on what was requested before, and only through the answer of the transport.
-/

namespace DatasetCatalog.Catalog.Client

variable {α β : Type}

/-! ### Steps -/

theorem run_pure (a : α) (t : Trace) : run (pure a : Exchange α) t = (.ok a, t) := rfl

theorem run_throw (e : ClientError) (t : Trace) :
    run (throw e : Exchange α) t = (.error e, t) := rfl

/-- A sequence goes on unless its first part fails. -/
theorem run_bind (x : Exchange α) (f : α → Exchange β) (t : Trace) :
    run (x >>= f) t = match run x t with
      | (.ok a, t') => run (f a) t'
      | (.error e, t') => (.error e, t') := by
  obtain ⟨r, t', hx⟩ : ∃ r t', x t = (r, t') := ⟨_, _, rfl⟩
  simp only [run, bind, ExceptT.bind, ExceptT.mk, ExceptT.run, StateT.bind, StateT.run, Id.run, hx]
  cases r with
  | ok a => rfl
  | error e => rfl

theorem run_fetch (c : Client) (url : String) (t : Trace) :
    run (c.fetch url) t = (.ok (c.transport t.requests url), t.request url) := rfl

theorem run_decoded (r : Except DecodeError α) (t : Trace) :
    run (decoded r) t = (r.mapError .decode, t) := by
  cases r <;> rfl

/-! ### Requests -/

/-- What an answer to the request of a path decodes to. -/
def decodeAnswer (path : String) (decode : Json → Except DecodeError α) (bytes : ByteArray) :
    Except DecodeError α :=
  match Json.ofBytes? bytes with
  | some payload => decode payload
  | none => .error (.at "$" (.notJson path))

theorem run_payload_bind (path : String) (bytes : ByteArray) (decode : Json → Except DecodeError α)
    (t : Trace) : run (do decoded (decode (← payload path bytes))) t =
      ((decodeAnswer path decode bytes).mapError .decode, t) := by
  unfold payload decodeAnswer
  rw [run_bind]
  cases Json.ofBytes? bytes with
  | none => rfl
  | some v => rw [run_pure]; exact run_decoded (decode v) t

/-- **The request of a path** is one request, and its answer decides. -/
theorem run_get (c : Client) (path : String) (decode : Json → Except DecodeError α)
    (meaning : NetworkError → Exchange α) (t : Trace) :
    run (c.get path decode meaning) t =
      match c.transport t.requests (Request.address c.settings path) with
      | .ok bytes => ((decodeAnswer path decode bytes).mapError .decode,
          t.request (Request.address c.settings path))
      | .error e => run (meaning e) (t.request (Request.address c.settings path)) := by
  unfold get
  rw [run_bind, run_fetch]
  cases c.transport t.requests (Request.address c.settings path) with
  | ok bytes => exact run_payload_bind path bytes decode _
  | error e => rfl

theorem run_get_of_answered {c : Client} {path : String} {decode : Json → Except DecodeError α}
    {meaning : NetworkError → Exchange α} {t : Trace} {bytes : ByteArray}
    (h : c.transport t.requests (Request.address c.settings path) = .ok bytes) :
    run (c.get path decode meaning) t = ((decodeAnswer path decode bytes).mapError .decode,
      t.request (Request.address c.settings path)) := by
  rw [run_get, h]

/-- A refused request is what the operation makes of the error. -/
theorem run_get_of_refused {c : Client} {path : String} {decode : Json → Except DecodeError α}
    {meaning : NetworkError → Exchange α} {t : Trace} {e : NetworkError}
    (h : c.transport t.requests (Request.address c.settings path) = .error e) :
    run (c.get path decode meaning) t =
      run (meaning e) (t.request (Request.address c.settings path)) := by
  rw [run_get, h]

/-- A request without a meaning of its own for errors leaves nothing but the request. -/
theorem run_get_snd {c : Client} {path : String} {decode : Json → Except DecodeError α}
    {meaning : NetworkError → Exchange α} (hmeaning : ∀ e t, (run (meaning e) t).2 = t)
    (t : Trace) : (run (c.get path decode meaning) t).2 =
      t.request (Request.address c.settings path) := by
  rw [run_get]
  split
  · rfl
  · exact hmeaning _ _

/-! ### Descriptions -/

/-- The request of the description alone. -/
def described (c : Client) (id : Int) : Exchange Description :=
  c.get (Request.description id) (Response.description c.settings.strictDecoding) fun e =>
    if e.status? = some 404 ∨ serviceCode e = some unknownDataset then throw (.notFound id (some e))
    else failure e

theorem run_described_snd (c : Client) (id : Int) (t : Trace) :
    (run (c.described id) t).2 = t.request (Request.address c.settings (Request.description id)) := by
  refine run_get_snd (fun e t' => ?_) t
  split <;> rfl

/-- Nothing is requested for a negative identifier; else the description is requested, and the
    attributes once the description is there. -/
theorem run_describe (c : Client) (id : Int) (t : Trace) :
    run (c.describe id) t = if id < 0 then (.error (.notFound id none), t)
      else match run (c.described id) t with
        | (.ok d, t') => match run (c.attributes id) t' with
          | (.ok declared, t'') => (.ok { d with attributes := declared }, t'')
          | (.error e, t'') => (.error e, t'')
        | (.error e, t') => (.error e, t') := by
  unfold describe
  simp only
  by_cases hneg : id < 0
  · rw [if_pos hneg, if_pos hneg, run_bind, run_throw]
  · rw [if_neg hneg, if_neg hneg]
    change run (c.described id >>= _) t = _
    rw [run_bind]
    rcases run (c.described id) t with ⟨r, t'⟩
    cases r with
    | error e => rfl
    | ok d =>
      dsimp only
      rw [run_bind]
      rcases run (c.attributes id) t' with ⟨r, t''⟩
      cases r <;> rfl

end DatasetCatalog.Catalog.Client
