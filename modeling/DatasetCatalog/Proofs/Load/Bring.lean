import DatasetCatalog.Load
import DatasetCatalog.Proofs.Catalog.Exchange
import DatasetCatalog.Proofs.World

/-! # Artifacts from the catalog

  An artifact is brought in at most three requests: of the description, of the attributes, and of
  the artifact at the address that the description tells. The last one is only made when the format
  is supported, and what it answers is only handed on when it has the announced digest. Nothing in
  the world changes but the trace.
-/

namespace DatasetCatalog.Load

open DatasetCatalog.Action DatasetCatalog.Catalog

variable {client : Client} {id : Int} {before : List String} {d : Description} {data : ByteArray}
  {t t' : Trace}

/-! ### What the transport serves -/

/-- The addresses of the description and of the attributes of a data set. -/
def asked (client : Client) (id : Int) : List String :=
  [Request.address client.settings (Request.description id),
    Request.address client.settings (Request.features id)]

/-- The address of the artifact that a description tells. -/
def artifactAddress (client : Client) (d : Description) : String :=
  Request.withKey client.settings d.url

/-- Asked after earlier requests, the transport serves the description for the data set. -/
def Describes (client : Client) (before : List String) (id : Int) (d : Description) : Prop :=
  ∃ bytes, client.transport before (Request.address client.settings (Request.description id)) =
      .ok bytes ∧
    Client.decodeAnswer (Request.description id)
      (Response.description client.settings.strictDecoding) bytes = .ok d

/-- The data has the digest that a description announces, if it does; case and white space around
    the digest do not count. -/
def HasAnnounced (d : Description) (data : ByteArray) : Prop :=
  ∀ checksum, d.checksum = some checksum → checksum ≠ "" →
    Text.lower (Text.strip checksum.toList) = (Digest.md5 data).toList

/-- The format of a description, in any case, is one that can be read. -/
def Supported (d : Description) : Prop :=
  String.ofList (Text.lower d.format.toList) ∈ ["arff", "sparse_arff"]

theorem isSupported_iff : isSupported d.format = true ↔ Supported d := decide_eq_true_iff

/-- Asked after earlier requests, the transport serves the data as the artifact of a description
    that it has served for the data set, in a supported format and with the announced digest. -/
structure Vouches (client : Client) (before : List String) (id : Int) (d : Description)
    (data : ByteArray) : Prop where
  described : Describes client before id d
  supported : Supported d
  served : client.transport (before ++ asked client id) (artifactAddress client d) = .ok data
  announced : HasAnnounced d data

/-- The requests after an artifact has been asked for, successfully or not. -/
inductive Asks (client : Client) (before : List String) (id : Int) : List String → Prop where
  | nothing : Asks client before id before
  | description : Asks client before id
      (before ++ [Request.address client.settings (Request.description id)])
  | attributes : Asks client before id (before ++ asked client id)
  /-- The artifact is only requested in a supported format. -/
  | artifact {d : Description} (described : Describes client before id d)
      (supported : Supported d) :
      Asks client before id (before ++ asked client id ++ [artifactAddress client d])

/-! ### Exchanges -/

theorem exec_exchange {α : Type} (x : Exchange α) (w : World) : (exchange x).exec w =
    (some (Client.run x w.trace).1, { w with trace := (Client.run x w.trace).2 }) := rfl

theorem run_described_fst (h : (Client.run (client.described id) t).1 = .ok d) :
    Describes client t.requests id d := by
  unfold Client.described at h
  rw [Client.run_get] at h
  split at h
  · next bytes hanswer =>
    refine ⟨bytes, hanswer, ?_⟩
    dsimp only at h
    revert h
    cases Client.decodeAnswer (Request.description id) _ bytes with
    | ok d' => exact fun h => congrArg Except.ok (Except.ok.inj h)
    | error e => exact nofun
  · revert h
    split
    · exact nofun
    · exact nofun

theorem requests_attributes (client : Client) (id : Int) (t : Trace) :
    (Client.run (client.attributes id) t).2.requests =
      t.requests ++ [Request.address client.settings (Request.features id)] := by
  unfold Client.attributes
  rw [Client.run_get]
  split
  · rfl
  · split
    · split
      · rfl
      · rfl
    · rfl

/-- A data set is described from what the transport serves, in both requests; or it cannot be
    described, and at most these two are made. -/
theorem run_describe_cases (client : Client) (id : Int) (t : Trace) :
    (∃ d declared t', Client.run (client.describe id) t =
        (.ok { d with attributes := declared }, t') ∧
      Describes client t.requests id d ∧ t'.requests = t.requests ++ asked client id) ∨
    ∃ e t', Client.run (client.describe id) t = (.error e, t') ∧
      Asks client t.requests id t'.requests := by
  rw [Client.run_describe]
  split
  · exact .inr ⟨_, _, rfl, .nothing⟩
  have hfirst := Client.run_described_snd client id t
  rcases hrun : Client.run (client.described id) t with ⟨r, between⟩
  rw [hrun] at hfirst
  obtain rfl : between = _ := hfirst
  cases r with
  | error e => exact .inr ⟨_, _, rfl, .description⟩
  | ok d =>
    have hserved := run_described_fst (congrArg Prod.fst hrun)
    have hsecond := requests_attributes client id
      (t.request (Request.address client.settings (Request.description id)))
    have hboth := hsecond.trans (List.append_assoc _ _ _)
    dsimp only
    revert hboth
    rcases Client.run (client.attributes id) _ with ⟨_ | declared, last⟩
    · exact fun hboth => .inr ⟨_, _, rfl, hboth ▸ .attributes⟩
    · exact fun hboth => .inl ⟨d, declared, _, rfl, hserved, hboth⟩

theorem run_download (client : Client) (d : Description) (t : Trace) :
    Client.run (client.download d) t =
      ((client.transport t.requests (artifactAddress client d)).mapError .network,
        t.request (artifactAddress client d)) := by
  unfold Client.download artifactAddress
  rw [Client.run_bind, Client.run_fetch]
  dsimp only
  cases client.transport t.requests (Request.withKey client.settings d.url) with
  | ok bytes => rfl
  | error e => rfl

/-! ### The artifact -/

/-- Data is handed on when it has the announced digest; nothing else happens but notices. -/
theorem exec_verified (name : DatasetName) (d : Description) (data : ByteArray) (w : World) :
    ∃ fetched trace, (verified name d data : Action Empty _).exec w =
        (some (.ok fetched), { w with trace }) ∧ trace.requests = w.trace.requests ∧
      ∀ bytes, fetched = .bytes bytes → bytes = data ∧ HasAnnounced d data := by
  unfold verified
  split
  · next hnone =>
    refine ⟨_, _, rfl, rfl, fun bytes h => ⟨(Cache.Fetched.bytes.inj h).symm, ?_⟩⟩
    exact fun checksum hsome => absurd (hnone.symm.trans hsome) nofun
  · next hempty =>
    refine ⟨_, _, rfl, rfl, fun bytes h => ⟨(Cache.Fetched.bytes.inj h).symm, ?_⟩⟩
    exact fun checksum hsome hne => absurd (Option.some.inj (hsome.symm.trans hempty)) hne
  · next expected hne hsome =>
    split
    · next hverify =>
      refine ⟨_, _, rfl, rfl, fun bytes h => ⟨(Cache.Fetched.bytes.inj h).symm, ?_⟩⟩
      intro checksum hchecksum _
      obtain rfl := Option.some.inj (hchecksum.symm.trans hsome)
      unfold Cache.verify Cache.mismatch? at hverify
      dsimp only at hverify
      by_cases hsame : Text.lower (Text.strip checksum.toList) = (Digest.md5 data).toList
      · exact hsame
      · rw [if_neg hsame] at hverify
        exact absurd hverify nofun
    · exact ⟨_, _, rfl, rfl, nofun⟩

/-- **What bringing an artifact comes to.** It ends, with something fetched, and changes nothing
    but the trace. Bytes are what the transport vouches for, and came with the last of three
    requests; the third one is only made for a supported format. -/
theorem exec_bring (client : Client) (name : DatasetName) (w : World) :
    ∃ fetched trace, (bring client name).exec w = (some (.ok fetched), { w with trace }) ∧
      Asks client w.trace.requests name.id trace.requests ∧
      ∀ data, fetched = .bytes data → ∃ d, Vouches client w.trace.requests name.id d data ∧
        trace.requests =
          w.trace.requests ++ asked client name.id ++ [artifactAddress client d] := by
  unfold bring
  rw [exec_bind, exec_attempt, exec_exchange]
  obtain ⟨d, declared, t, hrun, hdescribed, hasked⟩ | ⟨e, t, hrun, hasks⟩ :=
    run_describe_cases client name.id w.trace
  · rw [hrun]
    dsimp only
    by_cases hsupported : Supported d
    · -- the attributes have no part in the address
      have haddress : artifactAddress client { d with attributes := declared } =
        artifactAddress client d := rfl
      have hrequests : (t.request (artifactAddress client d)).requests =
          w.trace.requests ++ asked client name.id ++ [artifactAddress client d] :=
        congrArg (· ++ [artifactAddress client d]) hasked
      have hasks : Asks client w.trace.requests name.id
          (t.request (artifactAddress client d)).requests :=
        hrequests ▸ .artifact hdescribed hsupported
      rw [if_pos (isSupported_iff.2 hsupported), exec_bind, exec_attempt, exec_exchange,
        run_download, haddress]
      rcases hanswer : client.transport t.requests (artifactAddress client d) with e | data
      · exact ⟨_, _, rfl, hasks, nofun⟩
      · obtain ⟨fetched, trace, hexec, hsame, hbytes⟩ := exec_verified name
          { d with attributes := declared } data
          { w with trace := t.request (artifactAddress client d) }
        refine ⟨fetched, trace, hexec, hsame ▸ hasks, fun bytes h => ⟨d, ?_, hsame.trans hrequests⟩⟩
        obtain ⟨rfl, hannounced⟩ := hbytes bytes h
        exact ⟨hdescribed, hsupported, hasked ▸ hanswer, hannounced⟩
    · rw [if_neg (mt isSupported_iff.1 hsupported)]
      exact ⟨_, _, rfl, hasked ▸ .attributes, nofun⟩
  · rw [hrun]
    exact ⟨_, _, rfl, hasks, nofun⟩

end DatasetCatalog.Load
