import DatasetCatalog.Plain
import DatasetCatalog.Proofs.Cache.Kept
import DatasetCatalog.Proofs.Load.Fetch

/-! # Loads from the cache

  Once a load has downloaded an artifact, later loads of the data set request nothing. Each ends
  with what becomes of the downloaded bytes under its own options, whatever the transport would
  answer by then, and whatever has been done for other data sets in the meantime.
-/

namespace DatasetCatalog.Load

open DatasetCatalog.Action DatasetCatalog.Cache DatasetCatalog.Catalog DatasetCatalog.Disk

variable {libraries : FrameLibraries} {client : Client} {root : Path} {n : Nat}
  {name : DatasetName} {options : LoadOptions libraries.Frame} {w : World} {d d₀ : Disk} {id : Int}
  {data : ByteArray}

/-! ### The load that downloads -/

/-- The load gets the artifact, with requests of which the transport answers the last one with the
    data. What it makes of the artifact may be an error. -/
structure Downloads (client : Client) (c : Cache) (name : DatasetName)
    (options : LoadOptions libraries.Frame) (w : World) (data : ByteArray) : Prop where
  ends : ∃ r, ((load libraries client c name options).exec w).1 = some r ∧ ∀ e, r ≠ .error (.get e)
  requests : ∃ earlier url, ((load libraries client c name options).exec w).2.trace.requests =
      w.trace.requests ++ earlier ++ [url] ∧
    client.transport (w.trace.requests ++ earlier) url = .ok data

theorem append_ne_self {α : Type} (front back : List α) (last : α) :
    front ≠ front ++ back ++ [last] := by
  rw [List.append_assoc]
  exact fun h => absurd (List.self_eq_append_right.1 h) (List.append_ne_nil_of_right_ne_nil _ nofun)

/-- **What a load has downloaded is kept**, and the load ends with what becomes of it. -/
theorem Downloads.kept (h : Downloads client (opened root n) name options w data)
    (hroot : root.WellFormed) (hsize : data.size < 10 ^ Numeral.digitLimit) :
    ((load libraries client (opened root n) name options).exec w).1 =
        some (outcome libraries options data) ∧
      Kept root name.id data
        ((load libraries client (opened root n) name options).exec w).2.disk := by
  obtain ⟨⟨r, hr, hget⟩, earlier, url, hrequests, hanswer⟩ := h
  cases hmode : modeOf? options.parser with
  | none =>
    -- without a parser nothing is requested
    rw [exec_load_of_none client _ name hmode] at hrequests
    exact absurd hrequests (append_ne_self _ _ _)
  | some mode =>
    obtain ⟨begun, -, hbegun, hfetch⟩ := exec_fetchWithin hroot client n name none w
    have hload := exec_load client (opened root n) name hmode w
    rcases hexec : (fetchWithin client (opened root n) name none).exec w with ⟨fetched, next⟩
    rw [hexec] at hfetch hload
    cases hfetch with
    | settled =>
      -- an entry that is found is not requested
      have hsame : ((load libraries client (opened root n) name options).exec w).2.trace.requests =
          w.trace.requests := by
        rw [hload]
        rcases fetched with _ | e | a
        · exact hbegun
        · exact hbegun
        · exact (requests_notes _ _).trans hbegun
      rw [hsame] at hrequests
      exact absurd hrequests (append_ne_self _ _ _)
    | @stored a d _ lock alike stored vouches requests =>
      rw [hload] at hrequests ⊢
      dsimp only at hrequests ⊢
      rw [requests_notes, requests, hbegun] at hrequests
      obtain ⟨hearlier, hurl⟩ := List.append_inj' hrequests rfl
      obtain rfl := List.append_cancel_left hearlier
      obtain rfl := List.singleton_inj.1 hurl
      have hserved := vouches.served
      rw [hbegun, hanswer] at hserved
      obtain rfl := Except.ok.inj hserved
      have hkept := alike.locks (isDirectory_of_lockFile lock)
      exact ⟨rfl, stored.valid hsize, (hkept.2 name.id).trans lock⟩
    | failed failure =>
      -- a load without an artifact ends in the error of the fetch, if it ends
      rcases fetched with _ | e | a
      · rw [hload] at hr
        exact absurd hr nofun
      · rw [hload] at hr
        exact absurd (Option.some.inj hr).symm (hget e)
      · exact absurd rfl (failure a)

/-! ### Loads that find the artifact -/

theorem exec_fetchWithin_of_kept (h : Kept root name.id data w.disk) (hv : w.verdicts = [])
    (client : Client) (n : Nat) (timeout : Option Number) :
    ∃ r trace, (fetchWithin client (opened root n) name timeout).exec w = (r, { w with trace }) ∧
      trace.requests = w.trace.requests ∧
      (Ready (opened root n) name.id w → ∃ a, r = some (.ok a) ∧ a.data = data) :=
  exec_getOrFetch_of_kept h hv none timeout (bring client name)

/-- **An artifact that is kept is loaded without a request.** -/
theorem exec_load_of_kept (h : Kept root name.id data w.disk) (hv : w.verdicts = [])
    (client : Client) (n : Nat) (options : LoadOptions libraries.Frame) :
    ∃ r trace, (load libraries client (opened root n) name options).exec w = (r, { w with trace }) ∧
      trace.requests = w.trace.requests ∧
      (Ready (opened root n) name.id w → r = some (outcome libraries options data)) := by
  cases hmode : modeOf? options.parser with
  | none =>
    refine ⟨_, w.trace, exec_load_of_none client _ name hmode w, rfl, fun _ => ?_⟩
    rw [outcome_of_none hmode]
  | some mode =>
    obtain ⟨fetched, trace, hexec, hrequests, hfound⟩ :=
      exec_fetchWithin_of_kept h hv client n none
    rw [exec_load client _ name hmode, hexec]
    rcases fetched with _ | e | a
    · refine ⟨_, trace, rfl, hrequests, fun hready => ?_⟩
      exact absurd (hfound hready).choose_spec.1 nofun
    · refine ⟨_, trace, rfl, hrequests, fun hready => ?_⟩
      exact absurd (hfound hready).choose_spec.1 nofun
    · refine ⟨_, (notices options mode a.data).foldl Trace.note trace, rfl,
        (requests_notes _ _).trans hrequests, fun hready => ?_⟩
      obtain ⟨found, heq, rfl⟩ := hfound hready
      obtain rfl := Except.ok.inj (Option.some.inj heq)
      rfl

/-! ### In the meantime -/

/-- The disks that calls lead to that spare the entry of a data set: calls for other data sets,
    whatever becomes of their file operations, pruning that does not evict the entry, and fetches
    and loads of the data set itself in which no file operation fails. -/
inductive Since (root : Path) (id : Int) (d₀ : Disk) : Disk → Prop where
  | refl : Since root id d₀ d₀
  | command {ε : Type} {d : Disk} (since : Since root id d₀ d) (n : Nat) {w : World}
      (same : w.disk = d) {command : Command ε} (spares : command.Spares (opened root n) id w) :
      Since root id d₀ (command.after (opened root n) w).disk
  | call {libraries : FrameLibraries} {d : Disk} (since : Since root id d₀ d) (client : Client)
      (n : Nat) (name : DatasetName) (call : Call libraries) {w : World} (same : w.disk = d)
      (spares : name.id ≠ id ∨ w.verdicts = []) :
      Since root id d₀ (call.after client (opened root n) name w).disk

/-- A call for another data set keeps an entry. -/
theorem kept_after_other (hroot : root.WellFormed) (h : Kept root id data w.disk)
    (hid : name.id ≠ id) (client : Client) (n : Nat) (call : Call libraries) :
    Kept root id data (call.after client (opened root n) name w).disk := by
  obtain ⟨begun, next, r, hsame, -, hfetch, hdisk, -⟩ := call.exec_cases hroot client n name w
  have hbegun : Alike root (· = name.id) w.disk begun.disk :=
    (hsame (grounded_of_lockFile h.lock)).mono fun _ => False.elim
  rw [hdisk]
  cases hfetch with
  | settled => exact h.of_alike hbegun hid.symm
  | stored lock alike => exact h.of_alike (hbegun.trans alike) hid.symm
  | failed failure alike => exact h.of_alike (hbegun.trans alike) hid.symm

/-- A call that finds the entry leaves the disk as it is. -/
theorem kept_after_hit (h : Kept root name.id data w.disk) (hv : w.verdicts = [])
    (client : Client) (n : Nat) (call : Call libraries) :
    Kept root name.id data (call.after client (opened root n) name w).disk := by
  cases call with
  | fetch timeout =>
    obtain ⟨r, trace, hexec, -⟩ := exec_fetchWithin_of_kept h hv client n timeout
    rwa [Call.after, hexec]
  | load options =>
    obtain ⟨r, trace, hexec, -⟩ := exec_load_of_kept h hv client n options
    rwa [Call.after, hexec]

/-- An entry is kept in the meantime. -/
theorem Since.kept (hsince : Since root id d₀ d) (hroot : root.WellFormed)
    (h : Kept root id data d₀) : Kept root id data d := by
  induction hsince with
  | refl => exact h
  | command since n same spares ih =>
    subst same
    exact ih.after_command hroot spares
  | call since client n name call same spares ih =>
    subst same
    by_cases hid : name.id = id
    · subst hid
      exact kept_after_hit ih (spares.resolve_left (not_not_intro rfl)) client n call
    · exact kept_after_other hroot ih hid client n call

/-- Loads of the data set in which no file operation fails request nothing, whatever the transport
    would answer, and leave nothing behind but notices. When nothing stands in its way, such a load
    ends with what becomes of the data under its options. -/
def Transparent (root : Path) (id : Int) (data : ByteArray) (d : Disk) : Prop :=
  ∀ (libraries : FrameLibraries) (client : Client) (n : Nat) (name : DatasetName)
    (options : LoadOptions libraries.Frame) (w : World),
    name.id = id → w.disk = d → w.verdicts = [] →
    ∃ r trace, (load libraries client (opened root n) name options).exec w = (r, { w with trace }) ∧
      trace.requests = w.trace.requests ∧
      (Ready (opened root n) id w → r = some (outcome libraries options data))

/-- **Cached loads are transparent.** The load that has downloaded an artifact ends with what
    becomes of the downloaded bytes. In the meantime, as long as its entry is not evicted, every
    later load of the data set is transparent for these bytes, under its own options. The size of
    the artifact must have no more digits than a marker can hold. -/
theorem cached_of_downloads (hroot : root.WellFormed)
    (h : Downloads client (opened root n) name options w data)
    (hsize : data.size < 10 ^ Numeral.digitLimit)
    (hsince : Since root name.id
      ((load libraries client (opened root n) name options).exec w).2.disk d) :
    ((load libraries client (opened root n) name options).exec w).1 =
        some (outcome libraries options data) ∧
      Transparent root name.id data d := by
  obtain ⟨hresult, hkept⟩ := h.kept hroot hsize
  refine ⟨hresult, ?_⟩
  -- a later load may go through another client, and into frames of other libraries
  rintro libraries' client' n' name' options' w' hname rfl hv
  have hthere := hsince.kept hroot hkept
  rw [← hname] at hthere ⊢
  exact exec_load_of_kept hthere hv client' n' options'

/-- A client that nobody answers. -/
def offline : Client := ⟨{}, fun _ url => .error ⟨url, .failed "unreachable"⟩⟩

/-- A load that fails when the artifact is there, since there is no column to force a type on. -/
def misled : LoadOptions FrameLibraries.plain.Frame := { forced := [("y", "count")] }

/-- A load of counts into a frame. -/
def counting : LoadOptions FrameLibraries.plain.Frame :=
  { parser := "auto", container := .named "pandas", forced := [("x", "count")] }

/-- The world in which an eviction of another data set has been broken off. -/
def brokenOff (d : Disk) : World where
  disk := ((Command.evict (.ofInt 2) : Command Empty).after (opened (.ofText "cache") 0)
    { disk := d, verdicts := [.stop 0] }).disk

theorem since_brokenOff (d : Disk) : Since (.ofText "cache") 1 d (brokenOff d).disk := by
  have hspares : (Command.evict (.ofInt 2) : Command Empty).Spares (opened (.ofText "cache") 0) 1
      { disk := d, verdicts := [.stop 0] } := (by decide : (2 : Int) ≠ 1)
  exact Since.refl.command 0 rfl hspares

/-- A load finds the artifact behind the eviction, and asks nobody. -/
theorem exec_counting_of_transparent {d : Disk}
    (h : Transparent (.ofText "cache") 1 smallArtifact (brokenOff d).disk) :
    ((load .plain offline (opened (.ofText "cache") 0) (.ofInt 1) counting).exec
      (brokenOff d)).1 = some (outcome .plain counting smallArtifact) := by
  obtain ⟨r, trace, hexec, -, hready⟩ := h .plain offline 0 (.ofInt 1) counting _ rfl rfl rfl
  rw [hexec]
  exact hready ⟨rfl, List.not_mem_nil, List.not_mem_nil⟩

/-- The load that downloads the artifact. -/
def firstLoad : Option (Except LoadError (Container FrameLibraries.plain.Frame)) × World :=
  (load .plain smallClient (opened (.ofText "cache") 0) (.ofInt 1) misled).exec {}

set_option maxRecDepth 20000 in
/-- The load that downloads a small artifact fails with it. Later, behind an eviction of another
    data set that was broken off, the artifact is loaded as a frame while nobody answers. -/
theorem cached_of_small_artifact :
    firstLoad.1 = some (.error (.coerce (.coercion ⟨"y", none, .unknownColumn⟩))) ∧
      Transparent (.ofText "cache") 1 smallArtifact (brokenOff firstLoad.2.disk).disk ∧
      ((load .plain offline (opened (.ofText "cache") 0) (.ofInt 1) counting).exec
        (brokenOff firstLoad.2.disk)).1 =
        some (.ok (.frame ⟨.pandas, 1, [⟨"x", .nullableInteger, [some (.number (.int 1))]⟩]⟩)) := by
  have hends : firstLoad.1 =
      some (.error (.coerce (.coercion ⟨"y", none, .unknownColumn⟩))) := by decide +kernel
  have hrequests : firstLoad.2.trace.requests =
      asked smallClient 1 ++ [Request.withKey smallClient.settings "x"] := by decide +kernel
  have hfirst : (load .plain smallClient (opened (.ofText "cache") 0) (.ofInt 1) misled).exec {} =
      firstLoad := rfl
  have hdownloads : Downloads smallClient (opened (.ofText "cache") 0) (.ofInt 1) misled {}
      smallArtifact := by
    refine ⟨⟨.error (.coerce (.coercion ⟨"y", none, .unknownColumn⟩)), ?_, fun _ => nofun⟩,
      asked smallClient 1, Request.withKey smallClient.settings "x", ?_, rfl⟩
    · rw [hfirst, hends]
    · rw [hfirst, hrequests]
      rfl
  have htransparent : Transparent (.ofText "cache") 1 smallArtifact
      (brokenOff firstLoad.2.disk).disk := by
    refine And.right (cached_of_downloads (Path.wellFormed_ofText "cache") hdownloads
      size_smallArtifact ?_)
    rw [hfirst]
    exact since_brokenOff firstLoad.2.disk
  have houtcome : outcome .plain counting smallArtifact =
      .ok (.frame ⟨.pandas, 1, [⟨"x", .nullableInteger, [some (.number (.int 1))]⟩]⟩) := by
    decide +kernel
  refine ⟨hends, htransparent, ?_⟩
  rw [exec_counting_of_transparent htransparent, houtcome]

end DatasetCatalog.Load
