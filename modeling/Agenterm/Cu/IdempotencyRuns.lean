import Agenterm.Cu.IdempotencyCapacity

/-!
# Requests are idempotent

The calls of any number of processes, one after the other. A record stays until it expires, and
only its owner moves it on (`record_step`); so the reservation that a call has made guards its
request id until then (`Guards`), and no second call is told to go ahead.
-/

namespace Agenterm.Cu.Idempotency

open Std Option Lib DocumentStore

variable {call : Call} {document : Document} {now : I64} {record : RequestRecord}
  {requestId : String} {reservation : FreshReservation}

variable {error : CuError} {record' : RequestRecord} {start : Option Document}

section
variable {sha256 : String → Fin 32 → UInt8}

/-! ## One record -/

/-- Nothing else passes for the token. -/
def CollisionFree (sha256 : String → Fin 32 → UInt8) (token : String) : Prop :=
  ∀ other, validDigest other = true → sha256Hex sha256 other = sha256Hex sha256 token →
    other = token

/-- A call moves a record on, with the token of its reservation. -/
def MovedByOwner (sha256 : String → Fin 32 → UInt8) (call : Call) (requestId : String)
    (record record' : RequestRecord) : Prop :=
  record.Moves call.now record' ∧
    ∃ token, call.Closes requestId record.fingerprintSha256 token ∧
      record.completionTokenSha256 = sha256Hex sha256 token ∧
      ∀ issued, record.completionTokenSha256 = sha256Hex sha256 issued →
        CollisionFree sha256 issued → token = issued

/-- A record stays until it expires, and only its owner moves it on. -/
lemma record_step {document' : Document} (h : Committed sha256 call document document')
    (hrecord : document.records[requestId]? = some record) :
    record.expiresAtUtcMs.val ≤ call.now.val ∨
      ∃ record', document'.records[requestId]? = some record' ∧
        (record' = record ∨ MovedByOwner sha256 call requestId record record') := by
  by_cases hlive : call.now.val < record.expiresAtUtcMs.val
  · right
    have hswept : (document.sweep call.now).records[requestId]? = some record :=
      sweep_eq_some.mpr ⟨hrecord, hlive⟩
    have hedited := h.edited
    generalize document'.records = records' at hedited
    cases hedited with
    | same => exact ⟨record, hswept, .inl rfl⟩
    | fresh requestId' fingerprint token expires habsent =>
      have hne : requestId' ≠ requestId := by
        rintro rfl
        rw [habsent] at hswept
        cases hswept
      exact ⟨record, (getElem?_insert_of_ne hne).trans hswept, .inl rfl⟩
    | moved requestId' token held record' hheld htoken hdigest hcloses hmoves =>
      by_cases heq : requestId' = requestId
      · subst heq
        obtain rfl := some.inj (hheld.symm.trans hswept)
        refine ⟨record', TreeMap.getElem?_insert_self, .inr ⟨hmoves, token, hcloses, hdigest, ?_⟩⟩
        intro issued hissued hfree
        exact hfree token htoken (hdigest.symm.trans hissued)
      · exact ⟨record, (getElem?_insert_of_ne heq).trans hswept, .inl rfl⟩
  · exact .inl (by omega)

/-- A finalized record does not move on. -/
lemma not_moves_of_finalized (hstate : record.state = .finalized) : ¬ record.Moves now record' := by
  intro h
  cases h with
  | finalized outcome hopen => exact hopen hstate
  | unknown hreserved =>
    rw [hstate] at hreserved
    cases hreserved

/-! ## The answers of a call -/

variable {io : StoreIo} {file : Option Document}

/-- What a call that decides on a reservation has done. -/
lemma perform_decided {decision : ReserveDecision}
    (h : (perform sha256 io file call).1 = .ok (.decided decision)) :
    ∃ requestId fingerprint ttl now random document' edited,
      call = .reserve requestId fingerprint ttl now random ∧
        reserveIn sha256 requestId fingerprint ttl now random ((store.current file).sweep now)
          = .ok (decision, edited) ∧
        document'.records = edited.records ∧ (perform sha256 io file call).2 = some document' ∧
        Committed sha256 call (store.current file) document' := by
  cases call with
  | lookup requestId fingerprint now =>
    cases hlookup : lookup io file requestId fingerprint now with
    | error e => simp [perform, hlookup, Except.map] at h
    | ok status => simp [perform, hlookup, Except.map] at h
  | reserve requestId fingerprint ttl now random =>
    have hanswer : (reserve sha256 io file requestId fingerprint ttl now random).1
        = .ok decision := by
      cases hreserve : (reserve sha256 io file requestId fingerprint ttl now random).1 with
      | error e => simp [perform, hreserve, Except.map] at h
      | ok answer => simpa [perform, hreserve, Except.map] using h
    unfold reserve at hanswer
    obtain ⟨hchecks, hcall⟩ := guarded_ok hanswer
    rw [hcall] at hanswer
    obtain ⟨document', hmakes, hwritten⟩ := transact_ok hanswer
    obtain ⟨hclock, edited, hoperation, hdocument⟩ := mutate_eq_ok.mp hmakes.edited
    refine ⟨requestId, fingerprint, ttl, now, random, document', edited, rfl, hoperation,
      by rw [hdocument], (congrArg Prod.snd hcall).trans hwritten, ?_⟩
    exact committed_of_makes (.reserve requestId fingerprint ttl now random) hmakes
      fun _ _ hedit => edited_of_reserveIn (reserveChecks_eq_ok.mp hchecks) hedit
  | finalize requestId fingerprint token outcome now =>
    cases hfinalize : (finalize sha256 io file requestId fingerprint token outcome now).1 with
    | error e => simp [perform, hfinalize, Except.map] at h
    | ok status => simp [perform, hfinalize, Except.map] at h
  | markOutcomeUnknown requestId fingerprint token now =>
    cases hmark : (markOutcomeUnknown sha256 io file requestId fingerprint token now).1 with
    | error e => simp [perform, hmark, Except.map] at h
    | ok status => simp [perform, hmark, Except.map] at h

lemma map_eq_error {α β : Type} {f : α → β} {x : Except CuError α} (h : x.map f = .error error) :
    x = .error error := by
  cases x with
  | error e => exact congrArg Except.error (Except.error.inj h)
  | ok a => cases h

/-- A call that fails leaves the file unchanged. -/
lemma perform_error (hatomic : io.Atomic) (h : (perform sha256 io file call).1 = .error error) :
    (perform sha256 io file call).2 = file := by
  have htransact : ∀ {α : Type} (edit : Document → Except CuError (α × Document)) error,
      (store.transact io file edit).1 = .error error → (store.transact io file edit).2 = file :=
    fun edit error herror => transact_error hatomic herror
  cases call with
  | lookup requestId fingerprint now => rfl
  | reserve requestId fingerprint ttl now random =>
    exact guarded_error (htransact _) (map_eq_error h)
  | finalize requestId fingerprint token outcome now =>
    exact guarded_error (htransact _) (map_eq_error h)
  | markOutcomeUnknown requestId fingerprint token now =>
    exact guarded_error (htransact _) (map_eq_error h)

/-! ## A reservation guards its request id -/

/-- The record of a reservation, also after it was closed. -/
structure Reserves (sha256 : String → Fin 32 → UInt8) (reservation : FreshReservation)
    (record : RequestRecord) : Prop where
  fingerprint_eq : record.fingerprintSha256 = reservation.status.fingerprintSha256
  created_eq : record.createdAtUtcMs = reservation.status.createdAtUtcMs
  expires_eq : record.expiresAtUtcMs = reservation.status.expiresAtUtcMs
  token_eq : record.completionTokenSha256 = sha256Hex sha256 reservation.completionToken

lemma Reserves.moves (h : Reserves sha256 reservation record) (hmoves : record.Moves now record') :
    Reserves sha256 reservation record' := by
  cases hmoves with
  | finalized outcome => exact ⟨h.fingerprint_eq, h.created_eq, h.expires_eq, h.token_eq⟩
  | unknown => exact ⟨h.fingerprint_eq, h.created_eq, h.expires_eq, h.token_eq⟩

/-- A file that holds the record of a reservation, or has seen it expire. -/
def Holds (sha256 : String → Fin 32 → UInt8) (reservation : FreshReservation)
    (file : Option Document) : Prop :=
  ∃ document, file = some document ∧ document.Valid ∧
    (reservation.status.expiresAtUtcMs.val ≤ document.lastNowUtcMs.val ∨
      ∃ record : RequestRecord, document.records[reservation.status.requestId]? = some record ∧
        Reserves sha256 reservation record)

/-- The call that makes a reservation finds no other one that has not expired. -/
lemma perform_fresh (h : (perform sha256 io file call).1 = .ok (.decided (.fresh reservation))) :
    ((store.current file).sweep call.now).records[reservation.status.requestId]? = none ∧
      (store.current file).lastNowUtcMs.val ≤ call.now.val ∧
      Holds sha256 reservation (perform sha256 io file call).2 := by
  obtain ⟨requestId, fingerprint, ttl, now, random, document', edited, rfl, hoperation, hrecords,
    hwritten, hcommitted⟩ := perform_decided h
  rcases reserveIn_eq_ok hoperation with ⟨record, -, -, hdecision, -⟩ |
    ⟨bytes, expires, habsent, -, -, -, hdecision, rfl⟩
  · unfold ReserveDecision.ofRecord at hdecision
    split at hdecision <;> exact absurd hdecision nofun
  · obtain rfl := ReserveDecision.fresh.inj hdecision
    refine ⟨habsent, hcommitted.clock_le, document', hwritten, hcommitted.valid, .inr ⟨_, ?_,
      ⟨rfl, rfl, rfl, rfl⟩⟩⟩
    rw [hrecords]
    exact TreeMap.getElem?_insert_self

/-- Every call keeps the record of a reservation until it expires. -/
lemma Holds.perform (h : Holds sha256 reservation file) (io : StoreIo) (call : Call) :
    Holds sha256 reservation (perform sha256 io file call).2 := by
  obtain ⟨document, rfl, hvalid, hheld⟩ := h
  rcases perform_file sha256 io (some document) call with hsame |
    ⟨document', hwritten, hcommitted⟩
  · exact ⟨document, hsame, hvalid, hheld⟩
  have hclock : document.lastNowUtcMs.val ≤ call.now.val := hcommitted.clock_le
  have hnow : document'.lastNowUtcMs.val = call.now.val := by rw [hcommitted.clock_eq]
  refine ⟨document', hwritten, hcommitted.valid, ?_⟩
  rcases hheld with hexpired | ⟨record, hrecord, hreserves⟩
  · exact .inl (by omega)
  rcases record_step hcommitted hrecord with hexpired | ⟨record', hrecord', rfl | hmoved⟩
  · rw [hreserves.expires_eq] at hexpired
    exact .inl (by omega)
  · exact .inr ⟨record', hrecord', hreserves⟩
  · exact .inr ⟨record', hrecord', hreserves.moves hmoved.1⟩

/-- The decision is not to go ahead, but to look at the earlier reservation. -/
def ReserveDecision.Repeats (decision : ReserveDecision) (reservation : FreshReservation) : Prop :=
  ∃ status : RequestStatus,
    (decision = .replayFinalized status ∧ status.state = .finalized ∨
      decision = .uncertain status ∧ status.state ≠ .finalized) ∧
    status.requestId = reservation.status.requestId ∧
    status.fingerprintSha256 = reservation.status.fingerprintSha256 ∧
    status.createdAtUtcMs = reservation.status.createdAtUtcMs ∧
    status.expiresAtUtcMs = reservation.status.expiresAtUtcMs

lemma ofRecord_repeats (hid : record.requestId = reservation.status.requestId)
    (h : Reserves sha256 reservation record) :
    (ReserveDecision.ofRecord record).Repeats reservation := by
  refine ⟨publicStatus record, ?_, hid, h.fingerprint_eq, h.created_eq, h.expires_eq⟩
  unfold ReserveDecision.ofRecord publicStatus
  cases record.state <;> simp

/-- What a call finds when it asks for the request of a reservation that has not expired. -/
lemma Holds.found (h : Holds sha256 reservation file)
    (hclock : (store.current file).lastNowUtcMs.val ≤ now.val)
    (hlive : now.val < reservation.status.expiresAtUtcMs.val) :
    ∃ document record, file = some document ∧ document.Valid ∧
      (document.sweep now).records[reservation.status.requestId]? = some record ∧
      record.requestId = reservation.status.requestId ∧ Reserves sha256 reservation record := by
  obtain ⟨document, rfl, hvalid, hexpired | ⟨record, hrecord, hreserves⟩⟩ := h
  · have hcurrent : document.lastNowUtcMs.val ≤ now.val := hclock
    omega
  · refine ⟨document, record, rfl, hvalid, sweep_eq_some.mpr ⟨hrecord, ?_⟩,
      (hvalid.records_valid _ record hrecord).key_eq.symm, hreserves⟩
    rw [hreserves.expires_eq]
    exact hlive

/-- What a file that holds the record of a reservation does for later calls. -/
structure Guards (sha256 : String → Fin 32 → UInt8) (reservation : FreshReservation)
    (file : Option Document) : Prop where
  /-- The record of the reservation stays until it has expired. -/
  held : ∃ document, file = some document ∧
    (reservation.status.expiresAtUtcMs.val ≤ document.lastNowUtcMs.val ∨
      ∃ record : RequestRecord, document.records[reservation.status.requestId]? = some record ∧
        Reserves sha256 reservation record)
  /-- A decision on the request before that is not to go ahead. -/
  decided : ∀ io fingerprint ttl (now : I64) random decision,
    now.val < reservation.status.expiresAtUtcMs.val →
    (perform sha256 io file
      (.reserve reservation.status.requestId fingerprint ttl now random)).1
        = .ok (.decided decision) →
    fingerprint = reservation.status.fingerprintSha256 ∧ decision.Repeats reservation
  /-- The same request is answered. -/
  repeated : ∀ (io : StoreIo) ttl (now : I64) random, io.Works →
    reserveChecks reservation.status.requestId reservation.status.fingerprintSha256 ttl now
      = .ok () →
    (store.current file).lastNowUtcMs.val ≤ now.val →
    now.val < reservation.status.expiresAtUtcMs.val →
    ∃ decision : ReserveDecision, decision.Repeats reservation ∧
      (perform sha256 io file (.reserve reservation.status.requestId
        reservation.status.fingerprintSha256 ttl now random)).1 = .ok (.decided decision)
  /-- A different request under the same id is refused. -/
  conflict : ∀ (io : StoreIo) fingerprint ttl (now : I64) random, io.Works →
    reserveChecks reservation.status.requestId fingerprint ttl now = .ok () →
    (store.current file).lastNowUtcMs.val ≤ now.val →
    now.val < reservation.status.expiresAtUtcMs.val →
    fingerprint ≠ reservation.status.fingerprintSha256 →
    (perform sha256 io file
      (.reserve reservation.status.requestId fingerprint ttl now random)).1 = .error idConflict

/-- A reservation whose arguments pass the checks is a transaction. -/
lemma perform_reserve {fingerprint : String} {ttl : I64} {random : Option (Fin 32 → UInt8)}
    (hchecks : reserveChecks requestId fingerprint ttl now = .ok ()) :
    (perform sha256 io file (.reserve requestId fingerprint ttl now random)).1
      = (store.transact io file
          (mutate now (reserveIn sha256 requestId fingerprint ttl now random))).1.map .decided := by
  have hreserve : reserve sha256 io file requestId fingerprint ttl now random
      = store.transact io file
          (mutate now (reserveIn sha256 requestId fingerprint ttl now random)) := by
    unfold reserve guarded
    rw [hchecks]
  rw [← hreserve]
  rfl

lemma Document.Valid.readable (h : document.Valid) :
    ∀ held, some document = some held →
      store.size held ≤ store.maxBytes ∧ store.validate held = .ok () := by
  intro held hheld
  cases hheld
  exact ⟨encodedLength_le h, validateDocument_eq_ok.mpr h⟩

/-- The document that a repeated request leaves: only the clock moves, and what has expired is
dropped. -/
lemma swept_valid (h : document.Valid) (hclock : document.lastNowUtcMs.val ≤ now.val) :
    ({ document.sweep now with
        schemaVersion := Idempotency.schemaVersion, lastNowUtcMs := now } : Document).Valid := by
  have hsize := h.size_le
  have hsweep := sweep_size_le document now
  exact valid_update h hclock (by omega) fun key record hrecord =>
    .inl (sweep_eq_some.mp hrecord).1

/-- While the record of a reservation is held, no other call on the request goes ahead. -/
theorem Holds.guards (h : Holds sha256 reservation file) :
    Guards sha256 reservation file where
  held := by
    obtain ⟨document, hfile, -, hheld⟩ := h
    exact ⟨document, hfile, hheld⟩
  decided := by
    intro io fingerprint ttl now random decision hlive hdecided
    obtain ⟨requestId, fingerprint', ttl', now', random', document', edited, hcall, hoperation, -,
      -, hcommitted⟩ := perform_decided hdecided
    obtain ⟨rfl, rfl, rfl, rfl, rfl⟩ := Call.reserve.inj hcall
    obtain ⟨document, record, rfl, -, hswept, hid, hreserves⟩ :=
      h.found hcommitted.clock_le hlive
    rcases reserveIn_eq_ok hoperation with ⟨found, hfound, hfingerprint, rfl, -⟩ |
      ⟨_, _, habsent, -⟩
    · obtain rfl := some.inj (hswept.symm.trans hfound)
      exact ⟨hfingerprint.symm.trans hreserves.fingerprint_eq, ofRecord_repeats hid hreserves⟩
    · have hnone := hswept.symm.trans habsent
      cases hnone
  repeated := by
    intro io ttl now random hio hchecks hclock hlive
    obtain ⟨document, record, rfl, hvalid, hswept, hid, hreserves⟩ := h.found hclock hlive
    refine ⟨.ofRecord record, ofRecord_repeats hid hreserves, ?_⟩
    have hoperation : reserveIn sha256 reservation.status.requestId
        reservation.status.fingerprintSha256 ttl now random (document.sweep now)
          = .ok (.ofRecord record, document.sweep now) := by
      unfold reserveIn
      rw [hswept]
      dsimp only
      rw [ensureFingerprint_eq_ok.mpr hreserves.fingerprint_eq]
      rfl
    have hvalid' := swept_valid hvalid hclock
    rw [perform_reserve hchecks, transact_eq_ok hio hvalid.readable
      (mutate_eq_ok.mpr ⟨hclock, _, hoperation, rfl⟩) (validateDocument_eq_ok.mpr hvalid')
      (encodedLength_le hvalid')]
    rfl
  conflict := by
    intro io fingerprint ttl now random hio hchecks hclock hlive hne
    obtain ⟨document, record, rfl, hvalid, hswept, hid, hreserves⟩ := h.found hclock hlive
    have hconflict : ensureFingerprint record fingerprint = .error idConflict := by
      unfold ensureFingerprint
      rw [if_neg]
      rw [constantTimeEqual_iff, hreserves.fingerprint_eq]
      exact hne.symm
    have hedit : mutate now (reserveIn sha256 reservation.status.requestId fingerprint ttl now
        random) document = .error idConflict := by
      have hrollback : ¬ now.val < document.lastNowUtcMs.val := Int.not_lt.mpr hclock
      unfold mutate reserveIn
      rw [if_neg hrollback, hswept]
      simp only [bind, Except.bind, hconflict]
    rw [perform_reserve hchecks, transact_eq_error hio hvalid.readable hedit]
    rfl

/-! ## Runs -/

/-- A call makes a reservation, after the calls before it. -/
def Issues (sha256 : String → Fin 32 → UInt8) (start : Option Document)
    (before : List (StoreIo × Call)) (call : StoreIo × Call)
    (reservation : FreshReservation) : Prop :=
  (perform sha256 call.1 (after sha256 start before) call.2).1
    = .ok (.decided (.fresh reservation))

lemma after_append (start : Option Document) (before later : List (StoreIo × Call)) :
    after sha256 start (before ++ later) = after sha256 (after sha256 start before) later :=
  run_append _ _ _ _

/-- What holds of a file holds after every run from it, when the calls keep it. -/
lemma after_invariant {P : Option Document → Prop}
    (hcall : ∀ file io call, P file → P (perform sha256 io file call).2) (hstart : P start)
    (calls : List (StoreIo × Call)) : P (after sha256 start calls) :=
  run_invariant (fun file call hfile => hcall file call.1 call.2 hfile) hstart calls

/-- The file holds the record of a reservation from the call that makes it on. -/
lemma Issues.holds {before : List (StoreIo × Call)} {call : StoreIo × Call}
    (h : Issues sha256 start before call reservation) (later : List (StoreIo × Call)) :
    Holds sha256 reservation (after sha256 start (before ++ call :: later)) := by
  rw [after_append]
  exact after_invariant (fun file io call hfile => hfile.perform io call)
    (perform_fresh h).2.2 later

/-- A finalized record stays as it is until it has expired. -/
lemma finalized_kept (hstate : record.state = .finalized)
    (hrecord : document.records[requestId]? = some record) (later : List (StoreIo × Call)) :
    ∃ document', after sha256 (some document) later = some document' ∧
      (record.expiresAtUtcMs.val ≤ document'.lastNowUtcMs.val ∨
        document'.records[requestId]? = some record) := by
  refine after_invariant (P := fun file => ∃ document', file = some document' ∧
    (record.expiresAtUtcMs.val ≤ document'.lastNowUtcMs.val ∨
      document'.records[requestId]? = some record)) ?_ ⟨document, rfl, .inr hrecord⟩ later
  rintro _ io call ⟨held, rfl, hheld⟩
  rcases perform_file sha256 io (some held) call with hsame | ⟨document', hwritten, hcommitted⟩
  · exact ⟨held, hsame, hheld⟩
  have hclock : held.lastNowUtcMs.val ≤ call.now.val := hcommitted.clock_le
  have hnow : document'.lastNowUtcMs.val = call.now.val := by rw [hcommitted.clock_eq]
  refine ⟨document', hwritten, ?_⟩
  rcases hheld with hexpired | hheld
  · exact .inl (by omega)
  rcases record_step hcommitted hheld with hexpired | ⟨record', hrecord', rfl | hmoved⟩
  · exact .inl (by omega)
  · exact .inr hrecord'
  · exact absurd hmoved.1 (not_moves_of_finalized hstate)

/-- The clock of the file does not go back. -/
lemma clock_le_after (start : Option Document) (later : List (StoreIo × Call)) :
    (store.current start).lastNowUtcMs.val
      ≤ (store.current (after sha256 start later)).lastNowUtcMs.val := by
  refine after_invariant (P := fun file => (store.current start).lastNowUtcMs.val
    ≤ (store.current file).lastNowUtcMs.val) (fun file io call hfile => ?_) (Int.le_refl _) later
  rcases perform_file sha256 io file call with hsame | ⟨document', hwritten, hcommitted⟩
  · rwa [hsame]
  · have hclock := hcommitted.clock_le
    have hnow : document'.lastNowUtcMs.val = call.now.val := by rw [hcommitted.clock_eq]
    rw [hwritten]
    show (store.current start).lastNowUtcMs.val ≤ document'.lastNowUtcMs.val
    omega

/-- Over every run of calls: a request id is reserved a second time only when the first
reservation has expired, and until then the first one answers for it; a record moves on only with
its token, and not after it was finalized; the clock does not go back; a call that fails changes
nothing. -/
theorem durable_idempotency (sha256 : String → Fin 32 → UInt8) (start : Option Document) :
    (∀ before first between second (reservation again : FreshReservation),
      Issues sha256 start before first reservation →
      Issues sha256 start (before ++ first :: between) second again →
      again.status.requestId = reservation.status.requestId →
      reservation.status.expiresAtUtcMs.val ≤ second.2.now.val) ∧
    (∀ before first between (reservation : FreshReservation),
      Issues sha256 start before first reservation →
      Guards sha256 reservation (after sha256 start (before ++ first :: between))) ∧
    (∀ before io call document document' (requestId : String) (record : RequestRecord),
      after sha256 start before = some document →
      (perform sha256 io (some document) call).2 = some document' →
      document.records[requestId]? = some record →
      record.expiresAtUtcMs.val ≤ call.now.val ∨
        ∃ record', document'.records[requestId]? = some record' ∧
          (record' = record ∨ MovedByOwner sha256 call requestId record record')) ∧
    (∀ before later document document' (requestId : String) (record : RequestRecord),
      after sha256 start before = some document →
      after sha256 start (before ++ later) = some document' →
      document.records[requestId]? = some record → record.state = .finalized →
      record.expiresAtUtcMs.val ≤ document'.lastNowUtcMs.val ∨
        document'.records[requestId]? = some record) ∧
    (∀ before later, (store.current (after sha256 start before)).lastNowUtcMs.val
      ≤ (store.current (after sha256 start (before ++ later))).lastNowUtcMs.val) ∧
    (∀ before (io : StoreIo) call error, io.Atomic →
      (perform sha256 io (after sha256 start before) call).1 = .error error →
      (perform sha256 io (after sha256 start before) call).2 = after sha256 start before) := by
  refine ⟨?_, ?_, ?_, ?_, ?_, ?_⟩
  · intro before first between second reservation again hfirst hsecond hid
    obtain ⟨habsent, hclock, -⟩ := perform_fresh hsecond
    rw [hid] at habsent
    by_contra hlive
    obtain ⟨document, record, hfile, -, hswept, -⟩ :=
      (hfirst.holds between).found hclock (by omega)
    rw [hfile] at habsent
    have hnone := hswept.symm.trans habsent
    cases hnone
  · intro before first between reservation hissues
    exact (hissues.holds between).guards
  · intro before io call document document' requestId record _ hwritten hrecord
    rcases perform_file sha256 io (some document) call with hsame | ⟨written, hfile, hcommitted⟩
    · obtain rfl := some.inj (hsame.symm.trans hwritten)
      exact .inr ⟨record, hrecord, .inl rfl⟩
    · obtain rfl := some.inj (hfile.symm.trans hwritten)
      exact record_step hcommitted hrecord
  · intro before later document document' requestId record hbefore hafter hrecord hstate
    rw [after_append, hbefore] at hafter
    obtain ⟨found, hfound, hkept⟩ := finalized_kept hstate hrecord later
    obtain rfl := some.inj (hafter.symm.trans hfound)
    exact hkept
  · intro before later
    rw [after_append]
    exact clock_le_after _ later
  · intro before io call error hatomic herror
    exact perform_error hatomic herror

/-- The reservation that an answer hands out. -/
def freshOf : Except CuError Answer → Option FreshReservation
  | .ok (.decided (.fresh reservation)) => some reservation
  | _ => none

lemma freshOf_eq_some {answer : Except CuError Answer} (h : freshOf answer = some reservation) :
    answer = .ok (.decided (.fresh reservation)) := by
  unfold freshOf at h
  split at h
  · rw [some.inj h]
  · exact absurd h.symm (some_ne_none _)

/-- The first call of all makes a reservation, and it is answered for from then on. -/
theorem durable_idempotency_first :
    ∃ reservation,
      Issues zerosDigest none [] (⟨.acquired, true, .published⟩,
        .reserve "request" (hexDigest (List.replicate 32 0)) ⟨1000, by decide⟩ zeroTime
          (some fun _ => 0)) reservation ∧
        ∀ later, Guards zerosDigest reservation (after zerosDigest none ([] ++
          (⟨.acquired, true, .published⟩, .reserve "request" (hexDigest (List.replicate 32 0))
            ⟨1000, by decide⟩ zeroTime (some fun _ => 0)) :: later)) := by
  have hissues : (freshOf (perform zerosDigest ⟨.acquired, true, .published⟩ none
      (.reserve "request" (hexDigest (List.replicate 32 0)) ⟨1000, by decide⟩ zeroTime
        (some fun _ => 0))).1).isSome = true := by decide
  obtain ⟨reservation, hfresh⟩ := isSome_iff_exists.mp hissues
  have hdecided := freshOf_eq_some hfresh
  exact ⟨reservation, hdecided, fun later =>
    (durable_idempotency zerosDigest none).2.1 [] _ later reservation hdecided⟩

end

end Agenterm.Cu.Idempotency
