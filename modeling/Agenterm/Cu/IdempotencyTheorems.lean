import Agenterm.Cu.IdempotencyStore

/-!
# Requests are idempotent

`Document.Valid` says what the check on documents demands, and `Edited` what a call can do to the
records that are left after the sweep: nothing, add a reservation, or move one on with its token.
From these, a record stays until it expires and only its owner moves it (`record_kept`), and the
reservation that a call has made holds its id until then (`Live.perform`), so that the effect of a
request is not authorized twice.
-/

namespace Agenterm.Cu.Idempotency

open Std Lib

/-! ## Valid documents -/

/-- What the check on a record demands. -/
structure RequestRecord.Valid (record : RequestRecord) (schemaVersion : Nat) (key : String) :
    Prop where
  id_valid : validateRequestId record.requestId = .ok ()
  key_eq : key = record.requestId
  fingerprint_valid : validDigest record.fingerprintSha256 = true
  token_valid : validDigest record.completionTokenSha256 = true
  created_nonneg : 0 ≤ record.createdAtUtcMs.val
  created_le : record.createdAtUtcMs.val ≤ record.updatedAtUtcMs.val
  updated_lt : record.updatedAtUtcMs.val < record.expiresAtUtcMs.val
  outcome_valid : validateStateOutcome schemaVersion record = .ok ()

variable {decision : ReserveDecision} {outcome : FinalOutcome} {random : Option (Fin 32 → UInt8)}
  {value : String}

lemma validateDigest_eq_ok {code : String} :
    validateDigest value code = .ok () ↔ validDigest value = true := by
  unfold validateDigest
  rw [ite_error_eq_ok]
  simp

lemma validateCompletionToken_eq_ok :
    validateCompletionToken value = .ok () ↔ validDigest value = true := by
  unfold validateCompletionToken
  rw [ite_error_eq_ok]
  simp

variable {document document' edited : Document} {fingerprint key requestId token : String}
  {record : RequestRecord} {schemaVersion : Nat} {status : RequestStatus} {ttl : I64}

lemma validateRecord_eq_ok :
    validateRecord schemaVersion key record = .ok () ↔ record.Valid schemaVersion key := by
  unfold validateRecord
  rw [bind_unit_eq_ok, mapError_eq_ok, ite_error_eq_ok, bind_unit_eq_ok,
    mapError_eq_ok, bind_unit_eq_ok, mapError_eq_ok, ite_error_eq_ok,
    validateDigest_eq_ok, validateDigest_eq_ok]
  constructor
  · rintro ⟨hid, hkey, hfingerprint, htoken, htimes, houtcome⟩
    exact ⟨hid, by simpa using hkey, hfingerprint, htoken, by omega, by omega, by omega, houtcome⟩
  · intro h
    have hcreated := h.created_nonneg
    have hupdated := h.created_le
    have hexpires := h.updated_lt
    exact ⟨h.id_valid, fun hne => hne h.key_eq, h.fingerprint_valid, h.token_valid, by omega,
      h.outcome_valid⟩

/-- A finalized record has an outcome, and only a finalized one. -/
lemma validateStateOutcome_eq_ok :
    validateStateOutcome schemaVersion record = .ok () ↔
      (record.state ≠ .finalized ∧ record.outcome = none) ∨
        record.state = .finalized ∧ ∃ outcome, record.outcome = some outcome ∧
          validateOutcome outcome = .ok () ∧ ¬ (schemaVersion = 1 ∧ outcome.replay.isSome) := by
  unfold validateStateOutcome
  cases hstate : record.state with
  | finalized =>
    cases houtcome : record.outcome with
    | none => simp
    | some outcome =>
      dsimp only
      rw [bind_unit_eq_ok, mapError_eq_ok, ite_error_eq_ok]
      simp
  | reserved => cases houtcome : record.outcome <;> simp
  | outcomeUnknown => cases houtcome : record.outcome <;> simp

/-- A record of an older document passes in a new one. -/
lemma RequestRecord.Valid.upgrade (h : record.Valid schemaVersion key) :
    record.Valid Idempotency.schemaVersion key := by
  refine { h with outcome_valid := validateStateOutcome_eq_ok.mpr ?_ }
  rcases validateStateOutcome_eq_ok.mp h.outcome_valid with hopen | ⟨hstate, outcome, houtcome, hvalid, -⟩
  · exact .inl hopen
  · exact .inr ⟨hstate, outcome, houtcome, hvalid, fun hone => absurd hone.1 (by decide)⟩

/-- What the check on a document demands. -/
structure Document.Valid (document : Document) : Prop where
  schema_ge : oldestReadableSchemaVersion ≤ document.schemaVersion
  schema_le : document.schemaVersion ≤ Idempotency.schemaVersion
  clock_nonneg : 0 ≤ document.lastNowUtcMs.val
  size_le : document.records.size ≤ maxRecords
  records_valid : ∀ key (record : RequestRecord), document.records[key]? = some record →
    record.Valid document.schemaVersion key

lemma validateDocument_eq_ok : validateDocument document = .ok () ↔ document.Valid := by
  unfold validateDocument
  rw [ite_error_eq_ok, forM_toList_eq_ok]
  simp only [validateRecord_eq_ok]
  constructor
  · rintro ⟨hbounds, hrecords⟩
    exact ⟨by omega, by omega, by omega, by omega, hrecords⟩
  · intro h
    have hge := h.schema_ge
    have hle := h.schema_le
    have hclock := h.clock_nonneg
    have hsize := h.size_le
    exact ⟨by omega, h.records_valid⟩

/-! ## The steps of a call -/

lemma sweep_eq_some {now : I64} :
    (document.sweep now).records[key]? = some record ↔
      document.records[key]? = some record ∧ now.val < record.expiresAtUtcMs.val := by
  unfold Document.sweep
  rw [filter_eq_some, decide_eq_true_eq]

lemma mutate_eq_ok {α : Type} {now : I64} {operation : Document → Except CuError (α × Document)}
    {answer : α} :
    mutate now operation document = .ok (answer, document') ↔
      document.lastNowUtcMs.val ≤ now.val ∧
        ∃ edited, operation (document.sweep now) = .ok (answer, edited) ∧
          document' = { edited with
            schemaVersion := Idempotency.schemaVersion, lastNowUtcMs := now } := by
  unfold mutate
  rw [ite_error_eq_ok, bind_eq_ok]
  constructor
  · rintro ⟨hclock, ⟨answer', edited⟩, hoperation, h⟩
    cases h
    exact ⟨by omega, edited, hoperation, rfl⟩
  · rintro ⟨hclock, edited, hoperation, rfl⟩
    exact ⟨by omega, (answer, edited), hoperation, rfl⟩

lemma ensureFingerprint_eq_ok :
    ensureFingerprint record fingerprint = .ok () ↔ record.fingerprintSha256 = fingerprint := by
  unfold ensureFingerprint
  rw [← constantTimeEqual_iff]
  split <;> simp [*]

section
variable {sha256 : String → Fin 32 → UInt8}

lemma ensureCompletionToken_eq_ok :
    ensureCompletionToken sha256 record token = .ok () ↔
      record.completionTokenSha256 = sha256Hex sha256 token := by
  unfold ensureCompletionToken
  rw [← constantTimeEqual_iff]
  split <;> simp [*]

/-- A record and the arguments of a call that may close it. -/
structure Owned (sha256 : String → Fin 32 → UInt8) (record : RequestRecord)
    (fingerprint token : String) : Prop where
  fingerprint_eq : record.fingerprintSha256 = fingerprint
  token_eq : record.completionTokenSha256 = sha256Hex sha256 token

lemma ownedRecord_eq_ok :
    ownedRecord sha256 requestId fingerprint token document = .ok record ↔
      document.records[requestId]? = some record ∧ Owned sha256 record fingerprint token := by
  unfold ownedRecord
  cases hrecord : document.records[requestId]? with
  | none => exact ⟨nofun, nofun⟩
  | some found =>
    dsimp only
    rw [bind_unit_eq_ok, bind_unit_eq_ok, ensureFingerprint_eq_ok,
      ensureCompletionToken_eq_ok]
    constructor
    · rintro ⟨hfingerprint, htoken, hfound⟩
      cases hfound
      exact ⟨rfl, hfingerprint, htoken⟩
    · rintro ⟨hfound, howned⟩
      cases hfound
      exact ⟨howned.fingerprint_eq, howned.token_eq, rfl⟩

lemma reserveIn_eq_ok {now : I64}
    (h : reserveIn sha256 requestId fingerprint ttl now random document
      = .ok (decision, document')) :
    (∃ record, document.records[requestId]? = some record ∧
        record.fingerprintSha256 = fingerprint ∧ decision = .ofRecord record ∧
        document' = document) ∨
      ∃ bytes expires, document.records[requestId]? = none ∧
        document.records.size < maxRecords ∧ random = some bytes ∧
        expires.val = now.val + ttl.val ∧
        (let token := hexDigest (List.ofFn bytes)
         let record := newRecord sha256 requestId fingerprint token now expires
         decision = .fresh { status := publicStatus record, completionToken := token } ∧
           document' = document.replaceRecord requestId record) := by
  unfold reserveIn at h
  split at h
  · rename_i record hrecord
    rw [bind_unit_eq_ok, ensureFingerprint_eq_ok] at h
    obtain ⟨hfingerprint, h⟩ := h
    cases h
    exact .inl ⟨record, hrecord, hfingerprint, rfl, rfl⟩
  · rename_i habsent
    rw [ite_error_eq_ok] at h
    obtain ⟨hsize, h⟩ := h
    split at h
    · cases h
    · rename_i bytes
      split at h
      · cases h
      · rename_i expires hexpires
        cases h
        exact .inr ⟨bytes, expires, habsent, by omega, rfl,
          I64.checkedAdd_eq_some hexpires, rfl, rfl⟩

/-- The record a finalization leaves. -/
def RequestRecord.finalizedBy (record : RequestRecord) (outcome : FinalOutcome) (now : I64) :
    RequestRecord :=
  { record with state := .finalized, updatedAtUtcMs := now, outcome := some outcome }

lemma finalizeIn_eq_ok {now : I64}
    (h : finalizeIn sha256 requestId fingerprint token outcome now document
      = .ok (status, document')) :
    ∃ record, document.records[requestId]? = some record ∧
      Owned sha256 record fingerprint token ∧
      (document' = document ∨
        record.state ≠ .finalized ∧
          document' = document.replaceRecord requestId (record.finalizedBy outcome now)) := by
  obtain ⟨record, hrecord, h⟩ := bind_eq_ok.mp h
  obtain ⟨hrecord, howned⟩ := ownedRecord_eq_ok.mp hrecord
  refine ⟨record, hrecord, howned, ?_⟩
  split at h
  · rw [ite_error_eq_ok] at h
    obtain ⟨-, rfl⟩ := Prod.mk.inj (Except.ok.inj h.2)
    exact .inl rfl
  · rename_i hstate
    cases h
    exact .inr ⟨hstate, rfl⟩

/-- The record that is left when the outcome is not known. -/
def RequestRecord.unknownAt (record : RequestRecord) (now : I64) : RequestRecord :=
  { record with state := .outcomeUnknown, updatedAtUtcMs := now }

lemma markOutcomeUnknownIn_eq_ok {now : I64}
    (h : markOutcomeUnknownIn sha256 requestId fingerprint token now document
      = .ok (status, document')) :
    ∃ record, document.records[requestId]? = some record ∧
      Owned sha256 record fingerprint token ∧
      (document' = document ∨
        record.state = .reserved ∧
          document' = document.replaceRecord requestId (record.unknownAt now)) := by
  obtain ⟨record, hrecord, h⟩ := bind_eq_ok.mp h
  obtain ⟨hrecord, howned⟩ := ownedRecord_eq_ok.mp hrecord
  refine ⟨record, hrecord, howned, ?_⟩
  split at h
  · rename_i hstate
    cases h
    exact .inr ⟨hstate, rfl⟩
  · cases h
    exact .inl rfl

/-! ## What a call does to the document -/

/-- The clock of a call. -/
def Call.now : Call → I64
  | .lookup _ _ now => now
  | .reserve _ _ _ now _ => now
  | .finalize _ _ _ _ now => now
  | .markOutcomeUnknown _ _ _ now => now

/-- A call that closes the reservation of a request with a token. -/
inductive Call.Closes (requestId fingerprint token : String) : Call → Prop
  | finalize (outcome : FinalOutcome) (now : I64) :
    Call.Closes requestId fingerprint token (.finalize requestId fingerprint token outcome now)
  | markOutcomeUnknown (now : I64) :
    Call.Closes requestId fingerprint token (.markOutcomeUnknown requestId fingerprint token now)

/-- How a record moves on. -/
inductive RequestRecord.Moves (now : I64) (record : RequestRecord) : RequestRecord → Prop
  | finalized (outcome : FinalOutcome) (open_state : record.state ≠ .finalized)
    (outcome_valid : validateOutcome outcome = .ok ()) :
    RequestRecord.Moves now record (record.finalizedBy outcome now)
  | unknown (reserved : record.state = .reserved) :
    RequestRecord.Moves now record (record.unknownAt now)

/-- What a call makes of the records that the sweep has left. -/
inductive Edited (sha256 : String → Fin 32 → UInt8) (call : Call)
    (records : TreeMap String RequestRecord) : TreeMap String RequestRecord → Prop
  | same : Edited sha256 call records records
  | fresh (requestId fingerprint token : String) (expires : I64)
    (absent : records[requestId]? = none) (room : records.size < maxRecords)
    (id_valid : validateRequestId requestId = .ok ())
    (fingerprint_valid : validDigest fingerprint = true) (token_valid : validDigest token = true)
    (clock_nonneg : 0 ≤ call.now.val) (expires_gt : call.now.val < expires.val) :
    Edited sha256 call records
      (records.insert requestId (newRecord sha256 requestId fingerprint token call.now expires))
  | moved (requestId token : String) (record record' : RequestRecord)
    (held : records[requestId]? = some record) (token_valid : validDigest token = true)
    (token_eq : record.completionTokenSha256 = sha256Hex sha256 token)
    (closes : call.Closes requestId record.fingerprintSha256 token)
    (moves : record.Moves call.now record') :
    Edited sha256 call records (records.insert requestId record')

/-- A call has written a document. -/
structure Committed (sha256 : String → Fin 32 → UInt8) (call : Call)
    (document document' : Document) : Prop where
  clock_le : document.lastNowUtcMs.val ≤ call.now.val
  clock_eq : document'.lastNowUtcMs = call.now
  schema_eq : document'.schemaVersion = Idempotency.schemaVersion
  edited : Edited sha256 call (document.sweep call.now).records document'.records
  valid : document'.Valid
  size_le : document'.json.encodedLength ≤ maxFileBytes

variable {io : StoreIo} {file : Option Document}

/-- What a transaction has made of the file, when its operation is one of the edits. -/
lemma committed_of_makes {α : Type} (call : Call)
    {operation : Document → Except CuError (α × Document)} {answer : α}
    (h : store.Makes io file (mutate call.now operation) answer document')
    (hedit : ∀ document edited, operation document = .ok (answer, edited) →
      Edited sha256 call document.records edited.records) :
    Committed sha256 call (store.current file) document' := by
  obtain ⟨hclock, edited, hoperation, rfl⟩ := mutate_eq_ok.mp h.edited
  exact ⟨hclock, rfl, rfl, hedit _ edited hoperation, validateDocument_eq_ok.mp h.valid, h.size_le⟩

lemma validateNow_eq_ok {now : I64} : validateNow now = .ok () ↔ 0 ≤ now.val := by
  unfold validateNow
  rw [ite_error_eq_ok]
  simp

/-- The arguments of a reservation that pass the checks. -/
structure ReserveArguments (requestId fingerprint : String) (ttl now : I64) : Prop where
  id_valid : validateRequestId requestId = .ok ()
  fingerprint_valid : validDigest fingerprint = true
  clock_nonneg : 0 ≤ now.val
  ttl_ge : minRetentionTtlMs ≤ ttl.val
  ttl_le : ttl.val ≤ maxRetentionTtlMs

lemma reserveChecks_eq_ok {now : I64} :
    reserveChecks requestId fingerprint ttl now = .ok () ↔
      ReserveArguments requestId fingerprint ttl now := by
  unfold reserveChecks validateRetentionTtl
  rw [bind_unit_eq_ok, bind_unit_eq_ok, bind_unit_eq_ok, ite_error_eq_ok,
    validateDigest_eq_ok, validateNow_eq_ok, not_not]
  constructor
  · rintro ⟨hid, hfingerprint, hnow, ⟨hge, hle⟩, -⟩
    exact ⟨hid, hfingerprint, hnow, hge, hle⟩
  · intro h
    exact ⟨h.id_valid, h.fingerprint_valid, h.clock_nonneg, ⟨h.ttl_ge, h.ttl_le⟩, rfl⟩

lemma edited_of_reserveIn {now : I64} (hchecks : ReserveArguments requestId fingerprint ttl now)
    (h : reserveIn sha256 requestId fingerprint ttl now random document = .ok (decision, edited)) :
    Edited sha256 (.reserve requestId fingerprint ttl now random) document.records
      edited.records := by
  rcases reserveIn_eq_ok h with ⟨_, -, -, -, rfl⟩ | ⟨bytes, expires, habsent, hroom, -, hexpires, h⟩
  · exact .same
  · obtain ⟨-, rfl⟩ := h
    have hpositive : (0 : Int) < minRetentionTtlMs := by decide
    have httl := hchecks.ttl_ge
    have hlater : now.val < expires.val := by omega
    exact .fresh requestId fingerprint _ expires habsent hroom hchecks.id_valid
      hchecks.fingerprint_valid (validDigest_hexDigest bytes) hchecks.clock_nonneg hlater

lemma edited_of_finalizeIn {now : I64}
    (hchecks : finalizeChecks requestId fingerprint token outcome now = .ok ())
    (h : finalizeIn sha256 requestId fingerprint token outcome now document
      = .ok (status, edited)) :
    Edited sha256 (.finalize requestId fingerprint token outcome now) document.records
      edited.records := by
  unfold finalizeChecks at hchecks
  rw [bind_unit_eq_ok, bind_unit_eq_ok, bind_unit_eq_ok, bind_unit_eq_ok,
    validateCompletionToken_eq_ok] at hchecks
  obtain ⟨-, -, htoken, houtcome, -⟩ := hchecks
  obtain ⟨record, hrecord, howned, rfl | ⟨hstate, rfl⟩⟩ := finalizeIn_eq_ok h
  · exact .same
  · exact .moved requestId token record _ hrecord htoken howned.token_eq
      (howned.fingerprint_eq ▸ .finalize outcome now) (.finalized outcome hstate houtcome)

lemma edited_of_markOutcomeUnknownIn {now : I64}
    (hchecks : markOutcomeUnknownChecks requestId fingerprint token now = .ok ())
    (h : markOutcomeUnknownIn sha256 requestId fingerprint token now document
      = .ok (status, edited)) :
    Edited sha256 (.markOutcomeUnknown requestId fingerprint token now) document.records
      edited.records := by
  unfold markOutcomeUnknownChecks at hchecks
  rw [bind_unit_eq_ok, bind_unit_eq_ok, bind_unit_eq_ok,
    validateCompletionToken_eq_ok] at hchecks
  obtain ⟨-, -, htoken, -⟩ := hchecks
  obtain ⟨record, hrecord, howned, rfl | ⟨hstate, rfl⟩⟩ := markOutcomeUnknownIn_eq_ok h
  · exact .same
  · exact .moved requestId token record _ hrecord htoken howned.token_eq
      (howned.fingerprint_eq ▸ .markOutcomeUnknown now) (.unknown hstate)

/-- What a transaction behind checks leaves in the file. -/
lemma guarded_transact_file {α : Type} {checks : Except CuError Unit} (call : Call)
    {operation : Document → Except CuError (α × Document)}
    (hedit : checks = .ok () → ∀ document answer edited, operation document = .ok (answer, edited) →
      Edited sha256 call document.records edited.records) :
    let result := DocumentStore.guarded file checks
      (store.transact io file (mutate call.now operation))
    result.2 = file ∨
      ∃ document', result.2 = some document' ∧
        Committed sha256 call (store.current file) document' := by
  dsimp only
  rcases DocumentStore.guarded_file file checks
    (store.transact io file (mutate call.now operation)) with hfile | ⟨hchecks, hcall⟩
  · exact .inl hfile
  rw [hcall]
  rcases store.transact_file io file (mutate call.now operation) with hfile | ⟨answer, document', hmakes, hfile⟩
  · exact .inl hfile
  · exact .inr ⟨document', hfile, committed_of_makes call hmakes (fun document edited hoperation =>
      hedit hchecks document answer edited hoperation)⟩

/-- A call leaves the file as it is, or writes one of the edits. -/
lemma perform_file (sha256 : String → Fin 32 → UInt8) (io : StoreIo) (file : Option Document)
    (call : Call) :
    (perform sha256 io file call).2 = file ∨
      ∃ document', (perform sha256 io file call).2 = some document' ∧
        Committed sha256 call (store.current file) document' := by
  cases call with
  | lookup requestId fingerprint now => exact .inl rfl
  | reserve requestId fingerprint ttl now random =>
    exact guarded_transact_file (.reserve requestId fingerprint ttl now random)
      fun hchecks _ _ _ h => edited_of_reserveIn (reserveChecks_eq_ok.mp hchecks) h
  | finalize requestId fingerprint token outcome now =>
    exact guarded_transact_file (.finalize requestId fingerprint token outcome now)
      fun hchecks _ _ _ h => edited_of_finalizeIn hchecks h
  | markOutcomeUnknown requestId fingerprint token now =>
    exact guarded_transact_file (.markOutcomeUnknown requestId fingerprint token now)
      fun hchecks _ _ _ h => edited_of_markOutcomeUnknownIn hchecks h

end

end Agenterm.Cu.Idempotency
