import Agenterm.Cu.Common
import Agenterm.Lib.Run

/-!
# Durable request idempotency

`idempotency_store.rs`: a document of request records, each of which reserves a request id for the
fingerprint of a request until it expires. A reservation is closed with the token that was returned
when it was made; the document holds the digest of the token.

Every call takes the lock of the store, reads the document and checks it, and the calls that change
it first drop the records that have expired.
-/

namespace Agenterm.Cu.Idempotency

open Std Lib

def schemaVersion : Nat := 2
def oldestReadableSchemaVersion : Nat := 1
def maxFileBytes : Nat := 1024 * 1024
def maxRecords : Nat := 1024
def maxRequestIdBytes : Nat := 128
def maxOutcomeCodeBytes : Nat := 96
def minRetentionTtlMs : Int := 1000
def maxRetentionTtlMs : Int := 7 * 24 * 60 * 60 * 1000

inductive RequestState where
  | reserved
  | finalized
  | outcomeUnknown
deriving DecidableEq

inductive FinalOutcomeKind where
  | succeeded
  | failed
deriving DecidableEq

inductive FinalReplay where
  | jobSpawn (jobId : String) (generation : UInt64)
  | deviceClaim (leaseId : String) (generation : UInt64)
  | privilegeApply (receiptId : String)
deriving DecidableEq

structure FinalOutcome where
  kind : FinalOutcomeKind
  code : String
  receiptSha256 : Option String
  replay : Option FinalReplay
deriving DecidableEq

structure RequestStatus where
  requestId : String
  fingerprintSha256 : String
  state : RequestState
  createdAtUtcMs : I64
  updatedAtUtcMs : I64
  expiresAtUtcMs : I64
  outcome : Option FinalOutcome
deriving DecidableEq

structure FreshReservation where
  status : RequestStatus
  completionToken : String
deriving DecidableEq

inductive ReserveDecision where
  | fresh (reservation : FreshReservation)
  | replayFinalized (status : RequestStatus)
  | uncertain (status : RequestStatus)
deriving DecidableEq

structure RequestRecord where
  requestId : String
  fingerprintSha256 : String
  completionTokenSha256 : String
  state : RequestState
  createdAtUtcMs : I64
  updatedAtUtcMs : I64
  expiresAtUtcMs : I64
  outcome : Option FinalOutcome
deriving DecidableEq

structure Document where
  schemaVersion : Nat
  lastNowUtcMs : I64
  records : TreeMap String RequestRecord

/-- The document of a file that does not exist. -/
def Document.default : Document :=
  { schemaVersion := Idempotency.schemaVersion, lastNowUtcMs := zeroTime, records := ∅ }

/-! ## The text of a document -/

def RequestState.name : RequestState → String
  | .reserved => "reserved"
  | .finalized => "finalized"
  | .outcomeUnknown => "outcome_unknown"

def FinalOutcomeKind.name : FinalOutcomeKind → String
  | .succeeded => "succeeded"
  | .failed => "failed"

def FinalReplay.json : FinalReplay → Value
  | .jobSpawn jobId generation =>
    .object [("kind", .string "job_spawn"), ("job_id", .string jobId),
      ("generation", .nat generation.toNat)]
  | .deviceClaim leaseId generation =>
    .object [("kind", .string "device_claim"), ("lease_id", .string leaseId),
      ("generation", .nat generation.toNat)]
  | .privilegeApply receiptId =>
    .object [("kind", .string "privilege_apply"), ("receipt_id", .string receiptId)]

def FinalOutcome.json (outcome : FinalOutcome) : Value :=
  .object
    ([("kind", .string outcome.kind.name), ("code", .string outcome.code)]
      ++ optionalField "receipt_sha256" .string outcome.receiptSha256
      ++ optionalField "replay" FinalReplay.json outcome.replay)

def RequestRecord.json (record : RequestRecord) : Value :=
  .object
    ([("request_id", .string record.requestId),
      ("fingerprint_sha256", .string record.fingerprintSha256),
      ("completion_token_sha256", .string record.completionTokenSha256),
      ("state", .string record.state.name),
      ("created_at_utc_ms", record.createdAtUtcMs.json),
      ("updated_at_utc_ms", record.updatedAtUtcMs.json),
      ("expires_at_utc_ms", record.expiresAtUtcMs.json)]
      ++ optionalField "outcome" FinalOutcome.json record.outcome)

def Document.json (document : Document) : Value :=
  .object
    [ ("schema_version", .nat document.schemaVersion),
      ("last_now_utc_ms", document.lastNowUtcMs.json),
      ("records", .object (document.records.toList.map fun (key, record) => (key, record.json))) ]

/-! ## Checks -/

def corrupt (message : String) : CuError := { code := "request_store_corrupt", message }

def asCorrupt (_ : CuError) : CuError :=
  corrupt "request idempotency state violates its schema or bounds"

/-- The characters of request ids. -/
def isRequestIdChar (c : Char) : Bool :=
  c.isAlphanum || c == '-' || c == '_' || c == '.' || c == ':'

def validateRequestId (value : String) : Except CuError Unit :=
  if value.isEmpty || value.utf8ByteSize > maxRequestIdBytes
      || !value.toList.all isRequestIdChar then
    .error
      { code := "request_id_invalid", message := "request id must be 1..=128 ASCII token bytes" }
  else
    .ok ()

def validateCompletionToken (value : String) : Except CuError Unit :=
  if !validDigest value then
    .error
      { code := "request_completion_token_invalid",
        message := "completion token is not a valid opaque token" }
  else
    .ok ()

def validateDigest (value code : String) : Except CuError Unit :=
  if !validDigest value then
    .error { code, message := "value is not a lowercase SHA-256 digest" }
  else
    .ok ()

def outcomeInvalid (message : String) : CuError := { code := "request_outcome_invalid", message }

/-- The characters of outcome codes. -/
def isOutcomeCodeChar (c : Char) : Bool :=
  c.isLower || c.isDigit || c == '_' || c == '-' || c == '.' || c == ':'

/-- Replay data that names a generation; `kind` is what the messages call it. -/
def validateGenerationReplay (kind id : String) (generation : UInt64) (outcome : FinalOutcome) :
    Except CuError Unit :=
  if outcome.kind ≠ .succeeded then
    .error (outcomeInvalid ("failed outcomes cannot carry " ++ kind ++ " replay data"))
  else if generation = 0 || !isLowercaseUuidV4 id then
    .error (outcomeInvalid
      (kind ++ " replay requires a lowercase UUID v4 and nonzero generation"))
  else
    .ok ()

def validateReplay (outcome : FinalOutcome) : FinalReplay → Except CuError Unit
  | .jobSpawn jobId generation => validateGenerationReplay "job" jobId generation outcome
  | .deviceClaim leaseId generation => validateGenerationReplay "device" leaseId generation outcome
  | .privilegeApply receiptId =>
    if outcome.receiptSha256.isNone then
      .error (outcomeInvalid "privilege replay requires a receipt digest")
    else if !isLowercaseUuidV4 receiptId then
      .error (outcomeInvalid "privilege replay requires a lowercase UUID v4 receipt id")
    else
      .ok ()

def validateOutcome (outcome : FinalOutcome) : Except CuError Unit :=
  if outcome.code.isEmpty || outcome.code.utf8ByteSize > maxOutcomeCodeBytes
      || !outcome.code.toList.all isOutcomeCodeChar then
    .error (outcomeInvalid "outcome code must be a bounded lowercase machine token")
  else do
    checkSome outcome.receiptSha256 fun digest => validateDigest digest "request_outcome_invalid"
    checkSome outcome.replay (validateReplay outcome)

def validateNow (now : I64) : Except CuError Unit :=
  if now.val < 0 then
    .error
      { code := "request_store_clock_invalid",
        message := "request idempotency clock must be non-negative UTC milliseconds" }
  else
    .ok ()

def ttlInvalid (message : String) : CuError :=
  { code := "request_retention_ttl_invalid", message }

def validateRetentionTtl (ttl : I64) : Except CuError Unit :=
  if ¬ (minRetentionTtlMs ≤ ttl.val ∧ ttl.val ≤ maxRetentionTtlMs) then
    .error (ttlInvalid "retention TTL must be within 1000..=604800000 milliseconds")
  else
    .ok ()

/-- The state of a record, and the outcome it has. -/
def validateStateOutcome (schemaVersion : Nat) (record : RequestRecord) : Except CuError Unit :=
  match record.state, record.outcome with
  | .finalized, some outcome => do
    (validateOutcome outcome).mapError asCorrupt
    if schemaVersion = 1 ∧ outcome.replay.isSome then
      .error (corrupt "schema-one request state cannot contain replay metadata")
    else
      .ok ()
  | .reserved, none | .outcomeUnknown, none => .ok ()
  | _, _ => .error (corrupt "request state and outcome metadata disagree")

/-- One round of the loop of `validate_document`. -/
def validateRecord (schemaVersion : Nat) (key : String) (record : RequestRecord) :
    Except CuError Unit := do
  (validateRequestId record.requestId).mapError asCorrupt
  if key ≠ record.requestId then
    .error (corrupt "request idempotency map key does not match its record")
  else do
    (validateDigest record.fingerprintSha256 "request_store_corrupt").mapError asCorrupt
    (validateDigest record.completionTokenSha256 "request_store_corrupt").mapError asCorrupt
    if record.createdAtUtcMs.val < 0
        ∨ record.updatedAtUtcMs.val < record.createdAtUtcMs.val
        ∨ record.expiresAtUtcMs.val ≤ record.createdAtUtcMs.val
        ∨ record.updatedAtUtcMs.val ≥ record.expiresAtUtcMs.val then
      .error (corrupt "request idempotency timestamps violate their ordering")
    else
      validateStateOutcome schemaVersion record

def validateDocument (document : Document) : Except CuError Unit :=
  if ¬ (oldestReadableSchemaVersion ≤ document.schemaVersion
        ∧ document.schemaVersion ≤ Idempotency.schemaVersion)
      ∨ document.lastNowUtcMs.val < 0 ∨ document.records.size > maxRecords then
    .error (corrupt "request idempotency state violates its schema or bounds")
  else
    document.records.toList.forM fun (key, record) =>
      validateRecord document.schemaVersion key record

def unavailable : CuError :=
  { code := "request_store_unavailable", message := "request idempotency state is unavailable" }

/-- The file of the store, and the errors of reading and writing it. -/
def store : DocumentStore Document CuError where
  empty := .default
  validate := validateDocument
  size := fun document => document.json.encodedLength
  maxBytes := maxFileBytes
  contended :=
    { code := "request_store_lock_contended",
      message := "request idempotency store lock is unavailable" }
  unavailable :=
    { code := "request_store_unavailable",
      message := "request idempotency store lock is unavailable" }
  unreadable := Idempotency.unavailable
  oversized := corrupt "request idempotency state exceeds its byte ceiling"
  limit :=
    { code := "request_store_limit",
      message := "request idempotency state exceeds its byte ceiling" }
  unpublished :=
    { code := "request_store_publish",
      message := "request idempotency state could not be atomically published" }

/-! ## Operations on the document -/

def clockRollback : CuError :=
  { code := "request_store_clock_rollback",
    message := "request idempotency clock moved backward from persisted state" }

def publicStatus (record : RequestRecord) : RequestStatus where
  requestId := record.requestId
  fingerprintSha256 := record.fingerprintSha256
  state := record.state
  createdAtUtcMs := record.createdAtUtcMs
  updatedAtUtcMs := record.updatedAtUtcMs
  expiresAtUtcMs := record.expiresAtUtcMs
  outcome := record.outcome

def idConflict : CuError :=
  { code := "request_id_conflict",
    message := "request id is already bound to a different canonical fingerprint" }

def ensureFingerprint (record : RequestRecord) (fingerprint : String) : Except CuError Unit :=
  if constantTimeEqual record.fingerprintSha256 fingerprint then .ok () else .error idConflict

section
variable (sha256 : String → Fin 32 → UInt8)

def ensureCompletionToken (record : RequestRecord) (token : String) : Except CuError Unit :=
  if constantTimeEqual record.completionTokenSha256 (sha256Hex sha256 token) then
    .ok ()
  else
    .error
      { code := "request_completion_token_invalid",
        message := "completion token does not own this reservation" }

/-- Drops the records that have expired. -/
def Document.sweep (document : Document) (now : I64) : Document :=
  { document with
    records := document.records.filter fun _ record => now.val < record.expiresAtUtcMs.val }

/-- `mutate`, between the read and the write: the clock, the sweep, the operation. -/
def mutate {α : Type} (now : I64) (operation : Document → Except CuError (α × Document))
    (document : Document) : Except CuError (α × Document) :=
  if now.val < document.lastNowUtcMs.val then
    .error clockRollback
  else do
    let (result, edited) ← operation (document.sweep now)
    .ok (result, { edited with schemaVersion := Idempotency.schemaVersion, lastNowUtcMs := now })

def lookupIn (requestId fingerprint : String) (now : I64) (document : Document) :
    Except CuError (Option RequestStatus) :=
  if now.val < document.lastNowUtcMs.val then
    .error clockRollback
  else
    match document.records[requestId]? with
    | none => .ok none
    | some record =>
      if record.expiresAtUtcMs.val ≤ now.val then
        .ok none
      else do
        ensureFingerprint record fingerprint
        .ok (some (publicStatus record))

/-- The decision on a request id that is reserved already. -/
def ReserveDecision.ofRecord (record : RequestRecord) : ReserveDecision :=
  match record.state with
  | .finalized => .replayFinalized (publicStatus record)
  | .reserved | .outcomeUnknown => .uncertain (publicStatus record)

def Document.replaceRecord (document : Document) (requestId : String) (record : RequestRecord) :
    Document :=
  { document with records := document.records.insert requestId record }

/-- The record of a new reservation. -/
def newRecord (requestId fingerprint token : String) (now expires : I64) : RequestRecord where
  requestId := requestId
  fingerprintSha256 := fingerprint
  completionTokenSha256 := sha256Hex sha256 token
  state := .reserved
  createdAtUtcMs := now
  updatedAtUtcMs := now
  expiresAtUtcMs := expires
  outcome := none

def entropyUnavailable : CuError :=
  { code := "request_store_entropy_unavailable", message := "OS CSPRNG is unavailable" }

/-- The operation of `reserve`; `random` are the bytes of the token, if they can be drawn. -/
def reserveIn (requestId fingerprint : String) (ttl now : I64)
    (random : Option (Fin 32 → UInt8)) (document : Document) :
    Except CuError (ReserveDecision × Document) :=
  match document.records[requestId]? with
  | some record => do
    ensureFingerprint record fingerprint
    .ok (ReserveDecision.ofRecord record, document)
  | none =>
    if document.records.size ≥ maxRecords then
      .error
        { code := "request_store_limit", message := "request idempotency record limit reached" }
    else
      match random with
      | none => .error entropyUnavailable
      | some bytes =>
        match I64.checkedAdd now ttl with
        | none => .error (ttlInvalid "retention deadline overflows UTC milliseconds")
        | some expires =>
          let token := hexDigest (List.ofFn bytes)
          let record := newRecord sha256 requestId fingerprint token now expires
          .ok (.fresh { status := publicStatus record, completionToken := token },
            document.replaceRecord requestId record)

/-- The record that a call to close a reservation is about. -/
def ownedRecord (requestId fingerprint token : String) (document : Document) :
    Except CuError RequestRecord :=
  match document.records[requestId]? with
  | none =>
    .error
      { code := "request_reservation_not_found",
        message := "request reservation is not present within its retention window" }
  | some record => do
    ensureFingerprint record fingerprint
    ensureCompletionToken sha256 record token
    .ok record

def finalizeIn (requestId fingerprint token : String) (outcome : FinalOutcome) (now : I64)
    (document : Document) : Except CuError (RequestStatus × Document) := do
  let record ← ownedRecord sha256 requestId fingerprint token document
  if record.state = .finalized then
    if record.outcome ≠ some outcome then
      .error
        { code := "request_outcome_conflict",
          message := "request identity was already finalized with a different outcome" }
    else
      .ok (publicStatus record, document)
  else
    let record :=
      { record with state := .finalized, updatedAtUtcMs := now, outcome := some outcome }
    .ok (publicStatus record, document.replaceRecord requestId record)

def markOutcomeUnknownIn (requestId fingerprint token : String) (now : I64)
    (document : Document) : Except CuError (RequestStatus × Document) := do
  let record ← ownedRecord sha256 requestId fingerprint token document
  if record.state = .reserved then
    let record := { record with state := .outcomeUnknown, updatedAtUtcMs := now }
    .ok (publicStatus record, document.replaceRecord requestId record)
  else
    .ok (publicStatus record, document)

/-! ## Calls -/

variable (io : StoreIo) (file : Option Document)

def lookup (requestId fingerprint : String) (now : I64) : Except CuError (Option RequestStatus) := do
  validateRequestId requestId
  validateDigest fingerprint "request_fingerprint_invalid"
  validateNow now
  store.inspect io file (lookupIn requestId fingerprint now)

/-- The checks of `reserve` on its arguments. -/
def reserveChecks (requestId fingerprint : String) (ttl now : I64) : Except CuError Unit := do
  validateRequestId requestId
  validateDigest fingerprint "request_fingerprint_invalid"
  validateNow now
  validateRetentionTtl ttl

def reserve (requestId fingerprint : String) (ttl now : I64) (random : Option (Fin 32 → UInt8)) :
    Except CuError ReserveDecision × Option Document :=
  DocumentStore.guarded file (reserveChecks requestId fingerprint ttl now)
    (store.transact io file (mutate now (reserveIn sha256 requestId fingerprint ttl now random)))

def finalizeChecks (requestId fingerprint token : String) (outcome : FinalOutcome) (now : I64) :
    Except CuError Unit := do
  validateRequestId requestId
  validateDigest fingerprint "request_fingerprint_invalid"
  validateCompletionToken token
  validateOutcome outcome
  validateNow now

def finalize (requestId fingerprint token : String) (outcome : FinalOutcome) (now : I64) :
    Except CuError RequestStatus × Option Document :=
  DocumentStore.guarded file (finalizeChecks requestId fingerprint token outcome now)
    (store.transact io file (mutate now (finalizeIn sha256 requestId fingerprint token outcome now)))

def markOutcomeUnknownChecks (requestId fingerprint token : String) (now : I64) :
    Except CuError Unit := do
  validateRequestId requestId
  validateDigest fingerprint "request_fingerprint_invalid"
  validateCompletionToken token
  validateNow now

def markOutcomeUnknown (requestId fingerprint token : String) (now : I64) :
    Except CuError RequestStatus × Option Document :=
  DocumentStore.guarded file (markOutcomeUnknownChecks requestId fingerprint token now)
    (store.transact io file
      (mutate now (markOutcomeUnknownIn sha256 requestId fingerprint token now)))

inductive Call where
  | lookup (requestId fingerprint : String) (now : I64)
  | reserve (requestId fingerprint : String) (ttl now : I64) (random : Option (Fin 32 → UInt8))
  | finalize (requestId fingerprint token : String) (outcome : FinalOutcome) (now : I64)
  | markOutcomeUnknown (requestId fingerprint token : String) (now : I64)

inductive Answer where
  | found (status : Option RequestStatus)
  | decided (decision : ReserveDecision)
  | closed (status : RequestStatus)

/-- A call of some process: its answer, and the file it leaves. -/
def perform : Call → Except CuError Answer × Option Document
  | .lookup requestId fingerprint now =>
    ((lookup io file requestId fingerprint now).map .found, file)
  | .reserve requestId fingerprint ttl now random =>
    let (answer, file') := reserve sha256 io file requestId fingerprint ttl now random
    (answer.map .decided, file')
  | .finalize requestId fingerprint token outcome now =>
    let (answer, file') := finalize sha256 io file requestId fingerprint token outcome now
    (answer.map .closed, file')
  | .markOutcomeUnknown requestId fingerprint token now =>
    let (answer, file') := markOutcomeUnknown sha256 io file requestId fingerprint token now
    (answer.map .closed, file')

end

/-- The file after a list of calls, each in its surroundings. -/
def after (sha256 : String → Fin 32 → UInt8) (start : Option Document)
    (calls : List (StoreIo × Call)) : Option Document :=
  run (fun file call => (perform sha256 call.1 file call.2).2) start calls

end Agenterm.Cu.Idempotency
