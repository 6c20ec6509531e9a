import Agenterm.Cu.Common
import Mathlib.Data.List.Sort

/-!
# The registry of managed jobs

`managed_job_store.rs`: a document of job records. A record is published as an intent, claimed by a
resident owner, carries the child process while it runs, and ends in a terminal state; when the
owner is found dead it is orphaned. Records of earlier versions have none of the three policy
fields, and are still accepted.
-/

namespace Agenterm.Cu.ManagedJobs

open Std Lib

def schemaVersion : Nat := 1
def maxFileBytes : Nat := 1024 * 1024
def maxJobs : Nat := 1024
def maxIdBytes : Nat := 128
def maxSessionIdBytes : Nat := 128
def maxStartIdentityBytes : Nat := 512
def maxTerminalCodeBytes : Nat := 128

structure ManagedJobHandle where
  jobId : String
  generation : UInt64
  nonce : String
deriving DecidableEq

structure ResidentOwnerIdentity where
  pid : UInt32
  startIdentity : String
deriving DecidableEq

structure ExactProcessIdentity where
  pid : UInt32
  startIdentity : String
deriving DecidableEq

inductive ManagedJobOrigin where
  | spawned
  | adopted
deriving DecidableEq

inductive ManagedJobState where
  | startIntent
  | starting
  | running
  | startFailed (code : String)
  | exited (exitCode : Int32)
  | signaled (signal : UInt16)
  | detached
  | orphanedUncertain
deriving DecidableEq

def ManagedJobState.isTerminal : ManagedJobState → Bool
  | .startFailed _ | .exited _ | .signaled _ | .detached => true
  | .startIntent | .starting | .running | .orphanedUncertain => false

inductive ManagedJobOnExpiry where
  | stop
  | detach
deriving DecidableEq

inductive ManagedJobTerminalTrigger where
  | leaseExpiry
  | explicitStop
  | sessionEnd
  | rootExit
  | ownerLost
deriving DecidableEq

inductive ManagedJobDetachLiveness where
  | live
  | absent
  | unknown
deriving DecidableEq

structure ManagedJobRecord where
  jobId : String
  generation : UInt64
  nonce : String
  sessionId : Option String
  origin : ManagedJobOrigin
  owner : Option ResidentOwnerIdentity
  process : Option ExactProcessIdentity
  state : ManagedJobState
  createdAtUtcMs : I64
  updatedAtUtcMs : I64
  terminalAtUtcMs : Option I64
  onExpiry : Option ManagedJobOnExpiry
  terminalTrigger : Option ManagedJobTerminalTrigger
  detachLiveness : Option ManagedJobDetachLiveness
deriving DecidableEq

def ManagedJobRecord.handle (record : ManagedJobRecord) : ManagedJobHandle :=
  { jobId := record.jobId, generation := record.generation, nonce := record.nonce }

inductive OwnerLiveness where
  | live (observed : ResidentOwnerIdentity)
  | dead
  | unknown
deriving DecidableEq

inductive OwnerReconciliation where
  | live
  | preservedUnknown
  | markedOrphanedUncertain
  | alreadyTerminal
deriving DecidableEq

structure Document where
  schemaVersion : Nat
  lastNowUtcMs : I64
  jobs : TreeMap String ManagedJobRecord

/-- The document of a file that does not exist. -/
def Document.default : Document where
  schemaVersion := ManagedJobs.schemaVersion
  lastNowUtcMs := zeroTime
  jobs := ∅

/-! ## The text of a document -/

def ManagedJobOrigin.name : ManagedJobOrigin → String
  | .spawned => "spawned"
  | .adopted => "adopted"

def ManagedJobOnExpiry.asStr : ManagedJobOnExpiry → String
  | .stop => "stop"
  | .detach => "detach"

def ManagedJobTerminalTrigger.asStr : ManagedJobTerminalTrigger → String
  | .leaseExpiry => "lease_expiry"
  | .explicitStop => "explicit_stop"
  | .sessionEnd => "session_end"
  | .rootExit => "root_exit"
  | .ownerLost => "owner_lost"

def ManagedJobDetachLiveness.asStr : ManagedJobDetachLiveness → String
  | .live => "live"
  | .absent => "absent"
  | .unknown => "unknown"

def ManagedJobState.json : ManagedJobState → Value
  | .startIntent => .object [("kind", .string "start_intent")]
  | .starting => .object [("kind", .string "starting")]
  | .running => .object [("kind", .string "running")]
  | .startFailed code => .object [("kind", .string "start_failed"), ("code", .string code)]
  | .exited exitCode =>
    .object [("kind", .string "exited"), ("exit_code", .number exitCode.toInt)]
  | .signaled signal => .object [("kind", .string "signaled"), ("signal", .nat signal.toNat)]
  | .detached => .object [("kind", .string "detached")]
  | .orphanedUncertain => .object [("kind", .string "orphaned_uncertain")]

/-- A process identity in JSON. -/
def identityJson (pid : UInt32) (startIdentity : String) : Value :=
  .object [("pid", .nat pid.toNat), ("start_identity", .string startIdentity)]

def ManagedJobRecord.json (record : ManagedJobRecord) : Value :=
  .object
    ([("job_id", .string record.jobId),
      ("generation", .nat record.generation.toNat),
      ("nonce", .string record.nonce),
      ("session_id", Value.option .string record.sessionId),
      ("origin", .string record.origin.name),
      ("owner", Value.option (fun owner => identityJson owner.pid owner.startIdentity)
        record.owner),
      ("process", Value.option (fun process => identityJson process.pid process.startIdentity)
        record.process),
      ("state", record.state.json),
      ("created_at_utc_ms", record.createdAtUtcMs.json),
      ("updated_at_utc_ms", record.updatedAtUtcMs.json),
      ("terminal_at_utc_ms", Value.option I64.json record.terminalAtUtcMs)]
      ++ optionalField "on_expiry" (fun policy => .string policy.asStr) record.onExpiry
      ++ optionalField "terminal_trigger" (fun trigger => .string trigger.asStr)
        record.terminalTrigger
      ++ optionalField "detach_liveness" (fun liveness => .string liveness.asStr)
        record.detachLiveness)

def Document.json (document : Document) : Value :=
  .object
    [ ("schema_version", .nat document.schemaVersion),
      ("last_now_utc_ms", document.lastNowUtcMs.json),
      ("jobs", .object (document.jobs.toList.map fun (id, record) => (id, record.json))) ]

/-! ## Checks -/

def corrupt (message : String) : CuError := { code := "managed_job_store_corrupt", message }

def transitionError (message : String) : CuError :=
  { code := "managed_job_transition_invalid", message }

def validateBoundedToken (value : String) (max : Nat) (name : String) : Except CuError Unit :=
  if value.isEmpty || value.utf8ByteSize > max || value.toList.any isControl then
    .error
      { code := "managed_job_identity_invalid",
        message := name ++ " must be 1..=" ++ toString max ++ " non-control UTF-8 bytes" }
  else
    .ok ()

def validateUuidV4 (value : String) : Except CuError Unit :=
  if isLowercaseUuidV4 value then
    .ok ()
  else
    .error
      { code := "managed_job_id_invalid", message := "managed-job id must be a lowercase UUID v4" }

def validateHandle (handle : ManagedJobHandle) : Except CuError Unit := do
  validateUuidV4 handle.jobId
  if handle.generation = 0 then
    .error
      { code := "managed_job_generation_invalid",
        message := "managed-job generation must be nonzero" }
  else if handle.nonce.utf8ByteSize ≠ 32 || !handle.nonce.toList.all isLowerHex then
    .error
      { code := "managed_job_nonce_invalid",
        message := "managed-job nonce must be 32 lowercase hexadecimal bytes" }
  else
    .ok ()

def validateSessionId (value : String) : Except CuError Unit :=
  validateBoundedToken value maxSessionIdBytes "session id"

def validateProcessParts (pid : UInt32) (startIdentity kind : String) : Except CuError Unit :=
  if pid = 0 then
    .error
      { code := "managed_job_process_identity_invalid", message := kind ++ " PID must be nonzero" }
  else
    validateBoundedToken startIdentity maxStartIdentityBytes "process start identity"

def validateOwner (owner : ResidentOwnerIdentity) : Except CuError Unit :=
  validateProcessParts owner.pid owner.startIdentity "resident owner"

def validateProcess (process : ExactProcessIdentity) : Except CuError Unit :=
  validateProcessParts process.pid process.startIdentity "child process"

def validateTime (now : I64) : Except CuError Unit :=
  if now.val < 0 then
    .error
      { code := "managed_job_clock_invalid",
        message := "managed-job clock must be a non-negative UTC millisecond value" }
  else
    .ok ()

/-- `shape_valid`: what each state demands of owner, process and end. -/
def shapeValid (record : ManagedJobRecord) : Bool :=
  match record.state with
  | .startIntent =>
    record.owner.isNone && record.process.isNone && record.terminalAtUtcMs.isNone
  | .starting =>
    record.owner.isSome && record.process.isNone && record.terminalAtUtcMs.isNone
  | .running =>
    record.owner.isSome && record.process.isSome && record.terminalAtUtcMs.isNone
  | .orphanedUncertain => record.owner.isSome && record.terminalAtUtcMs.isNone
  | .startFailed code =>
    (validateBoundedToken code maxTerminalCodeBytes "terminal code").isOk
      && record.process.isNone && record.terminalAtUtcMs == some record.updatedAtUtcMs
  | .exited _ | .signaled _ | .detached =>
    record.owner.isSome && record.process.isSome
      && record.terminalAtUtcMs == some record.updatedAtUtcMs

/-- The triggers of an ordinary end. -/
def isOrdinaryTrigger : Option ManagedJobTerminalTrigger → Bool
  | some .leaseExpiry | some .explicitStop | some .sessionEnd | some .rootExit => true
  | some .ownerLost | none => false

/-- `trigger_valid`. -/
def triggerValid (record : ManagedJobRecord) : Bool :=
  match record.state with
  | .startIntent | .starting | .running => record.terminalTrigger.isNone
  | .startFailed _ => record.terminalTrigger.isNone
  | .orphanedUncertain => record.terminalTrigger == some .ownerLost
  | .exited _ | .signaled _ => isOrdinaryTrigger record.terminalTrigger
  | .detached => isOrdinaryTrigger record.terminalTrigger

/-- The policy fields of a record, at the end of `validate_record`. -/
def validatePolicy (record : ManagedJobRecord) : Except CuError Unit :=
  if !(record.onExpiry.isSome || record.terminalTrigger.isSome || record.detachLiveness.isSome) then
    .ok ()
  else
    match record.onExpiry with
    | none =>
      .error (corrupt "a managed-job record with policy fields must record its expiry policy")
    | some onExpiry =>
      if record.origin = .spawned ∧ onExpiry ≠ .stop then
        .error (corrupt "a spawned managed job must record the stop expiry policy")
      else if record.detachLiveness.isSome ≠ (record.state == .detached) then
        .error (corrupt "managed-job handoff liveness exists only for a detached state")
      else if !triggerValid record then
        .error (corrupt "managed-job terminal trigger does not match its state")
      else
        .ok ()

def validateRecord (key : String) (record : ManagedJobRecord) : Except CuError Unit := do
  (validateHandle record.handle).mapError fun _ => corrupt "managed-job identity is invalid"
  if key ≠ record.jobId || record.generation = 0 then
    .error (corrupt "managed-job key or generation is invalid")
  else do
    checkSome record.sessionId fun session =>
      (validateSessionId session).mapError fun _ => corrupt "managed-job session is invalid"
    checkSome record.owner fun owner =>
      (validateOwner owner).mapError fun _ => corrupt "managed-job owner is invalid"
    checkSome record.process fun process =>
      (validateProcess process).mapError fun _ => corrupt "managed-job process is invalid"
    if record.createdAtUtcMs.val < 0
        ∨ record.updatedAtUtcMs.val < record.createdAtUtcMs.val then
      .error (corrupt "managed-job timestamps are invalid")
    else if !shapeValid record then
      .error (corrupt "managed-job state transition shape is invalid")
    else
      validatePolicy record

def validateDocument (document : Document) : Except CuError Unit :=
  if document.schemaVersion ≠ ManagedJobs.schemaVersion ∨ document.lastNowUtcMs.val < 0 then
    .error (corrupt "managed-job state schema or clock is invalid")
  else if document.jobs.size > maxJobs then
    .error (corrupt "managed-job state exceeds its record ceiling")
  else
    document.jobs.toList.forM fun (key, record) => do
      validateRecord key record
      if record.updatedAtUtcMs.val > document.lastNowUtcMs.val then
        .error (corrupt "managed-job record clock exceeds the document watermark")
      else
        .ok ()

def unavailable : CuError :=
  { code := "managed_job_store_unavailable",
    message := "managed-job state or its sidecar lock is unavailable" }

/-- The file of the registry, and the errors of reading and writing it. -/
def store : DocumentStore Document CuError where
  empty := .default
  validate := validateDocument
  size := fun document => document.json.encodedLength
  maxBytes := maxFileBytes
  contended :=
    { code := "managed_job_store_contended",
      message := "managed-job registry is owned by another operation" }
  unavailable := ManagedJobs.unavailable
  unreadable := ManagedJobs.unavailable
  oversized := corrupt "managed-job state exceeds its byte ceiling"
  limit :=
    { code := "managed_job_store_limit", message := "managed-job state exceeds its byte ceiling" }
  unpublished :=
    { code := "managed_job_store_publish",
      message := "managed-job state could not be atomically published" }

/-! ## Edits of a record -/

def requireOwner (record : ManagedJobRecord) (owner : ResidentOwnerIdentity) :
    Except CuError Unit :=
  if record.owner = some owner then
    .ok ()
  else
    .error
      { code := "managed_job_owner_changed", message := "resident owner identity no longer matches" }

def claimStarting (owner : ResidentOwnerIdentity) (record : ManagedJobRecord) :
    Except CuError ManagedJobRecord :=
  if record.state ≠ .startIntent then
    .error (transitionError "only start_intent may become starting")
  else
    .ok { record with owner := some owner, state := .starting }

def markUnclaimedStartFailed (code : String) (now : I64) (record : ManagedJobRecord) :
    Except CuError ManagedJobRecord :=
  if record.state ≠ .startIntent ∨ record.owner.isSome ∨ record.process.isSome then
    .error (transitionError "unclaimed start failure requires an ownerless start intent")
  else
    .ok { record with state := .startFailed code, terminalAtUtcMs := some now }

def markRunning (owner : ResidentOwnerIdentity) (process : ExactProcessIdentity)
    (record : ManagedJobRecord) : Except CuError ManagedJobRecord := do
  requireOwner record owner
  if record.state ≠ .starting then
    .error (transitionError "only starting may become running")
  else
    .ok { record with process := some process, state := .running }

def markStartFailed (owner : ResidentOwnerIdentity) (code : String) (now : I64)
    (record : ManagedJobRecord) : Except CuError ManagedJobRecord := do
  requireOwner record owner
  if record.state ≠ .starting ∨ record.process.isSome then
    .error (transitionError "start failure requires starting without a child")
  else
    .ok { record with state := .startFailed code, terminalAtUtcMs := some now }

/-- The end of a running job, as the three calls that end one hand it on. -/
structure TerminalFacts where
  state : ManagedJobState
  trigger : ManagedJobTerminalTrigger
  detachLiveness : Option ManagedJobDetachLiveness

def markRunningTerminal (owner : ResidentOwnerIdentity) (process : ExactProcessIdentity)
    (facts : TerminalFacts) (now : I64) (record : ManagedJobRecord) :
    Except CuError ManagedJobRecord := do
  requireOwner record owner
  if record.state ≠ .running ∨ record.process ≠ some process then
    .error (transitionError "terminal transition requires the exact running child identity")
  else
    .ok
      { record with
        state := facts.state
        terminalAtUtcMs := some now
        terminalTrigger := some facts.trigger
        detachLiveness := facts.detachLiveness }

/-! ## Operations on the document -/

def checkedRecord (document : Document) (handle : ManagedJobHandle) :
    Except CuError ManagedJobRecord :=
  match document.jobs[handle.jobId]? with
  | none =>
    .error { code := "managed_job_not_found", message := "managed-job record does not exist" }
  | some record =>
    if record.generation ≠ handle.generation ∨ record.nonce ≠ handle.nonce then
      .error
        { code := "managed_job_identity_changed",
          message := "managed-job generation or nonce no longer matches" }
    else
      .ok record

def Document.replaceRecord (document : Document) (jobId : String) (record : ManagedJobRecord) :
    Document :=
  { document with jobs := document.jobs.insert jobId record }

def transition (handle : ManagedJobHandle) (now : I64)
    (edit : ManagedJobRecord → Except CuError ManagedJobRecord) (document : Document) :
    Except CuError (ManagedJobRecord × Document) := do
  let record ← checkedRecord document handle
  if now.val < record.updatedAtUtcMs.val then
    .error
      { code := "managed_job_clock_rollback",
        message := "managed-job transition clock moved backward" }
  else do
    let record ← edit record
    let record := { record with updatedAtUtcMs := now }
    .ok (record, document.replaceRecord handle.jobId record)

/-- The record of a job whose owner was found dead. -/
def ManagedJobRecord.orphanedAt (record : ManagedJobRecord) (now : I64) : ManagedJobRecord :=
  { record with
    state := .orphanedUncertain
    terminalTrigger := some .ownerLost
    updatedAtUtcMs := now }

def reconcileOwner (handle : ManagedJobHandle) (liveness : OwnerLiveness) (now : I64)
    (document : Document) : Except CuError (OwnerReconciliation × Document) := do
  let record ← checkedRecord document handle
  if record.state.isTerminal then
    .ok (.alreadyTerminal, document)
  else
    match record.owner with
    | none =>
      match liveness with
      | .unknown => .ok (.preservedUnknown, document)
      | _ => .error (transitionError "start intent has no resident owner to reconcile")
    | some expected =>
      match liveness with
      | .unknown => .ok (.preservedUnknown, document)
      | .live observed =>
        if observed = expected then
          .ok (.live, document)
        else
          .ok (.markedOrphanedUncertain,
            document.replaceRecord handle.jobId (record.orphanedAt now))
      | .dead =>
        .ok (.markedOrphanedUncertain,
          document.replaceRecord handle.jobId (record.orphanedAt now))

def reserveStartWithOrigin (sessionId : Option String) (origin : ManagedJobOrigin)
    (onExpiry : ManagedJobOnExpiry) (jobId nonce : String) (now : I64) (document : Document) :
    Except CuError (ManagedJobRecord × Document) :=
  if document.jobs.size ≥ maxJobs then
    .error
      { code := "managed_job_store_limit",
        message := "managed-job registry reached its 1024-record ceiling" }
  else
    let record : ManagedJobRecord :=
      { jobId, generation := 1, nonce, sessionId, origin, owner := none, process := none,
        state := .startIntent, createdAtUtcMs := now, updatedAtUtcMs := now,
        terminalAtUtcMs := none, onExpiry := some onExpiry, terminalTrigger := none,
        detachLiveness := none }
    .ok (record, document.replaceRecord jobId record)

/-! ## Calls -/

inductive Call where
  | reserveStart (sessionId : Option String) (origin : ManagedJobOrigin)
      (onExpiry : ManagedJobOnExpiry) (randomId randomNonce : Option (Fin 16 → UInt8)) (now : I64)
  | claimStarting (handle : ManagedJobHandle) (owner : ResidentOwnerIdentity) (now : I64)
  | markUnclaimedStartFailed (handle : ManagedJobHandle) (code : String) (now : I64)
  | markRunning (handle : ManagedJobHandle) (owner : ResidentOwnerIdentity)
      (process : ExactProcessIdentity) (now : I64)
  | markStartFailed (handle : ManagedJobHandle) (owner : ResidentOwnerIdentity) (code : String)
      (now : I64)
  | markExited (handle : ManagedJobHandle) (owner : ResidentOwnerIdentity)
      (process : ExactProcessIdentity) (exitCode : Int32) (trigger : ManagedJobTerminalTrigger)
      (now : I64)
  | markSignaled (handle : ManagedJobHandle) (owner : ResidentOwnerIdentity)
      (process : ExactProcessIdentity) (signal : UInt16) (trigger : ManagedJobTerminalTrigger)
      (now : I64)
  | markDetached (handle : ManagedJobHandle) (owner : ResidentOwnerIdentity)
      (process : ExactProcessIdentity) (liveness : ManagedJobDetachLiveness)
      (trigger : ManagedJobTerminalTrigger) (now : I64)
  | reconcileOwner (handle : ManagedJobHandle) (liveness : OwnerLiveness) (now : I64)

inductive Answer where
  | record (record : ManagedJobRecord)
  | reconciled (outcome : OwnerReconciliation)
deriving DecidableEq

/-- The clock of a call. -/
def Call.now : Call → I64
  | .reserveStart _ _ _ _ _ now => now
  | .claimStarting _ _ now => now
  | .markUnclaimedStartFailed _ _ now => now
  | .markRunning _ _ _ now => now
  | .markStartFailed _ _ _ now => now
  | .markExited _ _ _ _ _ now => now
  | .markSignaled _ _ _ _ _ now => now
  | .markDetached _ _ _ _ _ now => now
  | .reconcileOwner _ _ now => now

def entropyUnavailable : CuError :=
  { code := "managed_job_entropy_unavailable", message := "OS CSPRNG is unavailable" }

/-- Random bytes that could be drawn. -/
def drawn (random : Option (Fin 16 → UInt8)) : Except CuError Unit :=
  if random.isSome then .ok () else .error entropyUnavailable

/-- The checks of a call on its arguments, before the document is read. -/
def Call.checks : Call → Except CuError Unit
  | .reserveStart sessionId _ _ randomId randomNonce now => do
    validateTime now
    checkSome sessionId validateSessionId
    drawn randomId
    drawn randomNonce
  | .claimStarting handle owner now => do
    validateOwner owner
    validateHandle handle
    validateTime now
  | .markUnclaimedStartFailed handle code now => do
    validateBoundedToken code maxTerminalCodeBytes "terminal code"
    validateHandle handle
    validateTime now
  | .markRunning handle owner process now => do
    validateOwner owner
    validateProcess process
    validateHandle handle
    validateTime now
  | .markStartFailed handle owner code now => do
    validateOwner owner
    validateBoundedToken code maxTerminalCodeBytes "terminal code"
    validateHandle handle
    validateTime now
  | .markExited handle owner process _ _ now => do
    validateOwner owner
    validateProcess process
    validateHandle handle
    validateTime now
  | .markSignaled handle owner process signal _ now =>
    if signal = 0 then
      .error
        { code := "managed_job_signal_invalid", message := "terminal signal must be nonzero" }
    else do
      validateOwner owner
      validateProcess process
      validateHandle handle
      validateTime now
  | .markDetached handle owner process _ _ now => do
    validateOwner owner
    validateProcess process
    validateHandle handle
    validateTime now
  | .reconcileOwner _ _ now => validateTime now

/-- The operation of a call on the document. -/
def operation (document : Document) : Call → Except CuError (Answer × Document)
  | .reserveStart sessionId origin onExpiry (some idBytes) (some nonceBytes) now =>
    answered .record (reserveStartWithOrigin sessionId origin onExpiry (uuidV4 idBytes)
      (hexDigest (List.ofFn nonceBytes)) now document)
  | .reserveStart .. => .error entropyUnavailable
  | .claimStarting handle owner now =>
    answered .record (transition handle now (claimStarting owner) document)
  | .markUnclaimedStartFailed handle code now =>
    answered .record (transition handle now (markUnclaimedStartFailed code now) document)
  | .markRunning handle owner process now =>
    answered .record (transition handle now (markRunning owner process) document)
  | .markStartFailed handle owner code now =>
    answered .record (transition handle now (markStartFailed owner code now) document)
  | .markExited handle owner process exitCode trigger now =>
    answered .record (transition handle now
      (markRunningTerminal owner process
        { state := .exited exitCode, trigger, detachLiveness := none } now) document)
  | .markSignaled handle owner process signal trigger now =>
    answered .record (transition handle now
      (markRunningTerminal owner process
        { state := .signaled signal, trigger, detachLiveness := none } now) document)
  | .markDetached handle owner process liveness trigger now =>
    answered .record (transition handle now
      (markRunningTerminal owner process
        { state := .detached, trigger, detachLiveness := some liveness } now) document)
  | .reconcileOwner handle liveness now =>
    answered .reconciled (reconcileOwner handle liveness now document)

/-- `mutate`, between the read and the check on the new document. -/
def mutate (call : Call) (document : Document) : Except CuError (Answer × Document) :=
  if call.now.val < document.lastNowUtcMs.val then
    .error
      { code := "managed_job_clock_rollback",
        message := "managed-job registry clock moved backward" }
  else do
    let (answer, document) ← operation document call
    .ok (answer, { document with lastNowUtcMs := call.now })

/-- A call of some process: its answer, and the file it leaves. -/
def perform (io : StoreIo) (file : Option Document) (call : Call) :
    Except CuError Answer × Option Document :=
  DocumentStore.guarded file call.checks (store.transact io file (mutate call))

/-! ## Retention and reads -/

structure ManagedJobPruneReport where
  apply : Bool
  total : Nat
  active : Nat
  detached : Nat
  uncertain : Nat
  terminal : Nat
  eligible : Nat
  retainedNewest : Nat
  removed : Nat
  remaining : Nat
  candidateIds : List String
deriving DecidableEq

structure ManagedJobRefreshBlockers where
  blocking : Nat
  startIntent : Nat
  starting : Nat
  running : Nat
  orphanedUncertain : Nat
deriving DecidableEq

/-- The states whose records `prune` may remove. -/
def ManagedJobState.isPrunable : ManagedJobState → Bool
  | .startFailed _ | .exited _ | .signaled _ => true
  | .startIntent | .starting | .running | .detached | .orphanedUncertain => false

def ManagedJobState.isActive : ManagedJobState → Bool
  | .startIntent | .starting | .running => true
  | .startFailed _ | .exited _ | .signaled _ | .detached | .orphanedUncertain => false

/-- How many records are in a state of some kind. -/
def Document.count (document : Document) (kind : ManagedJobState → Bool) : Nat :=
  document.jobs.toList.countP fun (_, record) => kind record.state

/-- The ends of the records that `prune` may remove, in the order of their ids. -/
def terminalEnds (document : Document) : Except CuError (List (I64 × String)) :=
  (document.jobs.toList.filter fun (_, record) => record.state.isPrunable).mapM fun (_, record) =>
    match record.terminalAtUtcMs with
    | none => .error (corrupt "terminal managed-job record has no terminal timestamp")
    | some terminalAt => .ok (terminalAt, record.jobId)

/-- The order of `terminal.sort_by(|left, right| right.cmp(left))`. -/
def newestFirst (left right : I64 × String) : Bool :=
  right.1.val < left.1.val
    || (left.1.val == right.1.val && compare right.2 left.2 != .gt)

def pruneSelection (document : Document) (maxAgeMs : I64) (keepNewest : Nat) (now : I64) :
    Except CuError ManagedJobPruneReport :=
  match I64.checkedSub now maxAgeMs with
  | none =>
    .error
      { code := "managed_job_prune_invalid",
        message := "managed-job prune cutoff underflows UTC milliseconds" }
  | some cutoff => do
    let terminal ← terminalEnds document
    let retainedNewest := min keepNewest terminal.length
    let candidateIds :=
      (((terminal.insertionSort fun left right => newestFirst left right = true).drop
        retainedNewest).filter fun (terminalAt, _) => terminalAt.val ≤ cutoff.val).map Prod.snd
    let candidateIds := candidateIds.insertionSort fun left right => compare left right ≠ .gt
    .ok
      { apply := false, total := document.jobs.size, active := document.count (·.isActive)
        detached := document.count (· == .detached)
        uncertain := document.count (· == .orphanedUncertain), terminal := terminal.length
        eligible := candidateIds.length, retainedNewest, removed := 0
        remaining := document.jobs.size, candidateIds }

/-- The edit of `prune` with `apply`. -/
def prune (maxAgeMs : I64) (keepNewest : Nat) (now : I64) (document : Document) :
    Except CuError (ManagedJobPruneReport × Document) := do
  let report ← pruneSelection document maxAgeMs keepNewest now
  let document :=
    { document with jobs := report.candidateIds.foldl (fun jobs id => jobs.erase id) document.jobs }
  .ok ({ report with apply := true, removed := report.candidateIds.length
                     remaining := document.jobs.size }, document)

/-- The reading half of `prune`. -/
def planPrune (maxAgeMs : I64) (keepNewest : Nat) (now : I64) (document : Document) :
    Except CuError ManagedJobPruneReport :=
  if now.val < document.lastNowUtcMs.val then
    .error
      { code := "managed_job_clock_rollback", message := "managed-job prune clock moved backward" }
  else
    pruneSelection document maxAgeMs keepNewest now

def pruneChecks (maxAgeMs : I64) (keepNewest : Nat) : Except CuError Unit :=
  if maxAgeMs.val < 0 ∨ keepNewest > maxJobs then
    .error
      { code := "managed_job_prune_invalid", message := "managed-job prune bounds are invalid" }
  else
    .ok ()

def summarizeRefreshBlockers (document : Document) : ManagedJobRefreshBlockers :=
  let startIntent := document.count (· == .startIntent)
  let starting := document.count (· == .starting)
  let running := document.count (· == .running)
  let orphanedUncertain := document.count (· == .orphanedUncertain)
  { blocking := startIntent + starting + running + orphanedUncertain
    startIntent, starting, running, orphanedUncertain }

/-- What a process may ask of the store. -/
inductive Access where
  | call (call : Call)
  | prune (maxAgeMs : I64) (keepNewest : Nat) (apply : Bool) (now : I64)
  | get (jobId : String)
  | list
  | refreshBlockers

inductive Reply where
  | answer (answer : Answer)
  | report (report : ManagedJobPruneReport)
  | found (record : Option ManagedJobRecord)
  | records (records : List ManagedJobRecord)
  | blockers (summary : ManagedJobRefreshBlockers)
deriving DecidableEq

/-- `mutate` around an edit. -/
def mutateAt {α : Type} (now : I64) (edit : Document → Except CuError (α × Document))
    (document : Document) : Except CuError (α × Document) :=
  if now.val < document.lastNowUtcMs.val then
    .error
      { code := "managed_job_clock_rollback",
        message := "managed-job registry clock moved backward" }
  else do
    let (answer, document) ← edit document
    .ok (answer, { document with lastNowUtcMs := now })

/-- An access of some process: its reply, and the file it leaves. -/
def access (io : StoreIo) (file : Option Document) :
    Access → Except CuError Reply × Option Document
  | .call call => ((perform io file call).1.map .answer, (perform io file call).2)
  | .prune maxAgeMs keepNewest true now =>
    DocumentStore.guarded file
      (do pruneChecks maxAgeMs keepNewest; validateTime now)
      (store.transact io file (mutateAt now fun document =>
        answered Reply.report (prune maxAgeMs keepNewest now document)))
  | .prune maxAgeMs keepNewest false now =>
    (do
      pruneChecks maxAgeMs keepNewest
      let report ← store.inspect io file (planPrune maxAgeMs keepNewest now)
      .ok (.report report), file)
  | .get jobId =>
    (do
      validateBoundedToken jobId maxIdBytes "job id"
      store.inspect io file fun document => .ok (.found document.jobs[jobId]?), file)
  | .list =>
    (store.inspect io file fun document => .ok (.records (document.jobs.toList.map Prod.snd)), file)
  | .refreshBlockers =>
    (store.inspect io file fun document => .ok (.blockers (summarizeRefreshBlockers document)), file)

end Agenterm.Cu.ManagedJobs
