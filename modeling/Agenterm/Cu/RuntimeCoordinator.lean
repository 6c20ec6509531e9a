import Agenterm.Cu.Common
import Agenterm.Lib.Run

/-!
# Runtime sessions and target locks

`runtime_coordinator.rs`: a document of sessions and of the locks they hold on targets. A session
is driven with the lease that was returned when it was started; the document holds the digest of
the lease.

Every call takes the lock of the state, reads the document and checks it, expires what is due,
does its own operation and writes the document with the new clock.
-/

namespace Agenterm.Cu.Runtime

open Std Lib

def schemaVersion : Nat := 2
def maxFileBytes : Nat := 256 * 1024
def maxSessions : Nat := 512
def maxLocks : Nat := 4096
def minTtlSeconds : Nat := 1
def maxTtlSeconds : Nat := 86400
def defaultSessionLabel : String := "runtime"

inductive SessionState where
  | active
  | ended
  | expired
deriving DecidableEq

structure SessionStart where
  sessionId : String
  lease : String
  label : String
  expiresAtUtcS : I64
deriving DecidableEq

structure SessionStatus where
  sessionId : String
  label : String
  state : SessionState
  createdAtUtcS : I64
  expiresAtUtcS : I64
deriving DecidableEq

structure SessionEnd where
  session : SessionStatus
  releasedLocks : Nat
deriving DecidableEq

structure LockStatus where
  lockId : String
  target : String
  sessionId : String
  acquiredAtUtcS : I64
  expiresAtUtcS : I64
deriving DecidableEq

structure LockAcquire where
  lock : LockStatus
  idempotent : Bool
deriving DecidableEq

structure SessionRecord where
  sessionId : String
  label : String
  leaseSha256 : String
  state : SessionState
  createdAtUtcS : I64
  expiresAtUtcS : I64
  terminalAtUtcS : Option I64
deriving DecidableEq

structure LockRecord where
  lockId : String
  target : String
  sessionId : String
  acquiredAtUtcS : I64
  expiresAtUtcS : I64
deriving DecidableEq

structure Document where
  schemaVersion : Nat
  lastNowUtcS : I64
  sessions : TreeMap String SessionRecord
  locks : TreeMap String LockRecord

/-- The document of a file that does not exist. -/
def Document.default : Document where
  schemaVersion := Runtime.schemaVersion
  lastNowUtcS := zeroTime
  sessions := ∅
  locks := ∅

/-! ## The text of a document -/

def SessionState.name : SessionState → String
  | .active => "active"
  | .ended => "ended"
  | .expired => "expired"

def SessionRecord.json (record : SessionRecord) : Value :=
  .object
    ([("session_id", .string record.sessionId),
      ("label", .string record.label),
      ("lease_sha256", .string record.leaseSha256),
      ("state", .string record.state.name),
      ("created_at_utc_s", record.createdAtUtcS.json),
      ("expires_at_utc_s", record.expiresAtUtcS.json)]
      ++ optionalField "terminal_at_utc_s" I64.json record.terminalAtUtcS)

def LockRecord.json (record : LockRecord) : Value :=
  .object
    [ ("lock_id", .string record.lockId),
      ("target", .string record.target),
      ("session_id", .string record.sessionId),
      ("acquired_at_utc_s", record.acquiredAtUtcS.json),
      ("expires_at_utc_s", record.expiresAtUtcS.json) ]

def Document.json (document : Document) : Value :=
  .object
    [ ("schema_version", .nat document.schemaVersion),
      ("last_now_utc_s", document.lastNowUtcS.json),
      ("sessions", .object (document.sessions.toList.map fun (id, record) => (id, record.json))),
      ("locks", .object (document.locks.toList.map fun (target, record) => (target, record.json))) ]

/-! ## Checks -/

/-- One line of text, of at most `maxBytes` bytes. -/
def isLine (maxBytes : Nat) (value : String) : Bool :=
  (1 ≤ value.utf8ByteSize && value.utf8ByteSize ≤ maxBytes)
    && !value.toList.any (fun c => c == '\n' || c == '\r')
    && !value.toList.any isControl

/-- `split_once(':')` gives two texts that are not empty. -/
def hasNamespace (value : String) : Bool :=
  match value.toList.span (· ≠ ':') with
  | (_ :: _, _ :: _ :: _) => true
  | _ => false

def validateTarget (target : String) : Except CuError Unit :=
  if isLine 512 target && hasNamespace target then
    .ok ()
  else
    .error
      { code := "runtime_lock_target_invalid",
        message := "lock target must be one 1..=512-byte namespace:name line" }

def validateLabel (label : String) : Except CuError Unit :=
  if isLine 128 label then
    .ok ()
  else
    .error
      { code := "runtime_session_label_invalid",
        message := "session label must be one 1..=128-byte line" }

def validateTtl (ttl : UInt64) (code : String) : Except CuError Unit :=
  if ¬ (minTtlSeconds ≤ ttl.toNat ∧ ttl.toNat ≤ maxTtlSeconds) then
    .error { code, message := "TTL must be within 1..=86400 seconds" }
  else
    .ok ()

/-- `ttl as i64`. -/
def asI64 (n : UInt64) : I64 :=
  ⟨if n.toNat < 2 ^ 63 then n.toNat else n.toNat - 2 ^ 64, by
    have hlt := n.toNat_lt
    split <;> omega⟩

def addTtl (now ttl : I64) (code : String) : Except CuError I64 :=
  match I64.checkedAdd now ttl with
  | some expires => .ok expires
  | none => .error { code, message := "TTL overflows the runtime clock" }

def corrupt (message : String) : CuError := { code := "runtime_state_corrupt", message }

/-- What `validate_document` accepts as a session under its id. -/
def validSession (id : String) (record : SessionRecord) : Bool :=
  id == record.sessionId
    && isLowercaseUuidV4 record.sessionId
    && (validateLabel record.label).isOk
    && validDigest record.leaseSha256
    && decide (0 ≤ record.createdAtUtcS.val)
    && decide (record.createdAtUtcS.val < record.expiresAtUtcS.val)
    && (record.state == .active) == record.terminalAtUtcS.isNone
    && record.terminalAtUtcS.all fun time => decide (record.createdAtUtcS.val ≤ time.val)

/-- What `validate_document` accepts as a lock on its target. -/
def validLock (sessions : TreeMap String SessionRecord) (target : String) (record : LockRecord) :
    Bool :=
  target == record.target
    && (validateTarget record.target).isOk
    && isLowercaseUuidV4 record.lockId
    && decide (0 ≤ record.expiresAtUtcS.val)
    && decide (0 ≤ record.acquiredAtUtcS.val)
    && decide (record.acquiredAtUtcS.val < record.expiresAtUtcS.val)
    && match sessions[record.sessionId]? with
      | none => false
      | some owner =>
        decide (record.expiresAtUtcS.val ≤ owner.expiresAtUtcS.val) && owner.state == .active

def validateDocument (document : Document) : Except CuError Unit :=
  if document.schemaVersion ≠ Runtime.schemaVersion then
    .error
      { code := "runtime_state_schema", message := "runtime state schema version is unsupported" }
  else if document.lastNowUtcS.val < 0 then
    .error (corrupt "runtime state clock is invalid")
  else if document.sessions.size > maxSessions ∨ document.locks.size > maxLocks then
    .error (corrupt "runtime state record ceiling exceeded")
  else do
    document.sessions.toList.forM fun (id, record) =>
      if validSession id record then .ok ()
      else .error (corrupt "runtime session record is invalid")
    document.locks.toList.forM fun (target, record) =>
      if validLock document.sessions target record then .ok ()
      else .error (corrupt "runtime lock record is invalid")

def unavailable (message : String) : CuError := { code := "runtime_state_unavailable", message }

/-- The file of the coordinator, and the errors of reading and writing it. -/
def store : DocumentStore Document CuError where
  empty := .default
  validate := validateDocument
  size := fun document => document.json.encodedLength
  maxBytes := maxFileBytes
  contended :=
    { code := "runtime_lock_contended", message := "runtime state lock is unavailable" }
  unavailable := Runtime.unavailable "runtime state lock is unavailable"
  unreadable := Runtime.unavailable "runtime state could not be read"
  oversized := corrupt "runtime state exceeds its byte ceiling"
  limit := { code := "runtime_state_limit", message := "runtime state exceeds its byte ceiling" }
  unpublished :=
    { code := "runtime_state_publish",
      message := "runtime state could not be atomically published" }

/-! ## Operations on the document -/

def sessionStatus (record : SessionRecord) : SessionStatus where
  sessionId := record.sessionId
  label := record.label
  state := record.state
  createdAtUtcS := record.createdAtUtcS
  expiresAtUtcS := record.expiresAtUtcS

def lockStatus (record : LockRecord) : LockStatus where
  lockId := record.lockId
  target := record.target
  sessionId := record.sessionId
  acquiredAtUtcS := record.acquiredAtUtcS
  expiresAtUtcS := record.expiresAtUtcS

/-- A session after the sweep. -/
def SessionRecord.sweep (record : SessionRecord) (now : I64) : SessionRecord :=
  if record.state = .active ∧ record.expiresAtUtcS.val ≤ now.val then
    { record with state := .expired, terminalAtUtcS := some now }
  else
    record

/-- The session of an id is active. -/
def isActive (sessions : TreeMap String SessionRecord) (id : String) : Bool :=
  (sessions[id]?).any fun session => session.state == .active

/-- `sweep_expired`: the sessions that are due expire, and locks that are due or have no active
session go. -/
def sweepExpired (document : Document) (now : I64) : Document :=
  let sessions := document.sessions.map fun _ record => record.sweep now
  { document with
    sessions
    locks := document.locks.filter fun _ record =>
      decide (now.val < record.expiresAtUtcS.val) && isActive sessions record.sessionId }

/-- `terminal_at_utc_s.unwrap_or(i64::MAX)`. -/
def SessionRecord.terminalKey (record : SessionRecord) : Int :=
  match record.terminalAtUtcS with
  | some time => time.val
  | none => 2 ^ 63 - 1

/-- The order of the keys of `min_by_key`: the time, then the id. -/
def SessionRecord.older (a b : SessionRecord) : Bool :=
  decide (a.terminalKey < b.terminalKey)
    || (a.terminalKey == b.terminalKey && decide (a.sessionId < b.sessionId))

/-- The session that is not active and has been so for the longest. -/
def oldestTerminal (sessions : TreeMap String SessionRecord) : Option SessionRecord :=
  (sessions.toList.filterMap fun (_, record) =>
      if record.state ≠ .active then some record else none).foldl
    (fun oldest record =>
      match oldest with
      | none => some record
      | some best => if record.older best then some record else some best)
    none

/-- `evict_oldest_terminal_until_room`; every round removes a session, so that as many rounds as
there are sessions are enough. -/
def evictOldestTerminalUntilRoom :
    Nat → TreeMap String SessionRecord → TreeMap String SessionRecord
  | 0, sessions => sessions
  | rounds + 1, sessions =>
    if sessions.size ≥ maxSessions then
      match oldestTerminal sessions with
      | none => sessions
      | some record => evictOldestTerminalUntilRoom rounds (sessions.erase record.sessionId)
    else
      sessions

def entropyUnavailable : CuError :=
  { code := "runtime_entropy_unavailable", message := "OS CSPRNG is unavailable" }

/-- `random_uuid_v4`, when the bytes can be drawn. -/
def randomUuidV4 : Option (Fin 16 → UInt8) → Except CuError String
  | some bytes => .ok (uuidV4 bytes)
  | none => .error entropyUnavailable

def sessionNotFound : CuError :=
  { code := "runtime_session_not_found",
    message := "runtime session does not exist or has expired" }

def leaseInvalid : CuError :=
  { code := "runtime_session_lease_invalid", message := "runtime session lease is invalid" }

def sessionEnded : CuError :=
  { code := "runtime_session_ended", message := "runtime session has ended" }

def sessionExpired : CuError :=
  { code := "runtime_session_expired", message := "runtime session has expired" }

section
variable (sha256 : String → Fin 32 → UInt8)

/-- `checked_session` and `checked_session_mut`. -/
def checkedSession (document : Document) (sessionId lease : String) :
    Except CuError SessionRecord :=
  match document.sessions[sessionId]? with
  | none => .error sessionNotFound
  | some record =>
    if !constantTimeEqual record.leaseSha256 (sha256Hex sha256 lease) then
      .error leaseInvalid
    else
      match record.state with
      | .active => .ok record
      | .ended => .error sessionEnded
      | .expired => .error sessionExpired

def sessionStart (label : Option String) (ttl now : I64)
    (randomId randomLease : Option (Fin 16 → UInt8)) (document : Document) :
    Except CuError (SessionStart × Document) :=
  let label := label.getD defaultSessionLabel
  let sessions := evictOldestTerminalUntilRoom document.sessions.size document.sessions
  if sessions.size ≥ maxSessions then
    .error
      { code := "runtime_session_limit", message := "runtime session record limit reached" }
  else do
    let sessionId ← randomUuidV4 randomId
    let lease ← randomUuidV4 randomLease
    let expires ← addTtl now ttl "runtime_ttl_invalid"
    let record : SessionRecord :=
      { sessionId, label, leaseSha256 := sha256Hex sha256 lease, state := .active,
        createdAtUtcS := now, expiresAtUtcS := expires, terminalAtUtcS := none }
    .ok ({ sessionId, lease, label, expiresAtUtcS := expires },
      { document with sessions := sessions.insert sessionId record })

def sessionList (document : Document) : Except CuError (List SessionStatus × Document) :=
  .ok (document.sessions.toList.map fun (_, record) => sessionStatus record, document)

def sessionStatusOf (sessionId : String) (document : Document) :
    Except CuError (SessionStatus × Document) :=
  match document.sessions[sessionId]? with
  | none => .error sessionNotFound
  | some record => .ok (sessionStatus record, document)

def sessionVerify (sessionId lease : String) (document : Document) :
    Except CuError (SessionStatus × Document) := do
  let record ← checkedSession sha256 document sessionId lease
  .ok (sessionStatus record, document)

def sessionRenew (sessionId lease : String) (ttl now : I64) (document : Document) :
    Except CuError (SessionStatus × Document) := do
  let record ← checkedSession sha256 document sessionId lease
  let expires ← addTtl now ttl "runtime_ttl_invalid"
  let record := { record with expiresAtUtcS := expires }
  .ok (sessionStatus record,
    { document with sessions := document.sessions.insert sessionId record })

/-- The record of a session that its owner ends. -/
def SessionRecord.endAt (record : SessionRecord) (now : I64) : Except CuError SessionRecord :=
  match record.state with
  | .active => .ok { record with state := .ended, terminalAtUtcS := some now }
  | .ended => .ok record
  | .expired => .error sessionExpired

def sessionEnd (sessionId lease : String) (now : I64) (document : Document) :
    Except CuError (SessionEnd × Document) :=
  match document.sessions[sessionId]? with
  | none => .error sessionNotFound
  | some record =>
    if !constantTimeEqual record.leaseSha256 (sha256Hex sha256 lease) then
      .error leaseInvalid
    else do
      let record ← record.endAt now
      let locks := document.locks.filter fun _ lock => lock.sessionId ≠ sessionId
      .ok ({ session := sessionStatus record, releasedLocks := document.locks.size - locks.size },
        { document with sessions := document.sessions.insert sessionId record, locks })

def lockAcquire (sessionId lease target : String) (ttl now : I64)
    (random : Option (Fin 16 → UInt8)) (document : Document) :
    Except CuError (LockAcquire × Document) := do
  let session ← checkedSession sha256 document sessionId lease
  let expires ← addTtl now ttl "runtime_lock_ttl_invalid"
  if session.expiresAtUtcS.val < expires.val then
    .error
      { code := "runtime_lock_ttl_invalid", message := "lock TTL may not outlive its session lease" }
  else
    match document.locks[target]? with
    | some existing =>
      if existing.sessionId ≠ sessionId then
        .error
          { code := "runtime_lock_conflict",
            message := "target is leased by another runtime session" }
      else
        let record := { existing with expiresAtUtcS := expires }
        .ok ({ lock := lockStatus record, idempotent := true },
          { document with locks := document.locks.insert target record })
    | none =>
      if document.locks.size ≥ maxLocks then
        .error { code := "runtime_lock_limit", message := "runtime lock record limit reached" }
      else do
        let lockId ← randomUuidV4 random
        let record : LockRecord :=
          { lockId, target, sessionId, acquiredAtUtcS := now, expiresAtUtcS := expires }
        .ok ({ lock := lockStatus record, idempotent := false },
          { document with locks := document.locks.insert target record })

def lockList (document : Document) : Except CuError (List LockStatus × Document) :=
  .ok (document.locks.toList.map fun (_, record) => lockStatus record, document)

def lockRelease (lockId lease : String) (document : Document) :
    Except CuError (LockStatus × Document) :=
  match document.locks.toList.find? fun (_, record) => record.lockId == lockId with
  | none =>
    .error
      { code := "runtime_lock_not_found", message := "runtime lock does not exist or has expired" }
  | some (target, existing) => do
    let _ ← checkedSession sha256 document existing.sessionId lease
    .ok (lockStatus existing, { document with locks := document.locks.erase target })

/-! ## Calls -/

inductive Call where
  | sessionStart (label : Option String) (ttl : UInt64) (now : I64)
      (randomId randomLease : Option (Fin 16 → UInt8))
  | sessionList (now : I64)
  | sessionStatus (sessionId : String) (now : I64)
  | sessionVerify (sessionId lease : String) (now : I64)
  | sessionRenew (sessionId lease : String) (ttl : UInt64) (now : I64)
  | sessionEnd (sessionId lease : String) (now : I64)
  | lockAcquire (sessionId lease target : String) (ttl : UInt64) (now : I64)
      (random : Option (Fin 16 → UInt8))
  | lockList (now : I64)
  | lockRelease (lockId lease : String) (now : I64)

inductive Answer where
  | started (start : SessionStart)
  | sessions (statuses : List SessionStatus)
  | session (status : SessionStatus)
  | ended (result : SessionEnd)
  | acquired (result : LockAcquire)
  | locks (statuses : List LockStatus)
  | released (status : LockStatus)

/-- The clock of a call. -/
def Call.now : Call → I64
  | .sessionStart _ _ now _ _ => now
  | .sessionList now => now
  | .sessionStatus _ now => now
  | .sessionVerify _ _ now => now
  | .sessionRenew _ _ _ now => now
  | .sessionEnd _ _ now => now
  | .lockAcquire _ _ _ _ now _ => now
  | .lockList now => now
  | .lockRelease _ _ now => now

/-- The checks of a call on its arguments, before the document is read. -/
def Call.checks (call : Call) : Except CuError Unit := do
  match call with
  | .sessionStart label ttl _ _ _ => do
    validateLabel (label.getD defaultSessionLabel)
    validateTtl ttl "runtime_ttl_invalid"
  | .sessionRenew _ _ ttl _ => validateTtl ttl "runtime_ttl_invalid"
  | .lockAcquire _ _ target ttl _ _ => do
    validateTarget target
    validateTtl ttl "runtime_lock_ttl_invalid"
  | _ => .ok ()
  if call.now.val < 0 then
    .error
      { code := "runtime_clock_invalid",
        message := "runtime clock must be a non-negative UTC second value" }
  else
    .ok ()

/-- The operation of a call, on the swept document. -/
def operation (document : Document) : Call → Except CuError (Answer × Document)
  | .sessionStart label ttl now randomId randomLease =>
    answered .started (sessionStart sha256 label (asI64 ttl) now randomId randomLease document)
  | .sessionList _ => answered .sessions (sessionList document)
  | .sessionStatus sessionId _ => answered .session (sessionStatusOf sessionId document)
  | .sessionVerify sessionId lease _ =>
    answered .session (sessionVerify sha256 sessionId lease document)
  | .sessionRenew sessionId lease ttl now =>
    answered .session (sessionRenew sha256 sessionId lease (asI64 ttl) now document)
  | .sessionEnd sessionId lease now =>
    answered .ended (sessionEnd sha256 sessionId lease now document)
  | .lockAcquire sessionId lease target ttl now random =>
    answered .acquired
      (lockAcquire sha256 sessionId lease target (asI64 ttl) now random document)
  | .lockList _ => answered .locks (lockList document)
  | .lockRelease lockId lease _ => answered .released (lockRelease sha256 lockId lease document)

/-- `with_locked_document`, between the read and the check on the new document: the clock, the sweep,
the operation. -/
def withLockedDocument (call : Call) (document : Document) : Except CuError (Answer × Document) :=
  if call.now.val < document.lastNowUtcS.val then
    .error
      { code := "runtime_clock_rollback",
        message := "runtime clock moved backward from persisted state" }
  else do
    let (answer, document) ← operation sha256 (sweepExpired document call.now) call
    .ok (answer, { document with lastNowUtcS := call.now })

/-- A call of some process: its answer, and the file it leaves. -/
def perform (io : StoreIo) (file : Option Document) (call : Call) :
    Except CuError Answer × Option Document :=
  DocumentStore.guarded file call.checks (store.transact io file (withLockedDocument sha256 call))

/-- The file after a list of calls, each in its surroundings. -/
def after (start : Option Document) (calls : List (StoreIo × Call)) : Option Document :=
  run (fun file call => (perform sha256 call.1 file call.2).2) start calls

end

end Agenterm.Cu.Runtime
