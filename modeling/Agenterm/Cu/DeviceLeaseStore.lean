import Agenterm.Cu.Common

/-!
# The registry of device leases

`device_lease_store.rs`: a document of leases on native devices. A lease is reserved as an intent,
claimed by a resident owner that opens the device, active while the owner holds it, and then ended.
A device has at most one lease that has not ended.
-/

namespace Agenterm.Cu.DeviceLeases

open Std

def schemaVersion : Nat := 1
def maxFileBytes : Nat := 1024 * 1024
def maxRecords : Nat := 1024
def maxTokenBytes : Nat := 512
def maxCodeBytes : Nat := 128

structure DeviceLeaseHandle where
  leaseId : String
  generation : UInt64
  ownerNonce : String
deriving DecidableEq

structure DeviceOwnerIdentity where
  pid : UInt32
  startIdentity : String
deriving DecidableEq

inductive DeviceSerialMode where
  | preserved
  | configured
deriving DecidableEq

structure DeviceSerialRecord where
  mode : DeviceSerialMode
  baud : Option UInt32
  dataBits : Option UInt8
  parity : Option String
  stopBits : Option UInt8
  flow : Option String
  rawMode : Option Bool
  unmapped : List String
deriving DecidableEq

inductive DeviceLeaseState where
  | claimIntent
  | opening
  | active
  | released
  | expired
  | openFailed (code : String)
  | ownerLost
  | cleanupUncertain (code : String)
deriving DecidableEq

def DeviceLeaseState.isTerminal : DeviceLeaseState → Bool
  | .released | .expired | .openFailed _ => true
  | .claimIntent | .opening | .active | .ownerLost | .cleanupUncertain _ => false

structure DeviceLeaseRecord where
  leaseId : String
  generation : UInt64
  ownerNonce : String
  sessionId : String
  runtimeLockId : String
  deviceId : String
  leaseSha256 : String
  owner : Option DeviceOwnerIdentity
  state : DeviceLeaseState
  exclusive : Option String
  serial : Option DeviceSerialRecord
  createdAtUtcMs : I64
  updatedAtUtcMs : I64
  expiresAtUtcMs : I64
  terminalAtUtcMs : Option I64
  bytesRead : UInt64
  bytesWritten : UInt64
deriving DecidableEq

def DeviceLeaseRecord.handle (record : DeviceLeaseRecord) : DeviceLeaseHandle :=
  { leaseId := record.leaseId, generation := record.generation, ownerNonce := record.ownerNonce }

structure Document where
  schemaVersion : Nat
  lastNowUtcMs : I64
  leases : TreeMap String DeviceLeaseRecord

/-- The document of a file that does not exist. -/
def Document.default : Document where
  schemaVersion := DeviceLeases.schemaVersion
  lastNowUtcMs := zeroTime
  leases := ∅

/-! ## The text of a document -/

def DeviceSerialMode.name : DeviceSerialMode → String
  | .preserved => "preserved"
  | .configured => "configured"

def DeviceSerialRecord.json (serial : DeviceSerialRecord) : Value :=
  .object
    [ ("mode", .string serial.mode.name),
      ("baud", Value.option (fun baud => .nat baud.toNat) serial.baud),
      ("data_bits", Value.option (fun bits => .nat bits.toNat) serial.dataBits),
      ("parity", Value.option .string serial.parity),
      ("stop_bits", Value.option (fun bits => .nat bits.toNat) serial.stopBits),
      ("flow", Value.option .string serial.flow),
      ("raw_mode", Value.option .bool serial.rawMode),
      ("unmapped", .array (serial.unmapped.map .string)) ]

def DeviceLeaseState.json : DeviceLeaseState → Value
  | .claimIntent => .object [("kind", .string "claim_intent")]
  | .opening => .object [("kind", .string "opening")]
  | .active => .object [("kind", .string "active")]
  | .released => .object [("kind", .string "released")]
  | .expired => .object [("kind", .string "expired")]
  | .openFailed code => .object [("kind", .string "open_failed"), ("code", .string code)]
  | .ownerLost => .object [("kind", .string "owner_lost")]
  | .cleanupUncertain code =>
    .object [("kind", .string "cleanup_uncertain"), ("code", .string code)]

def DeviceOwnerIdentity.json (owner : DeviceOwnerIdentity) : Value :=
  .object [("pid", .nat owner.pid.toNat), ("start_identity", .string owner.startIdentity)]

def DeviceLeaseRecord.json (record : DeviceLeaseRecord) : Value :=
  .object
    [ ("lease_id", .string record.leaseId),
      ("generation", .nat record.generation.toNat),
      ("owner_nonce", .string record.ownerNonce),
      ("session_id", .string record.sessionId),
      ("runtime_lock_id", .string record.runtimeLockId),
      ("device_id", .string record.deviceId),
      ("lease_sha256", .string record.leaseSha256),
      ("owner", Value.option DeviceOwnerIdentity.json record.owner),
      ("state", record.state.json),
      ("exclusive", Value.option .string record.exclusive),
      ("serial", Value.option DeviceSerialRecord.json record.serial),
      ("created_at_utc_ms", record.createdAtUtcMs.json),
      ("updated_at_utc_ms", record.updatedAtUtcMs.json),
      ("expires_at_utc_ms", record.expiresAtUtcMs.json),
      ("terminal_at_utc_ms", Value.option I64.json record.terminalAtUtcMs),
      ("bytes_read", .nat record.bytesRead.toNat),
      ("bytes_written", .nat record.bytesWritten.toNat) ]

def Document.json (document : Document) : Value :=
  .object
    [ ("schema_version", .nat document.schemaVersion),
      ("last_now_utc_ms", document.lastNowUtcMs.json),
      ("leases", .object (document.leases.toList.map fun (id, record) => (id, record.json))) ]

/-! ## Checks -/

def corrupt (message : String) : CuError := { code := "device_lease_store_corrupt", message }

def transitionError (message : String) : CuError :=
  { code := "device_lease_transition_invalid", message }

def validateToken (value code : String) : Except CuError Unit :=
  if value.isEmpty || value.utf8ByteSize > maxTokenBytes || value.toList.any isControl then
    .error { code, message := "device lease identity token is invalid" }
  else
    .ok ()

/-- Texts that pass have only ASCII characters, so that their bytes are their characters. -/
def validateCode (value : String) : Except CuError Unit :=
  if value.isEmpty || value.utf8ByteSize > maxCodeBytes
      || !value.toList.all (fun c => c.isLower || c.isDigit || c == '_') then
    .error
      { code := "device_error_code_invalid",
        message := "device error code must be a bounded lowercase token" }
  else
    .ok ()

def validateUuidV4 (value : String) : Except CuError Unit :=
  if isLowercaseUuidV4 value then
    .ok ()
  else
    .error
      { code := "device_lease_id_invalid", message := "device lease id must be a lowercase UUID v4" }

def validateHandle (handle : DeviceLeaseHandle) : Except CuError Unit := do
  validateUuidV4 handle.leaseId
  if handle.generation = 0 then
    .error
      { code := "device_lease_generation_invalid",
        message := "device lease generation must be nonzero" }
  else if handle.ownerNonce.utf8ByteSize ≠ 32 || !handle.ownerNonce.toList.all isLowerHex then
    .error
      { code := "device_owner_nonce_invalid",
        message := "device owner nonce must be 32 lowercase hexadecimal bytes" }
  else
    .ok ()

def validateDeviceId (value : String) : Except CuError Unit :=
  if value.utf8ByteSize == 78 && "agt-device-v1-".toList.isPrefixOf value.toList
      && (value.toList.drop 14).all isLowerHex then
    .ok ()
  else
    .error
      { code := "device_id_invalid",
        message := "device id must be one installation-scoped agt-device-v1 identifier" }

def validateDigest (value : String) : Except CuError Unit :=
  if validDigest value then
    .ok ()
  else
    .error
      { code := "device_lease_digest_invalid",
        message := "device lease digest must be 64 lowercase hexadecimal bytes" }

def validateOwner (owner : DeviceOwnerIdentity) : Except CuError Unit :=
  if owner.pid = 0 then
    .error
      { code := "device_owner_identity_invalid",
        message := "resident device owner PID must be nonzero" }
  else
    validateToken owner.startIdentity "device_owner_identity_invalid"

def fieldMatchesUnmapped (present : Bool) (unmapped reasons : List String) : Bool :=
  present != reasons.any fun reason => unmapped.any (· == reason)

/-- `fields_valid`. -/
def DeviceSerialRecord.fieldsValid (serial : DeviceSerialRecord) : Bool :=
  serial.baud.all (· != 0)
    && serial.dataBits.all (fun bits => 5 ≤ bits && bits ≤ 8)
    && serial.parity.all (fun parity => ["none", "even", "odd"].contains parity)
    && serial.stopBits.all (fun bits => bits == 1 || bits == 2)
    && serial.flow.all (fun flow => ["none", "software", "hardware"].contains flow)
    && serial.unmapped.length ≤ 8
    && serial.unmapped.all (fun reason =>
      ["baud", "baud-split", "data_bits", "parity", "stop_bits", "flow-mixed", "raw_mode"].contains
        reason)
    && serial.unmapped.zipIdx.all fun (reason, index) =>
      !(serial.unmapped.take index).contains reason

/-- `configured_complete`. -/
def DeviceSerialRecord.configuredComplete (serial : DeviceSerialRecord) : Bool :=
  serial.mode != .configured
    || (serial.baud.isSome && serial.dataBits.isSome && serial.parity.isSome
      && serial.stopBits.isSome && serial.flow.isSome)

/-- `observation_consistent`. -/
def DeviceSerialRecord.observationConsistent (serial : DeviceSerialRecord) : Bool :=
  fieldMatchesUnmapped serial.baud.isSome serial.unmapped ["baud", "baud-split"]
    && fieldMatchesUnmapped serial.dataBits.isSome serial.unmapped ["data_bits"]
    && fieldMatchesUnmapped serial.parity.isSome serial.unmapped ["parity"]
    && fieldMatchesUnmapped serial.stopBits.isSome serial.unmapped ["stop_bits"]
    && fieldMatchesUnmapped serial.flow.isSome serial.unmapped ["flow-mixed"]
    && fieldMatchesUnmapped serial.rawMode.isSome serial.unmapped ["raw_mode"]

def validateSerial (serial : DeviceSerialRecord) : Except CuError Unit :=
  if !serial.fieldsValid || !serial.configuredComplete || !serial.observationConsistent then
    .error
      { code := "device_serial_invalid",
        message := "device serial readback is outside the closed serial contract" }
  else
    .ok ()

def validateTime (value : I64) : Except CuError Unit :=
  if value.val < 0 then
    .error
      { code := "device_lease_clock_invalid", message := "device lease clock must be non-negative" }
  else
    .ok ()

def validateLiveExpiry (now expires : I64) : Except CuError Unit := do
  validateTime now
  match I64.checkedSub expires now with
  | none =>
    .error { code := "device_ttl_invalid", message := "device lease TTL overflows the clock" }
  | some remaining =>
    if ¬ (1 ≤ remaining.val ∧ remaining.val ≤ 86400000) then
      .error
        { code := "device_lease_expired",
          message := "resident device owner may publish only before its monotonic lease deadline" }
    else
      .ok ()

/-- `shape_valid`: what each state demands of owner, device and end. -/
def shapeValid (record : DeviceLeaseRecord) : Bool :=
  match record.state with
  | .claimIntent =>
    record.owner.isNone && record.exclusive.isNone && record.serial.isNone
      && record.terminalAtUtcMs.isNone
  | .opening =>
    record.owner.isSome && record.exclusive.isNone && record.serial.isNone
      && record.terminalAtUtcMs.isNone
  | .active =>
    record.owner.isSome && record.exclusive == some "kernel" && record.terminalAtUtcMs.isNone
  | .openFailed code =>
    (validateCode code).isOk && record.exclusive.isNone
      && record.terminalAtUtcMs == some record.updatedAtUtcMs
  | .released | .expired =>
    record.owner.isSome && record.exclusive == some "kernel"
      && record.terminalAtUtcMs == some record.updatedAtUtcMs
  | .ownerLost =>
    record.owner.isSome && (record.exclusive.isNone || record.exclusive == some "kernel")
      && record.terminalAtUtcMs == some record.updatedAtUtcMs
  | .cleanupUncertain code =>
    (validateCode code).isOk && record.owner.isSome && record.exclusive == some "kernel"
      && record.terminalAtUtcMs == some record.updatedAtUtcMs

def validateRecord (key : String) (record : DeviceLeaseRecord) : Except CuError Unit := do
  (validateHandle record.handle).mapError fun _ => corrupt "device lease identity is invalid"
  (validateToken record.sessionId "device_lease_session_invalid").mapError fun _ =>
    corrupt "device lease session is invalid"
  (validateToken record.runtimeLockId "device_runtime_lock_invalid").mapError fun _ =>
    corrupt "device runtime lock is invalid"
  (validateDeviceId record.deviceId).mapError fun _ => corrupt "device public identity is invalid"
  (validateDigest record.leaseSha256).mapError fun _ => corrupt "device lease digest is invalid"
  if key ≠ record.leaseId ∨ record.createdAtUtcMs.val < 0
      ∨ record.updatedAtUtcMs.val < record.createdAtUtcMs.val
      ∨ record.expiresAtUtcMs.val < record.createdAtUtcMs.val then
    .error (corrupt "device lease record timestamps or key are invalid")
  else do
    checkSome record.owner fun owner =>
      (validateOwner owner).mapError fun _ => corrupt "device owner identity is invalid"
    checkSome record.serial fun serial =>
      (validateSerial serial).mapError fun _ => corrupt "device serial readback is invalid"
    if !shapeValid record then
      .error (corrupt "device lease transition shape is invalid")
    else
      .ok ()

def validateDocument (document : Document) : Except CuError Unit :=
  if document.schemaVersion ≠ DeviceLeases.schemaVersion ∨ document.lastNowUtcMs.val < 0 then
    .error (corrupt "device lease schema or clock is invalid")
  else if document.leases.size > maxRecords then
    .error (corrupt "device lease state exceeds its record ceiling")
  else
    document.leases.toList.forM fun (key, record) => do
      validateRecord key record
      if record.updatedAtUtcMs.val > document.lastNowUtcMs.val then
        .error (corrupt "device lease record exceeds the clock watermark")
      else
        .ok ()

/-- The file of the registry, and the errors of reading and writing it. -/
def store : Lib.DocumentStore Document CuError where
  empty := .default
  validate := validateDocument
  size := fun document => document.json.encodedLength
  maxBytes := maxFileBytes
  contended :=
    { code := "device_lease_store_contended", message := "device lease state lock is unavailable" }
  unavailable :=
    { code := "device_lease_store_unavailable", message := "device lease state lock is unavailable" }
  unreadable :=
    { code := "device_lease_store_unavailable",
      message := "device lease state or its sidecar lock is unavailable" }
  oversized := corrupt "device lease state exceeds its byte ceiling"
  limit :=
    { code := "device_lease_store_limit", message := "device lease state exceeds its byte ceiling" }
  unpublished :=
    { code := "device_lease_store_publish",
      message := "device lease state could not be atomically published" }

/-! ## Edits of a record -/

def requireOwner (record : DeviceLeaseRecord) (owner : DeviceOwnerIdentity) :
    Except CuError Unit :=
  if record.owner = some owner then
    .ok ()
  else
    .error
      { code := "device_owner_changed",
        message := "resident device owner identity no longer matches" }

def claimOpening (owner : DeviceOwnerIdentity) (record : DeviceLeaseRecord) :
    Except CuError DeviceLeaseRecord :=
  if record.state ≠ .claimIntent then
    .error (transitionError "only claim_intent may become opening")
  else
    .ok { record with owner := some owner, state := .opening }

def markUnclaimedOpenFailed (code : String) (now : I64) (record : DeviceLeaseRecord) :
    Except CuError DeviceLeaseRecord :=
  if record.state ≠ .claimIntent ∨ record.owner.isSome then
    .error (transitionError "only unclaimed intent may fail before owner bind")
  else
    .ok { record with state := .openFailed code, terminalAtUtcMs := some now }

def markActive (owner : DeviceOwnerIdentity) (exclusive : String)
    (serial : Option DeviceSerialRecord) (record : DeviceLeaseRecord) :
    Except CuError DeviceLeaseRecord := do
  requireOwner record owner
  if record.state ≠ .opening then
    .error (transitionError "only opening may become active")
  else
    .ok { record with state := .active, exclusive := some exclusive, serial }

def markOpenFailed (owner : DeviceOwnerIdentity) (code : String) (now : I64)
    (record : DeviceLeaseRecord) : Except CuError DeviceLeaseRecord := do
  requireOwner record owner
  if record.state ≠ .opening then
    .error (transitionError "only opening may fail")
  else
    .ok { record with state := .openFailed code, terminalAtUtcMs := some now }

def publishCounters (owner : DeviceOwnerIdentity) (bytesRead bytesWritten : UInt64)
    (expires : I64) (record : DeviceLeaseRecord) : Except CuError DeviceLeaseRecord := do
  requireOwner record owner
  if record.state ≠ .active then
    .error (transitionError "only an active lease may publish owner state")
  else if bytesRead < record.bytesRead ∨ bytesWritten < record.bytesWritten then
    .error (transitionError "device byte counters may not move backward")
  else
    .ok { record with bytesRead, bytesWritten, expiresAtUtcMs := expires }

def markTerminal (owner : DeviceOwnerIdentity) (state : DeviceLeaseState)
    (bytesRead bytesWritten : UInt64) (now : I64) (record : DeviceLeaseRecord) :
    Except CuError DeviceLeaseRecord := do
  requireOwner record owner
  if record.state ≠ .active then
    .error (transitionError "only an active lease may become terminal")
  else if bytesRead < record.bytesRead ∨ bytesWritten < record.bytesWritten then
    .error (transitionError "device byte counters may not move backward")
  else
    .ok { record with bytesRead, bytesWritten, state, terminalAtUtcMs := some now }

def markOwnerLost (owner : DeviceOwnerIdentity) (now : I64) (record : DeviceLeaseRecord) :
    Except CuError DeviceLeaseRecord := do
  requireOwner record owner
  if record.state ≠ .opening ∧ record.state ≠ .active then
    .error (transitionError "only opening or active may become owner_lost")
  else
    .ok { record with state := .ownerLost, terminalAtUtcMs := some now }

/-! ## Operations on the document -/

def checkedRecord (document : Document) (handle : DeviceLeaseHandle) :
    Except CuError DeviceLeaseRecord :=
  match document.leases[handle.leaseId]? with
  | none =>
    .error { code := "device_lease_not_found", message := "device lease record does not exist" }
  | some record =>
    if record.generation ≠ handle.generation ∨ record.ownerNonce ≠ handle.ownerNonce then
      .error
        { code := "device_lease_identity_changed",
          message := "device lease generation or owner nonce no longer matches" }
    else
      .ok record

def transition (handle : DeviceLeaseHandle) (now : I64)
    (edit : DeviceLeaseRecord → Except CuError DeviceLeaseRecord) (document : Document) :
    Except CuError (DeviceLeaseRecord × Document) := do
  let record ← checkedRecord document handle
  let record ← edit record
  let record := { record with updatedAtUtcMs := now }
  .ok (record, { document with leases := document.leases.insert handle.leaseId record })

/-- The order of `min_by_key(|record| (record.updated_at_utc_ms, record.lease_id.clone()))`. -/
def DeviceLeaseRecord.older (record other : DeviceLeaseRecord) : Bool :=
  record.updatedAtUtcMs.val < other.updatedAtUtcMs.val
    || (record.updatedAtUtcMs.val == other.updatedAtUtcMs.val
      && compare record.leaseId other.leaseId == .lt)

/-- The lease that has ended and was changed the longest ago. -/
def oldestTerminal (leases : TreeMap String DeviceLeaseRecord) : Option DeviceLeaseRecord :=
  (leases.toList.filterMap fun (_, record) =>
      if record.state.isTerminal then some record else none).foldl
    (fun oldest record =>
      match oldest with
      | none => some record
      | some best => if record.older best then some record else some best)
    none

/-- `evict_terminal_until_room`; every round removes a lease, so that as many rounds as there are
leases are enough. -/
def evictTerminalUntilRoom :
    Nat → TreeMap String DeviceLeaseRecord → TreeMap String DeviceLeaseRecord
  | 0, leases => leases
  | rounds + 1, leases =>
    if leases.size ≥ maxRecords then
      match oldestTerminal leases with
      | none => leases
      | some oldest => evictTerminalUntilRoom rounds (leases.erase oldest.leaseId)
    else
      leases

def reserveClaim (sessionId runtimeLockId deviceId leaseSha256 : String) (expires now : I64)
    (leaseId ownerNonce : String) (document : Document) :
    Except CuError (DeviceLeaseRecord × Document) :=
  let leases := evictTerminalUntilRoom document.leases.size document.leases
  if leases.size ≥ maxRecords then
    .error
      { code := "device_lease_limit",
        message := "device lease registry reached its 1024-record ceiling" }
  else if leases.toList.any (fun (_, record) =>
      record.deviceId == deviceId && !record.state.isTerminal) then
    .error
      { code := "device_exclusive_busy", message := "device already has a nonterminal claim" }
  else
    let record : DeviceLeaseRecord :=
      { leaseId, generation := 1, ownerNonce, sessionId, runtimeLockId, deviceId, leaseSha256,
        owner := none, state := .claimIntent, exclusive := none, serial := none,
        createdAtUtcMs := now, updatedAtUtcMs := now, expiresAtUtcMs := expires,
        terminalAtUtcMs := none, bytesRead := 0, bytesWritten := 0 }
    .ok (record, { document with leases := leases.insert leaseId record })

/-! ## Calls -/

inductive Call where
  | reserveClaim (sessionId runtimeLockId deviceId leaseSha256 : String) (expires now : I64)
      (randomId randomNonce : Option (Fin 16 → UInt8))
  | claimOpening (handle : DeviceLeaseHandle) (owner : DeviceOwnerIdentity) (now : I64)
  | markUnclaimedOpenFailed (handle : DeviceLeaseHandle) (code : String) (now : I64)
  | markActive (handle : DeviceLeaseHandle) (owner : DeviceOwnerIdentity) (exclusive : String)
      (serial : Option DeviceSerialRecord) (now : I64)
  | markOpenFailed (handle : DeviceLeaseHandle) (owner : DeviceOwnerIdentity) (code : String)
      (now : I64)
  | publishCounters (handle : DeviceLeaseHandle) (owner : DeviceOwnerIdentity)
      (bytesRead bytesWritten : UInt64) (expires now : I64)
  | markTerminal (handle : DeviceLeaseHandle) (owner : DeviceOwnerIdentity)
      (state : DeviceLeaseState) (bytesRead bytesWritten : UInt64) (now : I64)
  | markOwnerLost (handle : DeviceLeaseHandle) (owner : DeviceOwnerIdentity) (now : I64)

/-- The clock of a call. -/
def Call.now : Call → I64
  | .reserveClaim _ _ _ _ _ now _ _ => now
  | .claimOpening _ _ now => now
  | .markUnclaimedOpenFailed _ _ now => now
  | .markActive _ _ _ _ now => now
  | .markOpenFailed _ _ _ now => now
  | .publishCounters _ _ _ _ _ now => now
  | .markTerminal _ _ _ _ _ now => now
  | .markOwnerLost _ _ now => now

def entropyError : CuError :=
  { code := "device_lease_entropy_unavailable", message := "OS CSPRNG is unavailable" }

/-- Random bytes that could be drawn. -/
def drawn (random : Option (Fin 16 → UInt8)) : Except CuError Unit :=
  if random.isSome then .ok () else .error entropyError

/-- The states that `mark_terminal` may be asked for. -/
def DeviceLeaseState.isRequested : DeviceLeaseState → Bool
  | .released | .expired | .ownerLost | .cleanupUncertain _ => true
  | .claimIntent | .opening | .active | .openFailed _ => false

/-- The check of `mark_terminal` on the state it is asked for. -/
def checkRequested (state : DeviceLeaseState) : Except CuError Unit :=
  if !state.isRequested then
    .error (transitionError "requested device terminal state is invalid")
  else
    match state with
    | .cleanupUncertain code => validateCode code
    | _ => .ok ()

/-- The checks of a call on its arguments, before the document is read. -/
def Call.checks : Call → Except CuError Unit
  | .reserveClaim sessionId runtimeLockId deviceId leaseSha256 expires now randomId randomNonce => do
    validateToken sessionId "device_lease_session_invalid"
    validateToken runtimeLockId "device_runtime_lock_invalid"
    validateDeviceId deviceId
    validateDigest leaseSha256
    validateLiveExpiry now expires
    drawn randomId
    drawn randomNonce
    validateTime now
  | .claimOpening handle owner now => do
    validateOwner owner
    validateHandle handle
    validateTime now
  | .markUnclaimedOpenFailed handle code now => do
    validateCode code
    validateHandle handle
    validateTime now
  | .markActive handle _ exclusive serial now =>
    if exclusive ≠ "kernel" then
      .error
        { code := "device_exclusive_unsupported",
          message := "active device claims require kernel-enforced exclusivity" }
    else do
      checkSome serial validateSerial
      validateHandle handle
      validateTime now
  | .markOpenFailed handle _ code now => do
    validateCode code
    validateHandle handle
    validateTime now
  | .publishCounters handle _ _ _ expires now => do
    validateLiveExpiry now expires
    validateHandle handle
    validateTime now
  | .markTerminal handle _ state _ _ now => do
    checkRequested state
    validateHandle handle
    validateTime now
  | .markOwnerLost handle _ now => do
    validateHandle handle
    validateTime now

/-- The operation of a call on the document. -/
def operation (document : Document) : Call → Except CuError (DeviceLeaseRecord × Document)
  | .reserveClaim sessionId runtimeLockId deviceId leaseSha256 expires now (some idBytes)
      (some nonceBytes) =>
    reserveClaim sessionId runtimeLockId deviceId leaseSha256 expires now (uuidV4 idBytes)
      (hexDigest (List.ofFn nonceBytes)) document
  | .reserveClaim .. => .error entropyError
  | .claimOpening handle owner now => transition handle now (claimOpening owner) document
  | .markUnclaimedOpenFailed handle code now =>
    transition handle now (markUnclaimedOpenFailed code now) document
  | .markActive handle owner exclusive serial now =>
    transition handle now (markActive owner exclusive serial) document
  | .markOpenFailed handle owner code now =>
    transition handle now (markOpenFailed owner code now) document
  | .publishCounters handle owner bytesRead bytesWritten expires now =>
    transition handle now (publishCounters owner bytesRead bytesWritten expires) document
  | .markTerminal handle owner state bytesRead bytesWritten now =>
    transition handle now (markTerminal owner state bytesRead bytesWritten now) document
  | .markOwnerLost handle owner now => transition handle now (markOwnerLost owner now) document

/-- `mutate`, between the read and the check on the new document. -/
def mutate (call : Call) (document : Document) :
    Except CuError (DeviceLeaseRecord × Document) :=
  if call.now.val < document.lastNowUtcMs.val then
    .error
      { code := "device_lease_clock_rollback",
        message := "device lease clock moved backward from persisted state" }
  else do
    let (record, document) ← operation document call
    .ok (record, { document with lastNowUtcMs := call.now })

/-- A call of some process: its answer, and the file it leaves. -/
def perform (io : Lib.StoreIo) (file : Option Document) (call : Call) :
    Except CuError DeviceLeaseRecord × Option Document :=
  Lib.DocumentStore.guarded file call.checks (store.transact io file (mutate call))

end Agenterm.Cu.DeviceLeases
