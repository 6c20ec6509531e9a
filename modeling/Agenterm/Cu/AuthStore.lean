import Agenterm.Cu.Common
import Agenterm.Text
import Mathlib.Data.Finset.Card

/-!
# The store of grants

`auth_store.rs`: a document of bounded grants in a file. Any number of handles are open on it, in
any number of processes. A handle has a copy of the document, which may have become stale: a call
is decided on the copy, and its result is committed under a lock when the file still has the
generation of the copy. A call is modelled in these two parts (`start`, `commitCandidate`), so that
other handles may take steps between them.

`serde_json` is not modelled: the file is what its text parses to, and the length of the text of a
document is a parameter.
-/

namespace Agenterm.Cu.AuthStore

open Std

def schemaVersion : Nat := 3
def maxRecords : Nat := 4096
def maxTextBytes : Nat := 512
def maxStoreBytes : Nat := 4 * 1024 * 1024
def maxOperations : Nat := 256
def maxOperationBytes : Nat := 128
def maxObserveUses : UInt64 := 10000
def maxActuateUses : UInt64 := 100
def maxObserveLifetimeMs : Int := 24 * 60 * 60 * 1000
def maxActuateLifetimeMs : Int := 60 * 60 * 1000
def targetBindingVersion : Nat := 1

inductive Grant where
  | observe
  | actuate
deriving DecidableEq

structure GrantRecord where
  bindingVersion : Nat
  grantId : String
  targetId : String
  tier : String
  sessionBinding : Option String
  scopes : Finset Grant
  operations : Finset String
  /-- Grants of schema 2 did not bind operations and cannot execute. -/
  legacyOperationUnbound : Bool
  issuedAtUtcMs : I64
  notBeforeUtcMs : I64
  expiresAtUtcMs : I64
  maxUses : UInt64
  consumedUses : UInt64
  revocationEpoch : UInt64
  revokedAtUtcMs : Option I64
  oneShot : Bool
  sessionBound : Bool
deriving DecidableEq

structure GrantSpec where
  bindingVersion : Nat
  grantId : String
  targetId : String
  tier : String
  sessionBinding : Option String
  scopes : Finset Grant
  operations : Finset String
  issuedAtUtcMs : I64
  notBeforeUtcMs : I64
  expiresAtUtcMs : I64
  maxUses : UInt64
  oneShot : Bool
  sessionBound : Bool
deriving DecidableEq

/-- `GrantRecord::from`. -/
def GrantSpec.record (spec : GrantSpec) : GrantRecord where
  bindingVersion := spec.bindingVersion
  grantId := spec.grantId
  targetId := spec.targetId
  tier := spec.tier
  sessionBinding := spec.sessionBinding
  scopes := spec.scopes
  operations := spec.operations
  legacyOperationUnbound := false
  issuedAtUtcMs := spec.issuedAtUtcMs
  notBeforeUtcMs := spec.notBeforeUtcMs
  expiresAtUtcMs := spec.expiresAtUtcMs
  maxUses := spec.maxUses
  consumedUses := 0
  revocationEpoch := 0
  revokedAtUtcMs := none
  oneShot := spec.oneShot
  sessionBound := spec.sessionBound

structure GrantAttempt where
  grantId : String
  targetId : String
  tier : String
  sessionBinding : Option String
  scope : Grant
  operation : String
deriving DecidableEq

structure GrantReservation where
  grantId : String
  consumedUses : UInt64
  remainingUses : UInt64
  generation : UInt64
deriving DecidableEq

inductive GrantDenialKind where
  | notFound
  | notYetValid
  | expired
  | revoked
  | exhausted
  | targetMismatch
  | operationUnbound
  | operationMismatch
  | scopeMissing
deriving DecidableEq

inductive AuthStoreErrorKind where
  | read
  | parse
  | validate
  | serialize
  | prepare
  | write
  | publish
  | sync
  | generationConflict
  | generationOverflow
  | duplicateGrant
  | grantNotFound
  | legacyUnverified
  | lockContended
  | lockUnavailable
deriving DecidableEq

structure AuthStoreError where
  kind : AuthStoreErrorKind
  message : String
  expectedGeneration : Option UInt64
  actualGeneration : Option UInt64
  /-- The replacement name was installed, but a later durability step failed. -/
  published : Bool
deriving DecidableEq

def AuthStoreError.new (kind : AuthStoreErrorKind) (message : String) : AuthStoreError :=
  { kind, message, expectedGeneration := none, actualGeneration := none, published := false }

def AuthStoreError.afterPublish (kind : AuthStoreErrorKind) (message : String) : AuthStoreError :=
  { kind, message, expectedGeneration := none, actualGeneration := none, published := true }

def AuthStoreError.conflict (expected actual : UInt64) : AuthStoreError where
  kind := .generationConflict
  message := "grant store generation conflict: expected " ++ toString expected.toNat ++ ", found "
    ++ toString actual.toNat
  expectedGeneration := some expected
  actualGeneration := some actual
  published := false

def invalid (message : String) : AuthStoreError := .new .validate message

structure StoreDocument where
  schemaVersion : Nat
  generation : UInt64
  records : TreeMap String GrantRecord

/-- The document of a file that does not exist. -/
def StoreDocument.default : StoreDocument where
  schemaVersion := AuthStore.schemaVersion
  generation := 0
  records := ∅

/-- A grant of schema 2. -/
structure LegacyGrantRecord where
  bindingVersion : Nat
  grantId : String
  targetId : String
  tier : String
  sessionBinding : Option String
  scopes : Finset Grant
  issuedAtUtcMs : I64
  notBeforeUtcMs : I64
  expiresAtUtcMs : I64
  maxUses : UInt64
  consumedUses : UInt64
  revocationEpoch : UInt64
  revokedAtUtcMs : Option I64
  oneShot : Bool
  sessionBound : Bool

/-- `GrantRecord::from` of a grant of schema 2. -/
def LegacyGrantRecord.record (record : LegacyGrantRecord) : GrantRecord where
  bindingVersion := record.bindingVersion
  grantId := record.grantId
  targetId := record.targetId
  tier := record.tier
  sessionBinding := record.sessionBinding
  scopes := record.scopes
  operations := ∅
  legacyOperationUnbound := true
  issuedAtUtcMs := record.issuedAtUtcMs
  notBeforeUtcMs := record.notBeforeUtcMs
  expiresAtUtcMs := record.expiresAtUtcMs
  maxUses := record.maxUses
  consumedUses := record.consumedUses
  revocationEpoch := record.revocationEpoch
  revokedAtUtcMs := record.revokedAtUtcMs
  oneShot := record.oneShot
  sessionBound := record.sessionBound

structure LegacyStoreDocument where
  generation : UInt64
  records : TreeMap String LegacyGrantRecord

/-! ## Checks -/

/-- `separator` of `validate_operation`. -/
def isSeparator (c : Char) : Bool := c == '.' || c == '_' || c == '-'

def operationError : AuthStoreError :=
  invalid ("operation must be a canonical 1..=" ++ toString maxOperationBytes
    ++ " byte lowercase ASCII id")

/-- Texts that pass have only ASCII characters, so that their bytes are their characters. -/
def validateOperation (operation : String) : Except AuthStoreError Unit :=
  let chars := operation.toList
  if chars.isEmpty || operation.utf8ByteSize > maxOperationBytes
      || !chars.all (fun c => c.isLower || c.isDigit || isSeparator c)
      || chars.head?.any isSeparator || chars.getLast?.any isSeparator
      || (chars.zip chars.tail).any (fun (a, b) => isSeparator a && isSeparator b) then
    .error operationError
  else
    .ok ()

/-- `valid_binding_id`, for an ASCII prefix. -/
def validBindingId (value expected : String) : Bool :=
  expected.toList.isPrefixOf value.toList
    && value.utf8ByteSize == expected.toList.length + 64
    && (value.toList.drop expected.toList.length).all isLowerHex

/-- The check on each of the texts of a grant. -/
def validateText (name value : String) : Except AuthStoreError Unit :=
  if (trim value.toList).isEmpty || value.utf8ByteSize > maxTextBytes then
    .error (invalid (name ++ " must contain 1..=" ++ toString maxTextBytes ++ " bytes"))
  else
    .ok ()

/-- The check on the session of a grant. -/
def validateSession (record : GrantRecord) : Except AuthStoreError Unit :=
  match record.sessionBinding with
  | none => .error (invalid "every grant must bind an exact target session identity")
  | some binding =>
    if !validBindingId record.targetId "agt-cu-tgt-v1-"
        || !validBindingId binding "agt-cu-ses-v1-" then
      .error (invalid "grant target/session identity is not a verified binding")
    else if !record.sessionBound then
      .error (invalid "every grant must be session-bound")
    else
      validateText "session_binding" binding

/-- The checks on what a grant is bound to. -/
def validateBinding (record : GrantRecord) : Except AuthStoreError Unit :=
  if record.bindingVersion ≠ targetBindingVersion then
    .error (invalid "grant binding version is unsupported")
  else do
    validateText "grant_id" record.grantId
    validateText "target_id" record.targetId
    validateText "tier" record.tier
    if !(["current", "ssh", "vnc"].contains record.tier) then
      .error (invalid "tier must be current, ssh, or vnc; unavailable RDP cannot receive grants")
    else
      validateSession record

/-- The checks on what a grant permits. -/
def validateScopes (record : GrantRecord) : Except AuthStoreError Unit :=
  if record.scopes = ∅ then
    .error (invalid "grant must contain at least one explicit scope")
  else if record.operations.card > maxOperations then
    .error (invalid ("grant may contain at most " ++ toString maxOperations ++ " operations"))
  else if record.legacyOperationUnbound ≠ decide (record.operations = ∅) then
    .error (invalid "only a migrated schema 2 grant may have no bound operations")
  else if ∀ operation ∈ record.operations, (validateOperation operation).isOk then
    .ok ()
  else
    .error operationError

/-- The limits on uses and lifetime. -/
def limits (record : GrantRecord) : UInt64 × Int :=
  if Grant.actuate ∈ record.scopes then
    (maxActuateUses, maxActuateLifetimeMs)
  else
    (maxObserveUses, maxObserveLifetimeMs)

/-- `revocation_epoch` and `revoked_at_utc_ms` agree. -/
def revocationConsistent (record : GrantRecord) : Bool :=
  (record.revocationEpoch == 0) == record.revokedAtUtcMs.isNone

/-- The checks on times, uses and revocation. The lifetime does not overflow: the times are ordered
and not negative where it is computed. -/
def validateUses (record : GrantRecord) : Except AuthStoreError Unit :=
  let (maxUses, maxLifetimeMs) := limits record
  if record.issuedAtUtcMs.val < 0 ∨ record.notBeforeUtcMs.val < record.issuedAtUtcMs.val
      ∨ record.expiresAtUtcMs.val ≤ record.notBeforeUtcMs.val then
    .error (invalid "grant times must be non-negative with issued <= not_before < expires")
  else if record.maxUses = 0 ∨ record.maxUses > maxUses then
    .error (invalid ("max_uses must be within 1..=" ++ toString maxUses.toNat
      ++ " for these scopes"))
  else if record.expiresAtUtcMs.val - record.issuedAtUtcMs.val > maxLifetimeMs then
    .error (invalid ("grant lifetime exceeds the " ++ toString maxLifetimeMs ++ " ms scope limit"))
  else if record.consumedUses > record.maxUses then
    .error (invalid "consumed_uses exceeds max_uses")
  else if record.oneShot ≠ (record.maxUses == 1) then
    .error (invalid "one_shot must be true exactly when max_uses is one")
  else if !revocationConsistent record then
    .error (invalid "revocation_epoch and revoked_at_utc_ms are inconsistent")
  else if record.revokedAtUtcMs.any (fun revoked => revoked.val < record.issuedAtUtcMs.val) then
    .error (invalid "revoked_at_utc_ms must not predate issuance")
  else
    .ok ()

def validateRecord (record : GrantRecord) : Except AuthStoreError Unit := do
  validateBinding record
  validateScopes record
  validateUses record

def tooManyRecords : AuthStoreError :=
  invalid ("grant store may contain at most " ++ toString maxRecords ++ " records")

def validateDocument (document : StoreDocument) : Except AuthStoreError Unit :=
  if document.schemaVersion ≠ AuthStore.schemaVersion then
    .error (invalid ("unsupported grant store schema version " ++ toString document.schemaVersion))
  else if document.records.size > maxRecords then
    .error tooManyRecords
  else
    document.records.toList.forM fun (key, record) =>
      if key ≠ record.grantId then
        .error (invalid ("record key " ++ reprStr key ++ " does not match its grant id"))
      else
        validateRecord record

/-! ## Files -/

/-- What the text of a file parses to. -/
inductive Parsed where
  | malformed (message : String)
  /-- Schema 1. -/
  | unverified
  /-- Schema 2. -/
  | legacy (document : LegacyStoreDocument)
  | current (document : StoreDocument)

structure Contents where
  length : Nat
  parsed : Parsed

/-- The document of a file of schema 2. -/
def LegacyStoreDocument.migrated (legacy : LegacyStoreDocument) : StoreDocument where
  schemaVersion := AuthStore.schemaVersion
  generation := legacy.generation
  records := legacy.records.map fun _ record => record.record

def Contents.document (contents : Contents) : Except AuthStoreError StoreDocument :=
  if contents.length > maxStoreBytes then
    .error (invalid ("grant store input exceeds " ++ toString maxStoreBytes ++ " bytes"))
  else
    match contents.parsed with
    | .malformed message => .error (.new .parse message)
    | .unverified =>
      .error (.new .legacyUnverified
        ("grant store schema 1 contains unverified target identity and requires explicit "
          ++ "migration"))
    | .legacy legacy => .ok legacy.migrated
    | .current document => .ok document

/-- `read_document`, where `fault` is the text of the error that reading fails with. -/
def readDocument (fault : Option String) (file : Option Contents) :
    Except AuthStoreError (Option StoreDocument) :=
  match fault, file with
  | some message, _ => .error (.new .read message)
  | none, none => .ok none
  | none, some contents => do
    let document ← contents.document
    validateDocument document
    .ok (some document)

/-- How far writing the new file comes, with the text of the error. -/
inductive PublishResult where
  | directoryFailed (message : String)
  | serializeFailed (message : String)
  | temporaryFailed (message : String)
  | writeFailed (message : String)
  | renameFailed (message : String)
  | syncFailed (message : String)
  | synced
deriving DecidableEq

/-- The error of `publish_document`, if any: the file is replaced when there is none and when the
error says so. -/
def publishDocument (length : Nat) : PublishResult → Option AuthStoreError
  | .directoryFailed message => some (.new .prepare message)
  | .serializeFailed message => some (.new .serialize message)
  | result =>
    if length > maxStoreBytes then
      some (invalid ("grant store output exceeds " ++ toString maxStoreBytes ++ " bytes"))
    else
      match result with
      | .temporaryFailed message => some (.new .prepare message)
      | .writeFailed message => some (.new .write message)
      | .renameFailed message => some (.new .publish message)
      | .syncFailed message => some (.afterPublish .sync message)
      | .directoryFailed _ | .serializeFailed _ | .synced => none

/-! ## Calls -/

inductive Call where
  | create (spec : GrantSpec)
  | reserveAttempt (attempt : GrantAttempt) (now : I64)
  | revoke (grantId : String) (now : I64)
  | saveIfGeneration (expected : UInt64)

inductive Answer where
  | created (record : GrantRecord)
  | authorized (reservation : GrantReservation)
  | denied (grantId : String) (kind : GrantDenialKind)
  | revoked (record : GrantRecord)
  | alreadyRevoked (record : GrantRecord)
  | saved
deriving DecidableEq

/-- A call up to its commit. -/
inductive Started where
  | answered (result : Except AuthStoreError Answer)
  /-- The candidate that is to be committed, and the answer for its generation. -/
  | prepared (candidate : StoreDocument) (answer : UInt64 → Answer)

def Started.fails (error : AuthStoreError) : Started := .answered (.error error)

section
variable (document : StoreDocument)

def create (spec : GrantSpec) : Started :=
  let record := spec.record
  match validateRecord record with
  | .error error => .fails error
  | .ok () =>
    if record.legacyOperationUnbound then
      .fails (invalid "a new grant must bind at least one operation")
    else if document.records.contains record.grantId then
      .fails (.new .duplicateGrant ("grant id already exists: " ++ reprStr record.grantId))
    else if document.records.size ≥ maxRecords then
      .fails tooManyRecords
    else
      .prepared { document with records := document.records.insert record.grantId record }
        fun _ => .created record

/-- The denial of `reserve_attempt`, if any. -/
def denial (record : GrantRecord) (attempt : GrantAttempt) (now : I64) : Option GrantDenialKind :=
  if record.targetId ≠ attempt.targetId ∨ record.tier ≠ attempt.tier
      ∨ record.sessionBinding ≠ attempt.sessionBinding then
    some .targetMismatch
  else if record.legacyOperationUnbound then
    some .operationUnbound
  else if attempt.operation ∉ record.operations then
    some .operationMismatch
  else if attempt.scope ∉ record.scopes then
    some .scopeMissing
  else if record.revokedAtUtcMs.isSome then
    some .revoked
  else if now.val < record.notBeforeUtcMs.val then
    some .notYetValid
  else if now.val ≥ record.expiresAtUtcMs.val then
    some .expired
  else if record.consumedUses ≥ record.maxUses then
    some .exhausted
  else
    none

def reserveAttempt (attempt : GrantAttempt) (now : I64) : Started :=
  match document.records[attempt.grantId]? with
  | none => .answered (.ok (.denied attempt.grantId .notFound))
  | some record =>
    match denial record attempt now with
    | some kind => .answered (.ok (.denied attempt.grantId kind))
    | none =>
      let consumedUses := record.consumedUses + 1
      .prepared
        { document with
          records := document.records.insert attempt.grantId { record with consumedUses } }
        fun generation => .authorized
          { grantId := attempt.grantId, consumedUses,
            remainingUses := record.maxUses - consumedUses, generation }

def revoke (grantId : String) (now : I64) : Started :=
  match document.records[grantId]? with
  | none => .fails (.new .grantNotFound ("grant id not found: " ++ reprStr grantId))
  | some record =>
    if record.revokedAtUtcMs.isSome then
      .answered (.ok (.alreadyRevoked record))
    else if now.val < 0 then
      .fails (invalid "revocation time must be a non-negative UTC millisecond value")
    else if record.revocationEpoch.toNat + 1 ≥ 2 ^ 64 then
      .fails (.new .generationOverflow "grant revocation epoch overflow")
    else
      let revoked :=
        { record with revocationEpoch := record.revocationEpoch + 1, revokedAtUtcMs := some now }
      .prepared { document with records := document.records.insert grantId revoked }
        fun _ => .revoked revoked

def saveIfGeneration (expected : UInt64) : Started :=
  if document.generation ≠ expected then
    .fails (.conflict expected document.generation)
  else
    .prepared document fun _ => .saved

/-- A call on a handle with this copy of the document, up to its commit. -/
def start : Call → Started
  | .create spec => create document spec
  | .reserveAttempt attempt now => reserveAttempt document attempt now
  | .revoke grantId now => revoke document grantId now
  | .saveIfGeneration expected => saveIfGeneration document expected

end

/-- What the surroundings of a commit do. -/
structure CommitIo where
  lock : Lib.LockResult
  lockMessage : String
  readFault : Option String
  publish : PublishResult

section
variable (prettyLength : StoreDocument → Nat)

/-- Taking the lock. -/
def acquire (io : CommitIo) : Except AuthStoreError Unit :=
  match io.lock with
  | .acquired => .ok ()
  | .contended => .error (.new .lockContended io.lockMessage)
  | .failed => .error (.new .lockUnavailable io.lockMessage)

/-- The generation of the file, zero when there is none. -/
def generationOf (found : Option StoreDocument) : UInt64 :=
  match found with
  | none => 0
  | some document => document.generation

/-- What `commit_candidate` decides: an error, or the document that replaces the file and the error
after that. -/
def attemptCommit (io : CommitIo) (file : Option Contents) (expected : UInt64)
    (candidate : StoreDocument) :
    Except AuthStoreError (StoreDocument × Option AuthStoreError) := do
  acquire io
  let found ← readDocument io.readFault file
  if generationOf found ≠ expected then
    .error (.conflict expected (generationOf found))
  else if expected.toNat + 1 ≥ 2 ^ 64 then
    .error (.new .generationOverflow "grant store generation overflow")
  else do
    let candidate := { candidate with generation := expected + 1 }
    validateDocument candidate
    match publishDocument (prettyLength candidate) io.publish with
    | none => .ok (candidate, none)
    | some error => if error.published then .ok (candidate, some error) else .error error

/-- `commit_candidate`: the file and the copy of the handle after it, and the generation of the
candidate or an error. -/
def commitCandidate (io : CommitIo) (file : Option Contents) (document candidate : StoreDocument) :
    Option Contents × StoreDocument × Except AuthStoreError UInt64 :=
  match attemptCommit prettyLength io file document.generation candidate with
  | .error error => (file, document, .error error)
  | .ok (candidate, failure) =>
    let result := match failure with
      | none => .ok candidate.generation
      | some error => .error error
    (some ⟨prettyLength candidate, .current candidate⟩, candidate, result)

/-! ## Handles -/

/-- A call that has not been committed. -/
structure Pending where
  call : Call
  candidate : StoreDocument
  answer : UInt64 → Answer

structure Handle where
  document : StoreDocument
  pending : Option Pending

structure System where
  file : Option Contents
  handles : Nat → Option Handle

inductive Step where
  /-- `open_at`; the text is that of an error of reading. -/
  | openAt (index : Nat) (fault : Option String)
  | start (index : Nat) (call : Call)
  | commit (index : Nat) (io : CommitIo)
  /-- The handle is dropped, or its process ends. -/
  | drop (index : Nat)

def System.setHandle (s : System) (index : Nat) (value : Option Handle) : System :=
  { s with handles := Function.update s.handles index value }

def System.openAt (s : System) (index : Nat) (fault : Option String) : System :=
  match s.handles index with
  | some _ => s
  | none =>
    match readDocument fault s.file with
    | .error _ => s
    | .ok found => s.setHandle index (some ⟨found.getD .default, none⟩)

/-- A call is made on a handle that has none under way. -/
def System.start (s : System) (index : Nat) (call : Call) :
    System × Option (Except AuthStoreError Answer) :=
  match s.handles index with
  | none => (s, none)
  | some ⟨_, some _⟩ => (s, none)
  | some ⟨document, none⟩ =>
    match AuthStore.start document call with
    | .answered result => (s, some result)
    | .prepared candidate answer =>
      (s.setHandle index (some ⟨document, some ⟨call, candidate, answer⟩⟩), none)

/-- The call under way on a handle is committed. -/
def System.commit (s : System) (index : Nat) (io : CommitIo) :
    System × Option (Except AuthStoreError Answer) :=
  match s.handles index with
  | none => (s, none)
  | some ⟨_, none⟩ => (s, none)
  | some ⟨document, some pending⟩ =>
    let (file, document, result) :=
      commitCandidate prettyLength io s.file document pending.candidate
    ({ s with file }.setHandle index (some ⟨document, none⟩), some (result.map pending.answer))

/-- The system after a step, and the answer when a call returns in it. -/
def System.step (s : System) : Step → System × Option (Except AuthStoreError Answer)
  | .openAt index fault => (s.openAt index fault, none)
  | .start index call => s.start index call
  | .commit index io => s.commit prettyLength index io
  | .drop index => (s.setHandle index none, none)

end

end Agenterm.Cu.AuthStore
