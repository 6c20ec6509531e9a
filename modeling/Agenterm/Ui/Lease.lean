import Agenterm.Common
import Agenterm.Lib.Keyed

/-!
# UI leases

`UiLeaseAuthority` of `ui_lease.rs`: GUI clients attach to a server under a lease that they
renew by heartbeats and acknowledgements, and that is reaped when it has expired or the
client's process is gone. The counter behind the lease ids is a process-wide wrapping atomic;
it is kept beside the leases here.
-/

namespace Agenterm

def uiLeaseTtlMs : Nat := 5000
def uiLeaseMaxClients : Nat := 16
def uiClientIdMaxBytes : Nat := 128

/-- The build a client was made from. -/
structure UpgradeIdentity where
  protocolVersion : Option Nat
  version : Option String
  gitCommit : Option String
  profile : Option String
  cargoLockSha256 : Option String
  artifactManifestSha256 : Option String
deriving DecidableEq

structure UiLeaseRecord where
  leaseId : String
  clientId : String
  clientPid : Nat
  clientBuild : Option UpgradeIdentity
  expiresUnixMs : Nat
  observedSequence : Nat
deriving DecidableEq

inductive UiLeaseError where
  | invalidClientId
  | invalidClientPid
  | invalidLeaseId
  | conflict
  | notAttached
  | ownerMismatch
  | invalidObservedSequence
deriving DecidableEq

namespace UiLeaseError

def code : UiLeaseError → String
  | invalidClientId => "ui_lease_client_id_invalid"
  | invalidClientPid => "ui_lease_client_pid_invalid"
  | invalidLeaseId => "ui_lease_id_invalid"
  | conflict => "ui_lease_conflict"
  | notAttached => "ui_lease_not_attached"
  | ownerMismatch => "ui_lease_owner_mismatch"
  | invalidObservedSequence => "ui_lease_observed_sequence_invalid"

def category : UiLeaseError → String
  | invalidClientId | invalidClientPid | invalidLeaseId | invalidObservedSequence => "validation"
  | conflict => "conflict"
  | notAttached => "availability"
  | ownerMismatch => "conflict"

def retryable : UiLeaseError → Bool
  | conflict | notAttached => true
  | _ => false

def message : UiLeaseError → String
  | invalidClientId => "UI lease client ID is empty, oversized, or contains controls"
  | invalidClientPid => "UI lease client PID must identify a live nonzero process"
  | invalidLeaseId => "UI lease ID is empty, oversized, or contains controls"
  | conflict => "too many concurrent interactive UI leases on this server"
  | notAttached => "no live UI lease matches the supplied identity"
  | ownerMismatch => "UI lease ID or client PID does not match a live lease"
  | invalidObservedSequence =>
    "UI observed sequence must advance monotonically within the current journal"

end UiLeaseError

/-- The check the client and the lease ids share: not empty, not oversized, no controls. -/
def validLeaseText (text : String) : Bool :=
  !text.isEmpty && text.utf8ByteSize ≤ uiClientIdMaxBytes && !text.toList.any isControl

def validateClientId (clientId : String) : Except UiLeaseError Unit :=
  if validLeaseText clientId then .ok () else .error .invalidClientId

def validateLeaseId (leaseId : String) : Except UiLeaseError Unit :=
  if validLeaseText leaseId then .ok () else .error .invalidLeaseId

/-- The `:x` format. -/
def hex (n : Nat) : String := String.ofList (Nat.toDigits 16 n)

structure UiLeaseAuthority where
  leases : List UiLeaseRecord
  /-- `NEXT_LEASE_ID`. -/
  nextLeaseId : Nat
deriving DecidableEq

namespace UiLeaseAuthority

/-- No leases, in a fresh process. -/
def default : UiLeaseAuthority := { leases := [], nextLeaseId := 1 }

def active (a : UiLeaseAuthority) : Option UiLeaseRecord := a.leases.head?

/-- The lease that `leaseId` and `clientPid` together name. -/
def isOwner (leaseId : String) (clientPid : Nat) (lease : UiLeaseRecord) : Bool :=
  lease.leaseId = leaseId && lease.clientPid = clientPid

/-- `verify_owner`, and the search of `find_mut`. -/
def verifyOwner (a : UiLeaseAuthority) (leaseId : String) (clientPid : Nat) :
    Except UiLeaseError UiLeaseRecord :=
  match validateLeaseId leaseId with
  | .error error => .error error
  | .ok () =>
    match a.leases.find? (isOwner leaseId clientPid) with
    | some lease => .ok lease
    | none => .error (if a.leases.isEmpty then .notAttached else .ownerMismatch)

/-- The id of the lease with this sequence number, `format!("ui-{:x}-{:x}-{:x}", ..)`. -/
def formatLeaseId (processId nowUnixMs sequence : Nat) : String :=
  "ui-" ++ hex processId ++ "-" ++ hex nowUnixMs ++ "-" ++ hex sequence

/-- Whether the lease belongs to this GUI process. -/
def isClient (clientId : String) (clientPid : Nat) (lease : UiLeaseRecord) : Bool :=
  lease.clientId = clientId && lease.clientPid = clientPid

/-- `attach`, in the server process `processId`: renew the client's lease, or make one. -/
def attach (processId : Nat) (a : UiLeaseAuthority) (clientId : String) (clientPid : Nat)
    (clientBuild : Option UpgradeIdentity) (nowUnixMs : Nat) :
    Except UiLeaseError (UiLeaseRecord × Bool) × UiLeaseAuthority :=
  match validateClientId clientId with
  | .error error => (.error error, a)
  | .ok () =>
    if clientPid = 0 then
      (.error .invalidClientPid, a)
    else
      match a.leases.find? (isClient clientId clientPid) with
      | some existing =>
        let renew (lease : UiLeaseRecord) : UiLeaseRecord :=
          { lease with clientBuild, expiresUnixMs := saturatingAdd nowUnixMs uiLeaseTtlMs }
        (.ok (renew existing, false), { a with
          leases := Lib.updateFirst (isClient clientId clientPid) renew a.leases })
      | none =>
        if a.leases.length ≥ uiLeaseMaxClients then
          (.error .conflict, a)
        else
          let record : UiLeaseRecord :=
            { leaseId := formatLeaseId processId nowUnixMs a.nextLeaseId
              clientId, clientPid, clientBuild
              expiresUnixMs := saturatingAdd nowUnixMs uiLeaseTtlMs
              observedSequence := 0 }
          (.ok (record, true),
            { leases := a.leases ++ [record], nextLeaseId := (a.nextLeaseId + 1) % 2 ^ 64 })

def heartbeat (a : UiLeaseAuthority) (leaseId : String) (clientPid nowUnixMs : Nat) :
    Except UiLeaseError UiLeaseRecord × UiLeaseAuthority :=
  match a.verifyOwner leaseId clientPid with
  | .error error => (.error error, a)
  | .ok lease =>
    let renew (lease : UiLeaseRecord) : UiLeaseRecord :=
      { lease with expiresUnixMs := saturatingAdd nowUnixMs uiLeaseTtlMs }
    (.ok (renew lease), { a with
      leases := Lib.updateFirst (isOwner leaseId clientPid) renew a.leases })

def detach (a : UiLeaseAuthority) (leaseId : String) (clientPid : Nat) :
    Except UiLeaseError UiLeaseRecord × UiLeaseAuthority :=
  match a.verifyOwner leaseId clientPid with
  | .error error => (.error error, a)
  | .ok lease =>
    (.ok lease, { a with leases := a.leases.eraseP (isOwner leaseId clientPid) })

def acknowledge (a : UiLeaseAuthority) (leaseId : String)
    (clientPid observedSequence currentSequence nowUnixMs : Nat) :
    Except UiLeaseError UiLeaseRecord × UiLeaseAuthority :=
  match a.verifyOwner leaseId clientPid with
  | .error error => (.error error, a)
  | .ok lease =>
    if observedSequence < lease.observedSequence ∨ observedSequence > currentSequence then
      (.error .invalidObservedSequence, a)
    else
      let renew (lease : UiLeaseRecord) : UiLeaseRecord :=
        { lease with
          observedSequence
          expiresUnixMs := saturatingAdd nowUnixMs uiLeaseTtlMs }
      (.ok (renew lease), { a with
        leases := Lib.updateFirst (isOwner leaseId clientPid) renew a.leases })

/-- Why a lease is reaped, if it is. -/
def staleReason (nowUnixMs : Nat) (processIsAlive : Nat → Bool) (lease : UiLeaseRecord) :
    Option String :=
  if lease.expiresUnixMs ≤ nowUnixMs then
    some "expired"
  else if !processIsAlive lease.clientPid then
    some "client_exited"
  else
    none

def reapStale (a : UiLeaseAuthority) (nowUnixMs : Nat) (processIsAlive : Nat → Bool) :
    List (UiLeaseRecord × String) × UiLeaseAuthority :=
  (a.leases.filterMap fun lease =>
      (staleReason nowUnixMs processIsAlive lease).map fun reason => (lease, reason),
    { a with
      leases := a.leases.filter fun lease =>
        (staleReason nowUnixMs processIsAlive lease).isNone })

end UiLeaseAuthority

end Agenterm
