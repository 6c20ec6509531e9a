import Agenterm.Common
import Agenterm.Lib.Keyed

/-!
# The control contract

Requests, receipts and the replay window of `control_contract.rs`. A mutation sent twice under
one request id is executed once: `ReplayWindow.admitRequest` (the source's `admit`) executes an
id it does not know, answers a repeat with the stored receipt, and refuses an id that comes back
with another payload.
-/

namespace Agenterm

def controlContractSchemaVersion : Nat := 1

structure RequestId where
  value : String
deriving DecidableEq

structure OperationId where
  value : String
deriving DecidableEq

structure PayloadFingerprint where
  value : String
deriving DecidableEq

inductive RequestIntent where
  | query
  | mutation
deriving DecidableEq

/-- What a request is compared by when its id comes back. -/
structure DedupeKey where
  operationId : OperationId
  payloadFingerprint : PayloadFingerprint
deriving DecidableEq

structure ControlRequest where
  schemaVersion : Nat
  requestId : RequestId
  operationId : OperationId
  payloadFingerprint : PayloadFingerprint
  intent : RequestIntent
  deadlineUnixMs : Option Nat
deriving DecidableEq

namespace ControlRequest

def mutationIsExpired (request : ControlRequest) (nowUnixMs : Nat) : Bool :=
  request.intent = .mutation && request.deadlineUnixMs.any fun deadline => nowUnixMs ≥ deadline

def dedupeKey (request : ControlRequest) : DedupeKey :=
  { operationId := request.operationId, payloadFingerprint := request.payloadFingerprint }

end ControlRequest

/-- The position recorded in receipts (`control_contract::EventPosition`). -/
structure ControlEventPosition where
  epoch : String
  sequence : Nat
deriving DecidableEq

structure ResolvedTarget where
  serverPid : Nat
  serverAddress : String
  serverEpoch : String
  session : String
  tabId : Option Nat
deriving DecidableEq

inductive ReceiptOutcome where
  | committed
  | accepted
  | noOp
  | outcomeUnknown
deriving DecidableEq

inductive ErrorCategory where
  | validation
  | conflict
  | notFound
  | precondition
  | availability
  | timeout
  | policy
  | unsupported
  | internal
deriving DecidableEq

def ErrorCategory.asStr : ErrorCategory → String
  | .validation => "validation"
  | .conflict => "conflict"
  | .notFound => "not_found"
  | .precondition => "precondition"
  | .availability => "availability"
  | .timeout => "timeout"
  | .policy => "policy"
  | .unsupported => "unsupported"
  | .internal => "internal"

structure ControlError where
  code : String
  category : ErrorCategory
  message : String
  retryable : Bool
  details : Option Value

/-- `ControlError::new`: no details. -/
def ControlError.new (code : String) (category : ErrorCategory) (message : String)
    (retryable : Bool) : ControlError :=
  { code, category, message, retryable, details := none }

inductive WaitCondition where
  | event
  | paneContains
  | processExited
  | submissionComplete
  | targetClosed
deriving DecidableEq

structure WaitDescriptor where
  condition : WaitCondition
  target : ResolvedTarget
  minimumPosition : ControlEventPosition
  eventKind : Option String
  deadlineUnixMs : Option Nat
deriving DecidableEq

structure ControlReceipt where
  schemaVersion : Nat
  requestId : RequestId
  operationId : OperationId
  payloadFingerprint : PayloadFingerprint
  outcome : ReceiptOutcome
  resolved : Option ResolvedTarget
  beforePosition : Option ControlEventPosition
  afterPosition : Option ControlEventPosition
  result : Option Value
  error : Option ControlError
  wait : Option WaitDescriptor

namespace ControlReceipt

def accepted (request : ControlRequest) : ControlReceipt :=
  { schemaVersion := controlContractSchemaVersion
    requestId := request.requestId
    operationId := request.operationId
    payloadFingerprint := request.payloadFingerprint
    outcome := .accepted
    resolved := none
    beforePosition := none
    afterPosition := none
    result := none
    error := none
    wait := none }

def rejected (request : ControlRequest) (error : ControlError) : ControlReceipt :=
  { accepted request with error := some error, outcome := .noOp }

end ControlReceipt

structure ReplayEntry where
  requestId : RequestId
  key : DedupeKey
  receipt : ControlReceipt
  finalized : Bool

inductive Admission where
  | execute (accepted : ControlReceipt)
  | replay (receipt : ControlReceipt)
  | reject (receipt : ControlReceipt)

inductive CompletionError where
  | unknownRequest
  | requestMismatch
  | alreadyFinalized
  | nonFinalOutcome
  | expectedAcceptedOutcome
deriving DecidableEq

/-- The `Display` text of a completion error. -/
def CompletionError.message : CompletionError → String
  | .unknownRequest => "request is not present in the replay window"
  | .requestMismatch => "receipt does not match the admitted request"
  | .alreadyFinalized => "request already has a final receipt"
  | .nonFinalOutcome => "completion receipt cannot remain accepted"
  | .expectedAcceptedOutcome => "in-flight receipt must remain accepted"

structure ReplayWindow where
  capacity : Nat
  entries : List ReplayEntry

namespace ReplayWindow

def new (capacity : Nat) : ReplayWindow :=
  { capacity := max capacity 1, entries := [] }

/-- The refusal of an id that was used for another request. -/
def conflictError : ControlError :=
  .new "request_id_conflict" .conflict "request_id was already used for a different request" false

def deadlineError : ControlError :=
  .new "request_deadline_expired" .timeout "mutation deadline expired before execution" false

def saturatedError : ControlError :=
  .new "replay_window_saturated" .availability
    "replay window is full of requests still being processed" true

/-- Room for one more entry: a full window gives up its oldest finalized entry, and has no
room when it has none. -/
def makeRoom (w : ReplayWindow) : Option ReplayWindow :=
  if w.entries.length = w.capacity then
    (w.entries.findIdx? fun entry => entry.finalized).map fun position =>
      { w with entries := w.entries.eraseIdx position }
  else
    some w

def admitRequest (w : ReplayWindow) (request : ControlRequest) (nowUnixMs : Nat) :
    Admission × ReplayWindow :=
  match w.entries.find? fun entry => entry.requestId = request.requestId with
  | some entry =>
    if entry.key = request.dedupeKey then
      (.replay entry.receipt, w)
    else
      (.reject (.rejected request conflictError), w)
  | none =>
    if request.mutationIsExpired nowUnixMs then
      (.reject (.rejected request deadlineError), w)
    else
      match w.makeRoom with
      | none => (.reject (.rejected request saturatedError), w)
      | some room =>
        let accepted := ControlReceipt.accepted request
        let entry : ReplayEntry :=
          { requestId := request.requestId, key := request.dedupeKey, receipt := accepted,
            finalized := false }
        (.execute accepted, { room with entries := room.entries ++ [entry] })

/-- The shape `complete` and `update_accepted` share: find the entry, check that the receipt is
for it and that it is still open, let `refuse` judge the outcome, store the receipt. -/
def recordReceipt (w : ReplayWindow) (request : ControlRequest) (receipt : ControlReceipt)
    (refuse : ReceiptOutcome → Option CompletionError) (finalize : Bool) :
    Except CompletionError Unit × ReplayWindow :=
  match w.entries.find? fun entry => entry.requestId = request.requestId with
  | none => (.error .unknownRequest, w)
  | some entry =>
    if entry.key ≠ request.dedupeKey ∨ receipt.requestId ≠ request.requestId ∨
        receipt.operationId ≠ request.operationId ∨
        receipt.payloadFingerprint ≠ request.payloadFingerprint then
      (.error .requestMismatch, w)
    else if entry.finalized then
      (.error .alreadyFinalized, w)
    else
      match refuse receipt.outcome with
      | some error => (.error error, w)
      | none =>
        (.ok (), { w with
          entries := Lib.updateFirst (fun entry => entry.requestId = request.requestId)
            (fun entry => { entry with receipt, finalized := entry.finalized || finalize })
            w.entries })

def complete (w : ReplayWindow) (request : ControlRequest) (receipt : ControlReceipt) :
    Except CompletionError Unit × ReplayWindow :=
  w.recordReceipt request receipt
    (fun outcome => if outcome = .accepted then some .nonFinalOutcome else none) true

def updateAccepted (w : ReplayWindow) (request : ControlRequest) (receipt : ControlReceipt) :
    Except CompletionError Unit × ReplayWindow :=
  w.recordReceipt request receipt
    (fun outcome => if outcome ≠ .accepted then some .expectedAcceptedOutcome else none) false

end ReplayWindow

end Agenterm
