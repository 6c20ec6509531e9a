import Agenterm.Control.Operations
import Agenterm.Protocol
import Agenterm.Journal.EventJournal
import Mathlib.Data.List.AList

/-!
# The control authority

`ControlAuthority` of `control_authority.rs`: it admits controlled requests to the replay
window, records the receipt of each command, and keeps the requests whose receipt has to wait
for a terminal (`pendingSubmissions`, by tab id) until `finishSubmission`.
-/

namespace Agenterm

def controlReplayCapacity : Nat := 512

structure PendingControlReceipt where
  request : ControlRequest
  receipt : ControlReceipt

structure ControlAuthority where
  replayWindow : ReplayWindow
  pendingSubmissions : AList fun _ : Nat => PendingControlReceipt

inductive ControlAdmission where
  | uncontrolled
  | execute (control : ControlRequest)
  | respond (response : IpcResponse)

/-- `error_category_from_wire`. -/
def errorCategoryFromWire : String → ErrorCategory
  | "validation" => .validation
  | "conflict" => .conflict
  | "not_found" => .notFound
  | "precondition" => .precondition
  | "availability" => .availability
  | "timeout" => .timeout
  | "policy" => .policy
  | "unsupported" => .unsupported
  | _ => .internal

/-- The response to a request that is answered from a stored receipt. -/
def responseFromReceipt (receipt : ControlReceipt) : IpcResponse :=
  match receipt.error with
  | some error =>
    (IpcResponse.typedFailure error.message error.code error.category.asStr
      error.retryable).withReceipt receipt
  | none =>
    let output := match receipt.result with
      | some (.object fields) =>
        match fields.find? fun field => field.1 = "output" with
        | some (_, .string output) => output
        | _ => ""
      | _ => ""
    (IpcResponse.success output).withReceipt receipt

namespace ControlAuthority

def default : ControlAuthority :=
  { replayWindow := .new controlReplayCapacity, pendingSubmissions := ∅ }

def mismatchError : ControlError :=
  .new "control_request_mismatch" .validation
    "control metadata does not match the command payload" false

/-- Whether the metadata of a request are those of its command line. -/
def matchesPayload (control : ControlRequest) (args : List String) : Bool :=
  (match controlRequestIdentity args with
    | .ok (operation, intent) => operation = control.operationId && intent = control.intent
    | .error _ => false) &&
  controlPayloadFingerprint args = control.payloadFingerprint

def admitRequest (a : ControlAuthority) (control : Option ControlRequest) (args : List String)
    (nowUnixMs : Nat) : ControlAdmission × ControlAuthority :=
  match control with
  | none => (.uncontrolled, a)
  | some control =>
    if control.schemaVersion ≠ controlContractSchemaVersion then
      (.respond (.typedFailure "unsupported control contract schema version"
        "control_schema_unsupported" "unsupported" false), a)
    else if !matchesPayload control args then
      let receipt := ControlReceipt.rejected control mismatchError
      (.respond ((IpcResponse.typedFailure mismatchError.message mismatchError.code
        mismatchError.category.asStr mismatchError.retryable).withReceipt receipt), a)
    else
      let (admission, replayWindow) := a.replayWindow.admitRequest control nowUnixMs
      let a := { a with replayWindow }
      match admission with
      | .replay receipt | .reject receipt => (.respond (responseFromReceipt receipt), a)
      | .execute _ => (.execute control, a)

/-- The error a failed command leaves in its receipt. -/
def commandError (response : IpcResponse) : Option ControlError :=
  if response.ok then
    none
  else
    some (.new
      (if response.errorCode.isEmpty then "command_outcome_unknown" else response.errorCode)
      (errorCategoryFromWire response.errorCategory) response.error response.retryable)

/-- The outcome of a command: a wait defers it, a failure is a no-op when its category says
that nothing was done. -/
def commandOutcome (response : IpcResponse) (wait : Option WaitDescriptor) : ReceiptOutcome :=
  if wait.isSome then
    .accepted
  else if response.ok then
    .committed
  else
    match (commandError response).map ControlError.category with
    | some .validation | some .conflict | some .notFound | some .precondition | some .policy
    | some .unsupported => .noOp
    | _ => .outcomeUnknown

def commandReceipt (control : ControlRequest) (response : IpcResponse)
    (resolved : ResolvedTarget) (beforePosition afterPosition : ControlEventPosition)
    (wait : Option WaitDescriptor) : ControlReceipt :=
  { schemaVersion := controlContractSchemaVersion
    requestId := control.requestId
    operationId := control.operationId
    payloadFingerprint := control.payloadFingerprint
    outcome := commandOutcome response wait
    resolved := some resolved
    beforePosition := some beforePosition
    afterPosition := some afterPosition
    result := if response.ok then some (.object [("output", .string response.output)]) else none
    error := commandError response
    wait }

def receiptInternal (error : String) : IpcResponse :=
  .typedFailure error "control_receipt_internal" "internal" false

def complete (a : ControlAuthority) (control : ControlRequest) (response : IpcResponse)
    (resolved : ResolvedTarget) (beforePosition afterPosition : ControlEventPosition)
    (wait : Option WaitDescriptor) : IpcResponse × ControlAuthority :=
  let receipt := commandReceipt control response resolved beforePosition afterPosition wait
  let (completion, replayWindow) :=
    if receipt.outcome = .accepted then
      a.replayWindow.updateAccepted control receipt
    else
      a.replayWindow.complete control receipt
  let a := { a with replayWindow }
  match completion with
  | .error error =>
    (receiptInternal ("failed to finalize control receipt: " ++ error.message), a)
  | .ok () =>
    if receipt.outcome = .accepted then
      match resolved.tabId with
      | none => (receiptInternal "accepted control request did not resolve a terminal", a)
      | some tabId =>
        (response.withReceipt receipt, { a with
          pendingSubmissions := a.pendingSubmissions.insert tabId { request := control, receipt } })
    else
      (response.withReceipt receipt, a)

def submissionIncomplete : ControlError :=
  .new "terminal_submission_incomplete" .precondition
    "composer text was written, but the terminal did not accept the final Enter" false

/-- The receipt of a submission that has finished at `position`. -/
def finishedReceipt (receipt : ControlReceipt) (position : ControlEventPosition)
    (enterWritten : Bool) : ControlReceipt :=
  let receipt := { receipt with afterPosition := some position, wait := none }
  if enterWritten then
    { receipt with outcome := .committed }
  else
    { receipt with
      outcome := .outcomeUnknown, result := none, error := some submissionIncomplete }

/-- Finalizes the request that waits for this tab, if there is one; `none` is the journal's
abort. -/
def finishSubmission (a : ControlAuthority) (journal : EventJournal) (tabId : Nat)
    (enterWritten terminalFinalized : Bool) :
    Option (Except CompletionError Bool × ControlAuthority × EventJournal) :=
  match a.pendingSubmissions.lookup tabId with
  | none => some (.ok false, a, journal)
  | some pending => do
    let a := { a with pendingSubmissions := a.pendingSubmissions.erase tabId }
    let (event, journal) ← journal.commitCorrelated .composerSubmissionFinished (some tabId)
      (some pending.request.requestId.value) (some pending.request.operationId.value)
      (.object [("enter_written", .bool enterWritten),
        ("terminal_finalized", .bool terminalFinalized)])
    let receipt := finishedReceipt pending.receipt
      { epoch := event.epoch, sequence := event.sequence } enterWritten
    let (completion, replayWindow) := a.replayWindow.complete pending.request receipt
    some (completion.map fun _ => true, { a with replayWindow }, journal)

end ControlAuthority

end Agenterm
