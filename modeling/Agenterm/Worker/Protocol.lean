import Agenterm.Common

/-!
# The frames between a supervisor and its worker

The part of `script_protocol.rs` that the supervisors and the framed worker go by. A result keeps
the fields that they read or change; `body` stands for the others. The encoding of frames is not
modelled: frames travel whole.
-/

namespace Agenterm.Worker

def scriptFrameVersion : Nat := 1

inductive FailureCategory where
  | configuration
  | limit
  | script
  | child
  | cancelled
  | fleet
  | protocol
  | host
deriving DecidableEq

inductive ExitClass where
  | success
  | failed (category : FailureCategory)
deriving DecidableEq

structure ScriptFailure where
  code : String
  message : String
  category : FailureCategory
deriving DecidableEq

structure ScriptResult where
  invocationId : String
  exitClass : ExitClass
  failure : Option ScriptFailure
  body : String
deriving DecidableEq

inductive ScriptOperation where
  | api
  | check
  | eval
  | run
deriving DecidableEq

structure ScriptBudgets where
  brokerRequests : Nat
  brokerReturnBytes : Nat
  waitTimeMs : Nat
deriving DecidableEq

structure ScriptInvocation where
  invocationId : String
  operation : ScriptOperation
  budgets : ScriptBudgets
deriving DecidableEq

/-- A request of the engine. `operationId` is the text under `operation_id` in its arguments. -/
structure BrokerRequest where
  operation : String
  operationId : Option String
deriving DecidableEq

structure BrokerError where
  code : String
  message : String
deriving DecidableEq

structure BrokerResponse where
  ok : Bool
  value : Option String
  error : Option BrokerError
deriving DecidableEq

inductive Payload where
  | invoke (invocation : ScriptInvocation)
  | replRequest (sessionId : String)
  | replResponse (sessionId : String)
  | cancel (invocationId : String)
  | result (result : ScriptResult)
  | brokerRequest (invocationId requestId : String) (request : BrokerRequest)
  | brokerResponse (invocationId requestId : String) (response : BrokerResponse)
deriving DecidableEq

structure ScriptFrame where
  frameVersion : Nat
  frameId : String
  payload : Payload
deriving DecidableEq

def frame (frameId : String) (payload : Payload) : ScriptFrame :=
  ⟨scriptFrameVersion, frameId, payload⟩

def resultFrame (frameId : String) (result : ScriptResult) : ScriptFrame :=
  frame frameId (.result result)

def protocolFailureFor (invocationId code message : String) : ScriptResult where
  invocationId := invocationId
  exitClass := .failed .protocol
  failure := some ⟨code, message, .protocol⟩
  body := ""

/-! ## Admission -/

structure FrameRejection where
  frameId : String
  invocationId : String
  code : String
  message : String
  recoverable : Bool
deriving DecidableEq

/-- `ScriptFrameRejection::admission`. -/
def FrameRejection.admission (frameId invocationId code message : String) : FrameRejection :=
  ⟨frameId, invocationId, code, message, true⟩

/-- What `read_script_frame` yields. -/
inductive FrameRead where
  | eof
  | frame (frame : ScriptFrame)
  | rejected (rejection : FrameRejection)
deriving DecidableEq

structure FrameTracker where
  seenFrames : List String
  knownInvocations : List String

def FrameTracker.new : FrameTracker := ⟨[], []⟩

/-- From 1 to 128 bytes. -/
def validId (id : String) : Bool := 1 ≤ id.utf8ByteSize && id.utf8ByteSize ≤ 128

def FrameTracker.admitInvocation (tracker : FrameTracker) (frameId invocationId : String) :
    FrameTracker × Except FrameRejection Unit :=
  if !validId invocationId then
    (tracker, .error (.admission frameId invocationId "protocol_invalid_invocation_id"
      "invocation_id must contain from 1 to 128 bytes"))
  else if invocationId ∈ tracker.knownInvocations then
    (tracker, .error (.admission frameId invocationId "protocol_duplicate_invocation"
      "invocation_id has already been processed"))
  else ({ tracker with knownInvocations := invocationId :: tracker.knownInvocations }, .ok ())

/-- The frames of the interactive session are not for this tracker. -/
def Payload.isRepl : Payload → Bool
  | .replRequest _ | .replResponse _ => true
  | _ => false

def FrameTracker.admitFrame (tracker : FrameTracker) (frame : ScriptFrame) :
    FrameTracker × Except FrameRejection Unit :=
  if !validId frame.frameId then
    (tracker, .error (.admission frame.frameId "unknown" "protocol_invalid_frame_id"
      "frame_id must contain from 1 to 128 bytes"))
  else if frame.payload.isRepl then
    (tracker, .error (.admission frame.frameId "unknown"
      "protocol_repl_requires_session_validator"
      "REPL frames require the constant-space session validator"))
  else if frame.frameId ∈ tracker.seenFrames then
    (tracker, .error (.admission frame.frameId "unknown" "protocol_duplicate_frame"
      "frame_id has already been processed"))
  else
    let tracker := { tracker with seenFrames := frame.frameId :: tracker.seenFrames }
    if frame.frameVersion ≠ scriptFrameVersion then
      (tracker, .error (.admission frame.frameId "unknown" "protocol_unsupported_frame_version"
        ("worker supports frame version " ++ toString scriptFrameVersion ++ ", requested " ++
          toString frame.frameVersion)))
    else
      match frame.payload with
      | .invoke invocation => tracker.admitInvocation frame.frameId invocation.invocationId
      | _ => (tracker, .ok ())

/-! ## Cancellation -/

inductive CancelDisposition where
  | requested
  | tooLate
  | unknown
deriving DecidableEq

def CancelDisposition.classify (requestedInvocationId : String)
    (activeInvocationId : Option String) (completed : Bool) : CancelDisposition :=
  if activeInvocationId = some requestedInvocationId then .requested
  else if completed then .tooLate
  else .unknown

def CancelDisposition.rejection : CancelDisposition → Option (String × String)
  | .requested => none
  | .tooLate => some ("protocol_cancel_too_late", "invocation has already completed")
  | .unknown =>
    some ("protocol_cancel_unknown", "no active invocation has this invocation_id")

end Agenterm.Worker
