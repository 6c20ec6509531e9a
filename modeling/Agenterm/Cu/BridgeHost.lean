import Agenterm.Cu.Common

/-!
# The host of the browser bridge

`run_native_host_with_io` of `browser_bridge/host.rs`: a loop that serves one local request at a
time, and a thread that reads the frames of the extension into a queue of two. The host keeps what
it has written, read and answered, so that a response can be told from the frame it belongs to.
Serialisation, SHA-256 and the checks of the single commands on arguments and results are the
fields of `Bridge`.
-/

namespace Agenterm.Cu.BrowserBridge

open Std

def protocolVersion : Nat := 6

def requestMaxBytes : Nat := 1024 * 1024

def requestLedgerMaxEntries : Nat := 256

def browserInputQueue : Nat := 2

def commands : List String :=
  ["status", "tabs", "windows", "window-open", "window-state", "nav", "debug-read", "debug-invoke",
    "debug-type", "debug-files", "reload", "extension-reload"]

/-! ## Requests and responses -/

structure BridgeRequest where
  protocol : Nat
  id : String
  command : String
  args : List (String × Value)

structure BridgeWireError where
  code : String
  tabId : Option Nat
  detach : Option Value
  effect : Option String
  navigation : Option Value

structure BridgeResponse where
  protocol : Nat
  id : String
  ok : Bool
  result : Option Value
  error : Option BridgeWireError

/-- What the host uses of other code. -/
structure Bridge where
  /-- `request_digest`: SHA-256 of the text of a request. -/
  digest : BridgeRequest → Vector UInt8 32
  /-- The bytes of the text of a request. -/
  requestBytes : BridgeRequest → Nat
  /-- What a command asks of its arguments. -/
  validateArgs : BridgeRequest → Except String Unit
  /-- What a command asks of its result, or of the error in its place. -/
  validateOutcome : BridgeResponse → BridgeRequest → Except String Unit

/-- `BridgeRequest::validate`, by the codes of its errors. -/
def BridgeRequest.validate (bridge : Bridge) (request : BridgeRequest) : Except String Unit :=
  if request.protocol ≠ protocolVersion then .error "browser_bridge_protocol_mismatch"
  else if request.id.isEmpty || request.id.utf8ByteSize > 96 || request.id.toList.any isControl then
    .error "browser_bridge_request_id_invalid"
  else if !request.id.toList.all fun c => c.isAlphanum || ['.', '_', ':', '-'].contains c then
    .error "browser_bridge_request_id_invalid"
  else if !commands.contains request.command then .error "browser_bridge_command_unknown"
  else bridge.validateArgs request

/-- `BridgeResponse::validate_for`. -/
def BridgeResponse.validateFor (bridge : Bridge) (response : BridgeResponse)
    (request : BridgeRequest) : Except String Unit :=
  if response.protocol ≠ protocolVersion ∨ response.id ≠ request.id then
    .error "browser_bridge_response_identity_mismatch"
  else if response.ok ≠ response.result.isSome ∨ response.ok = response.error.isSome then
    .error "browser_bridge_response_invalid"
  else bridge.validateOutcome response request

/-- The response of `serve_local` for an error. -/
def refusal (request : BridgeRequest) (code : String) : BridgeResponse where
  protocol := protocolVersion
  id := request.id
  ok := false
  result := none
  error := some { code, tabId := none, detach := none, effect := none, navigation := none }

/-! ## The ledger -/

inductive LedgerEntry where
  | reserved (digest : Vector UInt8 32)
  | complete (digest : Vector UInt8 32) (response : BridgeResponse)

abbrev RequestLedger : Type := TreeMap String LedgerEntry

inductive Admission where
  | new
  | replay (response : BridgeResponse)

namespace RequestLedger

def admitRequest (ledger : RequestLedger) (bridge : Bridge) (request : BridgeRequest) :
    Except String (Admission × RequestLedger) :=
  match ledger[request.id]? with
  | some (.complete original response) =>
    if original = bridge.digest request then .ok (.replay response, ledger)
    else .error "browser_bridge_request_conflict"
  | some (.reserved original) =>
    if original = bridge.digest request then .error "browser_bridge_request_uncertain"
    else .error "browser_bridge_request_conflict"
  | none =>
    if requestLedgerMaxEntries ≤ ledger.size then .error "browser_bridge_request_ledger_full"
    else .ok (.new, ledger.insert request.id (.reserved (bridge.digest request)))

/-- Completing a request that is not reserved is a panic. -/
def complete (ledger : RequestLedger) (request : BridgeRequest) (response : BridgeResponse) :
    Option RequestLedger :=
  match ledger[request.id]? with
  | some (.reserved digest) => some (ledger.insert request.id (.complete digest response))
  | _ => none

end RequestLedger

/-! ## The host -/

/-- What the reader thread puts into the queue. -/
inductive Message where
  | response (response : BridgeResponse)
  /-- A document that is no response. -/
  | other
  | failed (code : String)

inductive Phase where
  /-- At the head of the loop. -/
  | looping
  | accepting
  /-- The frame of the request is written, and `receive` waits. -/
  | waiting (request : BridgeRequest)
  | ended (result : Except String Unit)

/-- What `serve_local` returned. -/
structure Answer where
  request : BridgeRequest
  /-- The place of the frame of the request among those written to the extension. -/
  frame : Option Nat
  /-- The frames of the extension that had been read by then. -/
  seen : Nat
  result : Except String BridgeResponse

/-- The response that is written to the local caller. -/
def Answer.reply (answer : Answer) : BridgeResponse :=
  match answer.result with
  | .ok response => response
  | .error code => refusal answer.request code

structure Host where
  phase : Phase
  ledger : RequestLedger
  /-- The messages that were not received. -/
  queue : List Message
  /-- The reader thread has returned. -/
  terminal : Bool
  written : List BridgeRequest
  read : List Message
  answers : List Answer

def Host.start : Host where
  phase := .looping
  ledger := ∅
  queue := []
  terminal := false
  written := []
  read := []
  answers := []

/-- A call to the local caller or to the extension ends as it says. -/
inductive HostEvent where
  /-- The head of the loop. -/
  | turn
  | acceptTimeout
  | unavailable
  /-- A request is read from a local caller. It is written to the extension if `sent`, and an answer
  that does not wait for the extension is written to the caller as `write_frame` says. -/
  | request (request : BridgeRequest) (sent : Bool) (writeFrame : Except String Unit)
  | receive (writeFrame : Except String Unit)
  | timeout (writeFrame : Except String Unit)
  /-- The reader thread reads a frame. -/
  | arrive (message : Message)
  | readFailed (code : String)

/-- What `exchange_from_browser_input` comes to before it waits. -/
inductive Outset where
  | answered (result : Except String BridgeResponse)
  | written

def outset (bridge : Bridge) (ledger : RequestLedger) (request : BridgeRequest) (sent : Bool) :
    Outset × RequestLedger :=
  match request.validate bridge with
  | .error code => (.answered (.error code), ledger)
  | .ok () =>
    match ledger.admitRequest bridge request with
    | .error code => (.answered (.error code), ledger)
    | .ok (.replay response, ledger) => (.answered (.ok response), ledger)
    | .ok (.new, ledger) =>
      if requestMaxBytes < bridge.requestBytes request then
        (.answered (.error "browser_bridge_request_too_large"), ledger)
      else if sent then (.written, ledger)
      else (.answered (.error "browser_bridge_extension_write_failed"), ledger)

/-- What `exchange_from_browser_input` makes of a message. -/
def accepted (bridge : Bridge) (request : BridgeRequest) : Message → Except String BridgeResponse
  | .failed code => .error code
  | .other => .error "browser_bridge_response_invalid"
  | .response response => (response.validateFor bridge request).map fun () => response

namespace Host

/-- The exchange returns, and its answer is written to the local caller. -/
def answer (host : Host) (request : BridgeRequest) (frame : Option Nat)
    (result : Except String BridgeResponse) (writeFrame : Except String Unit) : Host :=
  { host with
    phase := match writeFrame with
      | .ok () => .looping
      | .error code => .ended (.error code)
    answers := host.answers ++ [{ request, frame, seen := host.read.length, result }] }

/-- A request that `decode_request` refuses gets no answer. -/
def serve (bridge : Bridge) (host : Host) (request : BridgeRequest) (sent : Bool)
    (writeFrame : Except String Unit) : Host :=
  match request.validate bridge with
  | .error _ => { host with phase := .looping }
  | .ok () =>
    match outset bridge host.ledger request sent with
    | (.answered result, ledger) => { host with ledger }.answer request none result writeFrame
    | (.written, ledger) =>
      { host with ledger, phase := .waiting request, written := host.written ++ [request] }

/-- The end of a wait, with a message or without one. -/
def receive (bridge : Bridge) (host : Host) (request : BridgeRequest) (message : Option Message)
    (writeFrame : Except String Unit) : Option Host :=
  let frame := some (host.written.length - 1)
  match message.elim (.error "browser_bridge_extension_read_failed") (accepted bridge request) with
  | .error code => some (host.answer request frame (.error code) writeFrame)
  | .ok response =>
    (host.ledger.complete request response).map fun ledger =>
      { host with ledger }.answer request frame (.ok response) writeFrame

/-- A frame that the queue has no room for ends the reader thread. -/
def arrive (host : Host) (message : Message) : Host :=
  if host.queue.length < browserInputQueue then
    { host with queue := host.queue ++ [message], read := host.read ++ [message] }
  else { host with terminal := true, read := host.read ++ [message] }

def readFailed (host : Host) (code : String) : Host :=
  if host.queue.length < browserInputQueue then
    { host with queue := host.queue ++ [.failed code], terminal := true }
  else { host with terminal := true }

def step (bridge : Bridge) (host : Host) : HostEvent → Option Host
  | .turn =>
    match host.phase with
    | .looping =>
      some { host with phase := if host.terminal then .ended (.ok ()) else .accepting }
    | _ => none
  | .acceptTimeout =>
    match host.phase with
    | .accepting => some { host with phase := .looping }
    | _ => none
  | .unavailable =>
    match host.phase with
    | .accepting =>
      some { host with phase := .ended (.error "browser_bridge_endpoint_unavailable") }
    | _ => none
  | .request request sent writeFrame =>
    match host.phase with
    | .accepting => some (host.serve bridge request sent writeFrame)
    | _ => none
  | .receive writeFrame =>
    match host.phase, host.queue with
    | .waiting request, message :: queue =>
      { host with queue }.receive bridge request (some message) writeFrame
    | _, _ => none
  | .timeout writeFrame =>
    match host.phase, host.queue with
    | .waiting request, [] => host.receive bridge request none writeFrame
    | _, _ => none
  | .arrive message => if host.terminal then none else some (host.arrive message)
  | .readFailed code => if host.terminal then none else some (host.readFailed code)

end Host

end Agenterm.Cu.BrowserBridge
