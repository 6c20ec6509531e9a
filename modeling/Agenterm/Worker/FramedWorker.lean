import Agenterm.Lib.Run
import Agenterm.Worker.Protocol

/-!
# The framed worker

`process_concurrent_framed_worker` (`script_worker.rs`): a loop that reads frames, and a thread for
each invocation that runs the engine and, for its broker calls, `BrokerClient::call_json`. They
share the active invocation, the pending broker request, the completed invocations and the output,
each under its lock. One event is what happens under one acquisition of one lock; the lock of the
active invocation, which is kept while others are taken, is modelled by `activeLocked`.

What the engine does, when a wait ends, and whether a write succeeds are part of the events. The
encoding of a frame is given by `fits`. `admitted`, `cancels`, `delivered` and the causes of what is
written are records that no event reads.
-/

namespace Agenterm.Worker

/-- The sending half of the channel of a call: its thread, and its number there. -/
structure Sender where
  thread : Nat
  sequence : Nat
deriving DecidableEq

structure PendingBroker where
  requestId : String
  sender : Sender
deriving DecidableEq

def brokerRequestId (sequence : Nat) : String := "broker-" ++ toString sequence

/-! ## Threads -/

/-- Where the thread of an invocation is. -/
inductive ThreadPoint where
  /-- In the engine, outside `call_json`. -/
  | engine
  /-- In `call_json`, which has counted the request. -/
  | counted (request : BrokerRequest)
  /-- The pending slot is taken. -/
  | registered (request : BrokerRequest)
  /-- The request is written. -/
  | waiting
  /-- About to clear the slot and to return an error. -/
  | forgetting (error : String)
  /-- The engine has returned. -/
  | finished (result : ScriptResult)
  /-- It has the lock of the active invocation. -/
  | locked (result : ScriptResult)
  /-- The result is written. -/
  | written
  /-- The invocation is completed. -/
  | completed
  | done
deriving DecidableEq

/-- `number` says which of the admitted invocations the thread runs; `calls` is the number of its
latest call, and `inbox` is the channel of that call. -/
structure Thread where
  number : Nat
  frameId : String
  invocationId : String
  broker : Bool
  cancelled : Bool
  requestsRemaining : Nat
  calls : Nat
  inbox : Option BrokerResponse
  answers : List (Except String String)
  point : ThreadPoint

namespace Thread

/-- The thread that an invocation starts. -/
def spawned (number : Nat) (frameId : String) (invocation : ScriptInvocation) : Thread where
  number := number
  frameId := frameId
  invocationId := invocation.invocationId
  broker := invocation.operation = .eval || invocation.operation = .run
  cancelled := false
  requestsRemaining := invocation.budgets.brokerRequests
  calls := 0
  inbox := none
  answers := []
  point := .engine

/-- `call_json` returns. -/
def returned (thread : Thread) (answer : Except String String) : Thread :=
  { thread with point := .engine, inbox := none, answers := thread.answers ++ [answer] }

/-- Between the registration of a request and the return of its call. -/
def outstanding (thread : Thread) : Bool :=
  match thread.point with
  | .registered _ | .waiting | .forgetting _ => true
  | _ => false

/-- The frame that asks for an operation. -/
def requestFrame (thread : Thread) (request : BrokerRequest) : ScriptFrame :=
  let requestId := brokerRequestId thread.calls
  frame (thread.invocationId ++ "-" ++ requestId)
    (.brokerRequest thread.invocationId requestId request)

end Thread

/-- What `call_json` makes of a response. -/
def BrokerResponse.answer (response : BrokerResponse) : Except String String :=
  match response.error with
  | some error => .error (error.code ++ ": " ++ error.message)
  | none => .ok (response.value.getD "null")

/-! ## The reading loop -/

/-- Where the reading loop is. -/
inductive ReaderPoint where
  | idle
  /-- About to write a frame, and to stop after it or not. -/
  | writing (frame : ScriptFrame) (stop : Bool)
  /-- With an admitted invocation. -/
  | invoking (number : Nat) (frameId : String) (invocation : ScriptInvocation)
  /-- There is an active invocation, whose lock it has. -/
  | busy (number : Nat) (frameId invocationId : String)
  | cancelling (frameId invocationId : String)
  /-- With what was active. -/
  | classifying (frameId invocationId : String) (active : Option (String × Nat))
  | raising (thread : Nat)
  | responding (frameId invocationId requestId : String) (response : BrokerResponse)
  /-- It knows whether the response names the active invocation. -/
  | taking (frameId invocationId requestId : String) (response : BrokerResponse)
      (activeMatches : Bool)
  /-- The request was pending. -/
  | delivering (invocationId requestId : String) (response : BrokerResponse) (sender : Sender)
  /-- Another request was pending. -/
  | puttingBack (frameId invocationId : String) (pending : PendingBroker)
  /-- The loop is left, after the end of the input or after a rejection. -/
  | joining (ownerLost : Bool)
  | failed
deriving DecidableEq

/-- What a frame was written for. -/
inductive Cause where
  | result (number : Nat)
  | busy (number : Nat)
  | request (sender : Sender)
  | protocol
deriving DecidableEq

structure Written where
  cause : Cause
  frame : ScriptFrame
deriving DecidableEq

/-- A response that was put into the channel of a call that has not returned: what it named, and
which invocation was active and which of its calls was outstanding then. -/
structure Delivery where
  invocationId : String
  requestId : String
  response : BrokerResponse
  sender : Sender
  active : Option (String × Nat)
  outstanding : Option Sender
deriving DecidableEq

structure FramedWorker where
  tracker : FrameTracker
  reader : ReaderPoint
  active : Option (String × Nat)
  activeLocked : Bool
  pendingBroker : Option PendingBroker
  completed : List String
  threads : List Thread
  output : List Written
  /-- The frame id and the invocation id of every admitted invocation. -/
  admitted : List (String × String)
  /-- The invocation that each handled cancel frame names, with its thread if it was active. -/
  cancels : List (String × Option Nat)
  delivered : List Delivery

inductive WorkerEvent where
  | read (input : FrameRead)
  /-- The reading loop goes on. -/
  | reader (writes : Bool)
  | call (thread : Nat) (request : BrokerRequest)
  /-- The engine returns. -/
  | finish (thread : Nat) (exitClass : ExitClass) (failure : Option ScriptFailure) (body : String)
  | receive (thread : Nat)
  | timeout (thread : Nat) (expired : Bool)
  | disconnected (thread : Nat)
  /-- The thread goes on. -/
  | advance (thread : Nat) (writes : Bool)
deriving DecidableEq

def scriptFrameMaxBytes : Nat := 2 * 1024 * 1024

/-- The frame that `write_frame` writes: another one for a frame that is too large. -/
def encoded (fits : ScriptFrame → Bool) (frame : ScriptFrame) : Option ScriptFrame :=
  if fits frame then some frame
  else
    let invocationId := match frame.payload with
      | .result result => result.invocationId
      | _ => "unknown"
    let replacement := resultFrame frame.frameId
      (protocolFailureFor invocationId "protocol_result_frame_too_large"
        ("encoded result exceeds the " ++ toString scriptFrameMaxBytes ++ " byte frame limit"))
    if fits replacement then some replacement else none

def protocolFrame (frameId invocationId code message : String) : ScriptFrame :=
  resultFrame frameId (protocolFailureFor invocationId code message)

def FrameRejection.frame (rejection : FrameRejection) : ScriptFrame :=
  protocolFrame rejection.frameId rejection.invocationId rejection.code rejection.message

def busyFrame (frameId invocationId : String) : ScriptFrame :=
  protocolFrame frameId invocationId "protocol_worker_busy"
    "this worker already has an active invocation"

namespace FramedWorker

def start : FramedWorker where
  tracker := .new
  reader := .idle
  active := none
  activeLocked := false
  pendingBroker := none
  completed := []
  threads := []
  output := []
  admitted := []
  cancels := []
  delivered := []

def withThread (worker : FramedWorker) (i : Nat) (thread : Thread) : FramedWorker :=
  { worker with threads := worker.threads.set i thread }

/-- Set the cancellation flag of a thread. -/
def raise (worker : FramedWorker) (i : Nat) : FramedWorker :=
  match worker.threads[i]? with
  | some thread => worker.withThread i { thread with cancelled := true }
  | none => worker

/-- `write_shared_frame`. `none`: the write fails. -/
def write (fits : ScriptFrame → Bool) (worker : FramedWorker) (cause : Cause) (frame : ScriptFrame)
    (writes : Bool) : Option FramedWorker :=
  if writes then
    (encoded fits frame).map fun frame =>
      { worker with output := worker.output ++ [⟨cause, frame⟩] }
  else none

/-- A write of the reading loop, which gives up when it fails. -/
def writeOr (fits : ScriptFrame → Bool) (worker : FramedWorker) (cause : Cause)
    (frame : ScriptFrame) (writes : Bool) (next : ReaderPoint) : FramedWorker :=
  match worker.write fits cause frame writes with
  | some worker => { worker with reader := next }
  | none => { worker with reader := .failed }

/-! ### Events of the reading loop -/

/-- Where a frame that was admitted leads. -/
def dispatch (worker : FramedWorker) (frame : ScriptFrame) : FramedWorker :=
  match frame.payload with
  | .invoke invocation =>
    { worker with
      reader := .invoking worker.admitted.length frame.frameId invocation
      admitted := worker.admitted ++ [(frame.frameId, invocation.invocationId)] }
  | .cancel invocationId => { worker with reader := .cancelling frame.frameId invocationId }
  | .brokerResponse invocationId requestId response =>
    { worker with reader := .responding frame.frameId invocationId requestId response }
  | .brokerRequest invocationId _ _ =>
    { worker with
      reader := .writing (protocolFrame frame.frameId invocationId
        "protocol_unexpected_broker_request"
        "broker request frames are worker output and cannot be sent to the worker") false }
  | .result result =>
    { worker with
      reader := .writing (protocolFrame frame.frameId result.invocationId
        "protocol_unexpected_result"
        "result frames are worker output and cannot be sent to the worker") false }
  | .replRequest sessionId =>
    { worker with
      reader := .writing (protocolFrame frame.frameId sessionId "protocol_repl_unavailable"
        "interactive REPL was removed with the Rh interpreter") false }
  | .replResponse sessionId =>
    { worker with
      reader := .writing (protocolFrame frame.frameId sessionId "protocol_repl_unexpected_response"
        "REPL response frames are worker output and cannot be sent to the worker") false }

/-- The end of the input: the active invocation is told that its owner is gone. -/
def eof (worker : FramedWorker) : FramedWorker :=
  match worker.active with
  | some (_, i) => { worker.raise i with reader := .joining true }
  | none => { worker with reader := .joining true }

/-- The next frame. At the end of the input the lock of the active invocation is taken too. -/
def read (worker : FramedWorker) (input : FrameRead) : Option FramedWorker :=
  if worker.reader ≠ .idle then none
  else
    match input with
    | .eof => if worker.activeLocked then none else some worker.eof
    | .rejected rejection =>
      some { worker with reader := .writing rejection.frame (!rejection.recoverable) }
    | .frame frame =>
      if frame.payload.isRepl then some (worker.dispatch frame)
      else
        match worker.tracker.admitFrame frame with
        | (tracker, .ok ()) => some ({ worker with tracker := tracker }.dispatch frame)
        | (tracker, .error rejection) =>
          some { worker with tracker := tracker, reader := .writing rejection.frame false }

/-- The thread is started and its invocation is active. -/
def spawn (worker : FramedWorker) (number : Nat) (frameId : String)
    (invocation : ScriptInvocation) : FramedWorker :=
  { worker with
    reader := .idle
    active := some (invocation.invocationId, worker.threads.length)
    threads := worker.threads ++ [.spawned number frameId invocation] }

/-- The thread of the active invocation, if it is the one that is named. -/
def activeThread (worker : FramedWorker) (invocationId : String) : Option Nat :=
  match worker.active with
  | some (activeId, i) => if activeId = invocationId then some i else none
  | none => none

/-- What follows from the state of the invocation that a cancel frame names. -/
def classify (worker : FramedWorker) (frameId invocationId : String)
    (active : Option (String × Nat)) : FramedWorker :=
  let disposition := CancelDisposition.classify invocationId (active.map Prod.fst)
    (invocationId ∈ worker.completed)
  match disposition.rejection, active with
  | some (code, message), _ =>
    { worker with reader := .writing (protocolFrame frameId invocationId code message) false }
  | none, some (_, i) => { worker with reader := .raising i }
  | none, none => { worker with reader := .failed }

/-- Take what is pending, and see whether it is the request that is answered. -/
def take (worker : FramedWorker) (frameId invocationId requestId : String)
    (response : BrokerResponse) (activeMatches : Bool) : FramedWorker :=
  match worker.pendingBroker with
  | some pending =>
    if activeMatches ∧ pending.requestId = requestId then
      { worker with
        pendingBroker := none
        reader := .delivering invocationId requestId response pending.sender }
    else
      { worker with
        pendingBroker := none
        reader := .puttingBack frameId invocationId pending }
  | none =>
    { worker with
      reader := .writing (protocolFrame frameId invocationId "protocol_broker_response_unexpected"
        "no broker request is outstanding") false }

/-- The outstanding call of the active invocation. -/
def outstandingCall (worker : FramedWorker) : Option Sender :=
  match worker.active with
  | some (_, i) =>
    match worker.threads[i]? with
    | some thread => if thread.outstanding then some ⟨i, thread.calls⟩ else none
    | none => none
  | none => none

/-- The call of this sender has not returned. -/
def hears (sender : Sender) (thread : Thread) : Bool :=
  thread.outstanding && thread.calls = sender.sequence

/-- `sender.send(response)`: nobody hears it once the call has returned. -/
def deliver (worker : FramedWorker) (invocationId requestId : String) (response : BrokerResponse)
    (sender : Sender) : FramedWorker :=
  match worker.threads[sender.thread]? with
  | some thread =>
    if hears sender thread then
      { worker.withThread sender.thread { thread with inbox := some response } with
        reader := .idle
        delivered := worker.delivered ++
          [⟨invocationId, requestId, response, sender, worker.active, worker.outstandingCall⟩] }
    else { worker with reader := .idle }
  | none => { worker with reader := .idle }

def advanceReader (fits : ScriptFrame → Bool) (worker : FramedWorker) (writes : Bool) :
    Option FramedWorker :=
  match worker.reader with
  | .writing frame stop =>
    some (worker.writeOr fits .protocol frame writes (if stop then .joining false else .idle))
  | .invoking number frameId invocation =>
    if worker.activeLocked then none
    else if worker.active.isSome then
      some { worker with
        activeLocked := true
        reader := .busy number frameId invocation.invocationId }
    else some (worker.spawn number frameId invocation)
  | .busy number frameId invocationId =>
    some { worker.writeOr fits (.busy number) (busyFrame frameId invocationId) writes .idle with
      activeLocked := false }
  | .cancelling frameId invocationId =>
    if worker.activeLocked then none
    else
      some { worker with
        reader := .classifying frameId invocationId worker.active
        cancels := worker.cancels ++ [(invocationId, worker.activeThread invocationId)] }
  | .classifying frameId invocationId active =>
    some (worker.classify frameId invocationId active)
  | .raising i => some { worker.raise i with reader := .idle }
  | .responding frameId invocationId requestId response =>
    if worker.activeLocked then none
    else
      some { worker with
        reader := .taking frameId invocationId requestId response
          (worker.activeThread invocationId).isSome }
  | .taking frameId invocationId requestId response activeMatches =>
    some (worker.take frameId invocationId requestId response activeMatches)
  | .delivering invocationId requestId response sender =>
    some (worker.deliver invocationId requestId response sender)
  | .puttingBack frameId invocationId pending =>
    some { worker with
      pendingBroker := some pending
      reader := .writing (protocolFrame frameId invocationId "protocol_broker_response_mismatch"
        "broker response does not match the active request") false }
  | .idle | .joining _ | .failed => none

/-! ### Events of a thread -/

/-- The engine calls `call_json`: the request is counted, or there are too many. -/
def call (thread : Thread) (request : BrokerRequest) : Option Thread :=
  if thread.point ≠ .engine ∨ !thread.broker then none
  else if thread.requestsRemaining = 0 then
    some (thread.returned (.error "broker_request_budget_exceeded"))
  else
    some { thread with
      requestsRemaining := thread.requestsRemaining - 1
      calls := thread.calls + 1
      point := .counted request }

def finish (thread : Thread) (exitClass : ExitClass) (failure : Option ScriptFailure)
    (body : String) : Option Thread :=
  if thread.point ≠ .engine then none
  else
    some { thread with point := .finished ⟨thread.invocationId, exitClass, failure, body⟩ }

/-- The wait ends with a response. -/
def receive (thread : Thread) : Option Thread :=
  match thread.point, thread.inbox with
  | .waiting, some response => some (thread.returned response.answer)
  | _, _ => none

/-- A slice of the wait ends without a response: the flag is looked at, and then the clock. -/
def timeout (thread : Thread) (expired : Bool) : Option Thread :=
  match thread.point, thread.inbox with
  | .waiting, none =>
    if thread.cancelled then some { thread with point := .forgetting "broker_request_cancelled" }
    else if expired then some { thread with point := .forgetting "broker_response_timeout" }
    else some thread
  | _, _ => none

/-- The senders that are still there. -/
def senders (worker : FramedWorker) : List Sender :=
  (worker.pendingBroker.map PendingBroker.sender).toList ++
    match worker.reader with
    | .delivering _ _ _ sender => [sender]
    | .puttingBack _ _ pending => [pending.sender]
    | _ => []

/-- The wait ends because the sender is gone. -/
def disconnected (worker : FramedWorker) (i : Nat) (thread : Thread) : Option Thread :=
  match thread.point, thread.inbox with
  | .waiting, none =>
    if ⟨i, thread.calls⟩ ∈ worker.senders then none
    else some { thread with point := .forgetting "broker_response_channel_closed" }
  | _, _ => none

/-- Take the slot, or refuse the call. -/
def register (worker : FramedWorker) (i : Nat) (thread : Thread) (request : BrokerRequest) :
    FramedWorker :=
  match worker.pendingBroker with
  | some _ => worker.withThread i (thread.returned (.error "broker_request_already_outstanding"))
  | none =>
    { worker.withThread i { thread with point := .registered request } with
      pendingBroker := some ⟨brokerRequestId thread.calls, ⟨i, thread.calls⟩⟩ }

/-- Write the request. -/
def send (fits : ScriptFrame → Bool) (worker : FramedWorker) (i : Nat) (thread : Thread)
    (request : BrokerRequest) (writes : Bool) : FramedWorker :=
  match worker.write fits (.request ⟨i, thread.calls⟩) (thread.requestFrame request) writes with
  | some worker => worker.withThread i { thread with point := .waiting }
  | none => worker.withThread i { thread with point := .forgetting "broker_request_send_failed" }

def advanceThread (fits : ScriptFrame → Bool) (worker : FramedWorker) (i : Nat) (thread : Thread)
    (writes : Bool) : Option FramedWorker :=
  match thread.point with
  | .counted request => some (worker.register i thread request)
  | .registered request => some (worker.send fits i thread request writes)
  | .forgetting error =>
    some { worker.withThread i (thread.returned (.error error)) with pendingBroker := none }
  | .finished result =>
    if worker.activeLocked then none
    else
      some { worker.withThread i { thread with point := .locked result } with
        activeLocked := true }
  | .locked result =>
    let frame := resultFrame thread.frameId result
    some (((worker.write fits (.result thread.number) frame writes).getD worker).withThread i
      { thread with point := .written })
  | .written =>
    some { worker.withThread i { thread with point := .completed } with
      completed := thread.invocationId :: worker.completed }
  | .completed =>
    some { worker.withThread i { thread with point := .done } with
      active := none
      activeLocked := false }
  | .engine | .waiting | .done => none

/-- An event of a thread that changes nothing else. -/
def onThread (worker : FramedWorker) (i : Nat) (change : Thread → Option Thread) :
    Option FramedWorker :=
  (worker.threads[i]?).bind fun thread => (change thread).map (worker.withThread i)

def step (fits : ScriptFrame → Bool) (worker : FramedWorker) : WorkerEvent → Option FramedWorker
  | .read input => worker.read input
  | .reader writes => worker.advanceReader fits writes
  | .call i request => worker.onThread i (FramedWorker.call · request)
  | .finish i exitClass failure body =>
    worker.onThread i (FramedWorker.finish · exitClass failure body)
  | .receive i => worker.onThread i FramedWorker.receive
  | .timeout i expired => worker.onThread i (FramedWorker.timeout · expired)
  | .disconnected i => worker.onThread i (worker.disconnected i)
  | .advance i writes =>
    (worker.threads[i]?).bind fun thread => worker.advanceThread fits i thread writes

/-- The loop is left and every thread is joined. -/
def returned (worker : FramedWorker) : Prop :=
  (∃ ownerLost, worker.reader = .joining ownerLost) ∧
    ∀ thread ∈ worker.threads, thread.point = .done

end FramedWorker

end Agenterm.Worker
