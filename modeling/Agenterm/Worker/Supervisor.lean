import Agenterm.Lib.Run
import Agenterm.Worker.Protocol

/-!
# The two supervisors of a worker

`WorkerSupervisor::invoke` (`worker_supervisor/mod.rs`), which starts a worker for one invocation,
and `PersistentWorkerClient` (`worker_supervisor/persistent.rs`), which keeps one. Each round of
their loops consumes one input: what the channel from the reader thread yields, with what the clock,
the broker closure and the pipe to the worker answer while it is handled. `acts` records the calls
of the closure and the frames that are sent. Times are milliseconds since the loop started.
-/

namespace Agenterm.Worker

inductive SupervisorError where
  | concurrencyLimit
  | spawn (message : String)
  | transport (message : String)
  | protocol (message : String)
  | hardTimeout (workerPid : Nat)
  | workerCrash (workerPid : Nat) (exitCode : Option Int)
deriving DecidableEq

structure SupervisedResult where
  result : ScriptResult
  workerPid : Nat
  cancelRequested : Bool
  brokerOperationIds : List String
deriving DecidableEq

structure ExitStatus where
  code : Option Int
deriving DecidableEq

def ExitStatus.success (status : ExitStatus) : Bool := status.code = some 0

/-! ## What the loops share -/

/-- One call of the broker closure, with the time that it was called at. -/
structure BrokerCall where
  invocationId : String
  requestId : String
  request : BrokerRequest
  remaining : Nat
  calledAt : Nat
  answer : BrokerResponse
deriving DecidableEq

inductive Act where
  | call (call : BrokerCall)
  | respond (frame : ScriptFrame)
  | cancel (frame : ScriptFrame)
deriving DecidableEq

/-- What is answered while a broker request is handled. -/
structure Handling where
  elapsed : Nat
  answer : BrokerResponse
  elapsedAfter : Nat
  written : Except SupervisorError Unit

/-- The operation that is recorded for a request. -/
def operationName (request : BrokerRequest) : String :=
  if request.operation = "fleet.call" then request.operationId.getD "fleet.call.invalid"
  else request.operation

def brokerReturnTooLarge (limit : Nat) : BrokerResponse where
  ok := false
  value := none
  error := some ⟨"broker_return_too_large",
    "broker response exceeds the " ++ toString limit ++ " byte budget"⟩

/-- The answer that is sent. `encodedLen` is `none` when the answer cannot be encoded. -/
def bounded (encodedLen : BrokerResponse → Option Nat) (limit : Nat) (answer : BrokerResponse) :
    BrokerResponse :=
  if limit < (encodedLen answer).getD u64Max then brokerReturnTooLarge limit else answer

/-- The failure of a run that was cancelled at the deadline of the host. -/
def stoppedByDeadline (message : String) (result : ScriptResult) : ScriptResult :=
  match result.failure with
  | some failure =>
    if failure.code = "limit_cancelled" then
      { result with
        exitClass := .failed .limit
        failure := some ⟨"limit_wall_time", message, .limit⟩ }
    else result
  | none => result

/-- What a supervisor is asked to run, and for how long. -/
structure Assignment where
  invocation : ScriptInvocation
  deadline : Nat
  workerPid : Nat
  encodedLen : BrokerResponse → Option Nat

/-- The frame that answers a call, with the closure's own response or the error for a large one. -/
def answerFrame (assignment : Assignment) (responseId : String → String) (call : BrokerCall) :
    ScriptFrame :=
  frame (responseId call.requestId) (.brokerResponse assignment.invocation.invocationId
    call.requestId (bounded assignment.encodedLen
      assignment.invocation.budgets.brokerReturnBytes call.answer))

/-- The part of the loop that counts and records requests. -/
structure Ledger where
  brokerRequests : Nat
  brokerRequestIds : List String
  brokerOperationIds : List String
  acts : List Act

def Ledger.new : Ledger := ⟨0, [], [], []⟩

/-- The request is counted and its id is noted. -/
def Ledger.note (ledger : Ledger) (requestId : String) : Ledger :=
  { ledger with
    brokerRequests := ledger.brokerRequests + 1
    brokerRequestIds := requestId :: ledger.brokerRequestIds }

def Ledger.act (ledger : Ledger) (act : Act) : Ledger :=
  { ledger with acts := ledger.acts ++ [act] }

def Ledger.answered (ledger : Ledger) (request : BrokerRequest) : Ledger :=
  { ledger with brokerOperationIds := ledger.brokerOperationIds ++ [operationName request] }

/-! ## One invocation -/

/-- What one round of `WorkerSupervisor::invoke` consumes. A timeout comes with what the channel
yields in the grace period. -/
inductive OneShotInput where
  | received (event : Except SupervisorError ScriptFrame) (handling : Handling)
  | timeout (grace : Option (Except SupervisorError ScriptFrame))
  | disconnected (exitCode : Option Int)

/-- How the loop ends: it breaks with what was received, or returns. -/
inductive LoopEnd where
  | broke (response : Except SupervisorError ScriptFrame)
  | returned (error : SupervisorError)

structure OneShot where
  ledger : Ledger
  cancelRequested : Bool
  ended : Option LoopEnd

/-- The id of the frame that answers a request. -/
def oneShotResponseId (requestId : String) : String := "response-" ++ requestId

def OneShot.start : OneShot := ⟨.new, false, none⟩

namespace OneShot

def breakWith (loop : OneShot) (response : Except SupervisorError ScriptFrame) : OneShot :=
  { loop with ended := some (.broke response) }

def protocolError (loop : OneShot) (message : String) : OneShot :=
  loop.breakWith (.error (.protocol message))

/-- Call the closure, and answer if there is still time. -/
def passOn (assignment : Assignment) (loop : OneShot) (call : BrokerCall) (handling : Handling) :
    OneShot :=
  let ledger := (loop.ledger.note call.requestId).act (.call call)
  if assignment.deadline ≤ handling.elapsedAfter then { loop with ledger := ledger }
  else
    let ledger := (ledger.answered call.request).act
      (.respond (answerFrame assignment oneShotResponseId call))
    match handling.written with
    | .ok () => { loop with ledger := ledger }
    | .error error => { loop with ledger := ledger, ended := some (.returned error) }

def handleRequest (assignment : Assignment) (loop : OneShot)
    (requestInvocationId requestId : String) (request : BrokerRequest) (handling : Handling) :
    OneShot :=
  if requestInvocationId ≠ assignment.invocation.invocationId then
    loop.protocolError "worker broker request used a mismatched invocation_id"
  else if assignment.invocation.budgets.brokerRequests < loop.ledger.brokerRequests + 1 then
    loop.protocolError "worker exceeded the broker request budget"
  else if requestId ∈ loop.ledger.brokerRequestIds then
    loop.protocolError "worker reused a broker request_id"
  else
    let remaining := assignment.deadline - handling.elapsed
    if remaining = 0 then { loop with ledger := loop.ledger.note requestId }
    else loop.passOn assignment
      ⟨requestInvocationId, requestId, request, remaining, handling.elapsed, handling.answer⟩
      handling

def step (assignment : Assignment) (loop : OneShot) (input : OneShotInput) : OneShot :=
  match loop.ended with
  | some _ => loop
  | none =>
    match input with
    | .disconnected exitCode =>
      { loop with ended := some (.returned (.workerCrash assignment.workerPid exitCode)) }
    | .timeout grace =>
      let invocationId := assignment.invocation.invocationId
      let loop :=
        { loop with
          cancelRequested := true
          ledger := loop.ledger.act
            (.cancel (frame ("cancel-" ++ invocationId) (.cancel invocationId))) }
      match grace with
      | some response => loop.breakWith response
      | none => { loop with ended := some (.returned (.hardTimeout assignment.workerPid)) }
    | .received (.error error) _ => loop.breakWith (.error error)
    | .received (.ok received) handling =>
      match received.payload with
      | .brokerRequest requestInvocationId requestId request =>
        loop.handleRequest assignment requestInvocationId requestId request handling
      | .result _ => loop.breakWith (.ok received)
      | _ => loop.protocolError "worker returned an unexpected frame kind"

/-- After the loop, when the worker has exited with a status or could not be waited for. -/
def finish (assignment : Assignment) (loop : OneShot) (waited : Except String ExitStatus) :
    Option (Except SupervisorError SupervisedResult) :=
  match loop.ended with
  | none => none
  | some (.returned error) => some (.error error)
  | some (.broke response) =>
    some <|
      match waited with
      | .error error => .error (.transport ("failed to wait for worker: " ++ error))
      | .ok status =>
        match response with
        | .error error =>
          if status.success then .error error
          else .error (.workerCrash assignment.workerPid status.code)
        | .ok received =>
          let invokeFrameId := "invoke-" ++ assignment.invocation.invocationId
          if received.frameId ≠ invokeFrameId then
            .error (.protocol ("worker returned frame_id " ++ received.frameId ++ ", expected " ++
              invokeFrameId))
          else
            match received.payload with
            | .result result =>
              if !status.success then .error (.workerCrash assignment.workerPid status.code)
              else
                .ok
                  { result := stoppedByDeadline
                      "host deadline reached; worker stopped during cooperative cancellation" result
                    workerPid := assignment.workerPid
                    cancelRequested := loop.cancelRequested
                    brokerOperationIds := loop.ledger.brokerOperationIds }
            | _ => .error (.protocol "worker returned a non-result frame")

end OneShot

/-! ## The persistent client -/

inductive PersistentWorkerError where
  | supervisor (error : SupervisorError)
  | busy (workerPid : Nat)
  | invocationLimit (workerPid limit : Nat)
  | workerEof (workerPid : Nat) (exitCode : Option Int)
  | workerCrash (workerPid : Nat) (exitCode : Option Int)
  | unavailable (workerPid : Nat)
deriving DecidableEq

inductive ReaderEvent where
  | frame (frame : ScriptFrame)
  | rejected (error : SupervisorError)
  | eof

/-- What is given back when its owner lets it go. -/
inductive Resource where
  | permit
  | tree
deriving DecidableEq

/-- The client. Of the handles it keeps, whether they are still there; `released` records which of
them were given back. -/
structure PersistentWorkerClient where
  child : Bool
  stdin : Bool
  reader : Bool
  tree : Bool
  permit : Bool
  workerPid : Nat
  invocationCount : Nat
  active : Bool
  unavailable : Bool
  released : List Resource
deriving DecidableEq

/-- After `spawn`. -/
def PersistentWorkerClient.spawned (workerPid : Nat) : PersistentWorkerClient where
  child := true
  stdin := true
  reader := true
  tree := true
  permit := true
  workerPid := workerPid
  invocationCount := 0
  active := false
  unavailable := false
  released := []

def persistentWorkerInvocationLimit : Nat := 32

/-- The message of an `expect` that failed. -/
structure Panic where
  message : String
deriving DecidableEq

namespace PersistentWorkerClient

/-- `Option::take` on the tree and on the permit. -/
def release (client : PersistentWorkerClient) : PersistentWorkerClient :=
  { client with
    tree := false
    permit := false
    released := client.released ++ (if client.tree then [.tree] else []) ++
      (if client.permit then [.permit] else []) }

/-- All handles are let go. -/
def letGo (client : PersistentWorkerClient) : PersistentWorkerClient :=
  { client.release with stdin := false, child := false, reader := false }

def forceTerminate (client : PersistentWorkerClient) : PersistentWorkerClient :=
  { client.letGo with unavailable := true }

def waitAndReap (client : PersistentWorkerClient) (waited : Except String ExitStatus) :
    Except Panic (PersistentWorkerClient × Except PersistentWorkerError ExitStatus) :=
  if !client.child then .error ⟨"persistent worker wait requires a child"⟩
  else
    match waited with
    | .ok status => .ok (client.letGo, .ok status)
    | .error error =>
      .ok (client.letGo, .error (.supervisor (.transport ("failed to wait for persistent worker " ++
        toString client.workerPid ++ ": " ++ error))))

def finishEof (client : PersistentWorkerClient) (waited : Except String ExitStatus) :
    Except Panic (PersistentWorkerClient × PersistentWorkerError) :=
  match { client with unavailable := true }.waitAndReap waited with
  | .error panic => .error panic
  | .ok (client, .ok status) =>
    if status.success then .ok (client, .workerEof client.workerPid status.code)
    else .ok (client, .workerCrash client.workerPid status.code)
  | .ok (client, .error error) => .ok (client, error)

/-- `write_shared_stdin`, where the pipe answers `written`. -/
def writeStdin (client : PersistentWorkerClient) (written : Except SupervisorError Unit) :
    Except SupervisorError Unit :=
  if client.stdin then written else .error (.transport "worker stdin is unavailable")

end PersistentWorkerClient

/-- What one round of the client's loop consumes. `waited` answers the wait for a worker that has
closed its side. -/
inductive PersistentInput where
  | received (event : ReaderEvent) (handling : Handling) (waited : Except String ExitStatus)
  | timeout (written : Except SupervisorError Unit)
  | disconnected (waited : Except String ExitStatus)

abbrev InvokeResult : Type := Except PersistentWorkerError SupervisedResult

/-- The id of the frame that answers a request of the invocation with this number. -/
def persistentResponseId (count : Nat) (requestId : String) : String :=
  "persistent-response-" ++ toString count ++ "-" ++ requestId

structure Persistent where
  client : PersistentWorkerClient
  ledger : Ledger
  cancelRequested : Bool
  ended : Option (Except Panic InvokeResult)

namespace Persistent

def start (client : PersistentWorkerClient) : Persistent := ⟨client, .new, false, none⟩

/-- `force_terminate`, and return the error. -/
def terminate (loop : Persistent) (error : SupervisorError) : Persistent :=
  { loop with
    client := loop.client.forceTerminate
    ended := some (.ok (.error (.supervisor error))) }

def finishEof (loop : Persistent) (waited : Except String ExitStatus) : Persistent :=
  match loop.client.finishEof waited with
  | .error panic => { loop with ended := some (.error panic) }
  | .ok (client, error) => { loop with client := client, ended := some (.ok (.error error)) }

/-- Send a frame, and go on if the pipe takes it. -/
def send (loop : Persistent) (act : Act) (written : Except SupervisorError Unit) : Persistent :=
  let loop := { loop with ledger := loop.ledger.act act }
  match loop.client.writeStdin written with
  | .ok () => loop
  | .error error => loop.terminate error

/-- Call the closure and answer. -/
def passOn (assignment : Assignment) (loop : Persistent) (call : BrokerCall)
    (written : Except SupervisorError Unit) : Persistent :=
  let ledger := (loop.ledger.note call.requestId).act (.call call)
  { loop with ledger := ledger.answered call.request }.send
    (.respond (answerFrame assignment (persistentResponseId loop.client.invocationCount) call))
    written

def handleRequest (assignment : Assignment) (loop : Persistent)
    (requestInvocationId requestId : String) (request : BrokerRequest) (handling : Handling) :
    Persistent :=
  if requestInvocationId ≠ assignment.invocation.invocationId then
    loop.terminate (.protocol "persistent worker broker request used a mismatched invocation_id")
  else if assignment.invocation.budgets.brokerRequests < loop.ledger.brokerRequests + 1 ∨
      requestId ∈ loop.ledger.brokerRequestIds then
    loop.terminate (.protocol "persistent worker exceeded or reused its broker request budget")
  else
    -- unlike the other loop, this one asks the broker whatever time is left
    let remaining := assignment.deadline - handling.elapsed
    loop.passOn assignment
      ⟨requestInvocationId, requestId, request, remaining, handling.elapsed, handling.answer⟩
      handling.written

def handleResult (assignment : Assignment) (loop : Persistent) (frameId : String)
    (result : ScriptResult) : Persistent :=
  let invocationId := assignment.invocation.invocationId
  let expected := "persistent-" ++ toString loop.client.invocationCount ++ "-" ++ invocationId
  if frameId ≠ expected ∨ result.invocationId ≠ invocationId then
    loop.terminate (.protocol "persistent worker returned a mismatched result identity")
  else
    let result :=
      if loop.cancelRequested then stoppedByDeadline
        "host deadline reached; persistent worker stopped during cooperative cancellation" result
      else result
    { loop with
      ended := some (.ok (.ok
        { result := result
          workerPid := loop.client.workerPid
          cancelRequested := loop.cancelRequested
          brokerOperationIds := loop.ledger.brokerOperationIds })) }

def step (assignment : Assignment) (loop : Persistent) (input : PersistentInput) : Persistent :=
  match loop.ended with
  | some _ => loop
  | none =>
    match input with
    | .disconnected waited => loop.finishEof waited
    | .timeout written =>
      if loop.cancelRequested then loop.terminate (.hardTimeout loop.client.workerPid)
      else
        let cancel := frame ("persistent-cancel-" ++ toString loop.client.invocationCount)
          (.cancel assignment.invocation.invocationId)
        { loop with cancelRequested := true }.send (.cancel cancel) written
    | .received .eof _ waited => loop.finishEof waited
    | .received (.rejected error) _ _ => loop.terminate error
    | .received (.frame received) handling _ =>
      match received.payload with
      | .brokerRequest requestInvocationId requestId request =>
        loop.handleRequest assignment requestInvocationId requestId request handling
      | .result result => loop.handleResult assignment received.frameId result
      | _ => loop.terminate (.protocol "persistent worker returned an unexpected frame kind")

end Persistent

/-- What an invocation of the client is answered from outside: the poll of the child, the wait for
it, the write of the first frame, and the rounds of the loop. -/
structure InvokeInput where
  assignment : Assignment
  polled : Except String (Option ExitStatus)
  waited : Except String ExitStatus
  written : Except SupervisorError Unit
  rounds : List PersistentInput

namespace PersistentWorkerClient

/-- `invoke_active`. `none`: the loop waits for more input. -/
def invokeActive (client : PersistentWorkerClient) (input : InvokeInput) :
    PersistentWorkerClient × Option (Except Panic InvokeResult) :=
  match client.writeStdin input.written with
  | .error error => (client.forceTerminate, some (.ok (.error (.supervisor error))))
  | .ok () =>
    let loop := Lib.run (Persistent.step input.assignment) (.start client) input.rounds
    (loop.client, loop.ended)

/-- The results after which the client marks itself unavailable. -/
def endsWorker : InvokeResult → Bool
  | .error (.supervisor error) =>
    match error with
    | .transport _ | .protocol _ | .hardTimeout _ | .workerCrash _ _ => true
    | _ => false
  | .error (.workerEof ..) | .error (.workerCrash ..) => true
  | _ => false

/-- The client while an invocation is active. -/
def begun (client : PersistentWorkerClient) : PersistentWorkerClient :=
  { client with active := true, invocationCount := client.invocationCount + 1 }

/-- The client after its active invocation. -/
def settled (client : PersistentWorkerClient) (result : InvokeResult) : PersistentWorkerClient :=
  { client with active := false, unavailable := client.unavailable || endsWorker result }

def invoke (client : PersistentWorkerClient) (input : InvokeInput) :
    PersistentWorkerClient × Option (Except Panic InvokeResult) :=
  if client.unavailable || !client.child then
    (client, some (.ok (.error (.unavailable client.workerPid))))
  else if client.active then (client, some (.ok (.error (.busy client.workerPid))))
  else if persistentWorkerInvocationLimit ≤ client.invocationCount then
    (client, some (.ok (.error
      (.invocationLimit client.workerPid persistentWorkerInvocationLimit))))
  else
    match input.polled with
    | .error error =>
      (client.forceTerminate, some (.ok (.error (.supervisor (.transport
        ("failed to query persistent worker " ++ toString client.workerPid ++ ": " ++ error))))))
    | .ok (some _) =>
      match client.finishEof input.waited with
      | .error panic => (client, some (.error panic))
      | .ok (client, error) => (client, some (.ok (.error error)))
    | .ok none =>
      match client.begun.invokeActive input with
      | (client, some (.ok result)) => (client.settled result, some (.ok result))
      | (client, ended) => (client, ended)

/-- `shutdown`, which consumes the client. -/
def shutdown (client : PersistentWorkerClient) (waited : Except String ExitStatus) :
    Except Panic (PersistentWorkerClient × Except PersistentWorkerError Unit) :=
  match { client with stdin := false }.waitAndReap waited with
  | .error panic => .error panic
  | .ok (client, .error error) => .ok (client, .error error)
  | .ok (client, .ok status) =>
    if status.success then .ok (client, .ok ())
    else .ok (client, .error (.workerCrash client.workerPid status.code))

/-- `Drop`, and then the drop of the fields. -/
def drop (client : PersistentWorkerClient) : PersistentWorkerClient :=
  (if client.child then client.forceTerminate else client).release

end PersistentWorkerClient

end Agenterm.Worker
