import Agenterm.Lib.Fallible
import Mathlib.Data.List.Basic

/-!
# The door of a slot

`HostState` is what the host functions of one slot write: the text that the guest printed, the
bill of the call (`Meter`) and the receipt of the tool door. `Use` is one use of a host function
by the guest, with what the embedder, the platform and the cancel flag answered to it; `perform`
does what the host functions of `host.rs` and `tool.rs` do to the state.

The answers themselves, which stay parked until the guest collects them, are left out: only their
lengths reach the bill. How printed bytes are decoded is the parameter `lossy`.
-/

namespace Agenterm.Qjswasm

open Lib

/-- The part of a budget that the door enforces. -/
structure Budget where
  maxHostOps : Nat
  maxStdoutBytes : Nat
  maxBridgeResultBytes : Nat
deriving DecidableEq

/-- A fault of the core, by its class. -/
inductive WasmError where
  | trap (text : String)
  | ceiling (name : String)
  | load (text : String)
  | interruption
deriving DecidableEq

def hostOpsExhausted : String := "agenterm: host operation budget exhausted"

def cancelledByHost : String := "agenterm: cancelled by the host"

/-! ## The bill of a call -/

structure LastDoor where
  op : String
  answerBytes : Option Nat
deriving DecidableEq

structure Meter where
  ops : Nat
  bytes : Nat
  /-- Nanoseconds. -/
  waited : Nat
  maxOps : Nat
  refused : Option String
  cancelled : Bool
  lastOp : Option String
  lastAnswer : Option Nat
deriving DecidableEq

namespace Meter

def new (maxOps : Nat) : Meter where
  ops := 0
  bytes := 0
  waited := 0
  maxOps := maxOps
  refused := none
  cancelled := false
  lastOp := none
  lastAnswer := none

/-- `flag` is the cancel flag when it is read. -/
def checkCancel (flag : Bool) : Fallible Meter String Unit := fun m =>
  if flag then (.error cancelledByHost, { m with cancelled := true }) else (.ok (), m)

/-- One more operation carrying `bytes` of arguments. -/
def charge (op : String) (bytes : Nat) (flag : Bool) : Fallible Meter String Unit := do
  .update fun m => { m with lastOp := some op, lastAnswer := none }
  checkCancel flag
  fun m =>
    if m.ops ≥ m.maxOps then
      (.error hostOpsExhausted, { m with refused := some "max_host_ops" })
    else (.ok (), { m with ops := m.ops + 1, bytes := m.bytes + bytes })

def answered (bytes : Nat) (m : Meter) : Meter :=
  { m with bytes := m.bytes + bytes, lastAnswer := some bytes }

def wait (duration : Nat) (m : Meter) : Meter := { m with waited := m.waited + duration }

/-- `(ops, bytes, waited_ms)`, reset for the next call. -/
def take (m : Meter) : (Nat × Nat × Nat) × Meter :=
  ((m.ops, m.bytes, m.waited / 1000000), { m with ops := 0, bytes := 0, waited := 0 })

/-- The last billed operation and what it parked, reset for the next call. -/
def takeLastDoor (m : Meter) : Option LastDoor × Meter :=
  match m.lastOp with
  | none => (none, m)
  | some op => (some ⟨op, m.lastAnswer⟩, { m with lastOp := none, lastAnswer := none })

end Meter

/-! ## The state of the door -/

/-- The state of the tool door. -/
structure ToolState where
  calls : List String
  fault : Option String
deriving DecidableEq

structure HostState where
  stdout : List UInt8
  stdoutTruncated : Bool
  maxStdout : Nat
  fault : Option String
  meter : Meter
  /-- Present only in a slot that opened the tool door. -/
  tool : Option ToolState
deriving DecidableEq

namespace HostState

/-- `host::install`. -/
def install (budget : Budget) (toolDoor : Bool) : HostState where
  stdout := []
  stdoutTruncated := false
  maxStdout := budget.maxStdoutBytes
  fault := none
  meter := .new budget.maxHostOps
  tool := if toolDoor then some { calls := [], fault := none } else none

/-- Append up to the cap. Past it, keep the prefix and raise the flag. -/
def writeStdout (bytes : List UInt8) (s : HostState) : HostState :=
  let room := s.maxStdout - s.stdout.length
  if bytes.length > room then
    { s with stdout := s.stdout ++ bytes.take room, stdoutTruncated := true }
  else { s with stdout := s.stdout ++ bytes }

/-- Every `tool.*` operation the guest reached since the previous take. -/
def takeToolCalls (s : HostState) : List String × HostState :=
  match s.tool with
  | none => ([], s)
  | some tool => (tool.calls, { s with tool := some { tool with calls := [] } })

def takeMeter (s : HostState) : (Nat × Nat × Nat) × HostState :=
  (s.meter.take.1, { s with meter := s.meter.take.2 })

def takeLastDoor (s : HostState) : Option LastDoor × HostState :=
  (s.meter.takeLastDoor.1, { s with meter := s.meter.takeLastDoor.2 })

def takeBudgetRefusal (s : HostState) : Option String × HostState :=
  (s.meter.refused, { s with meter := { s.meter with refused := none } })

def takeCancelled (s : HostState) : Bool × HostState :=
  (s.meter.cancelled, { s with meter := { s.meter with cancelled := false } })

def takeFault (s : HostState) : Option String × HostState :=
  match s.fault with
  | some fault => (some fault, { s with fault := none })
  | none =>
    match s.tool with
    | none => (none, s)
    | some tool => (tool.fault, { s with tool := some { tool with fault := none } })

def takeStdout (lossy : List UInt8 → String) (s : HostState) : (String × Bool) × HostState :=
  ((lossy s.stdout, s.stdoutTruncated), { s with stdout := [], stdoutTruncated := false })

end HostState

/-! ## Host functions -/

/-- A host function: an error is a trap of the guest. -/
abbrev Door : Type := Fallible HostState WasmError Unit

/-- `.map_err(WasmError::Trap)` of an operation of the meter. -/
def onMeter (m : Fallible Meter String Unit) : Door :=
  m.onPart HostState.meter (fun s meter => { s with meter := meter }) .trap

def charge (op : String) (bytes : Nat) (flag : Bool) : Door := onMeter (Meter.charge op bytes flag)

def checkCancel (flag : Bool) : Door := onMeter (Meter.checkCancel flag)

def answered (bytes : Nat) : Door :=
  .update fun s => { s with meter := s.meter.answered bytes }

def waited (duration : Nat) : Door :=
  .update fun s => { s with meter := s.meter.wait duration }

/-- Record why the door failed, and trap. -/
def failWith (fault text : String) : Door := do
  .update fun s => { s with fault := some fault }
  .fail (.trap text)

/-- What the embedder's bridge did: how long it took, and the length of its answer (or of its
error message), or the text of its panic. -/
structure Bridged where
  waited : Nat
  answer : Except String Nat

/-- A use of a bridge of the door. -/
structure BridgeUse where
  argumentBytes : Nat
  utf8 : Bool
  bridge : Option Bridged
  cancelBefore : Bool
  cancelAfter : Bool

/-- A use of the native door: the fault that the operation records, or the length of its
result. -/
structure NativeUse where
  argumentBytes : Nat
  /-- A fault of the argument positions, found before anything is billed. -/
  positions : Option String
  result : Except String Nat
  cancelBefore : Bool
  cancelAfter : Bool

/-- How an operation of the tool door ended: with an answer or a message of a length, because
its wait saw the cancel flag, or with a panic. -/
inductive ToolEnd where
  | answer (bytes : Nat)
  | message (bytes : Nat)
  | cancelled (flag : Bool)
  | panicked (fault : String)
deriving DecidableEq

structure ToolUse where
  field : String
  argumentBytes : Nat
  /-- Why the arguments cannot be read from the guest's memory. -/
  unreadable : Option String
  /-- The line of the receipt. -/
  line : String
  waited : Nat
  finish : ToolEnd
  cancelBefore : Bool
deriving DecidableEq

/-- One use of a host function that writes to the state of the door. -/
inductive Use where
  | print (text : List UInt8)
  | fleetCall (use : BridgeUse)
  | acuCall (use : BridgeUse) (acknowledged : Bool)
  | nativeCall (use : NativeUse)
  | nativeInvoke (use : NativeUse)
  | toolAnswer (use : ToolUse)
  | toolDirect (use : ToolUse)
  | toolArgCount (cancelBefore : Bool)

def noBridge : String := "agenterm: no fleet bridge is installed in this slot"
def noAcuBridge : String := "agenterm: no ACU bridge is installed in this slot"
def notUtf8 : String := "agenterm: fleet_call op and params must be UTF-8 text"
def acuNotUtf8 : String := "agenterm: acu_call command must be UTF-8 text"
def resultTooLarge : String :=
  "agenterm: fleet result exceeds the slot's max_bridge_result_bytes"
def acuResultTooLarge : String :=
  "agenterm: ACU result exceeds the slot's max_bridge_result_bytes"
def nativeResultTooLarge : String :=
  "agenterm: native result exceeds the slot's max_bridge_result_bytes"
def toolResultTooLarge : String := "tool: result exceeds the slot's max_bridge_result_bytes"
def bridgePanicked : String := "agenterm door: the fleet bridge panicked"
def acuBridgePanicked : String := "agenterm door: the ACU bridge panicked"
def acuCancelAckWithoutSignal : String :=
  "agenterm door: the ACU bridge acknowledged cancellation without a signal"
def nativeCallFailed : String := "agenterm door: native call failed"
def toolPanicked : String := "tool door: an operation panicked"

/-- An answer over the cap is replaced wholesale by a refusal. -/
def capped (budget : Budget) (refusal : String) (bytes : Nat) : Nat :=
  if bytes > budget.maxBridgeResultBytes then refusal.utf8ByteSize else bytes

/-- A line per call. -/
def print (text : List UInt8) : Door :=
  .update fun s => (s.writeStdout text).writeStdout [10]

/-- Ask the bridge: its answer or its message, or an answer of the door in place of it. A panic of
the bridge fails the call; `receive` is what the door does with an answer. -/
def askBridge (unreadable absent panicked : String) (use : BridgeUse)
    (receive : Nat → Fallible HostState WasmError Nat) : Fallible HostState WasmError Nat :=
  match use.utf8, use.bridge with
  | false, _ => pure unreadable.utf8ByteSize
  | true, none => pure absent.utf8ByteSize
  | true, some bridged => do
    waited bridged.waited
    match bridged.answer with
    | .ok bytes => receive bytes
    | .error panic => do
      failWith panic panicked
      pure 0

def fleetCall (budget : Budget) (use : BridgeUse) : Door := do
  charge "agenterm.fleet_call" use.argumentBytes use.cancelBefore
  let payload ← askBridge notUtf8 noBridge bridgePanicked use pure
  checkCancel use.cancelAfter
  answered (capped budget resultTooLarge payload)

/-- An answer of the ACU bridge; it may acknowledge a cancellation instead. -/
def receiveAcu (use : BridgeUse) (acknowledged : Bool) (bytes : Nat) :
    Fallible HostState WasmError Nat :=
  if acknowledged then do
    checkCancel use.cancelAfter
    .fail (.trap acuCancelAckWithoutSignal)
  else pure bytes

def acuCall (budget : Budget) (use : BridgeUse) (acknowledged : Bool) : Door := do
  charge "agenterm.acu_call" use.argumentBytes use.cancelBefore
  let payload ← askBridge acuNotUtf8 noAcuBridge acuBridgePanicked use
    (receiveAcu use acknowledged)
  answered (capped budget acuResultTooLarge payload)

/-- The result of a native operation; a fault of it fails the call. -/
def nativeResult (use : NativeUse) : Fallible HostState WasmError Nat :=
  match use.result with
  | .error fault => do
    failWith fault nativeCallFailed
    pure 0
  | .ok bytes => pure bytes

def nativeCall (use : NativeUse) : Door :=
  match use.positions with
  | some fault => failWith fault nativeCallFailed
  | none => do
    charge "agenterm.native_call" use.argumentBytes use.cancelBefore
    let _ ← nativeResult use
    answered 8
    checkCancel use.cancelAfter

def nativeInvoke (budget : Budget) (use : NativeUse) : Door := do
  charge "agenterm.native_invoke" use.argumentBytes use.cancelBefore
  let payload ← nativeResult use
  checkCancel use.cancelAfter
  answered (capped budget nativeResultTooLarge payload)

/-- Put a line on the receipt. -/
def recordCall (line : String) : Door :=
  .update fun s =>
    { s with tool := s.tool.map fun tool => { tool with calls := tool.calls ++ [line] } }

/-- An operation of the tool door, when the slot has one: `bind_metered` bills it, and its line
goes on the receipt when its arguments can be read. -/
def meteredTool (use : ToolUse) (run : Door) : Door := fun s =>
  match s.tool with
  | none => (.error (.trap "no tool door"), s)
  | some _ =>
    (do
      charge ("tool." ++ use.field) use.argumentBytes use.cancelBefore
      match use.unreadable with
      | some text => .fail (.trap text)
      | none => do
        recordCall use.line
        run : Door) s

/-- How an operation of the tool door traps. -/
def toolFailWith (fault : String) : Door := do
  .update fun s => { s with tool := s.tool.map fun tool => { tool with fault := some fault } }
  .fail (.trap toolPanicked)

/-- The wait saw the flag. -/
def toolCancelled (flag : Bool) : Door := do
  .update fun s =>
    { s with meter := { s.meter with cancelled := s.meter.cancelled || flag } }
  .fail (.trap cancelledByHost)

/-- The end of an operation whose answer is a text. -/
def endAnswer (budget : Budget) : ToolEnd → Door
  | .answer bytes => answered (capped budget toolResultTooLarge bytes)
  | .message bytes => answered (capped budget toolResultTooLarge bytes)
  | .cancelled flag => toolCancelled flag
  | .panicked fault => toolFailWith fault

def toolAnswer (budget : Budget) (use : ToolUse) : Door :=
  meteredTool use (endAnswer budget use.finish)

/-- The `tool.*` operations whose time is waiting rather than computing. -/
def waitingOps : List String :=
  ["time.sleep_ms", "process.wait", "process.command", "process.command_stdout"]

/-- The end of an operation whose answer is a number. -/
def endDirect (budget : Budget) : ToolEnd → Door
  | .answer _ => pure ()
  | .message bytes => answered (capped budget toolResultTooLarge bytes)
  | .cancelled flag => toolCancelled flag
  | .panicked fault => toolFailWith fault

def toolDirect (budget : Budget) (use : ToolUse) : Door :=
  meteredTool use <| do
    waited (if use.field ∈ waitingOps then use.waited else 0)
    endDirect budget use.finish

/-- `tool.arg_count`: `bind_metered` bills it, and nothing goes on the receipt. -/
def toolArgCount (cancelBefore : Bool) : Door := fun s =>
  match s.tool with
  | none => (.error (.trap "no tool door"), s)
  | some _ => charge "tool.arg_count" 0 cancelBefore s

def Use.perform (budget : Budget) : Use → Door
  | .print text => Qjswasm.print text
  | .fleetCall use => Qjswasm.fleetCall budget use
  | .acuCall use acknowledged => Qjswasm.acuCall budget use acknowledged
  | .nativeCall use => Qjswasm.nativeCall use
  | .nativeInvoke use => Qjswasm.nativeInvoke budget use
  | .toolAnswer use => Qjswasm.toolAnswer budget use
  | .toolDirect use => Qjswasm.toolDirect budget use
  | .toolArgCount cancelBefore => Qjswasm.toolArgCount cancelBefore

/-- The uses in order, up to the first trap. -/
def performAll (budget : Budget) : List Use → Door
  | [] => pure ()
  | use :: uses => do
    use.perform budget
    performAll budget uses

end Agenterm.Qjswasm
