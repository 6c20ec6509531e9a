import Agenterm.Qjswasm.Host

/-!
# A slot and its calls

`Slot.load` and `Slot.call` of `slot.rs`, and `Engine.call` of `lib.rs` for one live slot. The
guest is not modelled: an `Activation` is one run of a function of it, with the uses of the door
that it makes and how it ends, and a `Call` carries the activations that happen during it. What
the face decides before the guest is entered (`refused`), what the guest recorded about its own
failure (`recorded`) and the value in its memory (`js`) are part of the call as well.
-/

namespace Agenterm.Qjswasm

open Lib

inductive Convention where
  | wasm | jsV1
deriving DecidableEq

/-- `tinyvm::Val`; floating point numbers are their bits. -/
inductive Val where
  | i32 (n : Int)
  | i64 (n : Int)
  | f32 (bits : UInt32)
  | f64 (bits : UInt64)
  | reference
deriving DecidableEq

inductive JsValue where
  | undefined
  | null
  | bool (b : Bool)
  | number (bits : UInt64)
  | str (s : String)
deriving DecidableEq

inductive Value where
  | i32 (n : Int)
  | i64 (n : Int)
  | f32 (bits : UInt32)
  | f64 (bits : UInt64)
  | js (value : JsValue)
deriving DecidableEq

inductive QjswasmError where
  | load (error : WasmError)
  | trap (error : WasmError)
  | uncaughtThrow (message : Option String)
  | capabilityBoundary (which : Option String)
  | unsupportedMethod (name : Option String)
  | hostArgument (at_ : Option (String × Nat))
  | propertyOfNonObject (key : Option String)
  | notAFunction (callee : Option String)
  | noPrimitiveForm (kind : Option String)
  | invalidWrite (what : Option String)
  | cancelled
  | budget (name : String)
  | door (why : String)
  | noSuchExport (why : String)
  | signature (why : String)
  | unsupportedValue (why : String)
deriving DecidableEq

def classify : WasmError → QjswasmError
  | .ceiling name => .budget name
  | .load text => .load (.load text)
  | .interruption => .cancelled
  | .trap text => .trap (.trap text)

/-- The other direction is partial. -/
def fromVal : Val → Except QjswasmError Value
  | .i32 n => .ok (.i32 n)
  | .i64 n => .ok (.i64 n)
  | .f32 bits => .ok (.f32 bits)
  | .f64 bits => .ok (.f64 bits)
  | .reference =>
    .error (.unsupportedValue "export returned a reference or vector value type")

/-- One run of a function of the guest: its uses of the door, up to a trap of the door, and how
it ends when none of them traps. -/
structure Activation where
  uses : List Use
  result : Except WasmError (List Val)

/-- `invoke_by_name`. -/
def Activation.invoke (budget : Budget) (activation : Activation) :
    Fallible HostState WasmError (List Val) := do
  performAll budget activation.uses
  .answer activation.result

/-- A counter that the guest may export: the lookup of the export, and what it does. -/
abbrev Probe : Type := Except WasmError (Option Activation)

/-- The value of a counter. -/
def counter : List Val → Option Nat
  | [.i32 n] => if n ≥ 0 then some n.toNat else none
  | _ => none

def allocationCounter (budget : Budget) (convention : Convention) (probe : Probe) :
    Fallible HostState QjswasmError (Option Nat) :=
  if convention ≠ .jsV1 then pure none
  else
    match probe with
    | .error fault => .fail (classify fault)
    | .ok none => pure none
    | .ok (some activation) => do
      let values ← (activation.invoke budget).onPart id (fun _ s => s) classify
      match counter values with
      | some n => pure (some n)
      | none => .fail (.trap (.trap "allocation probe returned an invalid counter"))

/-- What the core measured during an activation. -/
structure Measured where
  steps : Nat
  peakCallDepth : Nat
  peakActivationSlots : Nat
  heapPages : Nat
  trapFunctionIndex : Option Nat
deriving DecidableEq

structure Counters where
  heapBytes : Option Nat
  jsonParseBytes : Option Nat
  jsonStringifyBytes : Option Nat
  immediateStringifyHostArgumentBytes : Option Nat
deriving DecidableEq

structure Cost where
  measured : Measured
  hostOps : Nat
  hostBytes : Nat
  waitedMs : Nat
  counters : Counters
  heapStartBytes : Option Nat
  lastDoor : Option LastDoor
deriving DecidableEq

structure Outcome where
  values : List Value
  stdout : String
  truncatedStdout : Bool
  toolCalls : List String
  measured : Measured
  hostOps : Nat
  hostBytes : Nat
  waitedMs : Nat
  counters : Counters
  heapStartBytes : Option Nat
deriving DecidableEq

structure Slot where
  door : HostState
  convention : Convention
  failedStdout : String
  failedStdoutTruncated : Bool
  failedToolCalls : List String
  failedCost : Option Cost
  heapStartBytes : Option Nat
deriving DecidableEq

/-- What happens when a module is loaded: a refusal before the guest runs, the start function and
the first reading of the heap counter. -/
structure Load where
  refused : Option QjswasmError
  start : Activation
  waterline : Probe

/-- Say what a failed invocation was: the door is asked first, then the guest. -/
def explain (convention : Convention) (recorded : Option QjswasmError) (fault : WasmError)
    (door : HostState) : QjswasmError × HostState :=
  let (cancelled, door) := door.takeCancelled
  if cancelled then (.cancelled, door)
  else
    let (refusal, door) := door.takeBudgetRefusal
    match refusal with
    | some budget => (.budget budget, door)
    | none =>
      let (broken, door) := door.takeFault
      match broken with
      | some why => (.door why, door)
      | none =>
        match convention, recorded with
        | .jsV1, some error => (error, door)
        | _, _ => (classify fault, door)

namespace Slot

def load (budget : Budget) (convention : Convention) (toolDoor : Bool) (load : Load) :
    Except QjswasmError Slot :=
  match load.refused with
  | some error => .error error
  | none =>
    match load.start.invoke budget (.install budget toolDoor) with
    | (.error fault, door) => .error (explain .wasm none fault door).1
    | (.ok _, door) =>
      match allocationCounter budget convention load.waterline door with
      | (.error error, _) => .error error
      | (.ok heapStartBytes, door) => .ok {
          door := door
          convention := convention
          failedStdout := ""
          failedStdoutTruncated := false
          failedToolCalls := []
          failedCost := none
          heapStartBytes := heapStartBytes }

end Slot

/-- What happens during a call. -/
structure Call where
  /-- Refused by the conversion of the arguments or by `check_entry`. -/
  refused : Option QjswasmError
  entry : Activation
  measured : Measured
  waterline : Probe
  jsonParse : Probe
  jsonStringify : Probe
  immediateStringify : Probe
  /-- The reason that the guest recorded for a failure. -/
  recorded : Option QjswasmError
  /-- The value that the returned words stand for. -/
  js : Except QjswasmError JsValue

/-- The four counters, read only after an entry that returned. -/
def readCounters (budget : Budget) (convention : Convention) (call : Call) (returned : Bool) :
    Fallible HostState QjswasmError Counters :=
  if returned then do
    let heapBytes ← allocationCounter budget convention call.waterline
    let jsonParseBytes ← allocationCounter budget convention call.jsonParse
    let jsonStringifyBytes ← allocationCounter budget convention call.jsonStringify
    let immediate ← allocationCounter budget convention call.immediateStringify
    pure ⟨heapBytes, jsonParseBytes, jsonStringifyBytes, immediate⟩
  else pure ⟨none, none, none, none⟩

/-- The values of an entry that returned. -/
def returnedValues (convention : Convention) (call : Call) (returned : List Val) :
    Except QjswasmError (List Value) :=
  match convention with
  | .wasm => returned.mapM fromVal
  | .jsV1 => call.js.map fun value => [.js value]

/-- What a call takes from the door at its end. -/
structure Drained where
  stdout : String
  truncatedStdout : Bool
  toolCalls : List String
  bill : Nat × Nat × Nat
  lastDoor : Option LastDoor

def drain (lossy : List UInt8 → String) (door : HostState) : Drained × HostState :=
  let ((stdout, truncated), door) := door.takeStdout lossy
  let (toolCalls, door) := door.takeToolCalls
  let (bill, door) := door.takeMeter
  let (lastDoor, door) := door.takeLastDoor
  (⟨stdout, truncated, toolCalls, bill, lastDoor⟩, door)

def Slot.call (lossy : List UInt8 → String) (budget : Budget) (call : Call) (slot : Slot) :
    Except QjswasmError Outcome × Slot :=
  match call.refused with
  | some error => (.error error, slot)
  | none =>
    let (result, door) := call.entry.invoke budget slot.door
    match readCounters budget slot.convention call result.isOk door with
    -- a counter that cannot be read returns here, before the door is drained
    | (.error error, door) => (.error error, { slot with door := door })
    | (.ok counters, door) =>
      let (drained, door) := drain lossy door
      match result with
      | .error fault =>
        let (error, door) := explain slot.convention call.recorded fault door
        (.error error, { slot with
          door := door
          failedStdout := drained.stdout
          failedStdoutTruncated := drained.truncatedStdout
          failedToolCalls := drained.toolCalls
          failedCost := some {
            measured := call.measured
            hostOps := drained.bill.1
            hostBytes := drained.bill.2.1
            waitedMs := drained.bill.2.2
            counters := ⟨none, none, none, none⟩
            heapStartBytes := slot.heapStartBytes
            lastDoor := drained.lastDoor } })
      | .ok returned =>
        match returnedValues slot.convention call returned with
        | .error error => (.error error, { slot with door := door })
        | .ok values =>
          (.ok {
            values := values
            stdout := drained.stdout
            truncatedStdout := drained.truncatedStdout
            toolCalls := drained.toolCalls
            measured := { call.measured with trapFunctionIndex := none }
            hostOps := drained.bill.1
            hostBytes := drained.bill.2.1
            waitedMs := drained.bill.2.2
            counters := counters
            heapStartBytes := slot.heapStartBytes }, { slot with door := door })

/-- The engine, as far as one live slot of it goes. -/
structure Engine where
  slot : Slot
  failedStdout : String
  failedStdoutTruncated : Bool
  failedToolCalls : List String
  failedCost : Option Cost
deriving DecidableEq

/-- The engine after the slot was spawned. -/
def Engine.new (slot : Slot) : Engine where
  slot := slot
  failedStdout := ""
  failedStdoutTruncated := false
  failedToolCalls := []
  failedCost := none

/-- `Engine::call`: the failed evidence describes this call, never an earlier one. -/
def Engine.call (lossy : List UInt8 → String) (budget : Budget) (call : Call) (engine : Engine) :
    Except QjswasmError Outcome × Engine :=
  let (outcome, slot) := engine.slot.call lossy budget call
  match outcome with
  | .ok outcome => (.ok outcome, .new slot)
  | .error error =>
    (.error error, {
      slot := { slot with
        failedStdout := ""
        failedStdoutTruncated := false
        failedToolCalls := []
        failedCost := none }
      failedStdout := slot.failedStdout
      failedStdoutTruncated := slot.failedStdoutTruncated
      failedToolCalls := slot.failedToolCalls
      failedCost := slot.failedCost })

end Agenterm.Qjswasm
