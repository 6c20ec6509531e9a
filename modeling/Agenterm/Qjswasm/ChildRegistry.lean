import Mathlib.Algebra.Group.Int.Defs
import Agenterm.Lib.Run
import Mathlib.Data.Int.Basic
import Std.Data.TreeMap.Lemmas

/-!
# Child processes of a slot

The `process.*` operations of the tool door (`tool.rs`) that take or return a child handle. A child
is a native process tree and is not modelled: `Child` is any type, and what the platform answers for
it is an argument of the operations. What an operation does to children is the list of its
`Effect`s. How a capture is decoded to text is the parameter `lossy`.
-/

namespace Agenterm.Qjswasm

open Std

def processChildHandleLimit : Nat := 32

/-- `i32::MAX`. -/
def i32Max : Int := 2 ^ 31 - 1

structure FrozenProcessIdentity where
  pid : UInt32
  startIdentity : String
deriving DecidableEq

/-- What a child writes to a pipe, as far as it was kept. -/
structure CaptureBuffer where
  bytes : List UInt8
  truncated : Bool

/-- A child that has not been waited for. Its clock and pipes are arguments of the operations. -/
structure Running (Child : Type) where
  child : Child
  deadlineMs : Option Nat
  killedByDeadline : Bool
  readStdout : Nat
  readStderr : Nat
  frozen : Option FrozenProcessIdentity

inductive Handle (Child : Type) where
  | running (running : Running Child)
  | done (pid : UInt32) (answer : Except String String) (frozen : Option FrozenProcessIdentity)

structure ChildRegistry (Child : Type) where
  live : TreeMap Int (Handle Child)
  /-- `none` once the last id was minted. -/
  nextId : Option Int

def ChildRegistry.new (Child : Type) : ChildRegistry Child where
  live := ∅
  nextId := some 0

/-- What an operation does to a child. -/
inductive Effect (Child : Type) where
  | launch (child : Child)
  | tryWait (child : Child)
  | terminate (child : Child)
  | readPipes (child : Child)
  | readPid (child : Child)
  /-- `finish_child`, which waits for the child, and terminates it when the time is up. -/
  | finish (child : Child)

def Effect.child {Child : Type} : Effect Child → Child
  | .launch child | .tryWait child | .terminate child | .readPipes child | .readPid child
  | .finish child => child

/-- The answer of `try_wait`. -/
inductive TryWait where
  | exited
  | running
  | failed
deriving DecidableEq

def TryWait.text : TryWait → String
  | .exited => "exited"
  | .running => "running"
  | .failed => "unknown"

/-- An operation, with what the platform answers. -/
inductive Op (Child : Type) where
  /-- The spec is what the text parses to: the `timeout_ms` of the command, or an error. -/
  | spawn (spec : Except String (Option Nat)) (launch : Except String Child)
  | spawnFrozen (spec : Except String (Option Nat))
      (launch : Except String (Child × FrozenProcessIdentity))
  | identity (handle : Int)
  | state (handle : Int) (elapsedMs : Nat) (tryWait : TryWait)
  | kill (handle : Int) (terminate : Except String Unit)
  | release (handle : Int)
  /-- `finish` is the answer of `finish_child`, absent when it panics. -/
  | wait (handle timeoutMs : Int) (finish : Option (Except String String))
  | pid (handle : Int)
  | read (handle maxBytes : Int) (elapsedMs : Nat) (stdout stderr : Option CaptureBuffer)
      (tryWait : TryWait)

/-- The answer of `process.read`. -/
structure ReadAnswer where
  stdout : String
  stderr : String
  stdoutTruncated : Bool
  stderrTruncated : Bool
  state : String
deriving DecidableEq

inductive Reply where
  | number (value : Int)
  | text (value : String)
  | identity (value : FrozenProcessIdentity)
  | read (value : ReadAnswer)
  | error (message : String)
  | panicked
deriving DecidableEq

/-- The reply of an operation whose answer is a text. -/
def Reply.ofText : Except String String → Reply
  | .ok answer => .text answer
  | .error failure => .error failure

/-- What an operation comes to. -/
structure Result (Child : Type) where
  registry : ChildRegistry Child
  reply : Reply
  effects : List (Effect Child)

section
variable {Child : Type}

def Running.afterDeadline (running : Running Child) (elapsedMs : Nat) : Bool :=
  !running.killedByDeadline && running.deadlineMs.any (fun deadline => deadline ≤ elapsedMs)

/-- `enforce_deadline`: the child is terminated once its deadline has passed. -/
def Running.enforceDeadline (running : Running Child) (elapsedMs : Nat) :
    Running Child × List (Effect Child) :=
  if running.afterDeadline elapsedMs then
    ({ running with killedByDeadline := true }, [.terminate running.child])
  else
    (running, [])

/-- `Drains::since`: the text from a position on, where the buffer ends now, and whether it was
cut. -/
def since (lossy : List UInt8 → String) (buffer : Option CaptureBuffer) (start : Nat) :
    String × Nat × Bool :=
  match buffer with
  | none => ("", start, false)
  | some buffer =>
    (lossy (buffer.bytes.drop start), max buffer.bytes.length start, buffer.truncated)

/-- The longest prefix of at most `room` bytes that ends between characters. -/
def prefixWithin : Nat → List Char → List Char
  | _, [] => []
  | room, c :: chars =>
    if c.utf8Size ≤ room then c :: prefixWithin (room - c.utf8Size) chars else []

/-- `cut` of `process.read`: what is handed out, and how far the reading comes. -/
def cut (maxBytes start : Nat) (text : String) : String × Nat :=
  if text.utf8ByteSize ≤ maxBytes then
    (text, start + text.utf8ByteSize)
  else
    let handedOut := String.ofList (prefixWithin maxBytes text.toList)
    (handedOut, start + handedOut.utf8ByteSize)

namespace ChildRegistry

variable (registry : ChildRegistry Child)

def reserveId (door : String) : Except String (Int × ChildRegistry Child) :=
  if registry.live.size ≥ processChildHandleLimit then
    .error (door ++ ": child handle limit " ++ toString processChildHandleLimit ++ " reached")
  else
    match registry.nextId with
    | none => .error (door ++ ": child handle id space exhausted")
    | some id => .ok (id, { registry with nextId := if id < i32Max then some (id + 1) else none })

def insert (id : Int) (handle : Handle Child) : ChildRegistry Child :=
  { registry with live := registry.live.insert id handle }

/-- An operation that fails. -/
def fails (message : String) : Result Child := ⟨registry, .error message, []⟩

/-- The error for a handle that has no child. -/
def noChild (door : String) (handle : Int) : Result Child :=
  registry.fails (door ++ ": no child with handle " ++ toString handle)

/-- `process.spawn` and `process.spawn_frozen`: the id is reserved before the child is started. -/
def launch (door : String) (spec : Except String (Option Nat))
    (started : Except String (Child × Option FrozenProcessIdentity)) : Result Child :=
  match registry.reserveId door with
  | .error message => registry.fails message
  | .ok (id, reserved) =>
    match spec with
    | .error message => reserved.fails message
    | .ok deadlineMs =>
      match started with
      | .error message => reserved.fails message
      | .ok (child, frozen) =>
        let running :=
          { child, deadlineMs, killedByDeadline := false, readStdout := 0, readStderr := 0, frozen }
        ⟨reserved.insert id (.running running), .number id, [.launch child]⟩

def spawn (spec : Except String (Option Nat)) (started : Except String Child) : Result Child :=
  registry.launch "process.spawn" spec (started.map fun child => (child, none))

def spawnFrozen (spec : Except String (Option Nat))
    (started : Except String (Child × FrozenProcessIdentity)) : Result Child :=
  registry.launch "process.spawn_frozen" spec
    (started.map fun (child, identity) => (child, some identity))

def identity (handle : Int) : Result Child :=
  match registry.live[handle]? with
  | none => registry.noChild "process.identity" handle
  | some slot =>
    let frozen := match slot with
      | .running running => running.frozen
      | .done _ _ frozen => frozen
    match frozen with
    | none =>
      registry.fails ("process.identity: child " ++ toString handle ++ " was not spawned frozen")
    | some identity => ⟨registry, .identity identity, []⟩

def state (handle : Int) (elapsedMs : Nat) (tryWait : TryWait) : Result Child :=
  match registry.live[handle]? with
  | none => registry.noChild "process.state" handle
  | some (.done ..) => ⟨registry, .text "exited", []⟩
  | some (.running running) =>
    let (running, terminated) := running.enforceDeadline elapsedMs
    ⟨registry.insert handle (.running running), .text tryWait.text,
      terminated ++ [.tryWait running.child]⟩

def kill (handle : Int) (terminate : Except String Unit) : Result Child :=
  match registry.live[handle]? with
  | none => registry.noChild "process.kill" handle
  | some (.done ..) => ⟨registry, .number 0, []⟩
  | some (.running running) =>
    let reply := match terminate with
      | .ok () => .number 0
      | .error error => .error ("process.kill: owned tree cleanup: " ++ error)
    ⟨registry, reply, [.terminate running.child]⟩

def release (handle : Int) : Result Child :=
  match registry.live[handle]? with
  | none => registry.noChild "process.release" handle
  | some (.running _) =>
    registry.fails ("process.release: child " ++ toString handle ++ " is still running")
  | some (.done ..) => ⟨{ registry with live := registry.live.erase handle }, .text "", []⟩

variable (pid : Child → UInt32)

/-- The child is taken out for the wait, and its slot holds an answer from then on; when
`finish_child` panics, that is the one it was left with. -/
def wait (handle timeoutMs : Int) (finish : Option (Except String String)) : Result Child :=
  if timeoutMs < 0 then
    registry.fails "process.wait: timeout_ms is negative"
  else
    match registry.live[handle]? with
    | none => registry.noChild "process.wait" handle
    | some (.done _ answer _) => ⟨registry, .ofText answer, []⟩
    | some (.running running) =>
      let slot (answer : Except String String) : Handle Child :=
        .done (pid running.child) answer running.frozen
      match finish with
      | none =>
        let waiting := .error ("process.wait: handle " ++ toString handle ++ " is being waited")
        ⟨registry.insert handle (slot waiting), .panicked, [.finish running.child]⟩
      | some answer =>
        ⟨registry.insert handle (slot answer), .ofText answer, [.finish running.child]⟩

/-- `i32::try_from(pid).unwrap_or(i32::MAX)`. -/
def pidNumber (pid : UInt32) : Int := min (pid.toNat : Int) i32Max

/-- `process.pid`. -/
def pidOf (handle : Int) : Result Child :=
  match registry.live[handle]? with
  | none => registry.noChild "process.pid" handle
  | some (.done pid _ _) => ⟨registry, .number (pidNumber pid), []⟩
  | some (.running running) =>
    ⟨registry, .number (pidNumber (pid running.child)), [.readPid running.child]⟩

variable (lossy : List UInt8 → String)

def read (handle maxBytes : Int) (elapsedMs : Nat) (stdout stderr : Option CaptureBuffer)
    (tryWait : TryWait) : Result Child :=
  if maxBytes < 0 then
    registry.fails "process.read: max_bytes is negative"
  else
    match registry.live[handle]? with
    | none => registry.noChild "process.read" handle
    | some (.done ..) => ⟨registry, .read ⟨"", "", false, false, "exited"⟩, []⟩
    | some (.running running) =>
      let (running, terminated) := running.enforceDeadline elapsedMs
      let (out, endOut, stdoutTruncated) := since lossy stdout running.readStdout
      let (err, endErr, stderrTruncated) := since lossy stderr running.readStderr
      let (out, readStdout) := cut maxBytes.toNat running.readStdout out
      let (err, readStderr) := cut maxBytes.toNat running.readStderr err
      let running :=
        { running with readStdout := min readStdout endOut, readStderr := min readStderr endErr }
      ⟨registry.insert handle (.running running),
        .read ⟨out, err, stdoutTruncated, stderrTruncated, tryWait.text⟩,
        terminated ++ [.readPipes running.child, .tryWait running.child]⟩

/-- One operation of the guest. -/
def step : Op Child → Result Child
  | .spawn spec launch => registry.spawn spec launch
  | .spawnFrozen spec launch => registry.spawnFrozen spec launch
  | .identity handle => registry.identity handle
  | .state handle elapsedMs tryWait => registry.state handle elapsedMs tryWait
  | .kill handle terminate => registry.kill handle terminate
  | .release handle => registry.release handle
  | .wait handle timeoutMs finish => registry.wait pid handle timeoutMs finish
  | .pid handle => registry.pidOf pid handle
  | .read handle maxBytes elapsedMs stdout stderr tryWait =>
    registry.read lossy handle maxBytes elapsedMs stdout stderr tryWait

/-- The children that `Drop for ToolState` terminates. -/
def droppedChildren : List Child :=
  registry.live.toList.filterMap fun (_, slot) =>
    match slot with
    | .running running => some running.child
    | .done .. => none

end ChildRegistry

end

end Agenterm.Qjswasm
