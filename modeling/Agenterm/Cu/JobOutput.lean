import Agenterm.Lib.Run
import Agenterm.Terminal.OutputRing

/-!
# The output of a managed job

`CursorRing` of `managed_job_owner.rs` keeps the last bytes of one stream of a job. The thread of
`spawn_drain` is the only one that appends to it; the owner reads pages, which `managed_job_ipc.rs`
sends as base64.
-/

namespace Agenterm.Cu

open Lib

def outputPageMax : Nat := 64 * 1024

structure OutputPage where
  cursor : Nat
  nextCursor : Nat
  currentCursor : Nat
  bytes : List UInt8
  finalized : Bool
  readError : Option String
deriving DecidableEq

inductive OutputCursorError where
  | retentionGap (earliestCursor : Nat)
  | futureCursor (currentCursor : Nat)
  | pageLimit
deriving DecidableEq

structure CursorRing where
  capacity : Nat
  bytes : List UInt8
  currentCursor : Nat
  finalized : Bool
  readError : Option String
deriving DecidableEq

namespace CursorRing

def new (capacity : Nat) : CursorRing where
  capacity := capacity
  bytes := []
  currentCursor := 0
  finalized := false
  readError := none

/-- The cursor is 64 bits wide. -/
def append (ring : CursorRing) (incoming : List UInt8) : Except String CursorRing :=
  if u64Max < ring.currentCursor + incoming.length then
    .error "managed-job output cursor overflow"
  else
    let ring := { ring with currentCursor := ring.currentCursor + incoming.length }
    if ring.capacity ≤ incoming.length then
      .ok { ring with bytes := incoming.drop (incoming.length - ring.capacity) }
    else
      let overflow := ring.bytes.length + incoming.length - ring.capacity
      .ok { ring with bytes := ring.bytes.drop overflow ++ incoming }

def finish (ring : CursorRing) (readError : Option String) : CursorRing :=
  { ring with finalized := true, readError := readError }

def earliestCursor (ring : CursorRing) : Nat := ring.currentCursor - ring.bytes.length

def page (ring : CursorRing) (cursor limit : Nat) : Except OutputCursorError OutputPage :=
  if limit < 1 ∨ outputPageMax < limit then .error .pageLimit
  else if cursor < ring.earliestCursor then .error (.retentionGap ring.earliestCursor)
  else if ring.currentCursor < cursor then .error (.futureCursor ring.currentCursor)
  else
    let bytes := (ring.bytes.drop (cursor - ring.earliestCursor)).take limit
    let nextCursor := cursor + bytes.length
    .ok
      { cursor := cursor
        nextCursor := nextCursor
        currentCursor := ring.currentCursor
        bytes := bytes
        finalized := ring.finalized && nextCursor = ring.currentCursor
        readError := ring.readError }

end CursorRing

/-! ## The thread that drains a stream -/

/-- What the pipe answers to one read. -/
inductive PipeRead where
  | eof
  | bytes (bytes : List UInt8)
  | interrupted
  | failed
deriving DecidableEq

inductive DrainThread where
  | running
  | returned
  | panicked
deriving DecidableEq

/-- A ring with the thread that fills it. `stream` records what was appended. -/
structure OutputDrain where
  ring : CursorRing
  thread : DrainThread
  stream : List UInt8
deriving DecidableEq

inductive DrainEvent where
  | read (read : PipeRead)
  | panic
  /-- `join_drain`. -/
  | join
deriving DecidableEq

namespace OutputDrain

def start (capacity : Nat) : OutputDrain := ⟨.new capacity, .running, []⟩

/-- The thread ends after it has marked the ring. -/
def finish (drain : OutputDrain) (readError : Option String) : OutputDrain :=
  { drain with ring := drain.ring.finish readError, thread := .returned }

/-- One round of the loop. -/
def read (drain : OutputDrain) : PipeRead → OutputDrain
  | .eof => drain.finish none
  | .bytes bytes =>
    match drain.ring.append bytes with
    | .ok ring => { drain with ring := ring, stream := drain.stream ++ bytes }
    | .error _ => drain.finish (some "managed_job_output_cursor_overflow")
  | .interrupted => drain
  | .failed => drain.finish (some "managed_job_output_read_failed")

def step (drain : OutputDrain) : DrainEvent → OutputDrain
  | .read read => if drain.thread = .running then drain.read read else drain
  | .panic => if drain.thread = .running then { drain with thread := .panicked } else drain
  | .join =>
    if drain.thread = .panicked then
      { drain with ring := drain.ring.finish (some "managed_job_output_drain_panicked") }
    else drain

end OutputDrain

/-! ## Base64 -/

def base64Encode (bytes : List UInt8) : String := encodeBase64 bytes

def base64Value (byte : UInt8) : Option UInt8 :=
  if 65 ≤ byte ∧ byte ≤ 90 then some (byte - 65)
  else if 97 ≤ byte ∧ byte ≤ 122 then some (byte - 97 + 26)
  else if 48 ≤ byte ∧ byte ≤ 57 then some (byte - 48 + 52)
  else if byte = 43 then some 62
  else if byte = 47 then some 63
  else none

/-- `b'='`. -/
def padByte : UInt8 := 61

/-- The sextet of a byte of a chunk. The padding byte stands for zero where it may occur. -/
def paddedValue (allowed : Bool) (byte : UInt8) : Option UInt8 :=
  if byte = padByte then if allowed then some 0 else none else base64Value byte

/-- The bytes of one chunk of four. -/
def decodeChunk (finalChunk : Bool) (first second third fourth : UInt8) : Option (List UInt8) := do
  let a ← base64Value first
  let b ← base64Value second
  let c ← paddedValue (finalChunk && fourth = padByte) third
  let d ← paddedValue finalChunk fourth
  some ([(a <<< 2) ||| (b >>> 4)] ++
    (if third ≠ padByte then [(b <<< 4) ||| (c >>> 2)] else []) ++
    (if fourth ≠ padByte then [(c <<< 6) ||| d] else []))

/-- The loop of `base64_decode`, over chunks of four bytes. -/
def decodeChunks : List UInt8 → Option (List UInt8)
  | first :: second :: third :: fourth :: rest => do
    let chunk ← decodeChunk rest.isEmpty first second third fourth
    let tail ← decodeChunks rest
    some (chunk ++ tail)
  | _ => some []

def base64Decode (value : String) : Option (List UInt8) :=
  if value.utf8ByteSize % 4 ≠ 0 ∨ value.toList.any (127 < ·.toNat) then none
  else decodeChunks (value.toList.map fun c => UInt8.ofNat c.toNat)

/-! ## A client that reads on -/

/-- A client that reads pages, each from the cursor that the last one named, with the texts that it
was sent. -/
structure PageReader where
  drain : OutputDrain
  cursor : Nat
  received : List String
deriving DecidableEq

inductive PageEvent where
  | drain (event : DrainEvent)
  | page (limit : Nat)
deriving DecidableEq

def PageReader.step (reader : PageReader) : PageEvent → PageReader
  | .drain event => { reader with drain := reader.drain.step event }
  | .page limit =>
    match reader.drain.ring.page reader.cursor limit with
    | .ok page =>
      { reader with
        cursor := page.nextCursor
        received := reader.received ++ [base64Encode page.bytes] }
    | .error _ => reader

end Agenterm.Cu
