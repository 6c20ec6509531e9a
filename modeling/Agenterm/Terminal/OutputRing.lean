import Agenterm.Lib.Base64
import Agenterm.Protocol

/-!
# Retained terminal output

`BoundedByteRing` of `terminal_lifecycle.rs` keeps the last bytes a terminal wrote, while
`output_bytes` counts all of them. `read_terminal_output` and the command `capture-output` of
`control_dispatch.rs` read from an absolute position of the stream, as long as it is retained.
-/

namespace Agenterm

/-- `VecDeque<u8>` with a capacity. -/
structure BoundedByteRing where
  bytes : List UInt8
  capacity : Nat
deriving DecidableEq

namespace BoundedByteRing

def new (capacity : Nat) : BoundedByteRing := { bytes := [], capacity }

def extend (ring : BoundedByteRing) (incoming : List UInt8) : BoundedByteRing :=
  if ring.capacity = 0 then
    ring
  else if incoming.length ≥ ring.capacity then
    { ring with bytes := incoming.drop (incoming.length - ring.capacity) }
  else
    let overflow := ring.bytes.length + incoming.length - ring.capacity
    { ring with bytes := ring.bytes.drop overflow ++ incoming }

def len (ring : BoundedByteRing) : Nat := ring.bytes.length

def copyFrom (ring : BoundedByteRing) (offset maximum : Nat) : List UInt8 :=
  (ring.bytes.drop (min offset ring.bytes.length)).take maximum

end BoundedByteRing

/-- The output side of a terminal: what is retained, and how much there was. The count is a `usize`;
streams of `2 ^ 64` bytes and more, with which it overflows, are left out. -/
structure TerminalOutput where
  rawOutput : BoundedByteRing
  outputBytes : Nat
deriving DecidableEq

namespace TerminalOutput

def new (capacity : Nat) : TerminalOutput :=
  { rawOutput := .new capacity, outputBytes := 0 }

/-- A chunk of output arrives. -/
def feed (output : TerminalOutput) (chunk : List UInt8) : TerminalOutput where
  outputBytes := output.outputBytes + chunk.length
  rawOutput := output.rawOutput.extend chunk

end TerminalOutput

inductive TerminalOutputCursor where
  | earliest
  | current
  | absolute (value : Nat)
deriving DecidableEq

structure TerminalOutputData where
  earliest : Nat
  current : Nat
  start : Nat
  next : Nat
  bytes : List UInt8
deriving DecidableEq

inductive TerminalOutputRead where
  | data (data : TerminalOutputData)
  | gap (requested earliest current : Nat)
  | future (requested current : Nat)
deriving DecidableEq

/-- `str::parse::<usize>`. -/
def parseUsize (value : String) : Option Nat :=
  let digits := match value.toList with
    | '+' :: rest => rest
    | chars => chars
  if digits ≠ [] ∧ digits.all Char.isDigit then
    let n := digits.foldl (fun n c => n * 10 + (c.toNat - '0'.toNat)) 0
    if n ≤ u64Max then some n else none
  else
    none

def parseTerminalOutputCursor (value : String) : Except String TerminalOutputCursor :=
  if value = "earliest" then
    .ok .earliest
  else if value = "current" then
    .ok .current
  else
    match parseUsize value with
    | some position => .ok (.absolute position)
    | none =>
      .error "capture-output --cursor must be earliest, current, or a non-negative integer"

/-- The position a cursor names. -/
def TerminalOutputCursor.requested (cursor : TerminalOutputCursor) (earliest current : Nat) : Nat :=
  match cursor with
  | .earliest => earliest
  | .current => current
  | .absolute value => value

def readTerminalOutput (retained : BoundedByteRing) (current : Nat) (cursor : TerminalOutputCursor)
    (maximum : Nat) : TerminalOutputRead :=
  let earliest := current - retained.len
  let requested := cursor.requested earliest current
  if requested < earliest then
    .gap requested earliest current
  else if requested > current then
    .future requested current
  else
    let bytes := retained.copyFrom (requested - earliest) maximum
    -- the sum is at most `current`, so it does not saturate
    let next := requested + bytes.length
    .data { earliest, current, start := requested, next, bytes }

/-! ## Base64 -/

/-- `TABLE[i]`; every index below is a sextet. -/
def base64Table (i : UInt8) : Char := Lib.Base64.digit i.toNat

/-- The four characters of a chunk of `length` bytes, filled up with zeros. -/
def encodeChunk (first second third : UInt8) (length : Nat) : List Char :=
  [ base64Table (first >>> 2),
    base64Table (((first &&& 0x03) <<< 4) ||| (second >>> 4)),
    if length > 1 then base64Table (((second &&& 0x0f) <<< 2) ||| (third >>> 6)) else '=',
    if length > 2 then base64Table (third &&& 0x3f) else '=' ]

/-- The loop of `encode_base64`, over chunks of three bytes. -/
def encodeChunks : List UInt8 → List Char
  | [] => []
  | [first] => encodeChunk first 0 0 1
  | [first, second] => encodeChunk first second 0 2
  | first :: second :: third :: rest => encodeChunk first second third 3 ++ encodeChunks rest

def encodeBase64 (bytes : List UInt8) : String := String.ofList (encodeChunks bytes)

/-! ## The command -/

def capturePublicMaxBytes : Nat := 1024 * 1024

def terminalOutputDefaultMaxBytes : Nat := 64 * 1024

/-- `std::str::from_utf8(..).ok()`. -/
def fromUtf8 (bytes : List UInt8) : Option String := String.fromUTF8? ⟨bytes.toArray⟩

/-- The document `capture-output` answers with. -/
def captureDocument (tabId maximum : Nat) (data : TerminalOutputData) : Value :=
  .object
    [ ("schema_version", .nat 1),
      ("tab_id", .string ("@" ++ toString tabId)),
      ("encoding", .string "base64"),
      ("data_base64", .string (encodeBase64 data.bytes)),
      ("utf8", .option .string (fromUtf8 data.bytes)),
      ("bytes", .nat data.bytes.length),
      ("earliest_cursor", .nat data.earliest),
      ("current_cursor", .nat data.current),
      ("start_cursor", .nat data.start),
      ("next_cursor", .nat data.next),
      ("max_bytes", .nat maximum),
      ("complete", .bool (data.next = data.current)),
      ("truncated", .bool (data.next < data.current)) ]

/-- What `--max-bytes` says. -/
def captureMaximum : Option String → Except IpcResponse Nat
  | none => .ok terminalOutputDefaultMaxBytes
  | some value =>
    match parseUsize value with
    | some n =>
      if 1 ≤ n ∧ n ≤ capturePublicMaxBytes then .ok n else .error refused
    | none => .error refused
where
  refused : IpcResponse :=
    .typedFailure ("capture-output --max-bytes must be from 1 to " ++ toString capturePublicMaxBytes)
      "terminal_output_limit_invalid" "usage" false

/-- What `--cursor` says. -/
def captureCursor : Option String → Except IpcResponse TerminalOutputCursor
  | none => .ok .earliest
  | some value =>
    (parseTerminalOutputCursor value).mapError fun error =>
      .typedFailure error "terminal_output_cursor_invalid" "usage" false

/-- The command on a terminal it found: the document, or the response it fails with. -/
def captureOutput (tabId : Nat) (output : TerminalOutput) (cursor maxBytes : Option String) :
    Except IpcResponse Value := do
  let cursor ← captureCursor cursor
  let maximum ← captureMaximum maxBytes
  match readTerminalOutput output.rawOutput output.outputBytes cursor maximum with
  | .gap requested earliest current =>
    .error (.typedFailure ("terminal output cursor " ++ toString requested
      ++ " was overwritten; earliest=" ++ toString earliest ++ " current=" ++ toString current)
      "terminal_output_gap" "state" true)
  | .future requested current =>
    .error (.typedFailure ("terminal output cursor " ++ toString requested
      ++ " is ahead of current=" ++ toString current)
      "terminal_output_future_cursor" "state" false)
  | .data data => .ok (captureDocument tabId maximum data)

/-! ## A client that follows the output -/

/-- What happens around a terminal that a client reads from. -/
inductive FollowEvent where
  | output (chunk : List UInt8)
  | read (maximum : Nat)
deriving DecidableEq

/-- A terminal, and a client that reads on from the cursor it was given. -/
structure Follow where
  output : TerminalOutput
  cursor : Nat
  /-- The texts it was answered, oldest first. -/
  received : List String
deriving DecidableEq

def Follow.step (f : Follow) : FollowEvent → Follow
  | .output chunk => { f with output := f.output.feed chunk }
  | .read maximum =>
    match readTerminalOutput f.output.rawOutput f.output.outputBytes (.absolute f.cursor) maximum with
    | .data data =>
      { f with cursor := data.next, received := f.received ++ [encodeBase64 data.bytes] }
    | .gap .. | .future .. => f

end Agenterm
