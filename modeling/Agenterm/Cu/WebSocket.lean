import Agenterm.Common
import Agenterm.Lib.Arrivals
import Agenterm.Lib.LittleEndian
import Mathlib.Data.Nat.Digits.Defs

/-!
# The websocket of a CDP session

`TcpTransport` receives text messages over a stream whose reads may time out. `recvText` reads
frames until a message is complete; `receive` is a session that calls it again and again until
a call fails. Below it are the frames that a server sends: their encoding, the texts that a
sequence of frames carries (`texts`), and which sequences are well formed.

What the operating system decides is in `Wire`: the texts of its errors, and whether a write
succeeds.
-/

namespace Agenterm.Cu.Cdp

open Lib

/-- Bound on one inbound message. -/
def maxMessageBytes : Nat := 16 * 1024 * 1024

structure CdpError where
  code : String
  message : String
  detail : Value

/-- The `backend` name every CDP reply / typed error carries in `detail`. -/
def backend : String := "debugger-runtime-evaluate"

def CdpError.typed (code message : String) : CdpError where
  code := code
  message := message
  detail := .object [("backend", .string backend), ("ax_default", .bool true)]

/-- The errors of a read that the code tells apart, and one that it does not. -/
inductive ErrorKind where
  | wouldBlock | timedOut | connectionReset
deriving DecidableEq

/-- What a read finds next on the stream. -/
abbrev Event : Type := Arrival ErrorKind

/-- The errors that a read timeout shows as. -/
def ErrorKind.isTimeout : ErrorKind → Bool
  | .wouldBlock | .timedOut => true
  | .connectionReset => false

/-- The side of the stream that the code does not decide: the text of a read error (`none` is
the end of the stream), and whether the `n`-th write succeeds. -/
structure Wire where
  describe : Option ErrorKind → String
  accepts : Nat → Bool

/-- The stream: what will be read, and what was written. -/
structure TcpStream where
  incoming : List Event
  outgoing : List (List UInt8)
deriving DecidableEq

/-! ## Frames -/

/-- Masking is its own inverse. -/
def applyMask (mask payload : List UInt8) : List UInt8 :=
  payload.mapIdx fun i b => b ^^^ mask.getD (i % 4) 0

/-- One masked client frame (`opcode` 0x1 text, 0x9 ping, 0xA pong, 0x8 close). -/
def clientFrame (opcode : UInt8) (payload : List UInt8) : List UInt8 :=
  let mask : List UInt8 := [0x37, 0xfa, 0x21, 0x3d]
  let len := payload.length
  let head := [0x80 ||| (opcode &&& 0x0f)]
  let size :=
    if len < 126 then [0x80 ||| UInt8.ofNat len]
    else if len ≤ 65535 then (0x80 ||| 126) :: beBytes 2 len
    else (0x80 ||| 127) :: beBytes 8 len
  head ++ size ++ mask ++ applyMask mask payload

/-- `read_exact_timed`. -/
def missing (wire : Wire) (what : String) (why : Option ErrorKind) : CdpError :=
  .typed "unsupported" s!"CDP websocket {what} missing: {wire.describe why}"

/-- The length of the payload, from the second byte of the header and up to eight more. -/
def readLength (wire : Wire) (size : UInt8) : Reader ErrorKind CdpError Nat :=
  let len := (size &&& 0x7f).toNat
  if len = 126 then do
    let ext ← .exactly 2 (missing wire "length")
    pure (ofBeBytes ext)
  else if len = 127 then do
    let ext ← .exactly 8 (missing wire "length")
    let wide := ofBeBytes ext
    if wide > maxMessageBytes then
      .fail (.typed "unsupported" s!"CDP websocket frame of {wide} bytes exceeds {maxMessageBytes}")
    else pure wide
  else pure len

/-- What follows the header of a frame: `received` bytes of the message came before it. -/
def readPayload (wire : Wire) (size : UInt8) (received : Nat) :
    Reader ErrorKind CdpError (List UInt8) := do
  let len ← readLength wire size
  if received + len > maxMessageBytes then
    .fail (.typed "unsupported" s!"CDP websocket message exceeds {maxMessageBytes} bytes")
  else if size &&& 0x80 ≠ 0 then do
    let mask ← .exactly 4 (missing wire "mask")
    let payload ← .exactly len (missing wire "payload")
    pure (applyMask mask payload)
  else .exactly len (missing wire "payload")

/-! ## Receiving -/

/-- How one pass of the loop of `recv_text` ends: the loop goes on with the message received
so far, or the call returns. -/
inductive Pass where
  | again (message : List UInt8) (inText : Bool) (stream : TcpStream)
  | returned (result : Except CdpError (Option String)) (stream : TcpStream)

/-- The stream after the pass. -/
def Pass.stream : Pass → TcpStream
  | .again _ _ stream => stream
  | .returned _ stream => stream

/-- A call that failed. -/
def Pass.Failed (p : Pass) : Prop := ∃ e stream, p = .returned (.error e) stream

/-- `String::from_utf8` of a complete message. -/
def complete (message : List UInt8) : Except CdpError (Option String) :=
  match String.fromUTF8? ⟨message.toArray⟩ with
  | some text => .ok (some text)
  | none => .error (.typed "unsupported" "CDP websocket payload is not UTF-8")

/-- What a frame that was read does. -/
def dispatch (wire : Wire) (head : UInt8) (payload message : List UInt8) (inText : Bool)
    (stream : TcpStream) : Pass :=
  let opcode := head &&& 0x0f
  if opcode = 0x1 ∨ (opcode = 0x0 ∧ inText = true) then
    if head &&& 0x80 ≠ 0 then .returned (complete (message ++ payload)) stream
    else .again (message ++ payload) true stream
  else if opcode = 0x2 then
    .returned (.error (.typed "unsupported" "CDP websocket sent a binary frame")) stream
  else if opcode = 0x8 then
    .returned (.error (.typed "unsupported" "CDP websocket closed by the browser")) stream
  else if opcode = 0x9 then
    if wire.accepts stream.outgoing.length then
      .again message inText
        { stream with outgoing := stream.outgoing ++ [clientFrame 0xA payload] }
    else .returned (.error (.typed "unsupported" "CDP websocket pong failed")) stream
  else if opcode = 0xA then .again message inText stream
  else
    .returned (.error (.typed "unsupported"
      s!"CDP websocket frame opcode 0x{String.ofList (Nat.toDigits 16 opcode.toNat)} is not text"))
      stream

/-- A timeout of the read of a header. -/
def timedOut : Option ErrorKind → Bool
  | some why => why.isTimeout
  | none => false

/-- One pass of the loop of `recv_text`. -/
def pass (wire : Wire) (message : List UInt8) (inText : Bool) (stream : TcpStream) : Pass :=
  match readExact 2 stream.incoming with
  | (.error why, rest) =>
    if inText = false ∧ message = [] ∧ timedOut why = true then
      .returned (.ok none) { stream with incoming := rest }
    else .returned (.error (missing wire "frame header" why)) { stream with incoming := rest }
  | (.ok hdr, rest) =>
    match readPayload wire (hdr.getD 1 0) message.length rest with
    | (.error e, rest) => .returned (.error e) { stream with incoming := rest }
    | (.ok payload, rest) =>
      dispatch wire (hdr.getD 0 0) payload message inText { stream with incoming := rest }

theorem forward_readLength (wire : Wire) (size : UInt8) : Reader.Forward (readLength wire size) := by
  unfold readLength
  dsimp only
  split
  · exact Reader.Forward.bind (Reader.forward_exactly _ _) fun ext => Reader.forward_pure _
  · split
    · refine Reader.Forward.bind (Reader.forward_exactly _ _) fun ext => ?_
      split
      · exact Reader.forward_fail _
      · exact Reader.forward_pure _
    · exact Reader.forward_pure _

theorem forward_readPayload (wire : Wire) (size : UInt8) (received : Nat) :
    Reader.Forward (readPayload wire size received) := by
  refine Reader.Forward.bind (forward_readLength wire size) fun len => ?_
  split
  · exact Reader.forward_fail _
  · split
    · refine Reader.Forward.bind (Reader.forward_exactly _ _) fun mask => ?_
      exact Reader.Forward.bind (Reader.forward_exactly _ _) fun payload => Reader.forward_pure _
    · exact Reader.forward_exactly _ _

theorem dispatch_incoming (wire : Wire) (head : UInt8) (payload message : List UInt8)
    (inText : Bool) (stream : TcpStream) :
    (dispatch wire head payload message inText stream).stream.incoming = stream.incoming := by
  unfold dispatch
  dsimp only
  repeat' split
  all_goals rfl

/-- A pass that does not fail takes something from the schedule. -/
theorem pass_forward {wire : Wire} {message : List UInt8} {inText : Bool} {stream : TcpStream}
    (h : ¬ (pass wire message inText stream).Failed) :
    (pass wire message inText stream).stream.incoming.length < stream.incoming.length := by
  have hhdr := (length_readExact 2 stream.incoming).2
  revert h
  unfold pass
  rcases hread : readExact 2 stream.incoming with ⟨why | hdr, rest⟩ <;>
    simp only [hread] at hhdr ⊢
  · intro h
    by_cases hpause : inText = false ∧ message = [] ∧ timedOut why = true
    · -- a timeout, not the end of the stream
      obtain ⟨why, rfl⟩ : ∃ w, why = some w := by
        cases why with
        | none => exact absurd hpause.2.2 (by decide)
        | some w => exact ⟨w, rfl⟩
      rw [if_pos hpause]
      exact length_readExact_fault hread
    · rw [if_neg hpause] at h
      exact absurd ⟨_, _, rfl⟩ h
  · have hlen : rest.length + 2 = stream.incoming.length := hhdr hdr rfl
    have hforward := forward_readPayload wire (hdr.getD 1 0) message.length rest
    intro h
    rcases hpayload : readPayload wire (hdr.getD 1 0) message.length rest with
      ⟨e | payload, left⟩ <;> simp only [hpayload] at h hforward ⊢
    · exact absurd ⟨_, _, rfl⟩ h
    · have hle : left.length ≤ rest.length := hforward
      rw [dispatch_incoming]
      show left.length < _
      omega

/-- A pass after which the loop goes on. -/
theorem pass_again {wire : Wire} {message message' : List UInt8} {inText inText' : Bool}
    {stream stream' : TcpStream}
    (h : pass wire message inText stream = .again message' inText' stream') :
    stream'.incoming.length < stream.incoming.length := by
  have hgoes : ¬ (pass wire message inText stream).Failed := by
    rw [h]
    exact fun hfailed => hfailed.elim fun _ he => he.elim fun _ heq => absurd heq nofun
  have hforward := pass_forward hgoes
  rw [h] at hforward
  exact hforward

/-- The loop of `recv_text`. -/
def recvLoop (wire : Wire) (message : List UInt8) (inText : Bool) (stream : TcpStream) :
    Except CdpError (Option String) × TcpStream :=
  match h : pass wire message inText stream with
  | .returned result stream' => (result, stream')
  | .again message' inText' stream' =>
    have : stream'.incoming.length < stream.incoming.length := pass_again h
    recvLoop wire message' inText' stream'
termination_by stream.incoming.length

/-- `TcpTransport::recv_text`. -/
def recvText (wire : Wire) (stream : TcpStream) : Except CdpError (Option String) × TcpStream :=
  recvLoop wire [] false stream

/-- How a session went: what its calls returned, the error of the call that failed, and the
stream at the end. -/
structure Session where
  returned : List (Option String)
  error : Option CdpError
  stream : TcpStream

/-- The messages among what the calls returned. -/
def Session.messages (session : Session) : List String := session.returned.reduceOption

/-- A call that returned, and the rest of the session. -/
def Session.after (result : Except CdpError (Option String) × TcpStream)
    (rest : TcpStream → Session) : Session :=
  match result with
  | (.ok r, stream) => { rest stream with returned := r :: (rest stream).returned }
  | (.error e, stream) => { returned := [], error := some e, stream := stream }

/-- At most `n` calls of `recv_text`: after an error the session is not reused. -/
def receive (wire : Wire) : Nat → TcpStream → Session
  | 0, stream => { returned := [], error := none, stream := stream }
  | n + 1, stream => .after (recvText wire stream) (receive wire n)

/-! ## What a server sends -/

inductive Opcode where
  | continuation | text | close | ping | pong
deriving DecidableEq

def Opcode.code : Opcode → UInt8
  | .continuation => 0x0
  | .text => 0x1
  | .close => 0x8
  | .ping => 0x9
  | .pong => 0xA

/-- The frames that may stand between the fragments of a message. -/
def Opcode.isControl : Opcode → Bool
  | .continuation | .text => false
  | .close | .ping | .pong => true

/-- The three ways to write a length. -/
inductive LengthForm where
  | short | medium | wide
deriving DecidableEq

/-- The lengths that a form can write. -/
def LengthForm.bound : LengthForm → Nat
  | .short => 126
  | .medium => 2 ^ 16
  | .wide => 2 ^ 63

/-- The low seven bits of the second header byte. -/
def LengthForm.low (form : LengthForm) (len : Nat) : Nat :=
  match form with
  | .short => len
  | .medium => 126
  | .wide => 127

/-- The bytes of the length behind the header. -/
def LengthForm.extension (form : LengthForm) (len : Nat) : List UInt8 :=
  match form with
  | .short => []
  | .medium => beBytes 2 len
  | .wide => beBytes 8 len

/-- A well-formed frame. -/
structure Frame where
  fin : Bool
  opcode : Opcode
  form : LengthForm
  mask : Option (List UInt8)
  payload : List UInt8
  length_mask : ∀ m ∈ mask, m.length = 4
  fits : payload.length < form.bound
  control : opcode.isControl = true → fin = true ∧ payload.length ≤ 125

namespace Frame

/-- The first byte. -/
def head (f : Frame) : UInt8 := (if f.fin then 0x80 else 0) ||| f.opcode.code

/-- The second byte. -/
def size (f : Frame) : UInt8 :=
  (if f.mask.isSome then 0x80 else 0) ||| UInt8.ofNat (f.form.low f.payload.length)

/-- What follows the length. -/
def body (f : Frame) : List UInt8 :=
  match f.mask with
  | none => f.payload
  | some mask => mask ++ applyMask mask f.payload

/-- What follows the header. -/
def tail (f : Frame) : List UInt8 := f.form.extension f.payload.length ++ f.body

/-- The bytes of the frame. -/
def encode (f : Frame) : List UInt8 := f.head :: f.size :: f.tail

/-- The unfinished message after a frame, given the one before it. -/
def after (partly : Option (List UInt8)) (f : Frame) : Option (List UInt8) :=
  if f.opcode.isControl then partly
  else if f.fin then none
  else some (partly.getD [] ++ f.payload)

/-- The text that a frame completes. -/
def text (partly : Option (List UInt8)) (f : Frame) : Option String :=
  if f.opcode.isControl = false ∧ f.fin = true then
    String.fromUTF8? ⟨(partly.getD [] ++ f.payload).toArray⟩
  else none

/-- The frame may come next: a text starts outside a message and is continued inside one, and
the bytes of a complete text are UTF-8. -/
def Follows (partly : Option (List UInt8)) (f : Frame) : Prop :=
  (f.opcode = .text → partly = none) ∧ (f.opcode = .continuation → partly ≠ none) ∧
    (f.opcode.isControl = false → f.fin = true → (f.text partly).isSome)

instance (partly : Option (List UInt8)) (f : Frame) : Decidable (f.Follows partly) :=
  inferInstanceAs (Decidable (_ ∧ _ ∧ _))

end Frame

/-- The bytes of the frames in a row. -/
def encode (frames : List Frame) : List UInt8 := frames.flatMap Frame.encode

/-- The unfinished message after the frames. -/
def position (partly : Option (List UInt8)) (frames : List Frame) : Option (List UInt8) :=
  frames.foldl Frame.after partly

/-- The texts that the frames complete. -/
def texts (partly : Option (List UInt8)) : List Frame → List String
  | [] => []
  | f :: frames => (f.text partly).toList ++ texts (f.after partly) frames

/-- The frames may come one after the other, and nothing comes after a close. -/
def WellFormed (partly : Option (List UInt8)) : List Frame → Prop
  | [] => True
  | f :: frames =>
    f.Follows partly ∧ (f.opcode = .close → frames = []) ∧ WellFormed (f.after partly) frames

end Agenterm.Cu.Cdp
