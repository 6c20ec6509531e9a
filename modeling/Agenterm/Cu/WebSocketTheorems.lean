import Agenterm.Cu.WebSocket

/-!
# The receiver stays in sync

`readPayload_spells` and `readPayload_rejects` follow the reads of one frame; `pass_frame_text`,
`pass_frame_again` and `pass_cut` say what one pass of the loop does on a frame that arrives
whole and on one that a fault cuts short. From them, by induction over the schedule:
`receive_in_sync`. A session is in sync as long as no timeout comes directly behind the first
byte of a frame outside a message: there the code takes the timeout for a pause between frames,
although a byte of the header is gone.
-/

namespace Agenterm.Cu.Cdp

open Lib List

/-! ## The bytes of a frame -/

@[simp] lemma length_applyMask (mask payload : List UInt8) :
    (applyMask mask payload).length = payload.length := length_mapIdx

/-- Masking is its own inverse. -/
theorem applyMask_applyMask (mask payload : List UInt8) :
    applyMask mask (applyMask mask payload) = payload := by
  apply ext_getElem
  · rw [length_applyMask, length_applyMask]
  · intro i _ _
    simp only [applyMask, getElem_mapIdx]
    rw [UInt8.xor_assoc, UInt8.xor_self, UInt8.xor_zero]

namespace Frame

variable (f : Frame)

lemma head_opcode : f.head &&& 0x0f = f.opcode.code := by
  unfold head
  cases f.fin <;> cases f.opcode <;> decide

lemma head_fin : f.head &&& 0x80 ≠ 0 ↔ f.fin = true := by
  unfold head
  cases f.fin <;> cases f.opcode <;> decide

lemma low_lt : f.form.low f.payload.length < 128 := by
  have hfits := f.fits
  unfold LengthForm.low
  unfold LengthForm.bound at hfits
  cases hform : f.form <;> rw [hform] at hfits <;> dsimp only at hfits ⊢ <;> omega

/-- The two parts of the second header byte, for every length. -/
lemma size_parts (masked : Bool) : ∀ n < 128,
    (((if masked then 0x80 else 0) ||| UInt8.ofNat n) &&& 0x7f).toNat = n ∧
      (((if masked then 0x80 else 0) ||| UInt8.ofNat n) &&& 0x80 ≠ 0 ↔ masked = true) := by
  cases masked <;> decide

lemma size_low : (f.size &&& 0x7f).toNat = f.form.low f.payload.length :=
  (size_parts f.mask.isSome _ f.low_lt).1

lemma size_mask : f.size &&& 0x80 ≠ 0 ↔ f.mask.isSome = true :=
  (size_parts f.mask.isSome _ f.low_lt).2

lemma two_le_length_encode : 2 ≤ f.encode.length := by
  simp only [encode, length_cons]
  omega

end Frame

/-! ## Reading a frame -/

variable {inText : Bool} {left taken : List Frame} {message : List UInt8} {n : Nat}
  {outgoing : List (List UInt8)} {stream stream' : TcpStream}

variable {r : Option String} {received : Nat} {text : String}

section
variable {wire : Wire}

/-- A length that is not too large is read back. -/
theorem readLength_spells (f : Frame) (hlen : f.payload.length ≤ maxMessageBytes) :
    (readLength wire f.size).Spells (f.form.extension f.payload.length) f.payload.length := by
  have hfits := f.fits
  have hlow := f.size_low
  unfold readLength
  dsimp only
  rw [hlow]
  unfold LengthForm.low LengthForm.extension
  unfold LengthForm.bound at hfits
  cases hform : f.form <;> rw [hform] at hfits <;> dsimp only at hfits ⊢
  · rw [if_neg (by omega), if_neg (by omega)]
    exact Reader.spells_pure _
  · have hback : ofBeBytes (beBytes 2 f.payload.length) = f.payload.length :=
      ofBeBytes_beBytes (by omega)
    have hread := Reader.spells_exactly (beBytes 2 f.payload.length) (missing wire "length")
    rw [length_beBytes] at hread
    rw [if_pos rfl]
    rw [← append_nil (beBytes 2 _)]
    refine hread.bind ?_
    rw [hback]
    exact Reader.spells_pure _
  · have hback : ofBeBytes (beBytes 8 f.payload.length) = f.payload.length :=
      ofBeBytes_beBytes (by omega)
    have hread := Reader.spells_exactly (beBytes 8 f.payload.length) (missing wire "length")
    rw [length_beBytes] at hread
    rw [if_neg (by omega), if_pos rfl]
    rw [← append_nil (beBytes 8 _)]
    refine hread.bind ?_
    rw [hback, if_neg (by omega)]
    exact Reader.spells_pure _

/-- A length over the bound is refused. -/
theorem readLength_rejects (f : Frame) (hlen : maxMessageBytes < f.payload.length) :
    (readLength wire f.size).Rejects (f.form.extension f.payload.length) := by
  have hfits := f.fits
  have hlow := f.size_low
  have hmax : maxMessageBytes = 16777216 := rfl
  unfold readLength
  dsimp only
  rw [hlow]
  unfold LengthForm.low LengthForm.extension
  unfold LengthForm.bound at hfits
  -- only the wide form can write such a length
  cases hform : f.form <;> rw [hform] at hfits <;> dsimp only at hfits ⊢
  · omega
  · omega
  · have hback : ofBeBytes (beBytes 8 f.payload.length) = f.payload.length :=
      ofBeBytes_beBytes (by omega)
    have hread := Reader.spells_exactly (beBytes 8 f.payload.length) (missing wire "length")
    rw [length_beBytes] at hread
    rw [if_neg (by omega), if_pos rfl]
    rw [← append_nil (beBytes 8 _)]
    refine hread.bind_rejects ?_
    rw [hback, if_pos hlen]
    exact Reader.rejects_fail _ _

/-- What follows the header is read as the payload, when the message stays within the bound. -/
theorem readPayload_spells (f : Frame) (hlen : received + f.payload.length ≤ maxMessageBytes) :
    (readPayload wire f.size received).Spells f.tail f.payload := by
  have hsize := f.size_mask
  refine (readLength_spells f (by omega)).bind ?_
  rw [if_neg (by omega)]
  unfold Frame.body
  cases hmask : f.mask with
  | none =>
    rw [hmask] at hsize
    rw [if_neg (fun h => absurd (hsize.mp h) (by decide))]
    exact Reader.spells_exactly f.payload _
  | some mask =>
    rw [hmask] at hsize
    have hfour : mask.length = 4 := f.length_mask mask hmask
    have hkey := Reader.spells_exactly mask (missing wire "mask")
    have hbody := Reader.spells_exactly (applyMask mask f.payload) (missing wire "payload")
    rw [hfour] at hkey
    rw [length_applyMask] at hbody
    rw [if_pos (hsize.mpr rfl)]
    refine hkey.bind ?_
    rw [← append_nil (applyMask mask f.payload)]
    refine hbody.bind ?_
    rw [applyMask_applyMask]
    exact Reader.spells_pure _

/-- A frame that takes the message over the bound is refused. -/
theorem readPayload_rejects (f : Frame) (hlen : maxMessageBytes < received + f.payload.length) :
    (readPayload wire f.size received).Rejects f.tail := by
  by_cases hlong : maxMessageBytes < f.payload.length
  · exact (readLength_rejects f hlong).bind _ f.body
  · refine (readLength_spells f (by omega)).bind_rejects ?_
    rw [if_pos hlen]
    exact Reader.rejects_fail _ _

/-! ## One pass of the loop -/

/-- What the code writes back for a frame. -/
def Frame.answer (f : Frame) : List (List UInt8) :=
  if f.opcode = .ping then [clientFrame 0xA f.payload] else []

/-- A frame that the code takes: the message stays within the bound, and the answer to a ping
can be written. -/
def Frame.Taken (wire : Wire) (written : Nat) (partly : Option (List UInt8)) (f : Frame) : Prop :=
  (partly.getD []).length + f.payload.length ≤ maxMessageBytes ∧
    (f.opcode = .ping → wire.accepts written = true)

/-- After the header of a frame was read. -/
lemma pass_header (f : Frame) (message : List UInt8) (inText : Bool) (rest : List Event)
    (outgoing : List (List UInt8)) :
    pass wire message inText ⟨.byte f.head :: .byte f.size :: rest, outgoing⟩
      = match readPayload wire f.size message.length rest with
        | (.error e, rest) => .returned (.error e) ⟨rest, outgoing⟩
        | (.ok payload, rest) =>
          dispatch wire f.head payload message inText ⟨rest, outgoing⟩ := rfl

/-- A frame that arrives whole and within the bound is dispatched. -/
theorem pass_whole (f : Frame) (message : List UInt8) (inText : Bool) (rest : List Event)
    (outgoing : List (List UInt8))
    (hlen : message.length + f.payload.length ≤ maxMessageBytes) :
    pass wire message inText ⟨smooth f.encode ++ rest, outgoing⟩
      = dispatch wire f.head f.payload message inText ⟨rest, outgoing⟩ := by
  have hread : readPayload wire f.size message.length (smooth f.tail ++ rest)
      = (.ok f.payload, rest) := (readPayload_spells f hlen).whole rest
  show pass wire message inText ⟨.byte f.head :: .byte f.size :: (smooth f.tail ++ rest), _⟩ = _
  rw [pass_header, hread]

lemma pass_fails {f : Frame} {rest : List Event}
    (h : (readPayload wire f.size message.length).FailsOn rest) :
    (pass wire message inText ⟨.byte f.head :: .byte f.size :: rest, outgoing⟩).Failed := by
  obtain ⟨e, left, he⟩ := h
  refine ⟨e, ⟨left, outgoing⟩, ?_⟩
  rw [pass_header, he]

/-- A frame over the bound ends the session. -/
theorem pass_too_long (f : Frame) (message : List UInt8) (inText : Bool) (rest : List Event)
    (outgoing : List (List UInt8))
    (hlen : maxMessageBytes < message.length + f.payload.length) :
    (pass wire message inText ⟨smooth f.encode ++ rest, outgoing⟩).Failed :=
  pass_fails ((readPayload_rejects f hlen).whole rest)

lemma not_data {opcode : UInt8} (hone : opcode ≠ 1) (hzero : opcode ≠ 0) (inText : Bool) :
    ¬ (opcode = 1 ∨ (opcode = 0 ∧ inText = true)) :=
  fun h => h.elim hone fun hboth => hzero hboth.1

/-- What a frame does to the message, in the loop's own variables. -/
theorem dispatch_frame {f : Frame} {partly : Option (List UInt8)} {rest : List Event}
    (hfollows : f.Follows partly) (hpong : f.opcode = .ping → wire.accepts outgoing.length = true)
    (hclose : f.opcode ≠ .close) :
    dispatch wire f.head f.payload (partly.getD []) partly.isSome ⟨rest, outgoing⟩
      = match f.text partly with
        | some text => .returned (.ok (some text)) ⟨rest, outgoing ++ f.answer⟩
        | none => .again ((f.after partly).getD []) (f.after partly).isSome
            ⟨rest, outgoing ++ f.answer⟩ := by
  have hopcode := f.head_opcode
  have hfin := f.head_fin
  obtain ⟨-, hopen, hutf8⟩ := hfollows
  -- text and continuation frames: complete, or one fragment more
  have hdata (hcontrol : f.opcode.isControl = false) (hping : f.opcode ≠ .ping) :
      (if f.head &&& 0x80 ≠ 0 then
          Pass.returned (complete (partly.getD [] ++ f.payload)) ⟨rest, outgoing⟩
        else .again (partly.getD [] ++ f.payload) true ⟨rest, outgoing⟩)
      = match f.text partly with
        | some text => .returned (.ok (some text)) ⟨rest, outgoing ++ f.answer⟩
        | none => .again ((f.after partly).getD []) (f.after partly).isSome
            ⟨rest, outgoing ++ f.answer⟩ := by
    have hanswer : outgoing ++ f.answer = outgoing := by
      rw [Frame.answer, if_neg hping, append_nil]
    rw [hanswer]
    by_cases h : f.fin = true
    · have htext : f.text partly
          = String.fromUTF8? ⟨(partly.getD [] ++ f.payload).toArray⟩ := if_pos ⟨hcontrol, h⟩
      obtain ⟨text, hsome⟩ := Option.isSome_iff_exists.mp (hutf8 hcontrol h)
      have hcomplete : complete (partly.getD [] ++ f.payload) = .ok (some text) := by
        rw [complete, ← htext, hsome]
      rw [if_pos (hfin.mpr h), hcomplete, hsome]
    · have htext : f.text partly = none := if_neg fun hboth => h hboth.2
      have hafter : f.after partly = some (partly.getD [] ++ f.payload) := by
        rw [Frame.after, if_neg (by rw [hcontrol]; decide), if_neg h]
      rw [if_neg (fun hbit => h (hfin.mp hbit)), htext, hafter]
      rfl
  -- control frames leave the message alone
  have hnone (hcontrol : f.opcode.isControl = true) :
      f.text partly = none ∧ f.after partly = partly := by
    refine ⟨if_neg fun hboth => ?_, if_pos hcontrol⟩
    rw [hcontrol] at hboth
    exact absurd hboth.1 (by decide)
  unfold dispatch
  dsimp only
  rw [hopcode]
  cases hop : f.opcode <;> rw [hop] at hpong hclose hdata hnone
  · have hpartly : partly.isSome = true := Option.isSome_iff_ne_none.mpr (hopen hop)
    refine (if_pos (.inr ⟨rfl, hpartly⟩)).trans ?_
    exact hdata rfl (by decide)
  · refine (if_pos (.inl rfl)).trans ?_
    exact hdata rfl (by decide)
  · exact absurd rfl hclose
  · have hanswer : f.answer = [clientFrame 0xA f.payload] := if_pos hop
    rw [if_neg (not_data (by decide) (by decide) _), if_neg (by decide), if_neg (by decide),
      if_pos (by decide), if_pos (hpong rfl), (hnone rfl).1, (hnone rfl).2, hanswer]
  · have hanswer : f.answer = [] := if_neg (by rw [hop]; decide)
    rw [if_neg (not_data (by decide) (by decide) _), if_neg (by decide), if_neg (by decide),
      if_neg (by decide),
      if_pos (by decide), (hnone rfl).1, (hnone rfl).2, hanswer, append_nil]

/-- A frame that completes a text ends the call. -/
theorem pass_frame_text {f : Frame} {partly : Option (List UInt8)} {rest : List Event}
    (hfollows : f.Follows partly) (htaken : f.Taken wire outgoing.length partly)
    (hclose : f.opcode ≠ .close) (htext : f.text partly = some text) :
    pass wire (partly.getD []) partly.isSome ⟨smooth f.encode ++ rest, outgoing⟩
      = .returned (.ok (some text)) ⟨rest, outgoing ++ f.answer⟩ := by
  rw [pass_whole f _ _ _ _ htaken.1, dispatch_frame hfollows htaken.2 hclose, htext]

/-- Any other frame that is taken lets the loop go on. -/
theorem pass_frame_again {f : Frame} {partly : Option (List UInt8)} {rest : List Event}
    (hfollows : f.Follows partly) (htaken : f.Taken wire outgoing.length partly)
    (hclose : f.opcode ≠ .close) (htext : f.text partly = none) :
    pass wire (partly.getD []) partly.isSome ⟨smooth f.encode ++ rest, outgoing⟩
      = .again ((f.after partly).getD []) (f.after partly).isSome
          ⟨rest, outgoing ++ f.answer⟩ := by
  rw [pass_whole f _ _ _ _ htaken.1, dispatch_frame hfollows htaken.2 hclose, htext]

/-- A close frame ends the session. -/
theorem pass_close {f : Frame} {rest : List Event} (hclose : f.opcode = .close) :
    (pass wire message inText ⟨smooth f.encode ++ rest, outgoing⟩).Failed := by
  by_cases hlen : message.length + f.payload.length ≤ maxMessageBytes
  · have hopcode := f.head_opcode
    rw [hclose] at hopcode
    rw [pass_whole f _ _ _ _ hlen]
    unfold dispatch
    dsimp only
    rw [hopcode, if_neg (not_data (by decide) (by decide) _), if_neg (by decide),
      if_pos (by decide)]
    exact ⟨_, _, rfl⟩
  · exact pass_too_long f _ _ _ _ (by omega)

/-- A pong that cannot be written ends the session. -/
theorem pass_pong_refused {f : Frame} {rest : List Event} (hping : f.opcode = .ping)
    (hrefused : wire.accepts outgoing.length = false) :
    (pass wire message inText ⟨smooth f.encode ++ rest, outgoing⟩).Failed := by
  by_cases hlen : message.length + f.payload.length ≤ maxMessageBytes
  · have hopcode := f.head_opcode
    rw [hping] at hopcode
    rw [pass_whole f _ _ _ _ hlen]
    unfold dispatch
    dsimp only
    rw [hopcode, if_neg (not_data (by decide) (by decide) _), if_neg (by decide),
      if_neg (by decide), if_pos (by decide),
      if_neg (by rw [hrefused]; decide)]
    exact ⟨_, _, rfl⟩
  · exact pass_too_long f _ _ _ _ (by omega)

/-- A fault while a header is read: a timeout outside a message is taken for a pause. -/
theorem pass_pause (q : List UInt8) (hq : q.length < 2) {why : ErrorKind}
    (htimeout : why.isTimeout = true) (rest : List Event) (outgoing : List (List UInt8)) :
    pass wire [] false ⟨smooth q ++ .fault why :: rest, outgoing⟩
      = .returned (.ok none) ⟨rest, outgoing⟩ := by
  unfold pass
  rw [readExact_fault hq]
  exact if_pos ⟨rfl, rfl, htimeout⟩

/-- Any other fault while a header is read ends the session. -/
theorem pass_fault (q : List UInt8) (hq : q.length < 2) {partly : Option (List UInt8)}
    {why : ErrorKind} (h : partly ≠ none ∨ why.isTimeout = false) (rest : List Event)
    (outgoing : List (List UInt8)) :
    (pass wire (partly.getD []) partly.isSome
      ⟨smooth q ++ .fault why :: rest, outgoing⟩).Failed := by
  refine ⟨missing wire "frame header" (some why), ⟨rest, outgoing⟩, ?_⟩
  unfold pass
  rw [readExact_fault hq]
  refine if_neg fun ⟨hin, _, htimeout⟩ => ?_
  rcases h with hpartly | hother
  · exact hpartly (Option.not_isSome_iff_eq_none.mp (by rw [hin]; decide))
  · have : why.isTimeout = true := htimeout
    rw [hother] at this
    exact absurd this (by decide)

/-- A fault behind the header of a frame ends the session. -/
theorem pass_cut {f : Frame} {q t : List UInt8} (hcut : f.encode = q ++ t) (ht : t ≠ [])
    (hq : 2 ≤ q.length) (message : List UInt8) (inText : Bool) (why : ErrorKind)
    (rest : List Event) (outgoing : List (List UInt8)) :
    (pass wire message inText ⟨smooth q ++ .fault why :: rest, outgoing⟩).Failed := by
  obtain ⟨b₀, b₁, q, rfl⟩ : ∃ b₀ b₁ q', q = b₀ :: b₁ :: q' := by
    match q, hq with
    | b₀ :: b₁ :: q', _ => exact ⟨b₀, b₁, q', rfl⟩
  have hhead : f.head = b₀ := (List.cons.inj hcut).1
  have hsize : f.size = b₁ := (List.cons.inj (List.cons.inj hcut).2).1
  have htail : f.tail = q ++ t := (List.cons.inj (List.cons.inj hcut).2).2
  rw [← hhead, ← hsize]
  apply pass_fails (f := f)
  by_cases hlen : message.length + f.payload.length ≤ maxMessageBytes
  · exact (readPayload_spells f hlen).cut q t why rest htail ht
  · exact (readPayload_rejects f (by omega)).cut q t why rest htail ht

/-- The end of the stream ends the session. -/
theorem pass_end (message : List UInt8) (inText : Bool) (outgoing : List (List UInt8)) :
    (pass wire message inText ⟨[], outgoing⟩).Failed := by
  refine ⟨missing wire "frame header" none, ⟨[], outgoing⟩, ?_⟩
  unfold pass
  exact if_neg fun h => absurd h.2.2 (by decide)

/-! ## Sessions in sync -/

/-- Frames that arrive with timeouts only between messages, each of them taken: from a number
of written answers and an unfinished message to those after them. -/
inductive Arrives (wire : Wire) : Nat → Option (List UInt8) → List Frame → List Event →
    Nat → Option (List UInt8) → Prop where
  | done {written partly} : Arrives wire written partly [] [] written partly
  | pause {written frames why events written' partly'} (htimeout : why.isTimeout = true)
      (h : Arrives wire written none frames events written' partly') :
      Arrives wire written none frames (.fault why :: events) written' partly'
  | frame {written partly f frames events written' partly'} (htaken : f.Taken wire written partly)
      (h : Arrives wire (written + f.answer.length) (f.after partly) frames events
        written' partly') :
      Arrives wire written partly (f :: frames) (smooth f.encode ++ events) written' partly'

/-- What may end a session at a frame that is next in the schedule: the bound on a message, a
pong that cannot be written, or a fault inside the frame, inside a message, or of another kind
than a timeout. -/
inductive Breaks (wire : Wire) (written : Nat) (partly : Option (List UInt8)) (f : Frame) :
    List Event → Prop where
  | tooLong {events} (h : maxMessageBytes < (partly.getD []).length + f.payload.length) :
      Breaks wire written partly f events
  | refused {events} (hping : f.opcode = .ping) (h : wire.accepts written = false) :
      Breaks wire written partly f events
  | cut {q t why rest} (hcut : f.encode = q ++ t) (ht : t ≠ [])
      (h : q ≠ [] ∨ partly ≠ none ∨ why.isTimeout = false) :
      Breaks wire written partly f (smooth q ++ .fault why :: rest)

/-- A session that failed at a frame, after the messages of the frames before it. -/
def Broken (wire : Wire) (written : Nat) (partly : Option (List UInt8)) (frames : List Frame)
    (events : List Event) (messages : List String) : Prop :=
  ∃ taken f left before behind written' partly', frames = taken ++ f :: left ∧
    events = before ++ behind ∧ Arrives wire written partly taken before written' partly' ∧
    Breaks wire written' partly' f behind ∧ messages = texts partly taken

/-- What a session of calls owes to the frames that were still to come and the message that was
unfinished when it began. Without an error it has read a number of whole frames, up to the end
of a message, and has returned their texts; with one it has returned the texts of all frames,
or those before the frame at which it broke. -/
structure Kept (wire : Wire) (partly : Option (List UInt8)) (frames : List Frame)
    (stream : TcpStream) (session : Session) : Prop where
  whole : session.error = none → ∃ taken left, frames = taken ++ left ∧
    position partly taken = none ∧ session.messages = texts partly taken ∧
    arrived session.stream.incoming = encode left
  broken : session.error ≠ none → session.messages = texts partly frames ∨
    Broken wire stream.outgoing.length partly frames stream.incoming session.messages

/-- The receiver stays in sync with the frames: however many calls are made, what they returned
is owed to the frames, and the calls come to an end. -/
def InSync (wire : Wire) (frames : List Frame) (stream : TcpStream) : Prop :=
  ∀ n, Kept wire none frames stream (receive wire n stream) ∧
    (stream.incoming.length < n → (receive wire n stream).error ≠ none)

/-- A timeout directly behind the first byte of a frame outside a message, after frames that
were all taken. -/
def SplitHeader (wire : Wire) (written : Nat) (partly : Option (List UInt8))
    (frames : List Frame) (events : List Event) : Prop :=
  ∃ taken f left before b why rest written', frames = taken ++ f :: left ∧
    events = before ++ .byte b :: .fault why :: rest ∧ why.isTimeout = true ∧
    Arrives wire written partly taken before written' none

/-! ## One call after the other -/

/-- The rest of a session whose present call has received part of a message. -/
def resume (wire : Wire) (n : Nat) (partly : Option (List UInt8)) (stream : TcpStream) : Session :=
  .after (recvLoop wire (partly.getD []) partly.isSome stream) (receive wire n)

lemma receive_succ (n : Nat) (stream : TcpStream) :
    receive wire (n + 1) stream = resume wire n none stream := rfl

lemma recvLoop_again {message' : List UInt8} {inText' : Bool}
    (h : pass wire message inText stream = .again message' inText' stream') :
    recvLoop wire message inText stream = recvLoop wire message' inText' stream' := by
  conv_lhs => unfold recvLoop
  split
  · next h' =>
    rw [h] at h'
    injection h'
  · next h' =>
    rw [h] at h'
    injection h' with hm hi hs
    rw [hm, hi, hs]

lemma recvLoop_returned {result : Except CdpError (Option String)}
    (h : pass wire message inText stream = .returned result stream') :
    recvLoop wire message inText stream = (result, stream') := by
  unfold recvLoop
  split
  · next h' =>
    rw [h] at h'
    injection h' with hr hs
    rw [hr, hs]
  · next h' =>
    rw [h] at h'
    injection h'

lemma resume_again {partly partly' : Option (List UInt8)}
    (h : pass wire (partly.getD []) partly.isSome stream
      = .again (partly'.getD []) partly'.isSome stream') :
    resume wire n partly stream = resume wire n partly' stream' := by
  rw [resume, recvLoop_again h, resume]

lemma resume_returned {partly : Option (List UInt8)}
    (h : pass wire (partly.getD []) partly.isSome stream = .returned (.ok r) stream') :
    resume wire n partly stream = { receive wire n stream' with
      returned := r :: (receive wire n stream').returned } := by
  rw [resume, recvLoop_returned h, Session.after]

lemma resume_failed {partly : Option (List UInt8)}
    (h : (pass wire (partly.getD []) partly.isSome stream).Failed) :
    (resume wire n partly stream).error ≠ none ∧
      (resume wire n partly stream).messages = [] := by
  obtain ⟨e, stream', he⟩ := h
  rw [resume, recvLoop_returned he, Session.after]
  exact ⟨nofun, rfl⟩

/-- A call that returns has taken something from the schedule. -/
lemma recvLoop_shorter (h : recvLoop wire message inText stream = (.ok r, stream')) :
    stream'.incoming.length < stream.incoming.length := by
  induction hn : stream.incoming.length using Nat.strongRecOn
    generalizing message inText stream with
  | _ n ih =>
    cases hpass : pass wire message inText stream with
    | again message' inText' next =>
      have hshorter : next.incoming.length < stream.incoming.length := pass_again hpass
      rw [recvLoop_again hpass] at h
      have hlen := ih next.incoming.length (by omega) h rfl
      omega
    | returned result next =>
      rw [recvLoop_returned hpass] at h
      have hresult : result = .ok r := congrArg Prod.fst h
      have hnext : next = stream' := congrArg Prod.snd h
      rw [hresult, hnext] at hpass
      have hgoes : ¬ (pass wire message inText stream).Failed := by
        rw [hpass]
        exact fun hfailed => hfailed.elim fun _ he => he.elim fun _ heq => absurd heq nofun
      have hlen := pass_forward hgoes
      rw [hpass] at hlen
      rw [← hn]
      exact hlen

/-- More calls than there is to read: one of them fails. -/
theorem receive_ends (h : stream.incoming.length < n) : (receive wire n stream).error ≠ none := by
  induction n generalizing stream with
  | zero => omega
  | succ n ih =>
    rw [receive_succ, resume]
    rcases hcall : recvLoop wire [] false stream with ⟨e | r, stream'⟩
    · have hcall' : recvLoop wire (Option.getD none []) (Option.isSome (none : Option (List UInt8)))
          stream = (.error e, stream') := hcall
      rw [hcall', Session.after]
      exact nofun
    · have hlen := recvLoop_shorter hcall
      have hcall' : recvLoop wire (Option.getD none []) (Option.isSome (none : Option (List UInt8)))
          stream = (.ok r, stream') := hcall
      rw [hcall', Session.after]
      exact ih (by omega)

/-! ## What a session owes -/

/-- Before a frame that is taken. -/
theorem Kept.frame {f : Frame} {partly : Option (List UInt8)} {frames : List Frame}
    {stream stream' : TcpStream} {session session' : Session}
    (h : Kept wire (f.after partly) frames stream' session')
    (htaken : f.Taken wire stream.outgoing.length partly)
    (hincoming : stream.incoming = smooth f.encode ++ stream'.incoming)
    (houtgoing : stream'.outgoing = stream.outgoing ++ f.answer)
    (herror : session.error = session'.error) (hstream : session.stream = session'.stream)
    (hmessages : session.messages = (f.text partly).toList ++ session'.messages) :
    Kept wire partly (f :: frames) stream session where
  whole hnone := by
    rw [herror] at hnone
    obtain ⟨taken, left, hframes, hposition, htexts, hleft⟩ := h.whole hnone
    refine ⟨f :: taken, left, congrArg (f :: ·) hframes, hposition, ?_, ?_⟩
    · rw [hmessages, htexts, texts]
    · rw [hstream, hleft]
  broken hsome := by
    rw [herror] at hsome
    rcases h.broken hsome with hall | ⟨taken, g, left, before, behind, written', partly', hframes,
      hevents, harrives, hbreaks, htexts⟩
    · refine .inl ?_
      rw [hmessages, hall, texts]
    · refine .inr ⟨f :: taken, g, left, smooth f.encode ++ before, behind, written', partly',
        congrArg (f :: ·) hframes, ?_, Arrives.frame htaken ?_, hbreaks, ?_⟩
      · rw [hincoming, hevents, append_assoc]
      · rw [houtgoing, length_append] at harrives
        exact harrives
      · rw [hmessages, htexts, texts]

/-- Before a pause. -/
theorem Kept.pause {frames : List Frame} {stream stream' : TcpStream} {why : ErrorKind}
    {session session' : Session} (h : Kept wire none frames stream' session')
    (htimeout : why.isTimeout = true) (hincoming : stream.incoming = .fault why :: stream'.incoming)
    (houtgoing : stream'.outgoing = stream.outgoing) (herror : session.error = session'.error)
    (hstream : session.stream = session'.stream)
    (hmessages : session.messages = session'.messages) :
    Kept wire none frames stream session where
  whole hnone := by
    rw [herror] at hnone
    rw [hmessages, hstream]
    exact h.whole hnone
  broken hsome := by
    rw [herror] at hsome
    rw [hmessages]
    rcases h.broken hsome with hall | ⟨taken, g, left, before, behind, written', partly', hframes,
      hevents, harrives, hbreaks, htexts⟩
    · exact .inl hall
    · refine .inr ⟨taken, g, left, .fault why :: before, behind, written', partly', hframes, ?_,
        Arrives.pause htimeout ?_, hbreaks, htexts⟩
      · rw [hincoming, hevents, cons_append]
      · rw [← houtgoing]
        exact harrives

/-- No calls. -/
theorem kept_zero {frames : List Frame} (harrived : arrived stream.incoming = encode frames) :
    Kept wire none frames stream (receive wire 0 stream) where
  whole _ := ⟨[], frames, rfl, rfl, rfl, harrived⟩
  broken h := absurd rfl h

/-- A call that fails. -/
theorem kept_failed {partly : Option (List UInt8)} {frames : List Frame}
    (hfailed : (pass wire (partly.getD []) partly.isSome stream).Failed)
    (h : texts partly frames = [] ∨
      Broken wire stream.outgoing.length partly frames stream.incoming []) :
    Kept wire partly frames stream (resume wire n partly stream) where
  whole hnone := absurd hnone (resume_failed hfailed).1
  broken _ := by
    rw [(resume_failed hfailed).2]
    exact h.imp Eq.symm id

/-- A call that fails at the next frame. -/
theorem kept_breaks {partly : Option (List UInt8)} {f : Frame}
    (hfailed : (pass wire (partly.getD []) partly.isSome stream).Failed)
    (h : Breaks wire stream.outgoing.length partly f stream.incoming) :
    Kept wire partly (f :: left) stream (resume wire n partly stream) :=
  kept_failed hfailed (.inr ⟨[], f, left, [], stream.incoming, _, partly, rfl, rfl,
    Arrives.done, h, rfl⟩)

theorem SplitHeader.frame {written : Nat} {partly : Option (List UInt8)} {f : Frame}
    {frames : List Frame} {events : List Event}
    (h : SplitHeader wire (written + f.answer.length) (f.after partly) frames events)
    (htaken : f.Taken wire written partly) :
    SplitHeader wire written partly (f :: frames) (smooth f.encode ++ events) := by
  obtain ⟨taken, g, left, before, b, why, rest, written', hframes, hevents, htimeout, harrives⟩ := h
  refine ⟨f :: taken, g, left, smooth f.encode ++ before, b, why, rest, written',
    congrArg (f :: ·) hframes, ?_, htimeout, Arrives.frame htaken harrives⟩
  rw [hevents, append_assoc]

theorem SplitHeader.pause {written : Nat} {frames : List Frame} {events : List Event}
    {why : ErrorKind} (h : SplitHeader wire written none frames events)
    (htimeout : why.isTimeout = true) :
    SplitHeader wire written none frames (.fault why :: events) := by
  obtain ⟨taken, g, left, before, b, why', rest, written', hframes, hevents, htimeout',
    harrives⟩ := h
  refine ⟨taken, g, left, .fault why :: before, b, why', rest, written', hframes, ?_, htimeout',
    Arrives.pause htimeout harrives⟩
  rw [hevents, cons_append]

/-- A frame that completes a text leaves no message unfinished. -/
lemma Frame.after_of_text {f : Frame} {partly : Option (List UInt8)}
    (h : f.text partly = some text) : f.after partly = none := by
  unfold Frame.text at h
  split at h
  · next hdata =>
    rw [Frame.after, if_neg (by rw [hdata.1]; decide), if_pos hdata.2]
  · cases h

lemma Frame.text_of_control {f : Frame} {partly : Option (List UInt8)}
    (h : f.opcode.isControl = true) : f.text partly = none :=
  if_neg fun hdata => absurd (h.symm.trans hdata.1) (by decide)

/-- A frame that is not taken breaks the session. -/
lemma breaks_of_not_taken {f : Frame} {partly : Option (List UInt8)} (rest : List Event)
    (outgoing : List (List UInt8)) (h : ¬ f.Taken wire outgoing.length partly) :
    (pass wire (partly.getD []) partly.isSome ⟨smooth f.encode ++ rest, outgoing⟩).Failed ∧
      Breaks wire outgoing.length partly f (smooth f.encode ++ rest) := by
  by_cases hlen : (partly.getD []).length + f.payload.length ≤ maxMessageBytes
  · obtain ⟨hping, hrefused⟩ : f.opcode = .ping ∧ wire.accepts outgoing.length = false := by
      by_cases hping : f.opcode = .ping
      · refine ⟨hping, ?_⟩
        by_contra haccepts
        exact h ⟨hlen, fun _ => Bool.of_not_eq_false haccepts⟩
      · exact absurd ⟨hlen, fun hp => absurd hp hping⟩ h
    exact ⟨pass_pong_refused hping hrefused, Breaks.refused hping hrefused⟩
  · exact ⟨pass_too_long f _ _ _ _ (by omega), Breaks.tooLong (by omega)⟩

/-- The induction over the schedule: a session with no split header keeps what it owes. -/
theorem resume_kept (n : Nat) {partly : Option (List UInt8)} {frames : List Frame}
    (stream : TcpStream) (hformed : WellFormed partly frames)
    (harrived : arrived stream.incoming = encode frames)
    (hsplit : ¬ SplitHeader wire stream.outgoing.length partly frames stream.incoming) :
    Kept wire partly frames stream (resume wire n partly stream) := by
  induction hlen : stream.incoming.length using Nat.strongRecOn
    generalizing n partly frames stream with
  | _ len ih =>
    obtain ⟨incoming, outgoing⟩ := stream
    dsimp only at harrived hsplit hlen
    -- the calls after one that returned outside a message
    have hcalls (m : Nat) (frames' : List Frame) (next : TcpStream)
        (hshorter : next.incoming.length < len) (hformed' : WellFormed none frames')
        (harrived' : arrived next.incoming = encode frames')
        (hsplit' : ¬ SplitHeader wire next.outgoing.length none frames' next.incoming) :
        Kept wire none frames' next (receive wire m next) := by
      cases m with
      | zero => exact kept_zero harrived'
      | succ m => exact ih _ hshorter m next hformed' harrived' hsplit' rfl
    -- a timeout before a frame outside a message
    have hpause (why : ErrorKind) (rest : List Event) (hpartly : partly = none)
        (htimeout : why.isTimeout = true) (hincoming : incoming = .fault why :: rest) :
        Kept wire partly frames ⟨incoming, outgoing⟩
          (resume wire n partly ⟨incoming, outgoing⟩) := by
      subst hpartly hincoming
      have hpass : pass wire [] false ⟨.fault why :: rest, outgoing⟩
          = .returned (.ok none) ⟨rest, outgoing⟩ :=
        pass_pause [] (by decide) htimeout rest outgoing
      rw [resume_returned hpass]
      refine Kept.pause (hcalls n frames ⟨rest, outgoing⟩ ?_ hformed harrived ?_) htimeout rfl rfl
        rfl rfl rfl
      · rw [← hlen]
        exact Nat.lt_succ_self _
      · exact fun h => hsplit (h.pause htimeout)
    cases frames with
    | nil =>
      cases incoming with
      | nil => exact kept_failed (pass_end _ _ _) (.inl rfl)
      | cons event rest =>
        cases event with
        | byte b => cases harrived
        | fault why =>
          by_cases h : partly = none ∧ why.isTimeout = true
          · exact hpause why rest h.1 h.2 rfl
          · have hother : partly ≠ none ∨ why.isTimeout = false := by
              by_cases hpartly : partly = none
              · exact .inr (Bool.eq_false_of_not_eq_true fun ht => h ⟨hpartly, ht⟩)
              · exact .inl hpartly
            exact kept_failed (pass_fault [] (by decide) hother rest outgoing) (.inl rfl)
    | cons f left =>
      obtain ⟨hfollows, hlast, hformed'⟩ := hformed
      have hbytes : arrived incoming = f.encode ++ encode left := harrived
      rcases arrived_append_cases hbytes with ⟨rest, hrest, harrived'⟩ |
        ⟨q, t, why, rest, hcut, ht, hrest⟩
      · -- the frame arrives whole
        subst hrest
        have hshorter : rest.length < len := by
          have htwo := f.two_le_length_encode
          rw [← hlen, length_append, smooth, length_map]
          omega
        by_cases hclose : f.opcode = .close
        · have hcontrol : f.opcode.isControl = true := by rw [hclose]; rfl
          refine kept_failed (pass_close hclose) (.inl ?_)
          rw [hlast hclose, texts, texts, Frame.text_of_control hcontrol]
          rfl
        · by_cases htaken : f.Taken wire outgoing.length partly
          · have hsplit' : ¬ SplitHeader wire (outgoing ++ f.answer).length (f.after partly) left
                rest := by
              rw [length_append]
              exact fun h => hsplit (h.frame htaken)
            cases htext : f.text partly with
            | none =>
              rw [resume_again (pass_frame_again hfollows htaken hclose htext)]
              have hkept := ih _ hshorter n ⟨rest, outgoing ++ f.answer⟩ hformed'
                harrived' hsplit' rfl
              refine hkept.frame htaken rfl rfl rfl rfl ?_
              rw [htext]
              rfl
            | some text =>
              have hafter : f.after partly = none := Frame.after_of_text htext
              rw [hafter] at hformed' hsplit'
              rw [resume_returned (pass_frame_text hfollows htaken hclose htext)]
              have hkept := hcalls n left ⟨rest, outgoing ++ f.answer⟩ hshorter hformed' harrived'
                hsplit'
              rw [← hafter] at hkept
              refine hkept.frame htaken rfl rfl rfl rfl ?_
              rw [htext]
              rfl
          · have hbreaks := breaks_of_not_taken rest outgoing htaken
            exact kept_breaks hbreaks.1 hbreaks.2
      · -- a fault cuts the frame short
        subst hrest
        by_cases hq : 2 ≤ q.length
        · have hne : q ≠ [] := ne_nil_of_length_pos (by omega)
          exact kept_breaks (pass_cut hcut ht hq _ _ why rest outgoing)
            (Breaks.cut hcut ht (.inl hne))
        · by_cases h : partly = none ∧ why.isTimeout = true
          · cases q with
            | nil => exact hpause why rest h.1 h.2 rfl
            | cons b q =>
              -- one byte of the header is gone
              have hnil : q = [] := by
                rw [length_cons] at hq
                exact eq_nil_of_length_eq_zero (by omega)
              subst hnil
              refine absurd ?_ hsplit
              refine ⟨[], f, left, [], b, why, rest, outgoing.length, rfl, rfl, h.2, ?_⟩
              rw [h.1]
              exact Arrives.done
          · have hother : partly ≠ none ∨ why.isTimeout = false := by
              by_cases hpartly : partly = none
              · exact .inr (Bool.eq_false_of_not_eq_true fun ht => h ⟨hpartly, ht⟩)
              · exact .inl hpartly
            exact kept_breaks (pass_fault q (by omega) hother rest outgoing)
              (Breaks.cut hcut ht (.inr hother))

/-! ## A split header -/

theorem encode_append (frames frames' : List Frame) :
    encode (frames ++ frames') = encode frames ++ encode frames' := flatMap_append

lemma Arrives.bytes {written written' : Nat} {partly partly' : Option (List UInt8)}
    {before : List Event} (h : Arrives wire written partly taken before written' partly') :
    arrived before = encode taken := by
  induction h with
  | done => rfl
  | pause _ _ ih => exact ih
  | frame _ _ ih =>
    rw [arrived_append, arrived_smooth, ih]
    rfl

/-- The session reads through frames that arrive and are taken. -/
theorem resume_arrives {written written' : Nat} {partly partly' : Option (List UInt8)}
    {before : List Event} (h : Arrives wire written partly taken before written' partly')
    (hleft : left ≠ []) (hformed : WellFormed partly (taken ++ left)) (stream : TcpStream)
    {rest : List Event} (hincoming : stream.incoming = before ++ rest)
    (hwritten : stream.outgoing.length = written) (n : Nat) :
    ∃ m stream', stream'.incoming = rest ∧
      (resume wire (n + m) partly stream).stream = (resume wire n partly' stream').stream ∧
      (resume wire (n + m) partly stream).error = (resume wire n partly' stream').error := by
  induction h generalizing stream with
  | done => exact ⟨0, stream, hincoming, rfl, rfl⟩
  | @pause _ _ why _ _ _ htimeout _ ih =>
    obtain ⟨incoming, outgoing⟩ := stream
    dsimp only at hincoming hwritten
    subst hincoming
    obtain ⟨m, stream', hrest, hstream, herror⟩ :=
      ih hformed ⟨_, outgoing⟩ rfl hwritten
    refine ⟨m + 1, stream', hrest, ?_⟩
    rw [resume_returned (pass_pause [] (by decide) htimeout _ outgoing)]
    exact ⟨hstream, herror⟩
  | @frame written partly f _ _ _ _ htaken _ ih =>
    obtain ⟨incoming, outgoing⟩ := stream
    dsimp only at hincoming hwritten
    obtain ⟨hfollows, hlast, hformed'⟩ := hformed
    have hclose : f.opcode ≠ .close := fun h =>
      hleft (append_eq_nil_iff.mp (hlast h)).2
    rw [append_assoc] at hincoming
    subst hincoming
    rw [← hwritten] at htaken
    have hanswered : (outgoing ++ f.answer).length = written + f.answer.length := by
      rw [length_append, hwritten]
    obtain ⟨m, stream', hrest, hstream, herror⟩ :=
      ih hformed' ⟨_, outgoing ++ f.answer⟩ rfl hanswered
    cases htext : f.text partly with
    | none =>
      refine ⟨m, stream', hrest, ?_⟩
      rw [resume_again (pass_frame_again hfollows htaken hclose htext)]
      exact ⟨hstream, herror⟩
    | some text =>
      rw [Frame.after_of_text htext] at hstream herror
      refine ⟨m + 1, stream', hrest, ?_⟩
      rw [resume_returned (pass_frame_text hfollows htaken hclose htext)]
      exact ⟨hstream, herror⟩

/-- No whole number of frames is one byte shorter than another one that ends the same list. -/
lemma encode_ne_of_one_byte {f : Frame} {taken' left' : List Frame}
    (hframes : taken ++ f :: left = taken' ++ left') :
    (encode left').length + 1 ≠ (encode (f :: left)).length := by
  have htwo := f.two_le_length_encode
  have hcons : (encode (f :: left)).length = f.encode.length + (encode left).length :=
    length_append
  rcases append_eq_append_iff.mp hframes with ⟨a, -, ha⟩ | ⟨a, -, ha⟩
  · cases a with
    | nil =>
      rw [nil_append] at ha
      rw [ha]
      omega
    | cons g a =>
      have hleft : left = a ++ left' := (List.cons.inj ha).2
      rw [hcons, hleft, encode_append, length_append]
      omega
  · rw [ha, encode_append, length_append]
    omega

/-- Sessions are in sync with a well-formed stream of frames, exactly when no timeout comes
directly behind the first byte of a frame outside a message. -/
theorem receive_in_sync (wire : Wire) {frames : List Frame} (stream : TcpStream)
    (hformed : WellFormed none frames) (harrived : arrived stream.incoming = encode frames) :
    InSync wire frames stream ↔
      ¬ SplitHeader wire stream.outgoing.length none frames stream.incoming := by
  constructor
  · intro hsync hsplit
    obtain ⟨taken, f, left, before, b, why, rest, written', hframes, hevents, htimeout,
      harrives⟩ := hsplit
    rw [hframes] at hformed
    obtain ⟨m, stream', hrest, hstream, herror⟩ :=
      resume_arrives harrives (cons_ne_nil f left) hformed stream hevents rfl 0
    -- the call that meets the timeout returns `None`, one byte later
    have hpause : pass wire [] false ⟨smooth [b] ++ .fault why :: rest, stream'.outgoing⟩
        = .returned (.ok none) ⟨rest, stream'.outgoing⟩ :=
      pass_pause [b] (Nat.lt_succ_self 1) htimeout rest stream'.outgoing
    have hincoming : stream' = ⟨smooth [b] ++ .fault why :: rest, stream'.outgoing⟩ := by
      rw [TcpStream.mk.injEq]
      exact ⟨hrest, rfl⟩
    have hend : resume wire 0 none stream'
        = { receive wire 0 ⟨rest, stream'.outgoing⟩ with returned := [none] } := by
      rw [hincoming]
      exact resume_returned hpause
    rw [hend] at hstream herror
    have hkept := (hsync (0 + m + 1)).1
    rw [receive_succ] at hkept
    obtain ⟨taken', left', hframes', -, -, hleft⟩ := hkept.whole herror
    rw [hstream] at hleft
    have hshort : arrived rest = encode left' := hleft
    rw [hevents, arrived_append, harrives.bytes, hframes, encode_append] at harrived
    have hbytes : b :: arrived rest = encode (f :: left) := append_cancel_left harrived
    rw [hshort] at hbytes
    rw [hframes] at hframes'
    exact encode_ne_of_one_byte hframes' (congrArg List.length hbytes)
  · intro hsplit n
    refine ⟨?_, receive_ends⟩
    cases n with
    | zero => exact kept_zero harrived
    | succ n => exact resume_kept n stream hformed harrived hsplit

end

/-! ## A stream on which the receiver loses its place -/

/-- An unmasked text frame. -/
def greeting : Frame where
  fin := true
  opcode := .text
  form := .short
  mask := none
  payload := [0x68, 0x69]
  length_mask := nofun
  fits := by decide
  control := by decide

/-- A wire on which every write succeeds. -/
def writable : Wire where
  describe _ := "failed to fill whole buffer"
  accepts _ := true

lemma greeting_formed : WellFormed none [greeting] := by
  refine ⟨⟨fun _ => rfl, nofun, fun _ _ => ?_⟩, nofun, trivial⟩
  decide

/-- The first fragment of a text. -/
def opening : Frame where
  fin := false
  opcode := .text
  form := .short
  mask := none
  payload := [0x68]
  length_mask := nofun
  fits := by decide
  control := by decide

/-- A ping, which may come between the fragments. -/
def keepAlive : Frame where
  fin := true
  opcode := .ping
  form := .short
  mask := none
  payload := []
  length_mask := nofun
  fits := by decide
  control := by decide

/-- The last fragment of the text. -/
def closing : Frame where
  fin := true
  opcode := .continuation
  form := .short
  mask := none
  payload := [0x69]
  length_mask := nofun
  fits := by decide
  control := by decide

/-- Two fragments with a ping between them, and after a timeout another message. -/
def fragmentEvents : List Event :=
  smooth (encode [opening, keepAlive, closing]) ++ .fault .timedOut :: smooth (encode [greeting])

/-- The timeout comes between two messages, so the receiver stays in step. -/
theorem receive_in_sync_fragments :
    InSync writable [opening, keepAlive, closing, greeting] ⟨fragmentEvents, []⟩ := by
  have hformed : WellFormed none [opening, keepAlive, closing, greeting] :=
    ⟨by decide, nofun, by decide, nofun, by decide, nofun, by decide, nofun, trivial⟩
  have harrived : arrived fragmentEvents = encode [opening, keepAlive, closing, greeting] := by
    decide
  refine (receive_in_sync writable ⟨fragmentEvents, []⟩ hformed harrived).mpr ?_
  rintro ⟨taken, f, left, before, b, why, rest, written', hframes, hevents, -, harrives⟩
  have hlength : before.length = 7 := by
    have hat : fragmentEvents[before.length + 1]? = some (.fault why) := by
      rw [show fragmentEvents = _ from hevents, getElem?_append_right (Nat.le_succ _)]
      simp
    have hbytes : ∀ n < 12, n ≠ 7 → (match fragmentEvents[n + 1]? with
        | some (.byte _) => true
        | _ => false) = true := by decide
    have hshort : before.length + 1 < 13 := (List.getElem?_eq_some_iff.mp hat).1
    by_contra hother
    have hbyte := hbytes before.length (Nat.lt_of_succ_lt_succ hshort) hother
    rw [hat] at hbyte
    cases hbyte
  -- the byte in front of it ends a frame, so what was taken is one byte short of the fragments
  have hcount : (encode taken).length = 7 := by
    have hbefore : before = fragmentEvents.take 7 := by
      rw [show fragmentEvents = _ from hevents, ← hlength, take_left]
    rw [← harrives.bytes, hbefore]
    decide
  have hfew : taken.length < 4 := by
    have hlengths := congrArg List.length hframes
    rw [length_append, length_cons] at hlengths
    simp at hlengths
    omega
  have htaken : [opening, keepAlive, closing, greeting].take taken.length = taken := by
    rw [hframes, take_left]
  have hcounts : ∀ n < 4, (encode ([opening, keepAlive, closing, greeting].take n)).length ≠ 7 := by
    decide
  exact hcounts _ hfew (htaken.symm ▸ hcount)

/-- The greeting, with a timeout behind its first byte: the call reports a pause, and the byte
is gone. -/
theorem split_greeting_out_of_sync :
    ¬ InSync writable [greeting]
      ⟨.byte greeting.head :: .fault .timedOut :: smooth (greeting.size :: greeting.tail), []⟩ := by
  intro hsync
  have hkept := (hsync 1).1
  have hpause : pass writable [] false ⟨.byte greeting.head :: .fault .timedOut ::
      smooth (greeting.size :: greeting.tail), []⟩
        = .returned (.ok none) ⟨smooth (greeting.size :: greeting.tail), []⟩ :=
    pass_pause [greeting.head] (Nat.lt_succ_self 1) rfl _ []
  -- what is left on the stream after the call
  have hcall : receive writable 1 ⟨.byte greeting.head :: .fault .timedOut ::
      smooth (greeting.size :: greeting.tail), []⟩
        = { returned := [none], error := none,
            stream := ⟨smooth (greeting.size :: greeting.tail), []⟩ } := by
    rw [receive, recvText, recvLoop_returned hpause]
    rfl
  rw [hcall] at hkept
  obtain ⟨taken, left, hframes, -, -, hleft⟩ := hkept.whole rfl
  have hshort : (encode left).length + 1 = (encode [greeting]).length := by
    rw [← hleft]
    rfl
  have hsplit : [] ++ greeting :: [] = taken ++ left := hframes
  exact encode_ne_of_one_byte hsplit hshort

end Agenterm.Cu.Cdp
