import Agenterm.Lib.Run
import Agenterm.Terminal.OutputRing

/-!
# Reading terminal output

The ring holds the end of the stream (`Retains`, kept by `Retains.feed`), so that a read at a
position sees the stream there (`readTerminalOutput_cases`), and the texts it is answered with
decode to the bytes (`decode_encodeBase64`). Reading on from the returned cursor therefore
collects the stream without a loss or an overlap, whatever arrives between the reads
(`Follows.step`).
-/

namespace Agenterm

open List Lib

/-! ## What is retained -/

/-- The last `capacity` bytes of a stream. -/
def retainedOf (capacity : Nat) (stream : List UInt8) : List UInt8 :=
  stream.drop (stream.length - capacity)

/-- The first position of a stream that is still retained. -/
def earliestOf (capacity : Nat) (stream : List UInt8) : Nat :=
  stream.length - min capacity stream.length

lemma earliestOf_eq (capacity : Nat) (stream : List UInt8) :
    earliestOf capacity stream = stream.length - capacity := by
  unfold earliestOf
  omega

/-- A terminal that has written `stream`. -/
structure Retains (capacity : Nat) (stream : List UInt8) (output : TerminalOutput) : Prop where
  capacity_eq : output.rawOutput.capacity = capacity
  bytes_eq : output.rawOutput.bytes = retainedOf capacity stream
  count_eq : output.outputBytes = stream.length

lemma retains_new (capacity : Nat) : Retains capacity [] (.new capacity) where
  capacity_eq := rfl
  bytes_eq := drop_nil.symm
  count_eq := rfl

lemma length_retainedOf (capacity : Nat) (stream : List UInt8) :
    (retainedOf capacity stream).length = min capacity stream.length := by
  unfold retainedOf
  rw [length_drop]
  omega

variable {capacity start : Nat} {f : Follow} {stream : List UInt8}

/-- A chunk pushes the oldest bytes out. -/
lemma Retains.feed {output : TerminalOutput} (h : Retains capacity stream output)
    (chunk : List UInt8) : Retains capacity (stream ++ chunk) (output.feed chunk) := by
  have hlength := length_retainedOf capacity stream
  have hcount : (output.feed chunk).outputBytes = (stream ++ chunk).length := by
    rw [length_append, ← h.count_eq]
    rfl
  unfold TerminalOutput.feed BoundedByteRing.extend at *
  split
  · -- nothing is kept
    rename_i hzero
    rw [h.capacity_eq] at hzero
    refine ⟨h.capacity_eq, ?_, hcount⟩
    rw [h.bytes_eq]
    unfold retainedOf
    rw [hzero, Nat.sub_zero, Nat.sub_zero, drop_length, drop_length]
  · split
    · -- the chunk fills the ring by itself
      rename_i hfull
      rw [h.capacity_eq] at hfull
      refine ⟨h.capacity_eq, ?_, hcount⟩
      show chunk.drop (chunk.length - output.rawOutput.capacity) = _
      unfold retainedOf
      rw [h.capacity_eq, length_append,
        show stream.length + chunk.length - capacity
          = stream.length + (chunk.length - capacity) by omega,
        drop_append]
      simp
    · rename_i hnotfull
      rw [h.capacity_eq] at hnotfull
      refine ⟨h.capacity_eq, ?_, hcount⟩
      show output.rawOutput.bytes.drop
        (output.rawOutput.bytes.length + chunk.length - output.rawOutput.capacity) ++ chunk = _
      rw [h.bytes_eq, h.capacity_eq, hlength]
      unfold retainedOf
      rw [length_append, drop_drop, drop_append_of_le_length (by omega)]
      congr 2
      omega

lemma Retains.foldl_feed {output : TerminalOutput} (h : Retains capacity stream output)
    (chunks : List (List UInt8)) :
    Retains capacity (stream ++ chunks.flatten) (chunks.foldl TerminalOutput.feed output) := by
  induction chunks generalizing stream output with
  | nil =>
    rw [flatten_nil, append_nil]
    exact h
  | cons chunk chunks ih =>
    have hrest := ih (h.feed chunk)
    rw [append_assoc, ← flatten_cons] at hrest
    exact hrest

/-! ## One read -/

section
variable {capacity : Nat} {stream : List UInt8} {output : TerminalOutput}

/-- The result of a read is decided by where the position lies in the stream. -/
lemma Retains.read_eq (h : Retains capacity stream output) (cursor : TerminalOutputCursor)
    (maximum : Nat) :
    readTerminalOutput output.rawOutput output.outputBytes cursor maximum
      = (let earliest := earliestOf capacity stream
         let requested := cursor.requested earliest stream.length
         if requested < earliest then .gap requested earliest stream.length
         else if requested > stream.length then .future requested stream.length
         else
           let bytes := (stream.drop requested).take maximum
           .data
             { earliest, current := stream.length, start := requested,
               next := requested + bytes.length, bytes }) := by
  have hlen : output.rawOutput.len = min capacity stream.length := by
    unfold BoundedByteRing.len
    rw [h.bytes_eq, length_retainedOf]
  have hearliest : stream.length - output.rawOutput.len = earliestOf capacity stream := by
    rw [hlen]
    rfl
  unfold readTerminalOutput
  rw [h.count_eq]
  simp only [hearliest]
  split
  · rfl
  · rename_i hretained
    split
    · rfl
    · rename_i hpast
      -- the ring at the offset is the stream at the position
      have hcopy : output.rawOutput.copyFrom
          (cursor.requested (earliestOf capacity stream) stream.length - earliestOf capacity stream)
          maximum
          = (stream.drop (cursor.requested (earliestOf capacity stream) stream.length)).take
            maximum := by
        rw [earliestOf_eq] at hretained hpast ⊢
        unfold BoundedByteRing.copyFrom
        rw [h.bytes_eq, length_retainedOf]
        unfold retainedOf
        rw [drop_drop]
        congr 2
        omega
      rw [hcopy]

end

/-! ## Base64 -/

section
variable (a b c : UInt8)

lemma firstSextet : (a >>> 2).toNat = a.toNat / 4 := by
  rw [UInt8.toNat_shiftRight]
  exact Nat.shiftRight_eq_div_pow a.toNat 2

/-- The low bits of one byte, moved up, and the high bits of the next do not overlap. -/
lemma joinSextet {low shift : Nat} (x y : Nat) (hy : y < 2 ^ shift) :
    (x % 2 ^ low) <<< shift ||| y = x % 2 ^ low * 2 ^ shift + y := by
  rw [← Nat.shiftLeft_add_eq_or_of_lt hy, Nat.shiftLeft_eq]

lemma secondSextet :
    (((a &&& 0x03) <<< 4) ||| (b >>> 4)).toNat = a.toNat % 4 * 16 + b.toNat / 16 := by
  have hb := b.toNat_lt
  have hlow : a.toNat &&& 3 = a.toNat % 2 ^ 2 := Nat.and_two_pow_sub_one_eq_mod a.toNat 2
  have hhigh : b.toNat >>> 4 = b.toNat / 16 := Nat.shiftRight_eq_div_pow b.toNat 4
  have hjoin := @joinSextet 2 4 a.toNat (b.toNat / 16) (by omega)
  rw [UInt8.toNat_or, UInt8.toNat_shiftLeft, UInt8.toNat_and, UInt8.toNat_shiftRight]
  show (a.toNat &&& 3) <<< 4 % 256 ||| b.toNat >>> 4 = _
  rw [hlow, hhigh, Nat.mod_eq_of_lt (by rw [Nat.shiftLeft_eq]; omega), hjoin]
  rfl

lemma thirdSextet :
    (((b &&& 0x0f) <<< 2) ||| (c >>> 6)).toNat = b.toNat % 16 * 4 + c.toNat / 64 := by
  have hc := c.toNat_lt
  have hlow : b.toNat &&& 15 = b.toNat % 2 ^ 4 := Nat.and_two_pow_sub_one_eq_mod b.toNat 4
  have hhigh : c.toNat >>> 6 = c.toNat / 64 := Nat.shiftRight_eq_div_pow c.toNat 6
  have hjoin := @joinSextet 4 2 b.toNat (c.toNat / 64) (by omega)
  rw [UInt8.toNat_or, UInt8.toNat_shiftLeft, UInt8.toNat_and, UInt8.toNat_shiftRight]
  show (b.toNat &&& 15) <<< 2 % 256 ||| c.toNat >>> 6 = _
  rw [hlow, hhigh, Nat.mod_eq_of_lt (by rw [Nat.shiftLeft_eq]; omega), hjoin]
  rfl

lemma fourthSextet : (c &&& 0x3f).toNat = c.toNat % 64 := by
  rw [UInt8.toNat_and]
  exact Nat.and_two_pow_sub_one_eq_mod c.toNat 6

end

/-- The text of an answer decodes to its bytes. -/
lemma decode_encodeChunks (bytes : List UInt8) :
    Base64.decode (encodeChunks bytes) = some bytes := by
  fun_induction encodeChunks bytes with
  | case1 => rfl
  | case2 first =>
    have hdecode := Base64.decode_one first
    simp only [encodeChunk, base64Table, firstSextet, secondSextet]
    exact hdecode
  | case3 first second =>
    have hdecode := Base64.decode_two first second
    simp only [encodeChunk, base64Table, firstSextet, secondSextet, thirdSextet]
    exact hdecode
  | case4 first second third rest ih =>
    have hdecode := Base64.decode_three first second third (encodeChunks rest)
    rw [ih] at hdecode
    simp only [encodeChunk, base64Table, firstSextet, secondSextet, thirdSextet, fourthSextet]
    exact hdecode

/-- What a client makes of the text of an answer. -/
def decodeBase64 (text : String) : Option (List UInt8) := Base64.decode text.toList

lemma decode_encodeBase64 (bytes : List UInt8) :
    decodeBase64 (encodeBase64 bytes) = some bytes := by
  unfold decodeBase64 encodeBase64
  rw [String.toList_ofList]
  exact decode_encodeChunks bytes

/-! ## Reading on -/

/-- The client holds the stream from `start` up to its cursor. -/
structure Follows (capacity start : Nat) (stream : List UInt8) (f : Follow) : Prop where
  retains : Retains capacity stream f.output
  start_le : start ≤ f.cursor
  /-- A cursor that moved is within the stream. -/
  cursor_le : f.cursor = start ∨ f.cursor ≤ stream.length
  received : ∃ pieces : List (List UInt8), f.received = pieces.map encodeBase64 ∧
    pieces.flatten = (stream.drop start).take (f.cursor - start)

/-- The stream an event adds to. -/
def FollowEvent.written : FollowEvent → List UInt8
  | .output chunk => chunk
  | .read _ => []

/-- A write or a read keeps the client on the stream. -/
lemma Follows.step (h : Follows capacity start stream f) (event : FollowEvent) :
    Follows capacity start (stream ++ event.written) (f.step event) := by
  obtain ⟨pieces, hpieces, hflatten⟩ := h.received
  cases event with
  | output chunk =>
    refine ⟨h.retains.feed chunk, h.start_le, ?_, pieces, hpieces, ?_⟩
    · rcases h.cursor_le with hstart | hle
      · exact .inl hstart
      · refine .inr ?_
        rw [length_append]
        show f.cursor ≤ _
        omega
    · -- what is added comes behind the cursor
      show pieces.flatten = ((stream ++ chunk).drop start).take (f.cursor - start)
      rcases h.cursor_le with hstart | hle
      · rw [hflatten, hstart, Nat.sub_self, take_zero, take_zero]
      · have hstart := h.start_le
        rw [hflatten, drop_append_of_le_length (by omega),
          take_append_of_le_length (by rw [length_drop]; omega)]
  | read maximum =>
    rw [FollowEvent.written, append_nil]
    unfold Follow.step
    dsimp only
    rw [h.retains.read_eq]
    dsimp only [TerminalOutputCursor.requested]
    by_cases hgap : f.cursor < earliestOf capacity stream
    · rw [if_pos hgap]
      exact h
    · by_cases hfuture : f.cursor > stream.length
      · rw [if_neg hgap, if_pos hfuture]
        exact h
      · rw [if_neg hgap, if_neg hfuture]
        have hstart := h.start_le
        have htaken : ((stream.drop f.cursor).take maximum).length
            = min maximum (stream.length - f.cursor) := by
          rw [length_take, length_drop]
        refine ⟨h.retains, ?_, .inr ?_, pieces ++ [(stream.drop f.cursor).take maximum], ?_, ?_⟩
        · show start ≤ f.cursor + _
          omega
        · show f.cursor + _ ≤ stream.length
          omega
        · rw [map_append, ← hpieces]
          rfl
        · show (pieces ++ [(stream.drop f.cursor).take maximum]).flatten
            = (stream.drop start).take (f.cursor + _ - start)
          -- the piece continues what was there
          have hsplit : (stream.drop start).drop (f.cursor - start) = stream.drop f.cursor := by
            rw [drop_drop]
            congr 1
            omega
          rw [flatten_append, flatten_singleton, hflatten, htaken,
            show f.cursor + min maximum (stream.length - f.cursor) - start
              = f.cursor - start + min maximum (stream.length - f.cursor) by omega,
            take_add, hsplit]
          congr 1
          rw [← length_drop, take_eq_take_min]

/-- The bytes written by a list of events. -/
def writtenBy (events : List FollowEvent) : List UInt8 := (events.map FollowEvent.written).flatten

lemma Follows.run (h : Follows capacity start stream f) (events : List FollowEvent) :
    Follows capacity start (stream ++ writtenBy events) (run Follow.step f events) := by
  induction events generalizing stream f with
  | nil =>
    rw [writtenBy, map_nil, flatten_nil, append_nil]
    exact h
  | cons event events ih =>
    have hrest := ih (h.step event)
    rw [append_assoc] at hrest
    exact hrest

/-- The pieces are as long as the cursor moved: nothing is missing. -/
lemma Follows.length_eq (h : Follows capacity start stream f) :
    ((stream.drop start).take (f.cursor - start)).length = f.cursor - start := by
  rw [length_take, length_drop]
  rcases h.cursor_le with hstart | hle
  · omega
  · omega

lemma mapM_decodeBase64 (pieces : List (List UInt8)) :
    (pieces.map encodeBase64).mapM decodeBase64 = some pieces := by
  induction pieces with
  | nil => rfl
  | cons piece pieces ih =>
    rw [map_cons, mapM_cons, decode_encodeBase64, ih]
    rfl

/-- After any output, of chunks of any size: the ring holds the end of the stream and the counter
its length; a read is a gap exactly when the byte at its position was pushed out, ahead of the
stream exactly when the position is, and otherwise gives the bytes from there on, up to its limit,
as does the text of the command. Reading on from the returned cursor, from any start and with
output arriving in between, gives pieces of the stream that follow each other without a loss. -/
theorem terminal_output_cursor (capacity : Nat) (chunks : List (List UInt8)) :
    let output : TerminalOutput := chunks.foldl TerminalOutput.feed (.new capacity)
    let stream := chunks.flatten
    let earliest := stream.length - min capacity stream.length
    output.outputBytes = stream.length ∧ output.rawOutput.bytes = stream.drop earliest ∧
    (∀ (cursor : TerminalOutputCursor) (maximum : Nat),
      let requested := cursor.requested earliest stream.length
      let read := readTerminalOutput output.rawOutput output.outputBytes cursor maximum
      ((∃ a b c, read = .gap a b c) ↔ requested < earliest) ∧
      ((∃ a b, read = .future a b) ↔ requested > stream.length) ∧
      (¬ requested < earliest → ¬ requested > stream.length →
        ∃ data, read = .data data ∧ data.start = requested ∧
          data.bytes = (stream.drop requested).take maximum ∧
          data.next = requested + data.bytes.length ∧
          decodeBase64 (encodeBase64 data.bytes) = some data.bytes ∧
          ∀ tabId cursorArg maxArg, captureCursor cursorArg = .ok cursor →
            captureMaximum maxArg = .ok maximum →
            captureOutput tabId output cursorArg maxArg
              = .ok (captureDocument tabId maximum data))) ∧
    ∀ (start : Nat) (events : List FollowEvent),
      let f := run Follow.step { output, cursor := start, received := [] } events
      let stream' := stream ++ writtenBy events
      ∃ pieces, f.received.mapM decodeBase64 = some pieces ∧
        pieces.flatten = (stream'.drop start).take (f.cursor - start) ∧
        pieces.flatten.length = f.cursor - start := by
  intro output stream earliest
  have hretains : Retains capacity stream output := by
    have h := (retains_new capacity).foldl_feed chunks
    rwa [nil_append] at h
  refine ⟨hretains.count_eq, ?_, fun cursor maximum => ?_, fun start events => ?_⟩
  · rw [hretains.bytes_eq]
    exact congrArg stream.drop (earliestOf_eq capacity stream).symm
  · intro requested read
    have hread : read = _ := hretains.read_eq cursor maximum
    change read = (if requested < earliest then .gap requested earliest stream.length
      else if requested > stream.length then .future requested stream.length
      else .data _) at hread
    by_cases hgap : requested < earliest
    · have hnot : ¬ requested > stream.length := by omega
      rw [if_pos hgap] at hread
      rw [hread]
      exact ⟨⟨fun _ => hgap, fun _ => ⟨_, _, _, rfl⟩⟩, ⟨nofun, fun h => absurd h hnot⟩,
        fun h => absurd hgap h⟩
    · rw [if_neg hgap] at hread
      by_cases hfuture : requested > stream.length
      · rw [if_pos hfuture] at hread
        rw [hread]
        exact ⟨⟨nofun, fun h => absurd h hgap⟩, ⟨fun _ => hfuture, fun _ => ⟨_, _, rfl⟩⟩,
          fun _ h => absurd hfuture h⟩
      · rw [if_neg hfuture] at hread
        refine ⟨⟨fun ⟨_, _, _, h⟩ => ?_, fun h => absurd h hgap⟩,
          ⟨fun ⟨_, _, h⟩ => ?_, fun h => absurd h hfuture⟩,
          fun _ _ => ⟨_, hread, rfl, rfl, rfl, decode_encodeBase64 _, ?_⟩⟩
        · rw [hread] at h
          cases h
        · rw [hread] at h
          cases h
        · intro tabId cursorArg maxArg hcursor hmaximum
          have hread : readTerminalOutput output.rawOutput output.outputBytes cursor maximum
            = .data _ := hread
          unfold captureOutput
          rw [hcursor, hmaximum]
          simp only [bind, Except.bind, hread]
  · intro f stream'
    have hstart : Follows capacity start stream { output, cursor := start, received := [] } := by
      refine ⟨hretains, Nat.le_refl start, .inl rfl, [], rfl, ?_⟩
      rw [Nat.sub_self, take_zero]
      rfl
    have hfollows : Follows capacity start stream' f := hstart.run events
    obtain ⟨pieces, hpieces, hflatten⟩ := hfollows.received
    refine ⟨pieces, ?_, hflatten, ?_⟩
    · rw [hpieces]
      exact mapM_decodeBase64 pieces
    · rw [hflatten]
      exact hfollows.length_eq

end Agenterm
