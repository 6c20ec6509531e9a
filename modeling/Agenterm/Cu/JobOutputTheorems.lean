import Agenterm.Cu.Common
import Agenterm.Cu.JobOutput
import Agenterm.Lib.Suffix
import Agenterm.Terminal.OutputRingTheorems

/-!
# Paging through the output of a managed job

`Holds` says what a ring retains of its stream, and is kept by `append` (`Holds.append`); a page is
then a part of the stream (`Holds.page_eq`), and its text decodes to it (`base64Decode_encode`). The
main result is `output_paging`.
-/

namespace Agenterm.Cu

open Lib List UInt8

/-! ## What the ring holds -/

/-- The ring retains the end of the stream and counts all of it. -/
structure CursorRing.Holds (ring : CursorRing) (capacity : Nat) (stream : List UInt8) : Prop where
  capacity_eq : ring.capacity = capacity
  bytes_eq : ring.bytes = lastOf capacity stream
  cursor_eq : ring.currentCursor = stream.length

namespace CursorRing.Holds

variable {ring ring' : CursorRing} {capacity : Nat} {stream incoming : List UInt8}

lemma new (capacity : Nat) : (CursorRing.new capacity).Holds capacity [] where
  capacity_eq := rfl
  bytes_eq := drop_nil.symm
  cursor_eq := rfl

lemma append (h : ring.Holds capacity stream) (happend : ring.append incoming = .ok ring') :
    ring'.Holds capacity (stream ++ incoming) := by
  have hcursor : ring.currentCursor + incoming.length = (stream ++ incoming).length := by
    rw [length_append, h.cursor_eq]
  unfold CursorRing.append at happend
  split at happend
  · injection happend
  dsimp only at happend
  split at happend
  · -- the chunk fills the ring by itself
    rename_i hfull
    rw [← Except.ok.inj happend]
    refine ⟨h.capacity_eq, ?_, hcursor⟩
    rw [h.capacity_eq] at hfull
    rw [lastOf_append_long hfull, ← h.capacity_eq]
  · rename_i hfull
    rw [← Except.ok.inj happend]
    refine ⟨h.capacity_eq, ?_, hcursor⟩
    rw [h.capacity_eq] at hfull
    rw [lastOf_append_short (by omega), ← h.bytes_eq, ← h.capacity_eq]

lemma finish (h : ring.Holds capacity stream) (readError : Option String) :
    (ring.finish readError).Holds capacity stream :=
  ⟨h.capacity_eq, h.bytes_eq, h.cursor_eq⟩

lemma earliest_eq (h : ring.Holds capacity stream) :
    ring.earliestCursor = stream.length - capacity := by
  unfold earliestCursor
  rw [h.cursor_eq, h.bytes_eq, length_lastOf]
  omega

/-- A page is decided by where its cursor lies in the stream. -/
lemma page_eq (h : ring.Holds capacity stream) (cursor limit : Nat) :
    ring.page cursor limit =
      if limit < 1 ∨ outputPageMax < limit then .error .pageLimit
      else if cursor < stream.length - capacity then
        .error (.retentionGap (stream.length - capacity))
      else if stream.length < cursor then .error (.futureCursor stream.length)
      else
        let bytes := (stream.drop cursor).take limit
        .ok ⟨cursor, cursor + bytes.length, stream.length, bytes,
          ring.finalized && cursor + bytes.length = stream.length, ring.readError⟩ := by
  unfold page
  rw [h.earliest_eq, h.cursor_eq]
  split
  · rfl
  split
  · rfl
  rename_i hretained
  split
  · rfl
  · rw [h.bytes_eq, drop_lastOf (by omega)]

end CursorRing.Holds

/-! ## The text of a page -/

/-- The byte of a sextet's character. -/
def digitByte (sextet : Nat) : UInt8 := ofNat (Base64.digit sextet).toNat

lemma base64Value_digitByte {n : Nat} (h : n < 64) :
    base64Value (digitByte n) = some (ofNat n) := by
  have hall : ∀ n < 64, base64Value (digitByte n) = some (ofNat n) := by decide
  exact hall n h

lemma digitByte_ne_pad {n : Nat} (h : n < 64) : digitByte n ≠ padByte := by
  have hall : ∀ n < 64, digitByte n ≠ padByte := by decide
  exact hall n h

lemma digit_ascii (n : Nat) : (Base64.digit n).toNat ≤ 127 := by
  have hall : ∀ n < 64, (Base64.digit n).toNat ≤ 127 := by decide
  by_cases h : n < 64
  · exact hall n h
  · -- there is no such digit, and the padding stands for it
    have hnone : Base64.alphabet[n]? = none := List.getElem?_eq_none (by
      show 64 ≤ n
      omega)
    unfold Base64.digit
    rw [getD_eq_getElem?_getD, hnone]
    decide

lemma encodeChunk_ascii (first second third : UInt8) (length : Nat) :
    ∀ c ∈ encodeChunk first second third length, c.toNat ≤ 127 := by
  have hpad : '='.toNat ≤ 127 := by decide
  intro c hmem
  simp only [encodeChunk, base64Table, mem_cons, not_mem_nil, or_false] at hmem
  rcases hmem with rfl | rfl | rfl | rfl
  · exact digit_ascii _
  · exact digit_ascii _
  · split
    · exact digit_ascii _
    · exact hpad
  · split
    · exact digit_ascii _
    · exact hpad

lemma paddedValue_digitByte (allowed : Bool) {n : Nat} (h : n < 64) :
    paddedValue allowed (digitByte n) = some (ofNat n) := by
  unfold paddedValue
  rw [if_neg (digitByte_ne_pad h)]
  exact base64Value_digitByte h

section
variable {v w : Nat}

/-- Bits that are moved up by `shift` do not overlap with a number below `2 ^ shift`. -/
lemma moved_or {shift : Nat} (x : Nat) {y : Nat} (hy : y < 2 ^ shift) :
    x * 2 ^ shift ||| y = x * 2 ^ shift + y := by
  rw [← Nat.shiftLeft_eq, Nat.shiftLeft_add_eq_or_of_lt hy]

lemma joined_first (hv : v < 64) (hw : w < 64) :
    (UInt8.ofNat v <<< 2) ||| (UInt8.ofNat w >>> 4) = UInt8.ofNat (v * 4 + w / 16) := by
  have hor := @moved_or 2 v (w / 16) (by omega)
  apply UInt8.toNat.inj
  rw [UInt8.toNat_or, UInt8.toNat_shiftLeft, UInt8.toNat_shiftRight, UInt8.toNat_ofNat',
    UInt8.toNat_ofNat', UInt8.toNat_ofNat', Nat.mod_eq_of_lt (by omega : v < 2 ^ 8),
    Nat.mod_eq_of_lt (by omega : w < 2 ^ 8)]
  show (v <<< 2) % 256 ||| w >>> 4 = (v * 4 + w / 16) % 256
  rw [Nat.shiftLeft_eq, Nat.shiftRight_eq_div_pow, Nat.mod_eq_of_lt (by omega)]
  show v * 2 ^ 2 ||| w / 16 = _
  rw [hor]
  omega

lemma joined_second (hv : v < 64) (hw : w < 64) :
    (UInt8.ofNat v <<< 4) ||| (UInt8.ofNat w >>> 2) = UInt8.ofNat (v % 16 * 16 + w / 4) := by
  have hor := @moved_or 4 (v % 16) (w / 4) (by omega)
  apply UInt8.toNat.inj
  rw [UInt8.toNat_or, UInt8.toNat_shiftLeft, UInt8.toNat_shiftRight, UInt8.toNat_ofNat',
    UInt8.toNat_ofNat', UInt8.toNat_ofNat', Nat.mod_eq_of_lt (by omega : v < 2 ^ 8),
    Nat.mod_eq_of_lt (by omega : w < 2 ^ 8)]
  show (v <<< 4) % 256 ||| w >>> 2 = (v % 16 * 16 + w / 4) % 256
  -- the high bits of the first are lost
  rw [Nat.shiftLeft_eq, Nat.shiftRight_eq_div_pow,
    show v * 2 ^ 4 % 256 = v % 16 * 2 ^ 4 by omega]
  show v % 16 * 2 ^ 4 ||| w / 4 = _
  rw [hor]
  omega

lemma joined_third (hv : v < 64) (hw : w < 64) :
    (UInt8.ofNat v <<< 6) ||| UInt8.ofNat w = UInt8.ofNat (v % 4 * 64 + w) := by
  have hor := @moved_or 6 (v % 4) w hw
  apply UInt8.toNat.inj
  rw [UInt8.toNat_or, UInt8.toNat_shiftLeft, UInt8.toNat_ofNat', UInt8.toNat_ofNat',
    UInt8.toNat_ofNat', Nat.mod_eq_of_lt (by omega : v < 2 ^ 8),
    Nat.mod_eq_of_lt (by omega : w < 2 ^ 8)]
  show (v <<< 6) % 256 ||| w = (v % 4 * 64 + w) % 256
  rw [Nat.shiftLeft_eq, show v * 2 ^ 6 % 256 = v % 4 * 2 ^ 6 by omega, hor]
  omega

end

lemma decodeChunk_of_values {final : Bool} {first second third fourth a b c d : UInt8}
    (ha : base64Value first = some a) (hb : base64Value second = some b)
    (hc : paddedValue (final && fourth = padByte) third = some c)
    (hd : paddedValue final fourth = some d) :
    decodeChunk final first second third fourth =
      some ([(a <<< 2) ||| (b >>> 4)] ++
        (if third ≠ padByte then [(b <<< 4) ||| (c >>> 2)] else []) ++
        (if fourth ≠ padByte then [(c <<< 6) ||| d] else [])) := by
  unfold decodeChunk
  rw [ha, hb, hc, hd]
  rfl

section
variable (a b c : UInt8)

lemma decodeChunk_three (final : Bool) :
    decodeChunk final (digitByte (a.toNat / 4)) (digitByte (a.toNat % 4 * 16 + b.toNat / 16))
      (digitByte (b.toNat % 16 * 4 + c.toNat / 64)) (digitByte (c.toNat % 64)) =
        some [a, b, c] := by
  have ha := a.toNat_lt
  have hb := b.toNat_lt
  have hc := c.toNat_lt
  have h₁ : a.toNat / 4 < 64 := by omega
  have h₂ : a.toNat % 4 * 16 + b.toNat / 16 < 64 := by omega
  have h₃ : b.toNat % 16 * 4 + c.toNat / 64 < 64 := by omega
  have h₄ : c.toNat % 64 < 64 := by omega
  rw [decodeChunk_of_values (base64Value_digitByte h₁) (base64Value_digitByte h₂)
    (paddedValue_digitByte _ h₃) (paddedValue_digitByte _ h₄), if_pos (digitByte_ne_pad h₃),
    if_pos (digitByte_ne_pad h₄), joined_first h₁ h₂, joined_second h₂ h₃, joined_third h₃ h₄,
    Base64.first_byte, Base64.second_byte, Base64.third_byte]
  rfl

lemma decodeChunk_two :
    decodeChunk true (digitByte (a.toNat / 4)) (digitByte (a.toNat % 4 * 16 + b.toNat / 16))
      (digitByte (b.toNat % 16 * 4)) padByte = some [a, b] := by
  have ha := a.toNat_lt
  have hb := b.toNat_lt
  have h₁ : a.toNat / 4 < 64 := by omega
  have h₂ : a.toNat % 4 * 16 + b.toNat / 16 < 64 := by omega
  have h₃ : b.toNat % 16 * 4 < 64 := by omega
  have hsecond := Base64.second_byte a b 0
  rw [show toNat 0 / 64 = 0 from rfl, Nat.add_zero] at hsecond
  rw [decodeChunk_of_values (base64Value_digitByte h₁) (base64Value_digitByte h₂)
    (paddedValue_digitByte _ h₃) (show paddedValue true padByte = some 0 from rfl),
    if_pos (digitByte_ne_pad h₃), if_neg (not_not.mpr rfl), joined_first h₁ h₂,
    joined_second h₂ h₃, Base64.first_byte, hsecond]
  rfl

lemma decodeChunk_one :
    decodeChunk true (digitByte (a.toNat / 4)) (digitByte (a.toNat % 4 * 16)) padByte padByte =
      some [a] := by
  have ha := a.toNat_lt
  have h₁ : a.toNat / 4 < 64 := by omega
  have h₂ : a.toNat % 4 * 16 < 64 := by omega
  have hfirst := Base64.first_byte a 0
  rw [show toNat 0 / 16 = 0 from rfl, Nat.add_zero] at hfirst
  rw [decodeChunk_of_values (base64Value_digitByte h₁) (base64Value_digitByte h₂)
    (show paddedValue (true && padByte = padByte) padByte = some 0 from rfl)
    (show paddedValue true padByte = some 0 from rfl), if_neg (not_not.mpr rfl),
    joined_first h₁ h₂, hfirst]
  rfl

end

/-- The characters of a text, as bytes. -/
def asBytes (text : List Char) : List UInt8 := text.map fun c => ofNat c.toNat

lemma decodeChunks_encodeChunks (bytes : List UInt8) :
    decodeChunks (asBytes (encodeChunks bytes)) = some bytes := by
  fun_induction encodeChunks bytes with
  | case1 => rfl
  | case2 first =>
    have hchunk := decodeChunk_one first
    simp only [encodeChunk, base64Table, firstSextet, secondSextet,
      show toNat 0 / 16 = 0 from rfl, Nat.add_zero]
    show (decodeChunk true (digitByte _) (digitByte _) padByte padByte).bind _ = _
    rw [hchunk]
    rfl
  | case3 first second =>
    have hchunk := decodeChunk_two first second
    simp only [encodeChunk, base64Table, firstSextet, secondSextet, thirdSextet,
      show toNat 0 / 64 = 0 from rfl, Nat.add_zero]
    show (decodeChunk true (digitByte _) (digitByte _) (digitByte _) padByte).bind _ = _
    rw [hchunk]
    rfl
  | case4 first second third rest ih =>
    have hchunk := decodeChunk_three first second third (asBytes (encodeChunks rest)).isEmpty
    simp only [encodeChunk, base64Table, firstSextet, secondSextet, thirdSextet, fourthSextet]
    show (decodeChunk (asBytes (encodeChunks rest)).isEmpty (digitByte _) (digitByte _)
      (digitByte _) (digitByte _)).bind (fun chunk =>
        (decodeChunks (asBytes (encodeChunks rest))).bind fun tail => some (chunk ++ tail)) = _
    rw [ih, hchunk]
    rfl

lemma encodeChunks_ascii (bytes : List UInt8) : ∀ c ∈ encodeChunks bytes, c.toNat ≤ 127 := by
  fun_induction encodeChunks bytes with
  | case1 => exact fun c hmem => absurd hmem not_mem_nil
  | case2 first => exact encodeChunk_ascii first 0 0 1
  | case3 first second => exact encodeChunk_ascii first second 0 2
  | case4 first second third rest ih =>
    intro c hmem
    rcases mem_append.mp hmem with hchunk | hrest
    · exact encodeChunk_ascii first second third 3 c hchunk
    · exact ih c hrest

/-- The number of characters is a multiple of four. -/
lemma length_encodeChunks (bytes : List UInt8) : (encodeChunks bytes).length % 4 = 0 := by
  fun_induction encodeChunks bytes with
  | case1 => rfl
  | case2 first => exact (rfl : 4 % 4 = 0)
  | case3 first second => exact (rfl : 4 % 4 = 0)
  | case4 first second third rest ih =>
    rw [length_append, show (encodeChunk first second third 3).length = 4 from rfl]
    omega

/-- `base64_decode` undoes `base64_encode`. -/
theorem base64Decode_encode (bytes : List UInt8) :
    base64Decode (base64Encode bytes) = some bytes := by
  have hascii := encodeChunks_ascii bytes
  have hlist : (base64Encode bytes).toList = encodeChunks bytes := by
    unfold base64Encode encodeBase64
    exact String.toList_ofList
  have hsize : (base64Encode bytes).utf8ByteSize = (encodeChunks bytes).length := by
    rw [← hlist]
    refine utf8ByteSize_ascii fun c hmem => ?_
    rw [hlist] at hmem
    exact Nat.lt_succ_of_le (hascii c hmem)
  have hnone : ¬ ((base64Encode bytes).utf8ByteSize % 4 ≠ 0 ∨
      (base64Encode bytes).toList.any (127 < ·.toNat) = true) := by
    rw [hsize, hlist, length_encodeChunks]
    rintro (hlength | hany)
    · exact hlength rfl
    · obtain ⟨c, hmem, hlarge⟩ := any_eq_true.mp hany
      have hsmall := hascii c hmem
      have hlarge : 127 < c.toNat := of_decide_eq_true hlarge
      omega
  unfold base64Decode
  rw [if_neg hnone, hlist]
  exact decodeChunks_encodeChunks bytes

/-! ## Runs -/

namespace OutputDrain

/-- The ring holds the stream, and is marked as final only when nothing more is appended. -/
structure Sound (capacity : Nat) (drain : OutputDrain) : Prop where
  holds : drain.ring.Holds capacity drain.stream
  finalized : drain.ring.finalized = true → drain.thread ≠ .running

variable {capacity : Nat} {drain : OutputDrain}

lemma sound_start (capacity : Nat) : (start capacity).Sound capacity where
  holds := .new capacity
  finalized h := absurd h Bool.false_ne_true

lemma Sound.finish (h : drain.Sound capacity) (readError : Option String) :
    (drain.finish readError).Sound capacity where
  holds := h.holds.finish readError
  finalized _ hrunning := by injection hrunning

lemma append_finalized {ring ring' : CursorRing} {incoming : List UInt8}
    (h : ring.append incoming = .ok ring') : ring'.finalized = ring.finalized := by
  unfold CursorRing.append at h
  split at h
  · injection h
  dsimp only at h
  split at h
  all_goals rw [← Except.ok.inj h]

lemma Sound.step (h : drain.Sound capacity) (event : DrainEvent) :
    (drain.step event).Sound capacity := by
  unfold OutputDrain.step
  cases event with
  | read read =>
    dsimp only
    split
    · cases read with
      | eof => exact h.finish none
      | bytes bytes =>
        unfold OutputDrain.read
        dsimp only
        split
        · rename_i ring happend
          refine ⟨h.holds.append happend, fun hfinal => ?_⟩
          rw [append_finalized happend] at hfinal
          exact h.finalized hfinal
        · exact h.finish _
      | interrupted => exact h
      | failed => exact h.finish _
    · exact h
  | panic =>
    dsimp only
    split
    · exact ⟨h.holds, fun _ hrunning => by injection hrunning⟩
    · exact h
  | join =>
    dsimp only
    split
    · rename_i hpanicked
      refine ⟨h.holds.finish _, fun _ hrunning => ?_⟩
      rw [hpanicked] at hrunning
      injection hrunning
    · exact h

/-- What is in the stream stays there, and nothing is added once the thread has ended. -/
lemma step_stream (drain : OutputDrain) (event : DrainEvent) :
    ∃ added, (drain.step event).stream = drain.stream ++ added ∧
      (drain.thread ≠ .running → added = [] ∧ (drain.step event).thread ≠ .running) := by
  unfold step
  cases event with
  | read read =>
    dsimp only
    split
    · rename_i hrunning
      have hnot {p : Prop} (hended : drain.thread ≠ .running) : p := absurd hrunning hended
      cases read with
      | bytes bytes =>
        unfold OutputDrain.read
        dsimp only
        split
        · exact ⟨bytes, rfl, hnot⟩
        · exact ⟨[], (append_nil _).symm, hnot⟩
      | _ => exact ⟨[], (append_nil _).symm, hnot⟩
    · exact ⟨[], (append_nil _).symm, fun hended => ⟨rfl, hended⟩⟩
  | panic =>
    dsimp only
    split
    · rename_i hrunning
      exact ⟨[], (append_nil _).symm, fun hended => absurd hrunning hended⟩
    · exact ⟨[], (append_nil _).symm, fun hended => ⟨rfl, hended⟩⟩
  | join =>
    dsimp only
    split
    · exact ⟨[], (append_nil _).symm, fun hended => ⟨rfl, hended⟩⟩
    · exact ⟨[], (append_nil _).symm, fun hended => ⟨rfl, hended⟩⟩

end OutputDrain

namespace PageReader

/-- A client that starts to read at some cursor, before there is any output. -/
def start (capacity cursor : Nat) : PageReader := ⟨.start capacity, cursor, []⟩

/-- The client has what the stream has from `first` up to its cursor. -/
structure Tiles (capacity first : Nat) (reader : PageReader) : Prop where
  sound : reader.drain.Sound capacity
  first_le : first ≤ reader.cursor
  /-- A cursor that moved is within the stream. -/
  cursor_le : reader.cursor = first ∨ reader.cursor ≤ reader.drain.stream.length
  received : ∃ pieces : List (List UInt8), reader.received = pieces.map base64Encode ∧
    pieces.flatten = slice reader.drain.stream first reader.cursor

variable {capacity first : Nat} {reader : PageReader}

lemma tiles_start (capacity first : Nat) : (start capacity first).Tiles capacity first where
  sound := OutputDrain.sound_start capacity
  first_le := Nat.le_refl first
  cursor_le := .inl rfl
  received := ⟨[], rfl, (slice_self _ _).symm⟩

/-- A page that is given out is a part of the stream. -/
lemma Tiles.page_eq_ok (h : reader.Tiles capacity first) {cursor limit : Nat} {page : OutputPage}
    (hpage : reader.drain.ring.page cursor limit = .ok page) :
    cursor ≤ reader.drain.stream.length ∧
      page.bytes = (reader.drain.stream.drop cursor).take limit ∧
      page.nextCursor = cursor + page.bytes.length ∧
      (page.finalized = true → reader.drain.thread ≠ .running ∧
        page.nextCursor = reader.drain.stream.length) := by
  rw [h.sound.holds.page_eq] at hpage
  split at hpage
  · injection hpage
  split at hpage
  · injection hpage
  split at hpage
  · injection hpage
  · rename_i hfuture
    rw [← Except.ok.inj hpage]
    refine ⟨by omega, rfl, rfl, fun hfinal => ?_⟩
    rw [Bool.and_eq_true, decide_eq_true_eq] at hfinal
    exact ⟨h.sound.finalized hfinal.1, hfinal.2⟩

lemma Tiles.step (h : reader.Tiles capacity first) (event : PageEvent) :
    (reader.step event).Tiles capacity first := by
  obtain ⟨pieces, hreceived, hpieces⟩ := h.received
  cases event with
  | drain event =>
    obtain ⟨added, hadded, -⟩ := reader.drain.step_stream event
    refine ⟨h.sound.step event, h.first_le, ?_, pieces, hreceived, ?_⟩
    · show reader.cursor = first ∨ reader.cursor ≤ (reader.drain.step event).stream.length
      rw [hadded, length_append]
      exact h.cursor_le.imp_right fun hle => by omega
    · -- what is added comes behind the cursor
      show pieces.flatten = slice (reader.drain.step event).stream first reader.cursor
      rw [hadded, hpieces]
      rcases h.cursor_le with hfirst | hle
      · rw [hfirst, slice_self, slice_self]
      · exact (slice_append hle).symm
  | page limit =>
    unfold PageReader.step
    dsimp only
    split
    · rename_i page hpage
      obtain ⟨hcursor, hbytes, hnext, -⟩ := h.page_eq_ok hpage
      have hlength : page.bytes.length ≤ reader.drain.stream.length - reader.cursor := by
        rw [hbytes, length_take, length_drop]
        omega
      have hfirst := h.first_le
      refine ⟨h.sound, ?_, .inr ?_, pieces ++ [page.bytes], ?_, ?_⟩
      · show first ≤ page.nextCursor
        omega
      · show page.nextCursor ≤ reader.drain.stream.length
        omega
      · show reader.received ++ [base64Encode page.bytes] = _
        rw [hreceived, map_append]
        rfl
      · show (pieces ++ [page.bytes]).flatten = slice reader.drain.stream first page.nextCursor
        rw [flatten_append, flatten_singleton, hpieces, hnext, hbytes]
        exact slice_append_take hfirst hcursor limit
    · exact h

lemma run_ended (events : List PageEvent) (hended : reader.drain.thread ≠ .running) :
    (run PageReader.step reader events).drain.stream = reader.drain.stream := by
  have hrun : (run PageReader.step reader events).drain.thread ≠ .running ∧
      (run PageReader.step reader events).drain.stream = reader.drain.stream := by
    refine run_invariant (P := fun later : PageReader => later.drain.thread ≠ .running ∧
      later.drain.stream = reader.drain.stream) ?_ ⟨hended, rfl⟩ events
    rintro later (event | limit) ⟨hlater, hstream⟩
    · obtain ⟨added, hadded, hnone⟩ := later.drain.step_stream event
      obtain ⟨rfl, hstill⟩ := hnone hlater
      refine ⟨hstill, ?_⟩
      rw [← hstream, ← append_nil later.drain.stream]
      exact hadded
    · unfold PageReader.step
      dsimp only
      split
      all_goals exact ⟨hlater, hstream⟩
  exact hrun.2

/-- After any reads of the pipe, with pages read in between: the ring holds the end of what was
appended; a page is a gap exactly when its cursor is before the first byte that is retained, ahead
of the stream exactly when its cursor is, and otherwise has the bytes from there on; the pages of a
client that reads on make up the stream from where it started; nothing follows a page that is final;
and the text of a page decodes to its bytes. -/
theorem output_paging (capacity first : Nat) (events : List PageEvent) :
    let reader := run PageReader.step (start capacity first) events
    let ring := reader.drain.ring
    let stream := reader.drain.stream
    ring.bytes = lastOf capacity stream ∧
      ring.bytes.length = min capacity stream.length ∧
      ring.currentCursor = stream.length ∧
      (∀ cursor limit, limit < 1 ∨ outputPageMax < limit →
        ring.page cursor limit = .error .pageLimit) ∧
      (∀ cursor limit, 1 ≤ limit → limit ≤ outputPageMax →
        ((∃ earliest, ring.page cursor limit = .error (.retentionGap earliest)) ↔
          cursor < stream.length - ring.bytes.length) ∧
        ((∃ current, ring.page cursor limit = .error (.futureCursor current)) ↔
          stream.length < cursor) ∧
        (stream.length - ring.bytes.length ≤ cursor → cursor ≤ stream.length →
          ∃ page, ring.page cursor limit = .ok page ∧
            page.bytes = (stream.drop cursor).take limit ∧
            page.nextCursor = cursor + page.bytes.length)) ∧
      (∃ pieces : List (List UInt8), reader.received = pieces.map base64Encode ∧
        pieces.flatten = slice stream first reader.cursor) ∧
      (∀ cursor limit page, ring.page cursor limit = .ok page → page.finalized = true →
        ∀ later, (run PageReader.step reader later).drain.stream.length = page.nextCursor) ∧
      ∀ bytes, base64Decode (base64Encode bytes) = some bytes := by
  intro reader ring stream
  have htiles : reader.Tiles capacity first :=
    run_invariant (fun _ event h => h.step event) (tiles_start capacity first) events
  have hholds : ring.Holds capacity stream := htiles.sound.holds
  have hlength : ring.bytes.length = min capacity stream.length := by
    rw [hholds.bytes_eq, length_lastOf]
  have hearliest : stream.length - ring.bytes.length = stream.length - capacity := by omega
  refine ⟨hholds.bytes_eq, hlength, hholds.cursor_eq, fun cursor limit hlimit => if_pos hlimit, ?_,
    htiles.received, ?_, base64Decode_encode⟩
  · intro cursor limit hpositive hlimit
    rw [hearliest, hholds.page_eq, if_neg (by omega)]
    refine ⟨⟨?_, fun hgap => ?_⟩, ⟨?_, fun hfuture => ?_⟩, fun hretained hwithin => ?_⟩
    · rintro ⟨earliest, hpage⟩
      split at hpage
      · assumption
      split at hpage
      · injection hpage with herror
        injection herror
      · injection hpage
    · exact ⟨_, if_pos hgap⟩
    · rintro ⟨current, hpage⟩
      split at hpage
      · injection hpage with herror
        injection herror
      split at hpage
      · assumption
      · injection hpage
    · rw [if_neg (by omega), if_pos hfuture]
      exact ⟨_, rfl⟩
    · rw [if_neg (by omega), if_neg (by omega)]
      exact ⟨_, rfl, rfl, rfl⟩
  · intro cursor limit page hpage hfinal later
    obtain ⟨-, -, -, hended⟩ := htiles.page_eq_ok hpage
    obtain ⟨hthread, hnext⟩ := hended hfinal
    rw [run_ended later hthread, hnext]

end PageReader

end Agenterm.Cu
