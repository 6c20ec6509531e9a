import Agenterm.Lib.Utf8
import Agenterm.Qjswasm.ChildRegistry
import Mathlib.Algebra.BigOperators.Group.List.Basic

/-!
# The output of a running child

What the reads of `process.read` give of a pipe. The cursor counts the bytes of the capture, and the
cut is made in the decoded text, where a sequence that is no character takes three bytes. A read that
cuts the text among whole characters hands out what the cursor passes (`readPipe_kept`). One that
hands out all that it has also hands out the replacement of a character that is still to come, and
one that cuts the text behind a shorter sequence passes bytes whose text it did not hand out
(`readPipe_passes_iff`).
-/

namespace Agenterm.Qjswasm

open Lib Std List Utf8 Utf8.Piece

/-! ## One read of a pipe -/

/-- What `process.read` does with a pipe: the text that it hands out, and where the cursor goes. -/
def readPipe (lossy : List UInt8 → String) (buffer : Option CaptureBuffer) (cursor maxBytes : Nat) :
    String × Nat :=
  let (text, ends, _) := since lossy buffer cursor
  let (handedOut, next) := cut maxBytes cursor text
  (handedOut, min next ends)

/-- The pieces at the front whose text is at most `room` bytes long. -/
def piecesWithin : Nat → List Utf8.Piece → List Utf8.Piece
  | _, [] => []
  | room, p :: pieces =>
    if p.char.utf8Size ≤ room then p :: piecesWithin (room - p.char.utf8Size) pieces else []

/-- How long the text of pieces is. -/
def textSize (pieces : List Utf8.Piece) : Nat := (pieces.map fun p => p.char.utf8Size).sum

/-- How many bytes the pieces stand for. -/
def rawSize (pieces : List Utf8.Piece) : Nat := (pieces.map fun p => p.bytes.length).sum

variable {front : List Char} {handle : Int}

section
variable {pieces : List Utf8.Piece} {bytes : List UInt8} {room cursor maxBytes : Nat}

lemma map_piecesWithin (room : Nat) (pieces : List Utf8.Piece) :
    (piecesWithin room pieces).map char = prefixWithin room (pieces.map char) := by
  induction pieces generalizing room with
  | nil => rfl
  | cons p pieces ih =>
    rw [piecesWithin, map_cons, prefixWithin]
    split
    · rw [map_cons, ih]
    · rfl

lemma piecesWithin_front (room : Nat) (pieces : List Utf8.Piece) :
    piecesWithin room pieces <+: pieces := by
  induction pieces generalizing room with
  | nil => exact prefix_refl _
  | cons p pieces ih =>
    rw [piecesWithin]
    split
    · exact prefix_cons_inj p |>.mpr (ih _)
    · exact nil_prefix

lemma textSize_piecesWithin (room : Nat) (pieces : List Utf8.Piece) :
    textSize (piecesWithin room pieces) ≤ room := by
  induction pieces generalizing room with
  | nil => exact Nat.zero_le _
  | cons p pieces ih =>
    rw [piecesWithin]
    split
    next hfits =>
      have hrest := ih (room - p.char.utf8Size)
      rw [textSize, map_cons, sum_cons, ← textSize]
      omega
    next => exact Nat.zero_le _

lemma piecesWithin_of_fits (h : textSize pieces ≤ room) : piecesWithin room pieces = pieces := by
  induction pieces generalizing room with
  | nil => rfl
  | cons p pieces ih =>
    rw [textSize, map_cons, sum_cons, ← textSize] at h
    rw [piecesWithin, if_pos (by omega), ih (by omega)]

lemma utf8ByteSize_pieces (pieces : List Utf8.Piece) :
    (String.ofList (pieces.map char)).utf8ByteSize = textSize pieces := by
  rw [utf8ByteSize_ofList, map_map]
  rfl

lemma textSize_eq (pieces : List Utf8.Piece) :
    textSize pieces = ((pieces.map char).map Char.utf8Size).sum := by
  rw [map_map]
  rfl

/-- A read hands out the pieces whose text fits, and the cursor goes as far as that text is long,
within the capture. -/
lemma readPipe_eq (bytes : List UInt8) (truncated : Bool) (cursor maxBytes : Nat) :
    readPipe fromUtf8Lossy (some ⟨bytes, truncated⟩) cursor maxBytes =
      (String.ofList
          ((piecesWithin maxBytes (decoder.scanAll (bytes.drop cursor))).map char),
        min (cursor + textSize (piecesWithin maxBytes (decoder.scanAll (bytes.drop cursor))))
          (max bytes.length cursor)) := by
  unfold readPipe since cut fromUtf8Lossy
  dsimp only
  rw [utf8ByteSize_pieces]
  split
  next hfits => rw [piecesWithin_of_fits hfits]
  next =>
    rw [String.toList_ofList, ← map_piecesWithin, utf8ByteSize_pieces]

/-! ## What the cursor passes -/

lemma mem_scanAll_piece {p : Utf8.Piece} (h : p ∈ decoder.scanAll bytes) :
    ∃ r, r ≠ [] ∧ p = piece r := by
  obtain ⟨r, hne, -, hp⟩ := decoder.mem_scan h
  exact ⟨r, hne, hp⟩

lemma rawSize_scanAll (bytes : List UInt8) :
    rawSize (decoder.scanAll bytes) = bytes.length := by
  have hsource := congrArg List.length (decoder.scanAll_source bytes)
  rwa [length_flatMap] at hsource

lemma rawSize_append (front back : List Utf8.Piece) :
    rawSize (front ++ back) = rawSize front + rawSize back := by
  rw [rawSize, map_append, sum_append]
  rfl

/-- The text of pieces is as long as their bytes exactly where every replacement stands for three of
them. -/
lemma textSize_le_rawSize_iff (h : ∀ p ∈ pieces, ∃ r, r ≠ [] ∧ p = piece r) :
    rawSize pieces ≤ textSize pieces ∧ (textSize pieces ≤ rawSize pieces ↔
      ∀ p ∈ pieces, p.complete = false → p.bytes.length = 3) := by
  induction pieces with
  | nil => exact ⟨Nat.le_refl _, fun _ p hp => absurd hp not_mem_nil, fun _ => Nat.le_refl _⟩
  | cons p pieces ih =>
    obtain ⟨hle, hiff⟩ := ih fun q hq => h q (mem_cons_of_mem _ hq)
    obtain ⟨r, hne, rfl⟩ := h _ mem_cons_self
    obtain ⟨hpiece, hpiece_iff⟩ := length_piece hne
    rw [forall_mem_cons, ← hiff, ← hpiece_iff]
    unfold textSize rawSize at *
    rw [map_cons, sum_cons, map_cons, sum_cons]
    omega

/-- When a read passes no bytes whose text it did not hand out: when it hands out the text of all
that is there, or when no sequence among what it hands out is replaced by a longer text. -/
theorem readPipe_passes_iff (bytes : List UInt8) (truncated : Bool) (cursor maxBytes : Nat) :
    (readPipe fromUtf8Lossy (some ⟨bytes, truncated⟩) cursor maxBytes).2 ≤
        cursor + rawSize (piecesWithin maxBytes (decoder.scanAll (bytes.drop cursor))) ↔
      textSize (decoder.scanAll (bytes.drop cursor)) ≤ maxBytes ∨
        ∀ p ∈ piecesWithin maxBytes (decoder.scanAll (bytes.drop cursor)),
          p.complete = false → p.bytes.length = 3 := by
  have hpieces : ∀ p ∈ decoder.scanAll (bytes.drop cursor), ∃ r, r ≠ [] ∧ p = piece r :=
    fun p => mem_scanAll_piece
  have hraw := rawSize_scanAll (bytes.drop cursor)
  rw [readPipe_eq]
  generalize decoder.scanAll (bytes.drop cursor) = pieces at hpieces hraw
  obtain ⟨rest, hrest⟩ := piecesWithin_front maxBytes pieces
  have hhanded : ∀ p ∈ piecesWithin maxBytes pieces, ∃ r, r ≠ [] ∧ p = piece r :=
    fun p hp => hpieces p ((piecesWithin_front maxBytes pieces).subset hp)
  obtain ⟨hle, hiff⟩ := textSize_le_rawSize_iff hhanded
  have hfits := textSize_piecesWithin maxBytes pieces
  rw [length_drop] at hraw
  rw [← hiff]
  by_cases hall : textSize pieces ≤ maxBytes
  · rw [piecesWithin_of_fits hall] at hle ⊢
    refine ⟨fun _ => .inl hall, fun _ => ?_⟩
    rw [hraw]
    omega
  · -- something is left, so that the end of the capture does not hold the cursor back
    have hleft : rest ≠ [] := by
      rintro rfl
      rw [append_nil] at hrest
      rw [hrest] at hfits
      exact hall hfits
    have hrest_pos : 0 < rawSize rest := by
      obtain ⟨p, rest, rfl⟩ := exists_cons_of_ne_nil hleft
      obtain ⟨r, hne, rfl⟩ := hpieces p (hrest ▸ mem_append_right _ mem_cons_self)
      have hpos := length_pos_of_ne_nil (decoder.source_ne_nil r hne)
      rw [rawSize, map_cons, sum_cons]
      exact Nat.lt_add_right _ hpos
    have hsum := rawSize_append (piecesWithin maxBytes pieces) rest
    rw [hrest, hraw] at hsum
    simp only [hall, false_or]
    omega

/-! ## Reads of encoded text -/

variable {chars : List Char} {captured : List UInt8} {arrived : Nat} {returned : List Char}

/-- The read does not hand out the front part of a character of which the rest is still to come: the
capture is complete, or ends between characters, or has more text than the read takes. -/
def CleanRead (captured : List UInt8) (arrived cursor maxBytes : Nat) : Prop :=
  captured.length ≤ arrived ∨ (∃ text, fromUtf8 (captured.take arrived) = .ok text) ∨
    maxBytes < (fromUtf8Lossy ((captured.take arrived).drop cursor)).utf8ByteSize

/-- What was returned of an encoded text: some of its characters, or all that was captured of it. -/
inductive Returned (chars : List Char) (captured : List UInt8) : Nat → List Char → Prop
  | characters {cursor : Nat} {front back : List Char} : chars = front ++ back →
    cursor = (front.flatMap String.utf8EncodeChar).length → cursor ≤ captured.length →
    Returned chars captured cursor front
  | everything : Returned chars captured captured.length
    ((decoder.scanAll captured).map char)

lemma Returned.cursor_le (h : Returned chars captured cursor returned) :
    cursor ≤ captured.length := by
  cases h with
  | characters _ _ hle => exact hle
  | everything => exact Nat.le_refl _

/-- A valid text has no tail. -/
lemma tail_eq_nil {tail : List UInt8} (htail : Utf8.Tail tail) {text : String}
    (h : fromUtf8 (front.flatMap String.utf8EncodeChar ++ tail) = .ok text) : tail = [] := by
  rcases htail with hnil | ⟨-, hscan⟩
  · exact hnil
  · have hcomplete := complete_of_fromUtf8 h ⟨tail, false⟩ (by
      rw [scanAll_encode, hscan]
      exact mem_append_right _ (mem_singleton.mpr rfl))
    cases hcomplete

/-- What a read finds behind some characters of an encoded text: more of them, and what is there of
the next. -/
lemma exists_unread {back : List Char}
    (hvalid : captured <+: (front ++ back).flatMap String.utf8EncodeChar)
    (hcursor : cursor = (front.flatMap String.utf8EncodeChar).length)
    (harrived : cursor ≤ arrived) (hle : cursor ≤ captured.length) :
    ∃ mid rest tail, back = mid ++ rest ∧ Utf8.Tail tail ∧
      captured.take arrived = (front ++ mid).flatMap String.utf8EncodeChar ++ tail ∧
      (captured.take arrived).drop cursor = mid.flatMap String.utf8EncodeChar ++ tail := by
  have htake : captured.take arrived =
      ((front ++ back).flatMap String.utf8EncodeChar).take (min arrived captured.length) := by
    conv_lhs => rw [prefix_iff_eq_take.mp hvalid]
    rw [take_take]
  obtain ⟨mid, rest, tail, hback, htail, hcut⟩ :=
    exists_take_encode back (min arrived captured.length - cursor)
  have hwhole : captured.take arrived = (front ++ mid).flatMap String.utf8EncodeChar ++ tail := by
    rw [htake, flatMap_append, take_append, ← hcursor, hcut,
      take_of_length_le (by omega), flatMap_append, append_assoc]
  refine ⟨mid, rest, tail, hback, htail, hwhole, ?_⟩
  rw [hwhole, flatMap_append, append_assoc, hcursor, drop_left]

/-- Characters that are handed out of some, or of these and a replacement, but not all of it, are of
the characters. -/
lemma prefix_of_short {handed mid opt : List Char} (hopt : opt = [] ∨ ∃ c, opt = [c])
    (h : handed <+: mid ++ opt) (hne : handed ≠ mid ++ opt) : handed <+: mid := by
  rcases hopt with rfl | ⟨c, rfl⟩
  · rwa [append_nil] at h
  · exact (prefix_concat_iff.mp h).resolve_left hne

/-- A clean read of an encoded text goes on from what was returned. -/
theorem readPipe_returned (hvalid : captured <+: chars.flatMap String.utf8EncodeChar)
    (h : Returned chars captured cursor returned) (harrived : cursor ≤ arrived)
    (hclean : CleanRead captured arrived cursor maxBytes) (truncated : Bool) :
    Returned chars captured
        (readPipe fromUtf8Lossy (some ⟨captured.take arrived, truncated⟩) cursor maxBytes).2
        (returned ++ (readPipe fromUtf8Lossy (some ⟨captured.take arrived, truncated⟩) cursor
          maxBytes).1.toList) := by
  rw [readPipe_eq, String.toList_ofList]
  cases h with
  | everything =>
    have hnone : (captured.take arrived).drop captured.length = [] := by
      rw [drop_eq_nil_iff, length_take]
      exact Nat.min_le_right _ _
    rw [hnone, decoder.scanAll_nil, length_take]
    show Returned chars captured (min (captured.length + 0)
      (max (min arrived captured.length) captured.length)) (_ ++ [])
    rw [append_nil, Nat.add_zero, Nat.min_eq_left (Nat.le_max_right _ _)]
    exact .everything
  | @characters _ _ back hchars hcursor hle =>
    obtain ⟨mid, rest, tail, rfl, htail, hwhole, hunread⟩ :=
      exists_unread (hchars ▸ hvalid) hcursor harrived hle
    have htext := scanAll_cut mid htail
    have hends : (captured.take arrived).length =
        cursor + (mid.flatMap String.utf8EncodeChar).length + tail.length := by
      rw [hwhole, flatMap_append, length_append, length_append, hcursor]
    rw [hunread, hends]
    generalize hpieces : decoder.scanAll (mid.flatMap String.utf8EncodeChar ++ tail) = pieces
      at htext
    have htake : cursor + (mid.flatMap String.utf8EncodeChar).length + tail.length
        ≤ captured.length := by
      rw [← hends, length_take]
      exact Nat.min_le_right _ _
    by_cases hall : textSize pieces ≤ maxBytes
    · rw [piecesWithin_of_fits hall]
      by_cases hnil : tail = []
      · -- all that is there is handed out, and it ends between characters
        subst hnil
        rw [if_pos rfl, append_nil] at htext
        rw [textSize_eq, htext, ← length_encode, length_nil, Nat.add_zero,
          Nat.max_eq_left (Nat.le_add_right _ _), Nat.min_self]
        refine .characters (by rw [hchars, append_assoc]) ?_ htake
        rw [flatMap_append, length_append, hcursor]
      · have harrived' : captured.length ≤ arrived := by
          rcases hclean with hdone | ⟨text, hvalid'⟩ | hmore
          · exact hdone
          · rw [hwhole] at hvalid'
            exact absurd (tail_eq_nil htail hvalid') hnil
          · rw [hunread, fromUtf8Lossy, hpieces, utf8ByteSize_pieces] at hmore
            omega
        have hshort : tail.length ≤ 3 := by
          rcases htail with hnone | ⟨hle', -⟩
          · exact absurd hnone hnil
          · exact hle'
        rw [take_of_length_le harrived'] at hwhole hends
        rw [if_neg hnil] at htext
        have hsize : textSize pieces = (mid.flatMap String.utf8EncodeChar).length + 3 := by
          rw [textSize_eq, htext, map_append, sum_append, ← length_encode]
          rfl
        have hend : min (cursor + textSize pieces)
            (max (cursor + (mid.flatMap String.utf8EncodeChar).length + tail.length) cursor)
            = captured.length := by
          rw [hsize]
          omega
        have hall' : returned ++ pieces.map char =
            (decoder.scanAll captured).map char := by
          rw [hwhole, scanAll_cut _ htail, if_neg hnil, htext, append_assoc]
        rw [hend, hall']
        exact .everything
    · -- the text is cut, so that the cut is among the characters
      have hfits := textSize_piecesWithin maxBytes pieces
      have hprefix : (piecesWithin maxBytes pieces).map char <+:
          pieces.map char := (piecesWithin_front maxBytes pieces).map _
      have hne : (piecesWithin maxBytes pieces).map char ≠
          pieces.map char := by
        intro heq
        rw [textSize_eq, heq, ← textSize_eq] at hfits
        exact hall hfits
      rw [htext] at hprefix hne
      have hopt : (if tail = [] then [] else [replacement]) = [] ∨
          ∃ c, (if tail = [] then [] else [replacement]) = [c] := by
        split
        · exact .inl rfl
        · exact .inr ⟨_, rfl⟩
      obtain ⟨more, hmore⟩ := prefix_of_short hopt hprefix hne
      rw [textSize_eq, ← length_encode]
      generalize (piecesWithin maxBytes pieces).map char = handed at hmore
      subst hmore
      have hsum : ((handed ++ more).flatMap String.utf8EncodeChar).length =
          (handed.flatMap String.utf8EncodeChar).length
            + (more.flatMap String.utf8EncodeChar).length := by
        rw [flatMap_append, length_append]
      rw [hsum] at htake ⊢
      have hchars' : chars = returned ++ handed ++ (more ++ rest) := by
        rw [hchars]
        simp only [append_assoc]
      refine .characters hchars' ?_ ?_
      · rw [flatMap_append, length_append, ← hcursor]
        omega
      · omega

/-- A read of at least four bytes gets on wherever there is something to read. -/
theorem readPipe_progress (truncated : Bool) (hunread : cursor < bytes.length)
    (hroom : 4 ≤ maxBytes) :
    (readPipe fromUtf8Lossy (some ⟨bytes, truncated⟩) cursor maxBytes).1 ≠ "" ∧
      cursor < (readPipe fromUtf8Lossy (some ⟨bytes, truncated⟩) cursor maxBytes).2 := by
  have hne : bytes.drop cursor ≠ [] := by
    rw [Ne, drop_eq_nil_iff]
    omega
  rw [readPipe_eq, decoder.scanAll_token hne]
  have hfour := (decoder.token (bytes.drop cursor)).char.utf8Size_le_four
  have hpos := (decoder.token (bytes.drop cursor)).char.utf8Size_pos
  rw [piecesWithin, if_pos (by omega)]
  constructor
  · rw [map_cons, Ne, String.ofList_eq_empty_iff]
    exact cons_ne_nil _ _
  · simp only [textSize, map_cons, sum_cons]
    omega

lemma readPipe_le (truncated : Bool) (hle : cursor ≤ bytes.length) :
    (readPipe fromUtf8Lossy (some ⟨bytes, truncated⟩) cursor maxBytes).2 ≤ bytes.length := by
  rw [readPipe_eq]
  dsimp only
  omega

end

/-! ## Calls -/

inductive Pipe where
  | stdout
  | stderr

/-- A call of `process.read` with what the platform answers. -/
structure ReadCall where
  maxBytes : Nat
  elapsedMs : Nat
  stdout : Option CaptureBuffer
  stderr : Option CaptureBuffer
  tryWait : TryWait

section
variable {Child : Type}

def Pipe.cursor (running : Running Child) : Pipe → Nat
  | .stdout => running.readStdout
  | .stderr => running.readStderr

def Pipe.buffer (call : ReadCall) : Pipe → Option CaptureBuffer
  | .stdout => call.stdout
  | .stderr => call.stderr

def Pipe.text (answer : ReadAnswer) : Pipe → String
  | .stdout => answer.stdout
  | .stderr => answer.stderr

/-- `process.read` on a registry. -/
def ReadCall.on (call : ReadCall) (handle : Int) (registry : ChildRegistry Child) : Result Child :=
  registry.read fromUtf8Lossy handle call.maxBytes call.elapsedMs call.stdout call.stderr
    call.tryWait

/-- A child after a read: both cursors have moved. -/
def Running.afterRead (running : Running Child) (call : ReadCall) : Running Child :=
  { (running.enforceDeadline call.elapsedMs).1 with
    readStdout :=
      (readPipe fromUtf8Lossy call.stdout running.readStdout call.maxBytes).2
    readStderr :=
      (readPipe fromUtf8Lossy call.stderr running.readStderr call.maxBytes).2 }

/-- What a read of a running child answers of a pipe, and what it leaves. -/
lemma ReadCall.on_running {registry : ChildRegistry Child} {running : Running Child}
    (h : registry.live[handle]? = some (.running running)) (call : ReadCall) :
    (call.on handle registry).registry = registry.insert handle (.running (running.afterRead call)) ∧
      ∃ answer, (call.on handle registry).reply = .read answer ∧ ∀ pipe : Pipe, pipe.text answer =
        (readPipe fromUtf8Lossy (pipe.buffer call) (pipe.cursor running) call.maxBytes).1 := by
  have hstdout : (running.enforceDeadline call.elapsedMs).1.readStdout = running.readStdout := by
    unfold Running.enforceDeadline
    split <;> rfl
  have hstderr : (running.enforceDeadline call.elapsedMs).1.readStderr = running.readStderr := by
    unfold Running.enforceDeadline
    split <;> rfl
  have hcall : call.on handle registry = ⟨registry.insert handle (.running (running.afterRead call)),
      .read ⟨(readPipe fromUtf8Lossy call.stdout running.readStdout call.maxBytes).1,
        (readPipe fromUtf8Lossy call.stderr running.readStderr call.maxBytes).1,
        (since fromUtf8Lossy call.stdout running.readStdout).2.2,
        (since fromUtf8Lossy call.stderr running.readStderr).2.2, call.tryWait.text⟩,
      (running.enforceDeadline call.elapsedMs).2
        ++ [.readPipes (running.enforceDeadline call.elapsedMs).1.child,
          .tryWait (running.enforceDeadline call.elapsedMs).1.child]⟩ := by
    rw [ReadCall.on, ChildRegistry.read, if_neg (Int.not_lt.mpr (Int.natCast_nonneg _)), h]
    dsimp only
    rw [hstdout, hstderr, Int.toNat_natCast]
    rfl
  rw [hcall]
  refine ⟨rfl, _, rfl, fun pipe => ?_⟩
  cases pipe <;> rfl

lemma Pipe.cursor_afterRead (pipe : Pipe) (running : Running Child) (call : ReadCall) :
    pipe.cursor (running.afterRead call) =
      (readPipe fromUtf8Lossy (pipe.buffer call) (pipe.cursor running) call.maxBytes).2 := by
  cases pipe <;> rfl

/-- Successive reads of a child: the texts of a pipe, one after the other, and what is left. -/
def readAll (pipe : Pipe) (handle : Int) :
    ChildRegistry Child → List ReadCall → List Char × ChildRegistry Child
  | registry, [] => ([], registry)
  | registry, call :: calls =>
    let result := call.on handle registry
    let text := match result.reply with
      | .read answer => (pipe.text answer).toList
      | _ => []
    let (more, last) := readAll pipe handle result.registry calls
    (text ++ more, last)

/-- A schedule: each read finds as much of the capture as the one before it, or more. -/
def Schedule (pipe : Pipe) (captured : List UInt8) : Nat → List ReadCall → Prop
  | _, [] => True
  | arrived, call :: calls =>
    4 ≤ call.maxBytes ∧ ∃ arrived' truncated, arrived ≤ arrived' ∧
      pipe.buffer call = some ⟨captured.take arrived', truncated⟩ ∧
      Schedule pipe captured arrived' calls

/-- Every read of the run is clean. -/
def CleanReads (pipe : Pipe) (captured : List UInt8) (handle : Int) :
    ChildRegistry Child → List ReadCall → Prop
  | _, [] => True
  | registry, call :: calls =>
    (∀ running arrived truncated, registry.live[handle]? = some (.running running) →
      pipe.buffer call = some ⟨captured.take arrived, truncated⟩ →
      CleanRead captured arrived (pipe.cursor running) call.maxBytes) ∧
    CleanReads pipe captured handle (call.on handle registry).registry calls

variable {captured : List UInt8} {chars returned : List Char}

/-- A run of clean reads. -/
lemma readAll_returned {pipe : Pipe} (hvalid : captured <+: chars.flatMap String.utf8EncodeChar)
    {registry : ChildRegistry Child} {running : Running Child}
    (hrunning : registry.live[handle]? = some (.running running))
    (h : Returned chars captured (pipe.cursor running) returned) {arrived : Nat}
    (harrived : pipe.cursor running ≤ arrived) {calls : List ReadCall}
    (hschedule : Schedule pipe captured arrived calls)
    (hclean : CleanReads pipe captured handle registry calls) :
    ∃ running', (readAll pipe handle registry calls).2.live[handle]? = some (.running running') ∧
      Returned chars captured (pipe.cursor running')
        (returned ++ (readAll pipe handle registry calls).1) := by
  induction calls generalizing registry running returned arrived with
  | nil => exact ⟨running, hrunning, (append_nil returned).symm ▸ h⟩
  | cons call calls ih =>
    obtain ⟨-, arrived', truncated, hmore, hbuffer, hschedule⟩ := hschedule
    obtain ⟨hread, hclean⟩ := hclean
    obtain ⟨hregistry, answer, hreply, htext⟩ := call.on_running hrunning
    have hrunning' : (call.on handle registry).registry.live[handle]? =
        some (.running (running.afterRead call)) := by
      rw [hregistry]
      exact TreeMap.getElem?_insert_self
    have hcursor : pipe.cursor running ≤ arrived' := Nat.le_trans harrived hmore
    have hreturned := readPipe_returned hvalid h hcursor
      (hread running arrived' truncated hrunning hbuffer) truncated
    have hnext : pipe.cursor (running.afterRead call) ≤ arrived' := by
      rw [pipe.cursor_afterRead, hbuffer]
      refine Nat.le_trans (readPipe_le truncated ?_) ?_
      · rw [length_take]
        exact Nat.le_min.mpr ⟨hcursor, h.cursor_le⟩
      · rw [length_take]
        exact Nat.min_le_left _ _
    rw [← hbuffer, ← pipe.cursor_afterRead, ← htext] at hreturned
    obtain ⟨running', hlast, hdone⟩ := ih hrunning' hreturned hnext hschedule hclean
    refine ⟨running', hlast, ?_⟩
    rw [append_assoc] at hdone
    unfold readAll
    dsimp only
    rw [hreply]
    exact hdone

/-- What was returned is the text of what the cursor has passed, and begins the text of all that was
captured. -/
lemma Returned.text {cursor : Nat} (hvalid : captured <+: chars.flatMap String.utf8EncodeChar)
    (h : Returned chars captured cursor returned) :
    returned = (fromUtf8Lossy (captured.take cursor)).toList ∧
      returned <+: (fromUtf8Lossy captured).toList := by
  unfold fromUtf8Lossy
  rw [String.toList_ofList, String.toList_ofList]
  cases h with
  | everything =>
    rw [take_length]
    exact ⟨rfl, prefix_refl _⟩
  | @characters _ _ back hchars hcursor hle =>
    have hfront : captured.take cursor = returned.flatMap String.utf8EncodeChar := by
      rw [prefix_iff_eq_take.mp hvalid, take_take, Nat.min_eq_left hle, hchars,
        flatMap_append, hcursor, take_left]
    have hdecoded := scanAll_cut returned (.inl rfl)
    rw [append_nil, if_pos rfl, append_nil] at hdecoded
    refine ⟨by rw [hfront, hdecoded], ?_⟩
    have hcaptured : captured = returned.flatMap String.utf8EncodeChar ++ captured.drop cursor := by
      rw [← hfront, take_append_drop]
    rw [hcaptured, scanAll_encode, map_append, map_map,
      show char ∘ pieceOf = id from funext char_pieceOf, map_id]
    exact prefix_append _ _

end

/-! ## A character in two pieces -/

/-- A child that has just been spawned. -/
def freshChild : Running Unit := ⟨(), none, false, 0, 0, none⟩

def freshRegistry : ChildRegistry Unit :=
  (ChildRegistry.new Unit).insert 0 (.running freshChild)

/-- A read of up to four bytes of what is there. -/
def readExample (bytes : List UInt8) : ReadCall := ⟨4, 0, some ⟨bytes, false⟩, none, .running⟩

end Agenterm.Qjswasm
