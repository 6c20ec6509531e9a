import Agenterm.Lib.Scanner
import Mathlib.Algebra.Ring.Nat
import Mathlib.Algebra.Order.Group.Nat

/-!
# Decoding UTF-8

The decoder reads one piece at a time: the bytes of a character, or the longest front part of bytes
that could still have become one, which stands for U+FFFD. It is a scanner in the sense of
`Lib.Scanner`, which waits where the input ends inside a character. `fromUtf8` and `fromUtf8Lossy`
are those of the standard library, with the place and the kind of the first error.
-/

namespace Agenterm.Lib.Utf8

open List

/-! ## Sequences -/

/-- What is owed after a byte: how many bytes, and the range of the next. -/
structure Owed where
  count : Nat
  low : Nat
  high : Nat

/-- What is owed after a first byte. -/
def begins (first : Nat) : Option Owed :=
  if first < 0x80 then some ⟨0, 0x80, 0xBF⟩
  else if first < 0xC2 then none
  else if first < 0xE0 then some ⟨1, 0x80, 0xBF⟩
  else if first = 0xE0 then some ⟨2, 0xA0, 0xBF⟩
  else if first = 0xED then some ⟨2, 0x80, 0x9F⟩
  else if first < 0xF0 then some ⟨2, 0x80, 0xBF⟩
  else if first = 0xF0 then some ⟨3, 0x90, 0xBF⟩
  else if first < 0xF4 then some ⟨3, 0x80, 0xBF⟩
  else if first = 0xF4 then some ⟨3, 0x80, 0x8F⟩
  else none

/-- How many of the owed bytes follow. -/
def follow : Nat → Nat → Nat → List UInt8 → Nat
  | 0, _, _, _ => 0
  | _ + 1, _, _, [] => 0
  | owed + 1, low, high, b :: bytes =>
    if low ≤ b.toNat ∧ b.toNat ≤ high then follow owed 0x80 0xBF bytes + 1 else 0

/-- How many bytes at the front belong together: at least one. -/
def fits : List UInt8 → Nat
  | [] => 0
  | b :: bytes => ((begins b.toNat).elim 0 fun owed => follow owed.count owed.low owed.high bytes) + 1

/-- How many bytes the front must have for a character, or 0 where none begins. -/
def width : List UInt8 → Nat
  | [] => 0
  | b :: _ => (begins b.toNat).elim 0 fun owed => owed.count + 1

/-- The input ends inside a character. -/
def unfinished (bytes : List UInt8) : Bool := fits bytes == bytes.length && fits bytes < width bytes

/-- A character, or bytes that stand for no character. -/
structure Piece where
  bytes : List UInt8
  complete : Bool
deriving DecidableEq

def piece (bytes : List UInt8) : Piece := ⟨bytes.take (fits bytes), fits bytes == width bytes⟩

/-- The scalar value of a sequence. -/
def code : List UInt8 → Nat
  | [a] => a.toNat
  | [a, b] => a.toNat % 32 * 64 + b.toNat % 64
  | [a, b, c] => a.toNat % 16 * 4096 + b.toNat % 64 * 64 + c.toNat % 64
  | [a, b, c, d] =>
    a.toNat % 8 * 262144 + b.toNat % 64 * 4096 + c.toNat % 64 * 64 + d.toNat % 64
  | _ => 0

def replacement : Char := '\uFFFD'

def Piece.char (p : Piece) : Char := if p.complete then Char.ofNat (code p.bytes) else replacement

variable {a b b₁ b₂ : UInt8} {c : Char} {error : Utf8Error} {n v : Nat}

section
variable {bytes more : List UInt8} {owed low high : Nat}

lemma follow_le : follow owed low high bytes ≤ owed := by
  induction bytes generalizing owed low high with
  | nil => cases owed <;> exact Nat.zero_le _
  | cons b bytes ih =>
    cases owed with
    | zero => exact Nat.zero_le _
    | succ owed =>
      rw [follow]
      split
      · exact Nat.succ_le_succ ih
      · exact Nat.zero_le _

lemma follow_le_length : follow owed low high bytes ≤ bytes.length := by
  induction bytes generalizing owed low high with
  | nil => cases owed <;> exact Nat.zero_le _
  | cons b bytes ih =>
    cases owed with
    | zero => exact Nat.zero_le _
    | succ owed =>
      rw [follow]
      split
      · exact Nat.succ_le_succ ih
      · exact Nat.zero_le _

/-- What follows is settled once all that is owed has come, or a byte that is not. -/
lemma follow_append (h : follow owed low high bytes = owed ∨
    follow owed low high bytes < bytes.length) :
    follow owed low high (bytes ++ more) = follow owed low high bytes := by
  induction bytes generalizing owed low high with
  | nil =>
    cases owed with
    | zero => rfl
    | succ owed => rcases h with h | h <;> simp [follow] at h
  | cons b bytes ih =>
    cases owed with
    | zero => rfl
    | succ owed =>
      rw [cons_append, follow, follow]
      rw [follow] at h
      split
      next hin =>
        rw [if_pos hin, length_cons] at h
        rw [ih (by omega)]
      next => rfl

/-- A front part of what follows follows. -/
lemma follow_front (h : follow owed low high (bytes ++ more) = (bytes ++ more).length) :
    follow owed low high bytes = bytes.length := by
  induction bytes generalizing owed low high with
  | nil => cases owed <;> rfl
  | cons b bytes ih =>
    cases owed with
    | zero => simp [follow] at h
    | succ owed =>
      rw [cons_append, follow] at h
      rw [follow]
      split
      next hin =>
        rw [if_pos hin, length_cons] at h
        rw [ih (Nat.succ.inj h), length_cons]
      next hout =>
        rw [if_neg hout, length_cons] at h
        omega

/-- What follows does so on its own. -/
lemma follow_take : follow owed low high (bytes.take (follow owed low high bytes)) =
    follow owed low high bytes := by
  induction bytes generalizing owed low high with
  | nil => rw [take_nil]
  | cons b bytes ih =>
    cases owed with
    | zero => rfl
    | succ owed =>
      rw [follow]
      split
      next hin => rw [take_succ_cons, follow, if_pos hin, ih]
      next => rw [take_zero, follow]

lemma fits_pos (h : bytes ≠ []) : 0 < fits bytes := by
  cases bytes with
  | nil => exact absurd rfl h
  | cons b bytes => exact Nat.succ_pos _

lemma fits_le_length : fits bytes ≤ bytes.length := by
  cases bytes with
  | nil => exact Nat.le_refl _
  | cons b bytes =>
    rw [fits, length_cons]
    cases begins b.toNat with
    | none => exact Nat.succ_le_succ (Nat.zero_le _)
    | some range => exact Nat.succ_le_succ follow_le_length

lemma fits_append (hne : bytes ≠ []) (h : unfinished bytes = false) :
    fits (bytes ++ more) = fits bytes := by
  cases bytes with
  | nil => exact absurd rfl hne
  | cons b bytes =>
    unfold unfinished at h
    rw [cons_append, fits, fits]
    rw [fits, width] at h
    cases hbegins : begins b.toNat with
    | none => rfl
    | some owed =>
      rw [hbegins] at h
      have hsettled : follow owed.count owed.low owed.high bytes + 1 ≠ bytes.length + 1 ∨
          ¬ follow owed.count owed.low owed.high bytes + 1 < owed.count + 1 :=
        (Bool.and_eq_false_iff.mp h).imp beq_eq_false_iff_ne.mp of_decide_eq_false
      have hle : follow owed.count owed.low owed.high bytes ≤ owed.count := follow_le
      have hle' : follow owed.count owed.low owed.high bytes ≤ bytes.length := follow_le_length
      rw [Option.elim_some, Option.elim_some, follow_append (by omega)]

lemma width_append (hne : bytes ≠ []) : width (bytes ++ more) = width bytes := by
  cases bytes with
  | nil => exact absurd rfl hne
  | cons b bytes => rfl

lemma fits_take : fits (bytes.take (fits bytes)) = fits bytes := by
  cases bytes with
  | nil => rfl
  | cons b bytes =>
    rw [fits, take_succ_cons, fits]
    cases begins b.toNat with
    | none => rfl
    | some owed =>
      rw [Option.elim_some, Option.elim_some, follow_take]

lemma width_take : width (bytes.take (fits bytes)) = width bytes := by
  cases bytes with
  | nil => rfl
  | cons b bytes => rfl

/-- A piece does not depend on what comes after it, unless the input ends inside it. -/
lemma piece_append (hne : bytes ≠ []) (h : unfinished bytes = false) :
    piece (bytes ++ more) = piece bytes := by
  rw [piece, piece, fits_append hne h, width_append hne,
    take_append_of_le_length fits_le_length]

/-- The decoder. -/
def decoder : Scanner UInt8 Piece where
  token := piece
  source := Piece.bytes
  wait := unfinished
  source_ne_nil bytes hne := by
    rw [piece, Ne, take_eq_nil_iff, not_or]
    exact ⟨(fits_pos hne).ne', hne⟩
  prefix_source bytes _ := take_prefix _ _
  stable _ _ hne h := piece_append hne h

/-! ## Characters -/

lemma toNat_byte (h : n < 256) : (UInt8.ofNat n).toNat = n := by
  rw [UInt8.toNat_ofNat']
  exact Nat.mod_eq_of_lt h

/-- Which bytes may follow a first byte of a given value. -/
lemma follow_pair (h : low ≤ b₁.toNat ∧ b₁.toNat ≤ high) (h₂ : 0x80 ≤ b₂.toNat ∧ b₂.toNat ≤ 0xBF) :
    follow 2 low high [b₁, b₂] = 2 := by
  rw [follow, if_pos h, follow, if_pos h₂, follow]

lemma follow_triple {b₃ : UInt8} (h : low ≤ b₁.toNat ∧ b₁.toNat ≤ high)
    (h₂ : 0x80 ≤ b₂.toNat ∧ b₂.toNat ≤ 0xBF) (h₃ : 0x80 ≤ b₃.toNat ∧ b₃.toNat ≤ 0xBF) :
    follow 3 low high [b₁, b₂, b₃] = 3 := by
  rw [follow, if_pos h, follow_pair h₂ h₃]

/-- The first byte of a sequence of three, with what it asks of the second. -/
lemma begins_three (n second : Nat) (hlow : 0xE0 ≤ n) (hhigh : n ≤ 0xEF) (hsecond : 0x80 ≤ second)
    (hsecond' : second ≤ 0xBF) (hshort : n = 0xE0 → 0xA0 ≤ second)
    (hsurrogate : n = 0xED → second ≤ 0x9F) :
    ∃ low high, begins n = some ⟨2, low, high⟩ ∧ low ≤ second ∧ second ≤ high := by
  unfold begins
  rw [if_neg (by omega), if_neg (by omega), if_neg (by omega)]
  split
  · exact ⟨_, _, rfl, hshort ‹_›, hsecond'⟩
  · split
    · exact ⟨_, _, rfl, hsecond, hsurrogate ‹_›⟩
    · rw [if_pos (by omega)]
      exact ⟨_, _, rfl, hsecond, hsecond'⟩

/-- The first byte of a sequence of four, with what it asks of the second. -/
lemma begins_four (n second : Nat) (hlow : 0xF0 ≤ n) (hhigh : n ≤ 0xF4) (hsecond : 0x80 ≤ second)
    (hsecond' : second ≤ 0xBF) (hshort : n = 0xF0 → 0x90 ≤ second)
    (hlast : n = 0xF4 → second ≤ 0x8F) :
    ∃ low high, begins n = some ⟨3, low, high⟩ ∧ low ≤ second ∧ second ≤ high := by
  unfold begins
  rw [if_neg (by omega), if_neg (by omega), if_neg (by omega), if_neg (by omega),
    if_neg (by omega), if_neg (by omega)]
  split
  · exact ⟨_, _, rfl, hshort ‹_›, hsecond'⟩
  · split
    · exact ⟨_, _, rfl, hsecond, hsecond'⟩
    · rw [if_pos (by omega)]
      exact ⟨_, _, rfl, hsecond, hlast (by omega)⟩

/-- The encoding of a character is one sequence, of the length of the character. -/
lemma encode_sequence (c : Char) :
    fits (String.utf8EncodeChar c) = c.utf8Size ∧ width (String.utf8EncodeChar c) = c.utf8Size ∧
      code (String.utf8EncodeChar c) = c.toNat := by
  have hvalid : c.val.toNat < 0xD800 ∨ 0xDFFF < c.val.toNat ∧ c.val.toNat < 0x110000 := c.valid
  have hsize : c.utf8Size = if c.val.toNat ≤ 0x7F then 1 else if c.val.toNat ≤ 0x7FF then 2
      else if c.val.toNat ≤ 0xFFFF then 3 else 4 := rfl
  show _ ∧ _ ∧ code _ = c.val.toNat
  rw [hsize]
  unfold String.utf8EncodeChar
  generalize c.val.toNat = v at hvalid ⊢
  dsimp only
  split
  · have hfirst : (UInt8.ofNat v).toNat = v := toNat_byte (by omega)
    have hbegins : begins v = some ⟨0, 0x80, 0xBF⟩ := if_pos (by omega)
    refine ⟨?_, ?_, hfirst⟩
    · rw [fits, hfirst, hbegins]
      rfl
    · rw [width, hfirst, hbegins]
      rfl
  · split
    · have hfirst : (UInt8.ofNat (v / 64 % 0x20 + 0xC0)).toNat = v / 64 % 0x20 + 0xC0 :=
        toNat_byte (by omega)
      have hsecond : (UInt8.ofNat (v % 0x40 + 0x80)).toNat = v % 0x40 + 0x80 :=
        toNat_byte (by omega)
      have hbegins : begins (v / 64 % 0x20 + 0xC0) = some ⟨1, 0x80, 0xBF⟩ := by
        rw [begins, if_neg (by omega), if_neg (by omega), if_pos (by omega)]
      refine ⟨?_, ?_, ?_⟩
      · rw [fits, hfirst, hbegins]
        show follow 1 0x80 0xBF _ + 1 = 2
        rw [follow, hsecond, if_pos (by omega)]
        rfl
      · rw [width, hfirst, hbegins]
        rfl
      · rw [code, hfirst, hsecond]
        omega
    · split
      · have hfirst : (UInt8.ofNat (v / 4096 % 0x10 + 0xE0)).toNat = v / 4096 % 0x10 + 0xE0 :=
          toNat_byte (by omega)
        have hsecond : (UInt8.ofNat (v / 64 % 0x40 + 0x80)).toNat = v / 64 % 0x40 + 0x80 :=
          toNat_byte (by omega)
        have hthird : (UInt8.ofNat (v % 0x40 + 0x80)).toNat = v % 0x40 + 0x80 :=
          toNat_byte (by omega)
        obtain ⟨low, high, hbegins, hlow, hhigh⟩ := begins_three
          (v / 4096 % 0x10 + 0xE0) (v / 64 % 0x40 + 0x80) (by omega) (by omega)
          (by omega) (by omega) (by omega) (by omega)
        refine ⟨?_, ?_, ?_⟩
        · rw [fits, hfirst, hbegins, Option.elim_some,
            follow_pair (by rw [hsecond]; exact ⟨hlow, hhigh⟩) (by rw [hthird]; omega)]
        · rw [width, hfirst, hbegins]
          rfl
        · rw [code, hfirst, hsecond, hthird]
          omega
      · have hfirst : (UInt8.ofNat (v / 262144 % 0x08 + 0xF0)).toNat = v / 262144 % 0x08 + 0xF0 :=
          toNat_byte (by omega)
        have hsecond : (UInt8.ofNat (v / 4096 % 0x40 + 0x80)).toNat = v / 4096 % 0x40 + 0x80 :=
          toNat_byte (by omega)
        have hthird : (UInt8.ofNat (v / 64 % 0x40 + 0x80)).toNat = v / 64 % 0x40 + 0x80 :=
          toNat_byte (by omega)
        have hfourth : (UInt8.ofNat (v % 0x40 + 0x80)).toNat = v % 0x40 + 0x80 :=
          toNat_byte (by omega)
        obtain ⟨low, high, hbegins, hlow, hhigh⟩ := begins_four
          (v / 262144 % 0x08 + 0xF0) (v / 4096 % 0x40 + 0x80) (by omega) (by omega)
          (by omega) (by omega) (by omega) (by omega)
        refine ⟨?_, ?_, ?_⟩
        · rw [fits, hfirst, hbegins, Option.elim_some,
            follow_triple (by rw [hsecond]; exact ⟨hlow, hhigh⟩) (by rw [hthird]; omega)
              (by rw [hfourth]; omega)]
        · rw [width, hfirst, hbegins]
          rfl
        · rw [code, hfirst, hsecond, hthird, hfourth]
          omega

lemma encode_ne_nil (c : Char) : String.utf8EncodeChar c ≠ [] := by
  rw [Ne, ← length_eq_zero_iff, String.length_utf8EncodeChar]
  exact c.utf8Size_pos.ne'

/-- The bytes of a text. -/
def encode (text : List Char) : List UInt8 := text.flatMap String.utf8EncodeChar

lemma encode_append (text more : List Char) : encode (text ++ more) = encode text ++ encode more :=
  flatMap_append

@[simp] lemma encode_singleton (c : Char) : encode [c] = String.utf8EncodeChar c :=
  flatMap_singleton _ _

/-- ASCII is its own encoding. -/
lemma encode_ascii (h : c.toNat < 0x80) : String.utf8EncodeChar c = [UInt8.ofNat c.toNat] := by
  have hval : c.val.toNat < 0x80 := h
  unfold String.utf8EncodeChar
  dsimp only
  rw [if_pos (by omega)]
  rfl

/-- The other characters have no byte of ASCII. -/
lemma encode_high (h : 0x80 ≤ c.toNat) : ∀ b ∈ String.utf8EncodeChar c, 0x80 ≤ b.toNat := by
  have hval : 0x80 ≤ c.val.toNat := h
  have hvalid : c.val.toNat < 0xD800 ∨ 0xDFFF < c.val.toNat ∧ c.val.toNat < 0x110000 := c.valid
  have hbyte (n : Nat) (hn : n < 256) (hlow : 0x80 ≤ n) : 0x80 ≤ (UInt8.ofNat n).toNat := by
    rw [toNat_byte hn]
    exact hlow
  unfold String.utf8EncodeChar
  generalize c.val.toNat = v at hval hvalid
  dsimp only
  rw [if_neg (by omega)]
  intro b hb
  split at hb
  · simp only [mem_cons, not_mem_nil, or_false] at hb
    rcases hb with rfl | rfl <;> exact hbyte _ (by omega) (by omega)
  · split at hb
    · simp only [mem_cons, not_mem_nil, or_false] at hb
      rcases hb with rfl | rfl | rfl <;> exact hbyte _ (by omega) (by omega)
    · simp only [mem_cons, not_mem_nil, or_false] at hb
      rcases hb with rfl | rfl | rfl | rfl <;> exact hbyte _ (by omega) (by omega)

/-- The byte of an ASCII character comes from that character. -/
lemma mem_encode_ascii {text : List Char} (hb : b ∈ encode text) (hlow : b.toNat < 0x80) :
    ∃ c ∈ text, c.toNat = b.toNat := by
  obtain ⟨c, hc, hbyte⟩ := mem_flatMap.mp hb
  by_cases hascii : c.toNat < 0x80
  · rw [encode_ascii hascii, mem_singleton] at hbyte
    refine ⟨c, hc, ?_⟩
    rw [hbyte, toNat_byte (by omega)]
  · exact absurd (encode_high (Nat.not_lt.mp hascii) b hbyte) (by omega)

/-- The piece of a character. -/
def pieceOf (c : Char) : Piece := ⟨String.utf8EncodeChar c, true⟩

lemma char_pieceOf (c : Char) : (pieceOf c).char = c := by
  rw [Piece.char, pieceOf, if_pos rfl, (encode_sequence c).2.2, Char.ofNat_toNat]

/-- A character is read as itself, whatever comes after it. -/
lemma piece_encode (c : Char) : piece (String.utf8EncodeChar c ++ more) = pieceOf c := by
  obtain ⟨hfits, hwidth, -⟩ := encode_sequence c
  rw [piece_append (encode_ne_nil c), piece, hfits, hwidth, ← String.length_utf8EncodeChar,
    take_length, beq_self_eq_true]
  · rfl
  · rw [unfinished, hfits, hwidth, Bool.and_eq_false_iff]
    exact .inr (decide_eq_false (Nat.lt_irrefl _))

/-- The input ends inside a character: the decoder waits, and what it has is one piece. -/
lemma unfinished_of_encode {front back : List UInt8} (h : front ++ back = String.utf8EncodeChar c)
    (hfront : front ≠ []) (hback : back ≠ []) :
    unfinished front = true ∧ piece front = ⟨front, false⟩ := by
  obtain ⟨hfits, hwidth, -⟩ := encode_sequence c
  rw [← h, width_append hfront] at hwidth
  have hlength : (front ++ back).length = c.utf8Size := by rw [h, String.length_utf8EncodeChar]
  have hback' := length_pos_of_ne_nil hback
  have hfront' : fits front = front.length := by
    rw [← h] at hfits
    cases front with
    | nil => exact absurd rfl hfront
    | cons b front =>
      rw [cons_append, fits, ← hlength] at hfits
      rw [fits]
      cases hbegins : begins b.toNat with
      | none =>
        rw [hbegins] at hfits
        simp only [Option.elim_none, cons_append, length_cons, length_append]
          at hfits
        omega
      | some owed =>
        rw [hbegins, Option.elim_some] at hfits
        rw [Option.elim_some, follow_front (Nat.succ.inj hfits)]
        rfl
  have hshort : front.length < c.utf8Size := by
    rw [← hlength, length_append]
    omega
  constructor
  · rw [unfinished, hfront', hwidth, beq_self_eq_true, Bool.true_and, decide_eq_true hshort]
  · rw [piece, hfront', hwidth, take_length, beq_eq_false_iff_ne.mpr hshort.ne]

/-! ## Sizes -/

lemma val_ofNat (h : v < 0xD800 ∨ 0xDFFF < v ∧ v < 0x110000) : (Char.ofNat v).val.toNat = v := by
  rw [Char.ofNat, dif_pos h]
  rfl

lemma utf8Size_ofNat (h : v < 0xD800 ∨ 0xDFFF < v ∧ v < 0x110000) :
    (Char.ofNat v).utf8Size =
      if v ≤ 0x7F then 1 else if v ≤ 0x7FF then 2 else if v ≤ 0xFFFF then 3 else 4 := by
  show (if (Char.ofNat v).val.toNat ≤ 0x7F then 1 else if (Char.ofNat v).val.toNat ≤ 0x7FF then 2
    else if (Char.ofNat v).val.toNat ≤ 0xFFFF then 3 else 4) = _
  rw [val_ofNat h]

/-- The next byte of what is owed, where all of it follows. -/
lemma follow_succ_eq (h : follow (owed + 1) low high bytes = owed + 1) :
    ∃ b more, bytes = b :: more ∧ low ≤ b.toNat ∧ b.toNat ≤ high ∧
      follow owed 0x80 0xBF more = owed := by
  cases bytes with
  | nil => cases h
  | cons b more =>
    rw [follow] at h
    split at h
    next hin => exact ⟨b, more, rfl, hin.1, hin.2, Nat.succ.inj h⟩
    next => cases h

lemma utf8Size_code_two (ha : 0xC2 ≤ a.toNat) (ha' : a.toNat < 0xE0) (b : UInt8) :
    (Char.ofNat (code [a, b])).utf8Size = 2 := by
  rw [code, utf8Size_ofNat (by omega), if_neg (by omega), if_pos (by omega)]

lemma utf8Size_code_three (ha : 0xE0 ≤ a.toNat) (ha' : a.toNat < 0xF0) (hb : 0x80 ≤ b.toNat)
    (hb' : b.toNat ≤ 0xBF) (hshort : a.toNat = 0xE0 → 0xA0 ≤ b.toNat)
    (hsurrogate : a.toNat = 0xED → b.toNat ≤ 0x9F) (c : UInt8) :
    (Char.ofNat (code [a, b, c])).utf8Size = 3 := by
  rw [code, utf8Size_ofNat (by omega), if_neg (by omega), if_neg (by omega), if_pos (by omega)]

lemma utf8Size_code_four (ha : 0xF0 ≤ a.toNat) (ha' : a.toNat ≤ 0xF4) (hb : 0x80 ≤ b.toNat)
    (hb' : b.toNat ≤ 0xBF) (hshort : a.toNat = 0xF0 → 0x90 ≤ b.toNat)
    (hlast : a.toNat = 0xF4 → b.toNat ≤ 0x8F) (c d : UInt8) :
    (Char.ofNat (code [a, b, c, d])).utf8Size = 4 := by
  rw [code, utf8Size_ofNat (by omega), if_neg (by omega), if_neg (by omega), if_neg (by omega)]

/-- What the first byte of a sequence is, by what it owes. -/
lemma begins_eq_some {owed : Owed} (h : begins n = some owed) :
    (owed.count = 0 ∧ n < 0x80) ∨
      (owed.count = 1 ∧ 0xC2 ≤ n ∧ n < 0xE0 ∧ 0x80 ≤ owed.low ∧ owed.high ≤ 0xBF) ∨
      (owed.count = 2 ∧ 0xE0 ≤ n ∧ n < 0xF0 ∧ 0x80 ≤ owed.low ∧ owed.high ≤ 0xBF ∧
        (n = 0xE0 → 0xA0 ≤ owed.low) ∧ (n = 0xED → owed.high ≤ 0x9F)) ∨
      (owed.count = 3 ∧ 0xF0 ≤ n ∧ n ≤ 0xF4 ∧ 0x80 ≤ owed.low ∧ owed.high ≤ 0xBF ∧
        (n = 0xF0 → 0x90 ≤ owed.low) ∧ (n = 0xF4 → owed.high ≤ 0x8F)) := by
  unfold begins at h
  split at h
  · cases h
    exact .inl ⟨rfl, by omega⟩
  split at h
  · cases h
  split at h
  · cases h
    exact .inr (.inl ⟨rfl, by omega, by omega, by decide, by decide⟩)
  right
  right
  split at h
  · cases h
    exact .inl ⟨rfl, by omega, by omega, by decide, by decide, fun _ => by decide, by omega⟩
  split at h
  · cases h
    exact .inl ⟨rfl, by omega, by omega, by decide, by decide, by omega, fun _ => by decide⟩
  split at h
  · cases h
    exact .inl ⟨rfl, by omega, by omega, by decide, by decide, by omega, by omega⟩
  split at h
  · cases h
    exact .inr ⟨rfl, by omega, by omega, by decide, by decide, fun _ => by decide, by omega⟩
  split at h
  · cases h
    exact .inr ⟨rfl, by omega, by omega, by decide, by decide, by omega, by omega⟩
  split at h
  · cases h
    exact .inr ⟨rfl, by omega, by omega, by decide, by decide, by omega, fun _ => by decide⟩
  · cases h

/-- A whole sequence of bytes decodes to a character of its length. -/
lemma utf8Size_code {owed : Owed} (hbegins : begins b.toNat = some owed)
    (h : follow owed.count owed.low owed.high bytes = owed.count) :
    (Char.ofNat (code ((b :: bytes).take (owed.count + 1)))).utf8Size = owed.count + 1 := by
  obtain ⟨count, low, high⟩ := owed
  rcases begins_eq_some hbegins with ⟨hcount, hb⟩ | ⟨hcount, hb, hb', hlow, hhigh⟩ |
    ⟨hcount, hb, hb', hlow, hhigh, hshort, hsurrogate⟩ |
    ⟨hcount, hb, hb', hlow, hhigh, hshort, hlast⟩ <;> dsimp only at * <;> subst hcount
  · show (Char.ofNat b.toNat).utf8Size = 1
    rw [utf8Size_ofNat (by omega), if_pos (by omega)]
  · obtain ⟨b₁, more, rfl, -⟩ := follow_succ_eq h
    exact utf8Size_code_two hb hb' b₁
  · obtain ⟨b₁, more, rfl, h₁, h₁', hmore⟩ := follow_succ_eq h
    obtain ⟨b₂, more, rfl, -⟩ := follow_succ_eq hmore
    exact utf8Size_code_three hb hb' (by omega) (by omega) (by omega) (by omega) b₂
  · obtain ⟨b₁, more, rfl, h₁, h₁', hmore⟩ := follow_succ_eq h
    obtain ⟨b₂, more, rfl, -, -, hmore⟩ := follow_succ_eq hmore
    obtain ⟨b₃, more, rfl, -⟩ := follow_succ_eq hmore
    exact utf8Size_code_four hb hb' (by omega) (by omega) (by omega) (by omega) b₂ b₃

/-- A piece takes no fewer bytes as text: as many where it is a character, and three otherwise. -/
lemma length_piece (hne : bytes ≠ []) :
    (piece bytes).bytes.length ≤ (piece bytes).char.utf8Size ∧
      ((piece bytes).bytes.length = (piece bytes).char.utf8Size ↔
        ((piece bytes).complete = false → (piece bytes).bytes.length = 3)) := by
  have hlength : (piece bytes).bytes.length = fits bytes := by
    rw [piece, length_take, Nat.min_eq_left fits_le_length]
  cases hcomplete : (piece bytes).complete with
  | true =>
    have hwhole : fits bytes = width bytes := eq_of_beq hcomplete
    have hsize : (piece bytes).char.utf8Size = (piece bytes).bytes.length := by
      rw [Piece.char, hcomplete, if_pos rfl, hlength]
      cases bytes with
      | nil => exact absurd rfl hne
      | cons b bytes =>
        rw [fits, width] at hwhole
        rw [piece, fits]
        cases hbegins : begins b.toNat with
        | none =>
          rw [hbegins] at hwhole
          cases hwhole
        | some owed =>
          rw [hbegins, Option.elim_some, Option.elim_some] at hwhole
          rw [Option.elim_some, hwhole]
          exact utf8Size_code hbegins (Nat.succ.inj hwhole)
    exact ⟨hsize.ge, fun _ => nofun, fun _ => hsize.symm⟩
  | false =>
    have hsize : (piece bytes).char.utf8Size = 3 := by
      rw [Piece.char, hcomplete, if_neg Bool.false_ne_true]
      rfl
    have hshort : (piece bytes).bytes.length ≤ 3 := by
      rw [hlength]
      have hpartial : fits bytes ≠ width bytes := beq_eq_false_iff_ne.mp hcomplete
      cases bytes with
      | nil => exact absurd rfl hne
      | cons b bytes =>
        rw [fits, width] at hpartial
        rw [fits]
        cases hbegins : begins b.toNat with
        | none => exact (by decide : 1 ≤ 3)
        | some owed =>
          rw [hbegins, Option.elim_some, Option.elim_some] at hpartial
          have hcount : owed.count ≤ 3 := by
            rcases begins_eq_some hbegins with h | h | h | h <;> omega
          have hle : follow owed.count owed.low owed.high bytes ≤ owed.count := follow_le
          rw [Option.elim_some]
          omega
    rw [hsize]
    exact ⟨hshort, fun heq _ => heq, fun heq => heq rfl⟩

/-! ## Text -/

/-- `String::from_utf8_lossy`. -/
def fromUtf8Lossy (bytes : List UInt8) : String :=
  String.ofList ((decoder.scanAll bytes).map Piece.char)

/-- `Utf8Error`: where the first error stands, and how long it is unless the input ends in it. -/
structure Utf8Error where
  validUpTo : Nat
  errorLen : Option Nat

def Utf8Error.text (error : Utf8Error) : String :=
  match error.errorLen with
  | some length =>
    s!"invalid utf-8 sequence of {length} bytes from index {error.validUpTo}"
  | none => s!"incomplete utf-8 byte sequence from index {error.validUpTo}"

/-- The input does not begin with a character. -/
def bad (bytes : List UInt8) : Bool := !(piece bytes).complete

/-- `str::from_utf8`. -/
def fromUtf8 (bytes : List UInt8) : Except Utf8Error String :=
  let (pieces, left) := decoder.scan bad bytes
  if left.isEmpty then .ok (String.ofList (pieces.map Piece.char))
  else .error ⟨bytes.length - left.length, if unfinished left then none else some (fits left)⟩

lemma settled_pieceOf (c : Char) : decoder.Settled (pieceOf c) :=
  ⟨encode_ne_nil c, fun _ => piece_encode c⟩

/-- A complete piece is read off its bytes. -/
lemma settled_piece (hne : bytes ≠ []) (h : (piece bytes).complete = true) :
    decoder.Settled (piece bytes) := by
  have hbytes : bytes.take (fits bytes) ≠ [] := decoder.source_ne_nil bytes hne
  have hcomplete : fits bytes = width bytes := eq_of_beq h
  refine ⟨hbytes, fun more => ?_⟩
  show piece (bytes.take (fits bytes) ++ more) = piece bytes
  rw [piece_append hbytes]
  · rw [piece, fits_take, width_take, take_take, Nat.min_self]
    rfl
  · rw [unfinished, fits_take, width_take, hcomplete, Bool.and_eq_false_iff]
    exact .inr (decide_eq_false (Nat.lt_irrefl _))

lemma settled_scan {x : Piece}
    (h : x ∈ (decoder.scan bad bytes).1) :
    decoder.Settled x ∧ ∀ t, bad (decoder.source x ++ t) = false := by
  obtain ⟨r, hne, hgoes, rfl⟩ := decoder.mem_scan h
  have hcomplete : (piece r).complete = true := by
    rwa [bad, Bool.not_eq_false'] at hgoes
  have hsettled := settled_piece hne hcomplete
  refine ⟨hsettled, fun t => ?_⟩
  have hread : piece ((piece r).bytes ++ t) = piece r := hsettled.2 t
  show bad ((piece r).bytes ++ t) = false
  rw [bad, hread, hcomplete]
  rfl

@[simp] lemma fromUtf8Lossy_nil : fromUtf8Lossy [] = "" := by
  rw [fromUtf8Lossy, decoder.scanAll_nil]
  rfl

lemma fromUtf8_ok {text : String} (h : fromUtf8 bytes = .ok text) : fromUtf8Lossy bytes = text := by
  unfold fromUtf8 at h
  dsimp only at h
  split at h
  next hempty =>
    rw [List.isEmpty_iff] at hempty
    rw [fromUtf8Lossy, decoder.scanAll_scan bad, hempty,
      decoder.scanAll_nil, List.append_nil]
    exact Except.ok.inj h
  next => cases h

/-- The pieces of a valid text are characters. -/
lemma complete_of_fromUtf8 {text : String} (h : fromUtf8 bytes = .ok text) :
    ∀ p ∈ decoder.scanAll bytes, p.complete = true := by
  unfold fromUtf8 at h
  dsimp only at h
  split at h
  next hempty =>
    rw [List.isEmpty_iff] at hempty
    intro p hp
    rw [decoder.scanAll_scan bad, hempty, decoder.scanAll_nil, List.append_nil] at hp
    obtain ⟨r, -, hgoes, rfl⟩ := decoder.mem_scan hp
    rwa [bad, Bool.not_eq_false'] at hgoes
  next => cases h

/-- Encoded characters are pieces of their own. -/
lemma scanAll_encode (chars : List Char) (more : List UInt8) :
    decoder.scanAll (chars.flatMap String.utf8EncodeChar ++ more) =
      chars.map pieceOf ++ decoder.scanAll more := by
  have hsettled : ∀ x ∈ chars.map pieceOf, decoder.Settled x := by
    intro x hx
    obtain ⟨c, -, rfl⟩ := mem_map.mp hx
    exact settled_pieceOf c
  have hscan := decoder.scanAll_settled hsettled more
  rwa [flatMap_map] at hscan

/-- The encoding of a text is valid, and decoded to the text. -/
theorem fromUtf8_encode (chars : List Char) :
    fromUtf8 (chars.flatMap String.utf8EncodeChar) = .ok (String.ofList chars) := by
  have hsettled : ∀ x ∈ chars.map pieceOf, decoder.Settled x ∧
      ∀ t, bad (decoder.source x ++ t) = false := by
    intro x hx
    obtain ⟨c, -, rfl⟩ := mem_map.mp hx
    refine ⟨settled_pieceOf c, fun t => ?_⟩
    rw [bad, show piece (decoder.source (pieceOf c) ++ t) = pieceOf c from piece_encode c]
    rfl
  have hscan := decoder.scan_settled hsettled []
  rw [append_nil, flatMap_map, decoder.scan_stop (.inl rfl), append_nil] at hscan
  rw [fromUtf8, show decoder.scan bad (chars.flatMap String.utf8EncodeChar) = _ from hscan]
  dsimp only
  rw [map_map, show Piece.char ∘ pieceOf = id from funext char_pieceOf, map_id]
  rfl

/-- Bytes of ASCII are the encoding of what they are read as. -/
lemma encode_fromUtf8_ascii {text : String} (hascii : ∀ b ∈ bytes, b.toNat < 0x80)
    (h : fromUtf8 bytes = .ok text) : encode text.toList = bytes := by
  have hbytes : encode (bytes.map fun b => Char.ofNat b.toNat) = bytes := by
    clear h
    induction bytes with
    | nil => rfl
    | cons b bytes ih =>
      have hb := hascii b mem_cons_self
      have hchar : (Char.ofNat b.toNat).toNat = b.toNat := val_ofNat (.inl (by omega))
      have hrest := ih fun b' hmem => hascii b' (mem_cons_of_mem _ hmem)
      rw [map_cons, encode, flatMap_cons, encode_ascii (by omega), hchar,
        UInt8.ofNat_toNat, ← encode, hrest]
      rfl
  have hread := fromUtf8_encode (bytes.map fun b => Char.ofNat b.toNat)
  rw [← encode, hbytes, h, Except.ok.injEq] at hread
  rw [hread, String.toList_ofList, hbytes]

/-! ## Encoded text -/

lemma utf8ByteSize_ofList (chars : List Char) :
    (String.ofList chars).utf8ByteSize = (chars.map Char.utf8Size).sum := by
  induction chars with
  | nil => rfl
  | cons c chars ih =>
    rw [String.ofList_cons, String.utf8ByteSize_append, String.utf8ByteSize_singleton, ih,
      map_cons, sum_cons]

lemma length_encode (chars : List Char) :
    (chars.flatMap String.utf8EncodeChar).length = (chars.map Char.utf8Size).sum := by
  induction chars with
  | nil => rfl
  | cons c chars ih =>
    rw [flatMap_cons, length_append, String.length_utf8EncodeChar, ih, map_cons,
      sum_cons]

/-- Nothing, or the front part of a character, short of it. -/
def Tail (tail : List UInt8) : Prop :=
  tail = [] ∨ tail.length ≤ 3 ∧ decoder.scanAll tail = [⟨tail, false⟩]

lemma tail_of_encode {k : Nat} (h : k < c.utf8Size) : Tail ((String.utf8EncodeChar c).take k) := by
  by_cases hk : k = 0
  · rw [hk]
    exact .inl rfl
  · have hlength := String.length_utf8EncodeChar c
    have hfour := c.utf8Size_le_four
    have hfront : (String.utf8EncodeChar c).take k ≠ [] := by
      rw [Ne, take_eq_nil_iff, not_or]
      exact ⟨hk, encode_ne_nil c⟩
    have hback : (String.utf8EncodeChar c).drop k ≠ [] := by
      rw [Ne, drop_eq_nil_iff]
      omega
    obtain ⟨-, hpiece⟩ := unfinished_of_encode (take_append_drop _ _) hfront hback
    refine .inr ⟨by rw [length_take]; omega, ?_⟩
    have hrest : decoder.rest ((String.utf8EncodeChar c).take k) = [] := by
      rw [Scanner.rest, show decoder.token _ = _ from hpiece]
      exact drop_length
    rw [decoder.scanAll_token hfront, hrest, decoder.scanAll_nil]
    exact congrArg (· :: []) hpiece

/-- An encoded text that is cut anywhere: some of its characters, and what is there of the next. -/
lemma exists_take_encode (chars : List Char) (k : Nat) :
    ∃ front back tail, chars = front ++ back ∧ Tail tail ∧
      (chars.flatMap String.utf8EncodeChar).take k =
        front.flatMap String.utf8EncodeChar ++ tail := by
  induction chars generalizing k with
  | nil => exact ⟨[], [], [], rfl, .inl rfl, take_nil⟩
  | cons c chars ih =>
    have hlength := String.length_utf8EncodeChar c
    rw [flatMap_cons]
    by_cases hk : c.utf8Size ≤ k
    · obtain ⟨front, back, tail, hchars, htail, htake⟩ := ih (k - c.utf8Size)
      refine ⟨c :: front, back, tail, congrArg (c :: ·) hchars, htail, ?_⟩
      rw [take_append, hlength, take_of_length_le (by omega), htake, flatMap_cons,
        append_assoc]
    · refine ⟨[], c :: chars, _, rfl, tail_of_encode (Nat.not_le.mp hk), ?_⟩
      rw [take_append_of_le_length (by omega)]
      rfl

/-- The text of such a cut: what is there of the next character stands for U+FFFD. -/
lemma scanAll_cut (front : List Char) {tail : List UInt8} (h : Tail tail) :
    (decoder.scanAll (front.flatMap String.utf8EncodeChar ++ tail)).map Piece.char =
      front ++ if tail = [] then [] else [replacement] := by
  rw [scanAll_encode, map_append, map_map,
    show Piece.char ∘ pieceOf = id from funext char_pieceOf, map_id]
  rcases h with rfl | ⟨-, hscan⟩
  · rw [decoder.scanAll_nil, if_pos rfl]
    rfl
  · have hne : tail ≠ [] := by
      rintro rfl
      rw [decoder.scanAll_nil] at hscan
      cases hscan
    rw [hscan, if_neg hne]
    rfl

/-- What stands before the first error is valid, and the error stands for one U+FFFD. -/
lemma fromUtf8_error (h : fromUtf8 bytes = .error error) :
    ∃ valid tail, fromUtf8 (bytes.take error.validUpTo) = .ok valid ∧
      fromUtf8Lossy bytes = valid ++ String.singleton replacement ++ tail ∧
      (error.errorLen = none → tail = "") ∧
      ∀ length, error.errorLen = some length →
        tail = fromUtf8Lossy (bytes.drop (error.validUpTo + length)) := by
  have hsource := decoder.scan_source bad bytes
  have hsettled := fun x => @settled_scan bytes x
  have hall := decoder.scanAll_scan bad bytes
  have hleft := decoder.scan_left bad bytes
  unfold fromUtf8 at h
  generalize decoder.scan bad bytes = scanned
    at h hsource hsettled hall hleft
  obtain ⟨pieces, left⟩ := scanned
  dsimp only at h hsource hsettled hall hleft
  split at h
  next => cases h
  next hnonempty =>
    rw [List.isEmpty_iff] at hnonempty
    cases h
    have hlength : bytes.length - left.length = (pieces.flatMap decoder.source).length := by
      rw [← hsource, length_append, Nat.add_sub_cancel]
    have htake : bytes.take (bytes.length - left.length) = pieces.flatMap decoder.source := by
      rw [hlength]
      conv_lhs => rw [← hsource]
      rw [take_left]
    have hdrop (n : Nat) : bytes.drop (bytes.length - left.length + n) = left.drop n := by
      rw [hlength]
      conv_lhs => rw [← hsource]
      rw [drop_length_add_append]
    have hvalid : fromUtf8 (pieces.flatMap decoder.source) =
        .ok (String.ofList (pieces.map Piece.char)) := by
      have hscan := decoder.scan_settled hsettled []
      rw [append_nil, decoder.scan_stop (.inl rfl), append_nil] at hscan
      rw [fromUtf8, hscan]
      rfl
    refine ⟨_, fromUtf8Lossy (left.drop (fits left)), htake ▸ hvalid, ?_, fun hnone => ?_,
      fun length hsome => ?_⟩
    · -- the piece at the error is one U+FFFD, and the rest is decoded on its own
      have hbad : (piece left).complete = false := by
        rcases hleft with hempty | hstop
        · exact absurd hempty hnonempty
        · rwa [bad, Bool.not_eq_true'] at hstop
      have hchar : (piece left).char = replacement := by
        rw [Piece.char, hbad, if_neg Bool.false_ne_true]
      have hpiece : (piece left).bytes.length = fits left := by
        rw [piece, length_take, Nat.min_eq_left fits_le_length]
      have hrest : decoder.rest left = left.drop (fits left) := by
        rw [Scanner.rest]
        exact congrArg left.drop hpiece
      rw [fromUtf8Lossy, hall, decoder.scanAll_token hnonempty, hrest, map_append,
        map_cons, show (decoder.token left).char = replacement from hchar,
        String.ofList_append, String.ofList_cons, String.append_assoc]
      rfl
    · have hends : unfinished left = true := by
        by_contra hgoes
        rw [if_neg hgoes] at hnone
        cases hnone
      rw [unfinished, Bool.and_eq_true] at hends
      rw [eq_of_beq hends.1, drop_length, fromUtf8Lossy_nil]
    · dsimp only at hsome
      split at hsome
      · cases hsome
      · rw [← Option.some.inj hsome, hdrop]

lemma errorLen_pos {length : Nat} (h : fromUtf8 bytes = .error error)
    (hlength : error.errorLen = some length) :
    (bytes.drop (error.validUpTo + length)).length < bytes.length := by
  have hsource := decoder.scan_source bad bytes
  unfold fromUtf8 at h
  generalize decoder.scan bad bytes = scanned at h hsource
  obtain ⟨pieces, left⟩ := scanned
  dsimp only at h hsource
  split at h
  next => cases h
  next hnonempty =>
    rw [List.isEmpty_iff] at hnonempty
    cases h
    dsimp only at hlength
    split at hlength
    · cases hlength
    · have hpos := fits_pos hnonempty
      have hleft := length_pos_of_ne_nil hnonempty
      have hle : left.length ≤ bytes.length := by
        rw [← hsource, length_append]
        omega
      rw [length_drop, ← Option.some.inj hlength]
      omega

end

end Agenterm.Lib.Utf8
