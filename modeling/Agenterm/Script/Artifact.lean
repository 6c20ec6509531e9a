import Agenterm.Lib.Checks
import Agenterm.Lib.Utf8
import Agenterm.Terminal.OutputRingTheorems

/-!
# Script artifacts on the wire

`ScriptArtifact` of `script_protocol.rs`: the bytes of an artifact travel as base64. Its
`encode_base64` is, line by line, the one of `capture-output`; the decoder takes its input four bytes
at a time.
-/

namespace Agenterm.Script

open Lib.Utf8 List

inductive ScriptArtifactConvention where
  | plainWasm
  | compiledQjs
deriving DecidableEq

/-- The encoding is not kept, as base64 is the only one. -/
structure ScriptArtifact where
  convention : ScriptArtifactConvention
  data : String
deriving DecidableEq

structure ScriptArtifactError where
  code : String
  message : String
deriving DecidableEq

def scriptArtifactMaxBytes : Nat := 1024 * 1024

/-- `SCRIPT_ARTIFACT_MAX_BYTES.div_ceil(3) * 4`. -/
def scriptArtifactMaxBase64Bytes : Nat := (scriptArtifactMaxBytes + 2) / 3 * 4

/-- The value of a base64 digit. -/
def base64Value (byte : UInt8) : Option UInt8 :=
  if 'A'.toNat ≤ byte.toNat && byte.toNat ≤ 'Z'.toNat then
    some (byte - 0x41)
  else if 'a'.toNat ≤ byte.toNat && byte.toNat ≤ 'z'.toNat then
    some (byte - 0x61 + 26)
  else if '0'.toNat ≤ byte.toNat && byte.toNat ≤ '9'.toNat then
    some (byte - 0x30 + 52)
  else if byte.toNat = '+'.toNat then
    some 62
  else if byte.toNat = '/'.toNat then
    some 63
  else
    none

/-- The byte of `=`. -/
def base64Pad : UInt8 := 0x3d

def invalidBase64 : ScriptArtifactError where
  code := "protocol_artifact_base64_invalid"
  message := "script artifact is not canonical base64"

/-- `value(..).ok_or_else(&invalid)`. -/
def base64Digit (byte : UInt8) : Except ScriptArtifactError UInt8 :=
  match base64Value byte with
  | some value => .ok value
  | none => .error invalidBase64

/-- A digit that may be padding. -/
def base64PaddedDigit (byte : UInt8) : Except ScriptArtifactError UInt8 :=
  if byte = base64Pad then .ok 0 else base64Digit byte

/-- The bytes of four digits, as many as the padding leaves. -/
def decodedBytes (a b c d : UInt8) (padding : Nat) : List UInt8 :=
  (a <<< 2 ||| b >>> 4) ::
    ((if padding < 2 then [b <<< 4 ||| c >>> 2] else []) ++
      if padding = 0 then [c <<< 6 ||| d] else [])

/-- The body of the loop over the chunks. -/
def decodeChunk (c₀ c₁ c₂ c₃ : UInt8) (finalChunk : Bool) :
    Except ScriptArtifactError (List UInt8) :=
  let padding := (if c₃ = base64Pad then 1 else 0) + (if c₂ = base64Pad then 1 else 0)
  if (padding > 0 && !finalChunk) || (padding = 1 && c₂ = base64Pad) ||
      (padding = 2 && c₃ ≠ base64Pad) then
    .error invalidBase64
  else do
    let a ← base64Digit c₀
    let b ← base64Digit c₁
    let c ← base64PaddedDigit c₂
    let d ← base64PaddedDigit c₃
    if (padding = 2 && b &&& 0x0f ≠ 0) || (padding = 1 && c &&& 0x03 ≠ 0) then
      .error invalidBase64
    else
      .ok (decodedBytes a b c d padding)

/-- The loop over `chunks_exact(4)`. -/
def decodeChunks : List UInt8 → Except ScriptArtifactError (List UInt8)
  | c₀ :: c₁ :: c₂ :: c₃ :: rest => do
    let bytes ← decodeChunk c₀ c₁ c₂ c₃ (rest.length < 4)
    let more ← decodeChunks rest
    return bytes ++ more
  | _ => .ok []

def decodeBase64 (encoded : String) : Except ScriptArtifactError (List UInt8) :=
  let input := encode encoded.toList
  if input.length % 4 ≠ 0 then
    .error invalidBase64
  else
    decodeChunks input

namespace ScriptArtifact

def fromBytes (convention : ScriptArtifactConvention) (bytes : List UInt8) :
    Except ScriptArtifactError ScriptArtifact :=
  if bytes.length > scriptArtifactMaxBytes then
    .error
      { code := "limit_artifact_bytes"
        message := s!"script artifact exceeds the {scriptArtifactMaxBytes} byte transport limit" }
  else
    .ok { convention, data := encodeBase64 bytes }

def decode (artifact : ScriptArtifact) (budget : Nat) :
    Except ScriptArtifactError (List UInt8) :=
  if artifact.data.utf8ByteSize > scriptArtifactMaxBase64Bytes then
    .error
      { code := "limit_artifact_encoding_bytes"
        message :=
          s!"encoded script artifact exceeds the {scriptArtifactMaxBase64Bytes} byte transport limit" }
  else do
    let bytes ← decodeBase64 artifact.data
    if bytes.length > scriptArtifactMaxBytes || bytes.length > budget then
      let limit := min budget scriptArtifactMaxBytes
      .error
        { code := "limit_artifact_bytes"
          message := s!"script artifact exceeds its {limit} byte budget" }
    else
      .ok bytes

end ScriptArtifact

/-!
Four digits and three bytes determine each other (`decodeChunk_iff`), a group that is padded too, as
the bits that the padding cuts off have to be zero. So a text is decoded to some bytes exactly when
it is the encoding of these bytes (`decodeBase64_iff`).
-/

open Lib

/-! ## Digits -/

/-- The byte of a digit. -/
def tableByte (v : UInt8) : UInt8 := UInt8.ofNat (base64Table v).toNat

variable {bytes : List UInt8} {v : UInt8}

lemma base64Value_tableByte (h : v.toNat < 64) : base64Value (tableByte v) = some v := by
  have hall : ∀ n < 64, base64Value (tableByte (UInt8.ofNat n)) = some (UInt8.ofNat n) := by
    decide +kernel
  have hv := hall v.toNat h
  rwa [UInt8.ofNat_toNat] at hv

variable {artifact : ScriptArtifact} {byte : UInt8}

lemma base64Value_eq_some : base64Value byte = some v ↔ v.toNat < 64 ∧ byte = tableByte v := by
  constructor
  · intro h
    have hall : ∀ n < 256, (base64Value (UInt8.ofNat n)).all (fun w =>
        decide (w.toNat < 64 ∧ UInt8.ofNat n = tableByte w)) = true := by
      decide +kernel
    have hbyte := hall byte.toNat byte.toNat_lt
    rw [UInt8.ofNat_toNat, h, Option.all_some] at hbyte
    exact of_decide_eq_true hbyte
  · rintro ⟨hlt, rfl⟩
    exact base64Value_tableByte hlt

lemma base64Digit_eq_ok : base64Digit byte = .ok v ↔ v.toNat < 64 ∧ byte = tableByte v := by
  rw [← base64Value_eq_some]
  unfold base64Digit
  cases base64Value byte with
  | none => simp
  | some w => simp

lemma tableByte_ne_pad (h : v.toNat < 64) : tableByte v ≠ base64Pad := by
  intro hpad
  have hvalue := base64Value_tableByte h
  rw [hpad] at hvalue
  cases hvalue

/-! ## Four digits and three bytes -/

section
variable (a b c d x y z : UInt8)

lemma toNat_firstByte (ha : a.toNat < 64) (hb : b.toNat < 64) :
    (a <<< 2 ||| b >>> 4).toNat = a.toNat * 4 + b.toNat / 16 := by
  have hlow : b.toNat / 16 < 2 ^ 2 := by omega
  have hshift : (a <<< 2).toNat = a.toNat <<< 2 := by
    rw [UInt8.toNat_shiftLeft, Nat.shiftLeft_eq, Nat.shiftLeft_eq]
    simp
    omega
  have hright : (b >>> 4).toNat = b.toNat / 16 := by
    rw [UInt8.toNat_shiftRight, Nat.shiftRight_eq_div_pow]
    rfl
  rw [UInt8.toNat_or, hshift, hright, ← Nat.shiftLeft_add_eq_or_of_lt hlow, Nat.shiftLeft_eq]

lemma toNat_secondByte (hc : c.toNat < 64) :
    (b <<< 4 ||| c >>> 2).toNat = b.toNat % 16 * 16 + c.toNat / 4 := by
  have hlow : c.toNat / 4 < 2 ^ 4 := by omega
  have hshift : (b <<< 4).toNat = (b.toNat % 16) <<< 4 := by
    rw [UInt8.toNat_shiftLeft, Nat.shiftLeft_eq, Nat.shiftLeft_eq]
    simp
    omega
  have hright : (c >>> 2).toNat = c.toNat / 4 := by
    rw [UInt8.toNat_shiftRight, Nat.shiftRight_eq_div_pow]
    rfl
  rw [UInt8.toNat_or, hshift, hright, ← Nat.shiftLeft_add_eq_or_of_lt hlow, Nat.shiftLeft_eq]

lemma toNat_thirdByte (hd : d.toNat < 64) :
    (c <<< 6 ||| d).toNat = c.toNat % 4 * 64 + d.toNat := by
  have hlow : d.toNat < 2 ^ 6 := hd
  have hshift : (c <<< 6).toNat = (c.toNat % 4) <<< 6 := by
    rw [UInt8.toNat_shiftLeft, Nat.shiftLeft_eq, Nat.shiftLeft_eq]
    simp
    omega
  rw [UInt8.toNat_or, hshift, ← Nat.shiftLeft_add_eq_or_of_lt hlow, Nat.shiftLeft_eq]

lemma low_bits_zero (n : UInt8) : (n &&& 0x0f = 0 ↔ n.toNat % 16 = 0) ∧
    (n &&& 0x03 = 0 ↔ n.toNat % 4 = 0) := by
  constructor
  · rw [← UInt8.toNat_inj, UInt8.toNat_and]
    exact iff_of_eq (congrArg (· = 0) (Nat.and_two_pow_sub_one_eq_mod n.toNat 4))
  · rw [← UInt8.toNat_inj, UInt8.toNat_and]
    exact iff_of_eq (congrArg (· = 0) (Nat.and_two_pow_sub_one_eq_mod n.toNat 2))

/-- The digits of bytes. -/
def sextets : UInt8 × UInt8 × UInt8 × UInt8 :=
  (x >>> 2, ((x &&& 0x03) <<< 4) ||| (y >>> 4), ((y &&& 0x0f) <<< 2) ||| (z >>> 6), z &&& 0x3f)

lemma sextets_lt : (x >>> 2).toNat < 64 ∧ (((x &&& 0x03) <<< 4) ||| (y >>> 4)).toNat < 64 ∧
    (((y &&& 0x0f) <<< 2) ||| (z >>> 6)).toNat < 64 ∧ (z &&& 0x3f).toNat < 64 := by
  have hx := x.toNat_lt
  have hy := y.toNat_lt
  have hz := z.toNat_lt
  rw [firstSextet, secondSextet, thirdSextet, fourthSextet]
  omega

/-- Digits are the sextets of the bytes they make. -/
lemma sextets_bytes (ha : a.toNat < 64) (hb : b.toNat < 64) (hc : c.toNat < 64)
    (hd : d.toNat < 64) :
    sextets (a <<< 2 ||| b >>> 4) (b <<< 4 ||| c >>> 2) (c <<< 6 ||| d) = (a, b, c, d) := by
  unfold sextets
  simp only [Prod.mk.injEq, ← UInt8.toNat_inj, firstSextet, secondSextet, thirdSextet, fourthSextet,
    toNat_firstByte a b ha hb, toNat_secondByte b c hc, toNat_thirdByte c d hd]
  omega

/-- Bytes are made of their sextets. -/
lemma bytes_sextets :
    (x >>> 2) <<< 2 ||| (((x &&& 0x03) <<< 4) ||| (y >>> 4)) >>> 4 = x ∧
      (((x &&& 0x03) <<< 4) ||| (y >>> 4)) <<< 4 |||
        (((y &&& 0x0f) <<< 2) ||| (z >>> 6)) >>> 2 = y ∧
      (((y &&& 0x0f) <<< 2) ||| (z >>> 6)) <<< 6 ||| (z &&& 0x3f) = z := by
  obtain ⟨h₁, h₂, h₃, h₄⟩ := sextets_lt x y z
  have hx := x.toNat_lt
  have hy := y.toNat_lt
  have hz := z.toNat_lt
  simp only [← UInt8.toNat_inj, toNat_firstByte _ _ h₁ h₂, toNat_secondByte _ _ h₃,
    toNat_thirdByte _ _ h₄, firstSextet, secondSextet, thirdSextet, fourthSextet]
  omega

end

/-! ## Groups -/

/-- The bytes of a group of digits for some of three bytes. -/
def groupBytes (x y z : UInt8) (count : Nat) : List UInt8 :=
  [ tableByte (x >>> 2), tableByte (((x &&& 0x03) <<< 4) ||| (y >>> 4)),
    if count > 1 then tableByte (((y &&& 0x0f) <<< 2) ||| (z >>> 6)) else base64Pad,
    if count > 2 then tableByte (z &&& 0x3f) else base64Pad ]

lemma base64Table_ascii (v : UInt8) : (base64Table v).toNat < 0x80 := by
  have hall : ∀ n < 256, (base64Table (UInt8.ofNat n)).toNat < 0x80 := by decide +kernel
  have h := hall v.toNat v.toNat_lt
  rwa [UInt8.ofNat_toNat] at h

lemma encode_encodeChunk (x y z : UInt8) (count : Nat) :
    encode (encodeChunk x y z count) = groupBytes x y z count := by
  have hpad : String.utf8EncodeChar '=' = [base64Pad] := by decide
  have hdigit (v : UInt8) : String.utf8EncodeChar (base64Table v) = [tableByte v] :=
    encode_ascii (base64Table_ascii v)
  unfold encodeChunk groupBytes encode
  simp only [flatMap_cons, flatMap_nil, append_nil, hdigit, cons_append,
    nil_append]
  split
  · split
    · rw [hdigit, hdigit]
      rfl
    · rw [hdigit, hpad]
      rfl
  · split
    · rw [hpad, hdigit]
      rfl
    · rw [hpad]
      rfl

/-- The bytes that a group may stand for: three, or fewer at the end. -/
def Group (final : Bool) (out chunk : List UInt8) : Prop :=
  (∃ x y z, out = [x, y, z] ∧ chunk = groupBytes x y z 3) ∨
    (final = true ∧ ∃ x y, out = [x, y] ∧ chunk = groupBytes x y 0 2) ∨
      (final = true ∧ ∃ x, out = [x] ∧ chunk = groupBytes x 0 0 1)

section
variable {c₀ c₁ c₂ c₃ : UInt8} {final : Bool} {out : List UInt8}

/-- A group without padding. -/
lemma decodeChunk_plain (h₂ : c₂ ≠ base64Pad) (h₃ : c₃ ≠ base64Pad) :
    decodeChunk c₀ c₁ c₂ c₃ final = .ok out ↔
      ∃ a b c d, base64Digit c₀ = .ok a ∧ base64Digit c₁ = .ok b ∧ base64Digit c₂ = .ok c ∧
        base64Digit c₃ = .ok d ∧ out = decodedBytes a b c d 0 := by
  unfold decodeChunk base64PaddedDigit
  simp only [h₂, h₃, if_false, bind_eq_ok, ite_error_eq_ok, Except.ok.injEq]
  constructor
  · intro ⟨_, a, ha, b, hb, c, hc, d, hd, _, hout⟩
    exact ⟨a, b, c, d, ha, hb, hc, hd, hout.symm⟩
  · intro ⟨a, b, c, d, ha, hb, hc, hd, hout⟩
    exact ⟨by simp, a, ha, b, hb, c, hc, d, hd, by simp, hout.symm⟩

/-- A group with one padding byte. -/
lemma decodeChunk_one (h₂ : c₂ ≠ base64Pad) :
    decodeChunk c₀ c₁ c₂ base64Pad final = .ok out ↔ final = true ∧
      ∃ a b c, base64Digit c₀ = .ok a ∧ base64Digit c₁ = .ok b ∧ base64Digit c₂ = .ok c ∧
        c.toNat % 4 = 0 ∧ out = decodedBytes a b c 0 1 := by
  unfold decodeChunk base64PaddedDigit
  simp only [h₂, if_true, if_false, bind_eq_ok, ite_error_eq_ok, Except.ok.injEq,
    ← (low_bits_zero _).2]
  constructor
  · intro ⟨hfinal, a, ha, b, hb, c, hc, d, hd, hlow, hout⟩
    exact ⟨by simpa using hfinal, a, b, c, ha, hb, hc, by simpa using hlow, by rw [← hout, ← hd]⟩
  · intro ⟨hfinal, a, b, c, ha, hb, hc, hlow, hout⟩
    exact ⟨by simp [hfinal], a, ha, b, hb, c, hc, 0, rfl, by simpa using hlow, hout.symm⟩

/-- A group with two padding bytes. -/
lemma decodeChunk_two :
    decodeChunk c₀ c₁ base64Pad base64Pad final = .ok out ↔ final = true ∧
      ∃ a b, base64Digit c₀ = .ok a ∧ base64Digit c₁ = .ok b ∧ b.toNat % 16 = 0 ∧
        out = decodedBytes a b 0 0 2 := by
  unfold decodeChunk base64PaddedDigit
  simp only [if_true, bind_eq_ok, ite_error_eq_ok, Except.ok.injEq, ← (low_bits_zero _).1]
  constructor
  · intro ⟨hfinal, a, ha, b, hb, c, hc, d, hd, hlow, hout⟩
    exact ⟨by simpa using hfinal, a, b, ha, hb, by simpa using hlow, by rw [← hout, ← hc, ← hd]⟩
  · intro ⟨hfinal, a, b, ha, hb, hlow, hout⟩
    exact ⟨by simp [hfinal], a, ha, b, hb, 0, rfl, 0, rfl, by simpa using hlow, hout.symm⟩

/-- Padding in front of a digit. -/
lemma decodeChunk_misplaced (h₃ : c₃ ≠ base64Pad) :
    decodeChunk c₀ c₁ base64Pad c₃ final ≠ .ok out := by
  unfold decodeChunk
  simp [h₃]

/-- The digits of some bytes are read back as these bytes. -/
lemma groupBytes_bytes (a b c d : UInt8) (ha : a.toNat < 64) (hb : b.toNat < 64)
    (hc : c.toNat < 64) (hd : d.toNat < 64) (count : Nat) :
    groupBytes (a <<< 2 ||| b >>> 4) (b <<< 4 ||| c >>> 2) (c <<< 6 ||| d) count =
      [ tableByte a, tableByte b, if count > 1 then tableByte c else base64Pad,
        if count > 2 then tableByte d else base64Pad ] := by
  have h := sextets_bytes a b c d ha hb hc hd
  simp only [sextets, Prod.mk.injEq] at h
  unfold groupBytes
  rw [h.1, h.2.1, h.2.2.1, h.2.2.2]

lemma secondByte_zero {b : UInt8} (h : b.toNat % 16 = 0) :
    b <<< 4 ||| (0 : UInt8) >>> 2 = 0 := by
  rw [← UInt8.toNat_inj, toNat_secondByte b 0 (by decide), h]
  rfl

lemma thirdByte_zero {c : UInt8} (h : c.toNat % 4 = 0) :
    c <<< 6 ||| (0 : UInt8) = 0 := by
  rw [← UInt8.toNat_inj, toNat_thirdByte c 0 (by decide), h]
  rfl

/-- What a decoded group is. -/
lemma group_of_decodeChunk (h : decodeChunk c₀ c₁ c₂ c₃ final = .ok out) :
    Group final out [c₀, c₁, c₂, c₃] := by
  by_cases h₂ : c₂ = base64Pad
  · subst h₂
    by_cases h₃ : c₃ = base64Pad
    · subst h₃
      obtain ⟨hfinal, a, b, ha, hb, hlow, hout⟩ := decodeChunk_two.mp h
      obtain ⟨hla, rfl⟩ := base64Digit_eq_ok.mp ha
      obtain ⟨hlb, rfl⟩ := base64Digit_eq_ok.mp hb
      have hgroup := groupBytes_bytes a b 0 0 hla hlb (by decide) (by decide) 1
      rw [secondByte_zero hlow] at hgroup
      exact .inr (.inr ⟨hfinal, a <<< 2 ||| b >>> 4, hout, hgroup.symm⟩)
    · exact absurd h (decodeChunk_misplaced h₃)
  · by_cases h₃ : c₃ = base64Pad
    · subst h₃
      obtain ⟨hfinal, a, b, c, ha, hb, hc, hlow, hout⟩ := (decodeChunk_one h₂).mp h
      obtain ⟨hla, rfl⟩ := base64Digit_eq_ok.mp ha
      obtain ⟨hlb, rfl⟩ := base64Digit_eq_ok.mp hb
      obtain ⟨hlc, rfl⟩ := base64Digit_eq_ok.mp hc
      have hgroup := groupBytes_bytes a b c 0 hla hlb hlc (by decide) 2
      rw [thirdByte_zero hlow] at hgroup
      exact .inr (.inl ⟨hfinal, a <<< 2 ||| b >>> 4, b <<< 4 ||| c >>> 2, hout, hgroup.symm⟩)
    · obtain ⟨a, b, c, d, ha, hb, hc, hd, hout⟩ := (decodeChunk_plain h₂ h₃).mp h
      obtain ⟨hla, rfl⟩ := base64Digit_eq_ok.mp ha
      obtain ⟨hlb, rfl⟩ := base64Digit_eq_ok.mp hb
      obtain ⟨hlc, rfl⟩ := base64Digit_eq_ok.mp hc
      obtain ⟨hld, rfl⟩ := base64Digit_eq_ok.mp hd
      have hgroup := groupBytes_bytes a b c d hla hlb hlc hld 3
      exact .inl ⟨a <<< 2 ||| b >>> 4, b <<< 4 ||| c >>> 2, c <<< 6 ||| d, hout, hgroup.symm⟩

lemma base64Digit_tableByte (h : v.toNat < 64) : base64Digit (tableByte v) = .ok v :=
  base64Digit_eq_ok.mpr ⟨h, rfl⟩

/-- A group is decoded to its bytes. -/
lemma decodeChunk_of_group (h : Group final out [c₀, c₁, c₂, c₃]) :
    decodeChunk c₀ c₁ c₂ c₃ final = .ok out := by
  obtain ⟨x, y, z, rfl, hchunk⟩ | ⟨hfinal, x, y, rfl, hchunk⟩ | ⟨hfinal, x, rfl, hchunk⟩ := h
  · obtain ⟨h₁, h₂, h₃, h₄⟩ := sextets_lt x y z
    obtain ⟨hx, hy, hz⟩ := bytes_sextets x y z
    simp only [groupBytes, List.cons.injEq, and_true] at hchunk
    obtain ⟨rfl, rfl, rfl, rfl⟩ := hchunk
    apply (decodeChunk_plain (tableByte_ne_pad h₃) (tableByte_ne_pad h₄)).mpr
    refine ⟨_, _, _, _, base64Digit_tableByte h₁, base64Digit_tableByte h₂,
      base64Digit_tableByte h₃, base64Digit_tableByte h₄, ?_⟩
    simp [decodedBytes, hx, hy, hz]
  · obtain ⟨h₁, h₂, h₃, _⟩ := sextets_lt x y 0
    obtain ⟨hx, hy, _⟩ := bytes_sextets x y 0
    simp only [groupBytes, List.cons.injEq, and_true] at hchunk
    obtain ⟨rfl, rfl, rfl, rfl⟩ := hchunk
    apply (decodeChunk_one (tableByte_ne_pad h₃)).mpr
    refine ⟨hfinal, _, _, _, base64Digit_tableByte h₁, base64Digit_tableByte h₂,
      base64Digit_tableByte h₃, ?_, ?_⟩
    · rw [thirdSextet]
      simp
    · unfold decodedBytes
      rw [hx, hy]
      rfl
  · obtain ⟨h₁, h₂, _, _⟩ := sextets_lt x 0 0
    obtain ⟨hx, _, _⟩ := bytes_sextets x 0 0
    simp only [groupBytes, List.cons.injEq, and_true] at hchunk
    obtain ⟨rfl, rfl, rfl, rfl⟩ := hchunk
    apply decodeChunk_two.mpr
    refine ⟨hfinal, _, _, base64Digit_tableByte h₁, base64Digit_tableByte h₂, ?_, ?_⟩
    · rw [secondSextet]
      simp
    · unfold decodedBytes
      rw [hx]
      rfl

lemma decodeChunk_iff :
    decodeChunk c₀ c₁ c₂ c₃ final = .ok out ↔ Group final out [c₀, c₁, c₂, c₃] :=
  ⟨group_of_decodeChunk, decodeChunk_of_group⟩

end

/-! ## Whole texts -/

/-- The bytes of an encoded text. -/
def encodedBytes (bytes : List UInt8) : List UInt8 := encode (encodeChunks bytes)

lemma encodedBytes_group (x y z : UInt8) (rest : List UInt8) :
    encodedBytes (x :: y :: z :: rest) = groupBytes x y z 3 ++ encodedBytes rest := by
  unfold encodedBytes
  rw [encodeChunks, encode_append, encode_encodeChunk]

lemma encodedBytes_two (x y : UInt8) : encodedBytes [x, y] = groupBytes x y 0 2 :=
  encode_encodeChunk x y 0 2

lemma encodedBytes_one (x : UInt8) : encodedBytes [x] = groupBytes x 0 0 1 :=
  encode_encodeChunk x 0 0 1

lemma length_encodedBytes (bytes : List UInt8) :
    (encodedBytes bytes).length = (bytes.length + 2) / 3 * 4 := by
  induction bytes using encodeChunks.induct with
  | case1 => rfl
  | case2 x =>
    rw [encodedBytes_one]
    simp [groupBytes]
  | case3 x y =>
    rw [encodedBytes_two]
    simp [groupBytes]
  | case4 x y z rest ih =>
    rw [encodedBytes_group, length_append, ih]
    simp only [groupBytes, length_cons, length_nil]
    omega

/-- What is decoded is an encoding. -/
lemma encodedBytes_of_decodeChunks {input out : List UInt8} (hlen : input.length % 4 = 0)
    (h : decodeChunks input = .ok out) : input = encodedBytes out := by
  induction input using decodeChunks.induct generalizing out with
  | case1 c₀ c₁ c₂ c₃ rest ih =>
    rw [decodeChunks, bind_eq_ok] at h
    obtain ⟨bytes, hchunk, h⟩ := h
    obtain ⟨more, hmore, h⟩ := bind_eq_ok.mp h
    injection h with hout
    have hrest : rest.length % 4 = 0 := by
      simp only [length_cons] at hlen
      omega
    have hih := ih hrest hmore
    -- a padded group is the last one
    have hlast (hfinal : decide (rest.length < 4) = true) : rest = [] ∧ more = [] := by
      have hnil : rest = [] := eq_nil_of_length_eq_zero (by simp at hfinal; omega)
      subst hnil
      injection hmore with hnil
      exact ⟨rfl, hnil.symm⟩
    subst hout
    obtain ⟨x, y, z, rfl, hgroup⟩ | ⟨hfinal, x, y, rfl, hgroup⟩ | ⟨hfinal, x, rfl, hgroup⟩ :=
      decodeChunk_iff.mp hchunk
    · show [c₀, c₁, c₂, c₃] ++ rest = encodedBytes (x :: y :: z :: more)
      rw [encodedBytes_group, ← hgroup, ← hih]
    · obtain ⟨rfl, rfl⟩ := hlast hfinal
      show [c₀, c₁, c₂, c₃] = encodedBytes [x, y]
      rw [encodedBytes_two, hgroup]
    · obtain ⟨rfl, rfl⟩ := hlast hfinal
      show [c₀, c₁, c₂, c₃] = encodedBytes [x]
      rw [encodedBytes_one, hgroup]
  | case2 input hshort =>
    have hnil : input = [] := by
      match input, hshort with
      | [], _ => rfl
      | [_], _ => simp at hlen
      | [_, _], _ => simp at hlen
      | [_, _, _], _ => simp at hlen
      | c₀ :: c₁ :: c₂ :: c₃ :: rest, hshort => exact absurd rfl (hshort c₀ c₁ c₂ c₃ rest)
    subst hnil
    injection h with hout
    rw [← hout]
    rfl

/-- An encoding is decoded to its bytes. -/
lemma decodeChunks_encodedBytes (bytes : List UInt8) :
    decodeChunks (encodedBytes bytes) = .ok bytes := by
  induction bytes using encodeChunks.induct with
  | case1 => rfl
  | case2 x =>
    have hchunk : decodeChunks (groupBytes x 0 0 1) = _ := decodeChunks.eq_1 _ _ _ _ []
    have hgroup : Group (([] : List UInt8).length < 4) [x] (groupBytes x 0 0 1) :=
      .inr (.inr ⟨rfl, x, rfl, rfl⟩)
    rw [encodedBytes_one, hchunk, decodeChunk_of_group hgroup]
    rfl
  | case3 x y =>
    have hchunk : decodeChunks (groupBytes x y 0 2) = _ := decodeChunks.eq_1 _ _ _ _ []
    have hgroup : Group (([] : List UInt8).length < 4) [x, y] (groupBytes x y 0 2) :=
      .inr (.inl ⟨rfl, x, y, rfl, rfl⟩)
    rw [encodedBytes_two, hchunk, decodeChunk_of_group hgroup]
    rfl
  | case4 x y z rest ih =>
    have hchunk : decodeChunks (groupBytes x y z 3 ++ encodedBytes rest) = _ :=
      decodeChunks.eq_1 _ _ _ _ (encodedBytes rest)
    rw [encodedBytes_group, hchunk, decodeChunk_of_group (.inl ⟨x, y, z, rfl, rfl⟩), ih]
    rfl

lemma encode_injective {text more : List Char} (h : encode text = encode more) : text = more := by
  have htext : Lib.Utf8.fromUtf8 (encode text) = .ok (String.ofList text) := fromUtf8_encode text
  have hmore : Lib.Utf8.fromUtf8 (encode more) = .ok (String.ofList more) := fromUtf8_encode more
  rw [h, hmore] at htext
  injection htext with heq
  exact (String.ofList_injective heq).symm

/-- A text is decoded to some bytes exactly if it is their encoding. -/
lemma decodeBase64_iff {encoded : String} :
    decodeBase64 encoded = .ok bytes ↔ encoded = encodeBase64 bytes := by
  constructor
  · intro h
    unfold decodeBase64 at h
    obtain ⟨hlen, h⟩ := ite_error_eq_ok.mp h
    have hbytes := encodedBytes_of_decodeChunks (not_not.mp hlen) h
    unfold encodeBase64
    rw [← encode_injective hbytes, String.ofList_toList]
  · rintro rfl
    have hlen := length_encodedBytes bytes
    unfold encodedBytes at hlen
    unfold decodeBase64 encodeBase64
    rw [String.toList_ofList, if_neg (by omega)]
    exact decodeChunks_encodedBytes bytes

/-! ## Artifacts -/

lemma utf8ByteSize_encodeBase64 (bytes : List UInt8) :
    (encodeBase64 bytes).utf8ByteSize = (bytes.length + 2) / 3 * 4 := by
  rw [← length_encodedBytes, encodeBase64, utf8ByteSize_ofList]
  exact (length_encode _).symm

namespace ScriptArtifact

lemma fromBytes_eq_ok {convention : ScriptArtifactConvention} :
    fromBytes convention bytes = .ok artifact ↔ bytes.length ≤ scriptArtifactMaxBytes ∧
      artifact = { convention, data := encodeBase64 bytes } := by
  unfold fromBytes
  rw [ite_error_eq_ok, Nat.not_lt, Except.ok.injEq, eq_comm (b := artifact)]

lemma decode_eq_ok {budget : Nat} :
    artifact.decode budget = .ok bytes ↔ artifact.data = encodeBase64 bytes ∧
      bytes.length ≤ scriptArtifactMaxBytes ∧ bytes.length ≤ budget := by
  unfold decode
  rw [ite_error_eq_ok]
  constructor
  · intro ⟨_, h⟩
    obtain ⟨read, hread, h⟩ := bind_eq_ok.mp h
    obtain ⟨hlimit, h⟩ := ite_error_eq_ok.mp h
    injection h with hout
    subst hout
    simp only [Bool.or_eq_true, decide_eq_true_eq, not_or, Nat.not_lt] at hlimit
    exact ⟨decodeBase64_iff.mp hread, hlimit⟩
  · intro ⟨hdata, hmax, hbudget⟩
    have hsize : artifact.data.utf8ByteSize ≤ scriptArtifactMaxBase64Bytes := by
      rw [hdata, utf8ByteSize_encodeBase64]
      unfold scriptArtifactMaxBase64Bytes
      omega
    refine ⟨Nat.not_lt.mpr hsize, bind_eq_ok.mpr ⟨bytes, decodeBase64_iff.mpr hdata, ?_⟩⟩
    apply ite_error_eq_ok.mpr
    refine ⟨?_, rfl⟩
    simp only [Bool.or_eq_true, decide_eq_true_eq, not_or, Nat.not_lt]
    exact ⟨hmax, hbudget⟩

end ScriptArtifact

open ScriptArtifact

/-- The codec is exact in both directions, and stays within its bounds. -/
theorem artifact_codec_exact :
    (∀ (convention : ScriptArtifactConvention) (bytes : List UInt8),
      bytes.length ≤ scriptArtifactMaxBytes →
        ∃ artifact, fromBytes convention bytes = .ok artifact ∧
          artifact.data.utf8ByteSize ≤ scriptArtifactMaxBase64Bytes ∧
            ∀ budget, bytes.length ≤ budget → artifact.decode budget = .ok bytes) ∧
      ∀ (encoded : String) (bytes : List UInt8),
        decodeBase64 encoded = .ok bytes ↔ encoded = encodeBase64 bytes := by
  constructor
  · intro convention bytes hmax
    refine ⟨_, fromBytes_eq_ok.mpr ⟨hmax, rfl⟩, ?_, ?_⟩
    · show (encodeBase64 bytes).utf8ByteSize ≤ scriptArtifactMaxBase64Bytes
      rw [utf8ByteSize_encodeBase64]
      unfold scriptArtifactMaxBase64Bytes
      omega
    · intro budget hbudget
      exact decode_eq_ok.mpr ⟨rfl, hmax, hbudget⟩
  · intro encoded bytes
    exact decodeBase64_iff

end Agenterm.Script
