import Agenterm.Json
import Agenterm.Lib.DocumentStore
import Agenterm.Lib.Maps
import Mathlib.Data.List.OfFn
import Mathlib.Data.Nat.Bitwise

/-!
# What the stores of the runtime share

Errors, 64-bit times, tokens made of random bytes, and the checks on texts that several stores
make. SHA-256 and the random bytes come from other packages: the digest is a parameter of the
stores that use it, and the random bytes are an argument of the calls that draw them.
-/

namespace Agenterm.Cu

open List

structure CuError where
  code : String
  message : String
deriving DecidableEq

/-- A check on a value that may be absent. -/
def checkSome {α : Type} (value : Option α) (check : α → Except CuError Unit) :
    Except CuError Unit :=
  match value with
  | none => .ok ()
  | some a => check a

/-- An answer of one kind. -/
def answered {D α Answer : Type} (kind : α → Answer) (result : Except CuError (α × D)) :
    Except CuError (Answer × D) :=
  result.map fun (answer, document) => (kind answer, document)

/-- The codes of the errors that a computation may fail with. -/
def ErrorCodes {α : Type} (p : String → Prop) (x : Except CuError α) : Prop :=
  ∀ error, x = .error error → p error.code

/-- A computation that does not fail with an error code. -/
def Avoids {α : Type} (code : String) (x : Except CuError α) : Prop :=
  ErrorCodes (· ≠ code) x

/-! ## Times -/

/-- `i64`. -/
abbrev I64 : Type := { n : Int // -2 ^ 63 ≤ n ∧ n < 2 ^ 63 }

/-- `i64::checked_add`. -/
def I64.checkedAdd (a b : I64) : Option I64 :=
  if h : -2 ^ 63 ≤ a.val + b.val ∧ a.val + b.val < 2 ^ 63 then some ⟨a.val + b.val, h⟩ else none

lemma I64.checkedAdd_eq_some {a b c : I64} (h : I64.checkedAdd a b = some c) :
    c.val = a.val + b.val := by
  unfold I64.checkedAdd at h
  split at h
  · rw [← Option.some.inj h]
  · cases h

/-- `i64::checked_sub`. -/
def I64.checkedSub (a b : I64) : Option I64 :=
  if h : -2 ^ 63 ≤ a.val - b.val ∧ a.val - b.val < 2 ^ 63 then some ⟨a.val - b.val, h⟩ else none

def zeroTime : I64 := ⟨0, by decide⟩

/-- An `i64` in JSON. -/
def I64.json (n : I64) : Value := .number n.val

/-- A field that is left out when it is `None`. -/
def optionalField {α : Type} (name : String) (json : α → Value) :
    Option α → List (String × Value)
  | none => []
  | some a => [(name, json a)]

/-! ## Hexadecimal texts -/

/-- `{byte:02x}` of each byte. -/
def hexDigest (bytes : List UInt8) : String :=
  String.ofList (bytes.flatMap fun byte =>
    [Nat.digitChar (byte.toNat / 16), Nat.digitChar (byte.toNat % 16)])

/-- A lowercase hexadecimal digit. -/
def isLowerHex (c : Char) : Bool := c.isDigit || ('a' ≤ c && c ≤ 'f')

/-- `validate_digest` and `valid_digest`: a lowercase SHA-256 digest. Texts that pass have only
ASCII characters, so that their bytes are their characters. -/
def validDigest (value : String) : Bool :=
  value.utf8ByteSize == 64 && value.toList.all isLowerHex

/-- The check of every store on identifiers. -/
def isLowercaseUuidV4 (value : String) : Bool :=
  value.utf8ByteSize == 36
    && value.toList[8]? == some '-'
    && value.toList[13]? == some '-'
    && value.toList[18]? == some '-'
    && value.toList[23]? == some '-'
    && value.toList[14]? == some '4'
    && (value.toList[19]?).any (fun c => c == '8' || c == '9' || c == 'a' || c == 'b')
    && value.toList.zipIdx.all fun (c, index) =>
      index == 8 || index == 13 || index == 18 || index == 23 || isLowerHex c

/-- `random_uuid_v4`, of the bytes that were drawn. -/
def uuidV4 (bytes : Fin 16 → UInt8) : String :=
  hexDigest [bytes 0, bytes 1, bytes 2, bytes 3] ++ "-"
    ++ hexDigest [bytes 4, bytes 5] ++ "-"
    ++ hexDigest [(bytes 6 &&& 0x0f) ||| 0x40, bytes 7] ++ "-"
    ++ hexDigest [(bytes 8 &&& 0x3f) ||| 0x80, bytes 9] ++ "-"
    ++ hexDigest [bytes 10, bytes 11, bytes 12, bytes 13, bytes 14, bytes 15]

/-- `sha256_hex`, where `sha256` digests the bytes of a text. -/
def sha256Hex (sha256 : String → Fin 32 → UInt8) (value : String) : String :=
  hexDigest (List.ofFn (sha256 value))

/-- `char::is_control`. -/
def isControl (c : Char) : Bool := c.toNat < 0x20 || (0x7f ≤ c.toNat && c.toNat ≤ 0x9f)

/-! ## Comparing secrets -/

/-- The loop of `constant_time_equal`. -/
def difference (left right : List UInt8) : Nat :=
  (List.range (max left.length right.length)).foldl
    (fun difference index =>
      difference ||| (left[index]?.getD 0 ^^^ right[index]?.getD 0).toNat)
    (left.length ^^^ right.length)

def constantTimeEqual (left right : String) : Bool :=
  difference left.toUTF8.data.toList right.toUTF8.data.toList == 0

/-! ## Checks and error codes -/

section
variable {D α β Answer : Type} {p : String → Prop}

lemma checkSome_eq_ok {value : Option α} {check : α → Except CuError Unit} :
    checkSome value check = .ok () ↔ ∀ a, value = some a → check a = .ok () := by
  cases value with
  | none => exact ⟨fun _ _ h => absurd h nofun, fun _ => rfl⟩
  | some a => exact ⟨fun h _ ha => Option.some.inj ha ▸ h, fun h => h a rfl⟩

lemma answered_eq_ok {kind : α → Answer} {result : Except CuError (α × D)} {answer : Answer}
    {document : D} (h : answered kind result = .ok (answer, document)) :
    ∃ a, answer = kind a ∧ result = .ok (a, document) := by
  unfold answered at h
  cases result with
  | error e => cases h
  | ok found =>
    cases h
    exact ⟨_, rfl, rfl⟩

lemma errorCodes_ok (a : α) : ErrorCodes p (.ok a : Except CuError α) :=
  fun _ h => absurd h nofun

lemma errorCodes_error {error : CuError} (h : p error.code) :
    ErrorCodes p (.error error : Except CuError α) :=
  fun _ herror => Except.error.inj herror ▸ h

lemma ErrorCodes.bind {x : Except CuError α} {f : α → Except CuError β} (hx : ErrorCodes p x)
    (hf : ∀ a, ErrorCodes p (f a)) : ErrorCodes p (x >>= f) := by
  intro error h
  rcases Lib.bind_eq_error.mp h with h | ⟨a, -, h⟩
  · exact hx error h
  · exact hf a error h

lemma ErrorCodes.ite {c : Prop} [Decidable c] {x y : Except CuError α} (hx : ErrorCodes p x)
    (hy : ErrorCodes p y) : ErrorCodes p (if c then x else y) := by
  split
  · exact hx
  · exact hy

lemma ErrorCodes.mapError {x : Except CuError α} {f : CuError → CuError}
    (h : ∀ error, p (f error).code) : ErrorCodes p (x.mapError f) := by
  cases x with
  | error e => exact errorCodes_error (h e)
  | ok a => exact errorCodes_ok a

lemma ErrorCodes.checkSome {value : Option α} {check : α → Except CuError Unit}
    (h : ∀ a, ErrorCodes p (check a)) : ErrorCodes p (checkSome value check) := by
  cases value with
  | none => exact errorCodes_ok ()
  | some a => exact h a

lemma ErrorCodes.forM {f : α → Except CuError Unit} (h : ∀ a, ErrorCodes p (f a)) (l : List α) :
    ErrorCodes p (l.forM f) := by
  induction l with
  | nil => exact errorCodes_ok ()
  | cons a l ih => exact (h a).bind fun _ => ih

lemma ErrorCodes.answered {kind : α → Answer} {result : Except CuError (α × D)}
    (h : ErrorCodes p result) : ErrorCodes p (answered kind result) := by
  intro error herror
  unfold Cu.answered at herror
  cases result with
  | error e => exact h error (congrArg Except.error (Except.error.inj herror))
  | ok a => cases herror

end

/-! ## Lemmas -/

lemma isLowerHex_digitChar {n : Nat} (h : n < 16) : isLowerHex (Nat.digitChar n) = true := by
  have hall : ∀ n < 16, isLowerHex (Nat.digitChar n) = true := by decide
  exact hall n h

variable {c : Char}

/-- An ASCII character is one byte. -/
lemma utf8Size_of_lt (h : c.toNat < 128) : c.utf8Size = 1 := by
  rw [Char.utf8Size_eq_one_iff, UInt32.le_iff_toNat_le]
  show c.toNat ≤ 127
  omega

lemma toNat_of_isDigit (h : c.isDigit = true) : 48 ≤ c.toNat ∧ c.toNat ≤ 57 := by
  unfold Char.isDigit at h
  rw [Bool.and_eq_true, decide_eq_true_eq, decide_eq_true_eq, ge_iff_le,
    UInt32.le_iff_toNat_le, UInt32.le_iff_toNat_le] at h
  exact h

lemma toNat_of_isLowerHex (h : isLowerHex c = true) :
    48 ≤ c.toNat ∧ c.toNat ≤ 57 ∨ 97 ≤ c.toNat ∧ c.toNat ≤ 102 := by
  unfold isLowerHex at h
  rw [Bool.or_eq_true, Bool.and_eq_true, decide_eq_true_eq, decide_eq_true_eq] at h
  rcases h with hdigit | ⟨hlow, hhigh⟩
  · exact .inl (toNat_of_isDigit hdigit)
  · rw [Char.le_def, UInt32.le_iff_toNat_le] at hlow hhigh
    exact .inr ⟨hlow, hhigh⟩

lemma plain_of_isLowerHex (h : isLowerHex c = true) : Plain c := by
  have hrange := toNat_of_isLowerHex h
  refine ⟨by omega, ?_, ?_⟩
  · rintro rfl
    exact absurd hrange (by decide)
  · rintro rfl
    exact absurd hrange (by decide)

/-- A text of ASCII characters has a byte for each. -/
lemma utf8ByteSize_ascii {s : String} (h : ∀ c ∈ s.toList, c.toNat < 128) :
    s.utf8ByteSize = s.toList.length := by
  rw [utf8ByteSize_eq_sum, map_congr_left fun c hc => utf8Size_of_lt (h c hc)]
  simp

lemma toList_hexDigest (bytes : List UInt8) :
    (hexDigest bytes).toList = bytes.flatMap fun byte =>
      [Nat.digitChar (byte.toNat / 16), Nat.digitChar (byte.toNat % 16)] :=
  String.toList_ofList

lemma isLowerHex_hexDigest {bytes : List UInt8} (h : c ∈ (hexDigest bytes).toList) :
    isLowerHex c = true := by
  rw [toList_hexDigest, mem_flatMap] at h
  obtain ⟨byte, -, hc⟩ := h
  have hbyte := byte.toNat_lt
  rcases mem_cons.mp hc with rfl | hc
  · exact isLowerHex_digitChar (by omega)
  · obtain rfl := mem_singleton.mp hc
    exact isLowerHex_digitChar (by omega)

lemma length_hexDigest (bytes : List UInt8) :
    (hexDigest bytes).toList.length = 2 * bytes.length := by
  rw [toList_hexDigest]
  induction bytes with
  | nil => rfl
  | cons byte bytes ih =>
    rw [flatMap_cons, length_append, ih]
    simp only [length_cons, length_nil]
    omega

/-- Thirty-two bytes in hexadecimal pass as a digest. -/
lemma validDigest_hexDigest (bytes : Fin 32 → UInt8) :
    validDigest (hexDigest (List.ofFn bytes)) = true := by
  have hascii : ∀ c ∈ (hexDigest (List.ofFn bytes)).toList, c.toNat < 128 := fun c hc => by
    have hrange := toNat_of_isLowerHex (isLowerHex_hexDigest hc)
    omega
  unfold validDigest
  rw [Bool.and_eq_true, beq_iff_eq, utf8ByteSize_ascii hascii, length_hexDigest, length_ofFn,
    all_eq_true]
  exact ⟨rfl, fun c hc => isLowerHex_hexDigest hc⟩

lemma validDigest_sha256Hex (sha256 : String → Fin 32 → UInt8) (value : String) :
    validDigest (sha256Hex sha256 value) = true :=
  validDigest_hexDigest (sha256 value)

lemma foldl_or_eq_zero {β : Type} (f : β → Nat) (l : List β) (start : Nat) :
    l.foldl (fun difference b => difference ||| f b) start = 0 ↔ start = 0 ∧ ∀ b ∈ l, f b = 0 := by
  induction l generalizing start with
  | nil => simp
  | cons b l ih =>
    rw [foldl_cons, ih, Nat.or_eq_zero_iff, forall_mem_cons, and_assoc]

lemma difference_eq_zero {left right : List UInt8} : difference left right = 0 ↔ left = right := by
  unfold difference
  rw [foldl_or_eq_zero, Nat.xor_eq_zero_iff]
  constructor
  · rintro ⟨hlength, hbytes⟩
    refine ext_getElem? fun index => ?_
    by_cases hindex : index < left.length
    · have hbyte := hbytes index (mem_range.mpr (by omega))
      rw [List.getElem?_eq_getElem hindex, List.getElem?_eq_getElem (by omega)] at hbyte ⊢
      have hxor : left[index] ^^^ right[index] = 0 := UInt8.toNat_inj.mp hbyte
      rw [UInt8.xor_eq_zero_iff.mp hxor]
    · rw [List.getElem?_eq_none (by omega), List.getElem?_eq_none (by omega)]
  · rintro rfl
    refine ⟨rfl, fun index _ => ?_⟩
    rw [UInt8.xor_self]
    rfl

/-- The comparison is equality. -/
lemma constantTimeEqual_iff {left right : String} :
    constantTimeEqual left right = true ↔ left = right := by
  unfold constantTimeEqual
  rw [beq_iff_eq, difference_eq_zero, Array.toList_inj]
  exact ⟨fun h => String.toByteArray_inj.mp (ByteArray.ext h), fun h => by rw [h]⟩

/-! ## Identifiers -/

lemma version_digit (byte : UInt8) : ((byte &&& 0x0f) ||| 0x40).toNat / 16 = 4 := by
  have hall : ∀ n < 256, ((n &&& 15) ||| 64) / 16 = 4 := by decide +kernel
  exact hall byte.toNat byte.toNat_lt

lemma variant_digit (byte : UInt8) :
    let digit := Nat.digitChar (((byte &&& 0x3f) ||| 0x80).toNat / 16)
    (digit == '8' || digit == '9' || digit == 'a' || digit == 'b') = true := by
  have hall : ∀ n < 256,
      let digit := Nat.digitChar (((n &&& 63) ||| 128) / 16)
      (digit == '8' || digit == '9' || digit == 'a' || digit == 'b') = true := by decide +kernel
  exact hall byte.toNat byte.toNat_lt

lemma high_isLowerHex (byte : UInt8) : isLowerHex (Nat.digitChar (byte.toNat / 16)) = true := by
  have hbyte := byte.toNat_lt
  exact isLowerHex_digitChar (by omega)

lemma low_isLowerHex (byte : UInt8) : isLowerHex (Nat.digitChar (byte.toNat % 16)) = true :=
  isLowerHex_digitChar (by omega)

lemma toNat_lt_of_isLowerHex (h : isLowerHex c = true) : c.toNat < 128 := by
  have hrange := toNat_of_isLowerHex h
  omega

/-- The characters of a drawn identifier, with the digits of `bytes` and four hyphens. -/
lemma toList_uuidV4 (bytes : Fin 16 → UInt8) :
    (uuidV4 bytes).toList
      = (hexDigest [bytes 0, bytes 1, bytes 2, bytes 3]).toList ++ '-'
        :: ((hexDigest [bytes 4, bytes 5]).toList ++ '-'
        :: ((hexDigest [(bytes 6 &&& 0x0f) ||| 0x40, bytes 7]).toList ++ '-'
        :: ((hexDigest [(bytes 8 &&& 0x3f) ||| 0x80, bytes 9]).toList ++ '-'
        :: (hexDigest [bytes 10, bytes 11, bytes 12, bytes 13, bytes 14, bytes 15]).toList))) := by
  have hhyphen : "-".toList = ['-'] := rfl
  simp only [uuidV4, String.toList_append, hhyphen, append_assoc, cons_append,
    nil_append]

/-- A drawn identifier passes the check on identifiers. -/
lemma isLowercaseUuidV4_uuidV4 (bytes : Fin 16 → UInt8) :
    isLowercaseUuidV4 (uuidV4 bytes) = true := by
  have hascii : ∀ c ∈ (uuidV4 bytes).toList, c.toNat < 128 := by
    intro c hc
    rw [toList_uuidV4] at hc
    simp only [mem_append, mem_cons] at hc
    have hhyphen : '-'.toNat < 128 := by decide
    rcases hc with hc | rfl | hc | rfl | hc | rfl | hc | rfl | hc
    all_goals first | exact hhyphen | exact toNat_lt_of_isLowerHex (isLowerHex_hexDigest hc)
  have hlength : (uuidV4 bytes).utf8ByteSize = 36 := by
    rw [utf8ByteSize_ascii hascii, toList_uuidV4]
    simp only [length_append, length_cons, length_hexDigest, length_nil]
  have hvariant := variant_digit (bytes 8)
  have hfour : isLowerHex (Nat.digitChar 4) = true := by decide
  unfold isLowercaseUuidV4
  rw [hlength, toList_uuidV4]
  simp only [toList_hexDigest, flatMap_cons, flatMap_nil, append_nil,
    cons_append, nil_append, version_digit]
  simp only [zipIdx_cons, zipIdx_nil, all_cons, all_nil, high_isLowerHex,
    low_isLowerHex, hfour, Bool.or_true, Bool.true_or, Bool.and_true, Bool.and_self,
    List.getElem?_cons_succ, List.getElem?_cons_zero, Option.any_some, beq_self_eq_true, hvariant]
  rfl

end Agenterm.Cu
