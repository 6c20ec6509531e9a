import Mathlib.Data.List.Basic

/-!
# Base64

The alphabet and the decoder of base64 with padding. Three bytes are four sextets
(`decode_three`); a last group of one or two bytes is padded (`decode_one`, `decode_two`).
-/

namespace Agenterm.Lib.Base64

def alphabet : List Char :=
  [ 'A', 'B', 'C', 'D', 'E', 'F', 'G', 'H', 'I', 'J', 'K', 'L', 'M',
    'N', 'O', 'P', 'Q', 'R', 'S', 'T', 'U', 'V', 'W', 'X', 'Y', 'Z',
    'a', 'b', 'c', 'd', 'e', 'f', 'g', 'h', 'i', 'j', 'k', 'l', 'm',
    'n', 'o', 'p', 'q', 'r', 's', 't', 'u', 'v', 'w', 'x', 'y', 'z',
    '0', '1', '2', '3', '4', '5', '6', '7', '8', '9', '+', '/' ]

/-- The character of a sextet. -/
def digit (sextet : Nat) : Char := alphabet.getD sextet '='

/-- The sextet of a character. -/
def sextet (c : Char) : Option Nat := alphabet.findIdx? fun d => d = c

/-- The bytes a text stands for; `none` when it is not base64. -/
def decode : List Char → Option (List UInt8)
  | [] => some []
  | c₁ :: c₂ :: c₃ :: c₄ :: rest => do
    let v₁ ← sextet c₁
    let v₂ ← sextet c₂
    let first := UInt8.ofNat (v₁ * 4 + v₂ / 16)
    if c₄ = '=' then
      -- padding ends the text
      if rest ≠ [] then
        none
      else if c₃ = '=' then
        some [first]
      else do
        let v₃ ← sextet c₃
        some [first, UInt8.ofNat (v₂ % 16 * 16 + v₃ / 4)]
    else do
      let v₃ ← sextet c₃
      let v₄ ← sextet c₄
      let tail ← decode rest
      some (first :: UInt8.ofNat (v₂ % 16 * 16 + v₃ / 4) :: UInt8.ofNat (v₃ % 4 * 64 + v₄) :: tail)
  | _ => none

lemma sextet_digit {n : Nat} (h : n < 64) : sextet (digit n) = some n := by
  have hall : ∀ n < 64, sextet (digit n) = some n := by decide
  exact hall n h

lemma digit_ne_pad {n : Nat} (h : n < 64) : digit n ≠ '=' := by
  have hall : ∀ n < 64, digit n ≠ '=' := by decide
  exact hall n h

section
variable (a b c : UInt8)

lemma first_byte : UInt8.ofNat (a.toNat / 4 * 4 + (a.toNat % 4 * 16 + b.toNat / 16) / 16) = a := by
  have hb := b.toNat_lt
  have hsum : a.toNat / 4 * 4 + (a.toNat % 4 * 16 + b.toNat / 16) / 16 = a.toNat := by omega
  rw [hsum, UInt8.ofNat_toNat]

lemma second_byte :
    UInt8.ofNat ((a.toNat % 4 * 16 + b.toNat / 16) % 16 * 16
      + (b.toNat % 16 * 4 + c.toNat / 64) / 4) = b := by
  have hb := b.toNat_lt
  have hc := c.toNat_lt
  have hsum : (a.toNat % 4 * 16 + b.toNat / 16) % 16 * 16
      + (b.toNat % 16 * 4 + c.toNat / 64) / 4 = b.toNat := by omega
  rw [hsum, UInt8.ofNat_toNat]

lemma third_byte :
    UInt8.ofNat ((b.toNat % 16 * 4 + c.toNat / 64) % 4 * 64 + c.toNat % 64) = c := by
  have hc := c.toNat_lt
  have hsum : (b.toNat % 16 * 4 + c.toNat / 64) % 4 * 64 + c.toNat % 64 = c.toNat := by omega
  rw [hsum, UInt8.ofNat_toNat]

theorem decode_three (rest : List Char) :
    decode (digit (a.toNat / 4) :: digit (a.toNat % 4 * 16 + b.toNat / 16)
      :: digit (b.toNat % 16 * 4 + c.toNat / 64) :: digit (c.toNat % 64) :: rest)
      = (decode rest).map fun tail => a :: b :: c :: tail := by
  have ha := a.toNat_lt
  have hb := b.toNat_lt
  have hc := c.toNat_lt
  rw [decode, sextet_digit (by omega), sextet_digit (by omega), sextet_digit (by omega),
    sextet_digit (by omega)]
  simp only [Option.bind_eq_bind, Option.bind_some, if_neg (digit_ne_pad (by omega : c.toNat % 64 < 64)),
    first_byte, second_byte, third_byte]
  cases decode rest <;> rfl

theorem decode_two :
    decode [digit (a.toNat / 4), digit (a.toNat % 4 * 16 + b.toNat / 16),
      digit (b.toNat % 16 * 4), '='] = some [a, b] := by
  have ha := a.toNat_lt
  have hb := b.toNat_lt
  have hsecond := second_byte a b 0
  have hthird : b.toNat % 16 * 4 < 64 := by omega
  rw [decode, sextet_digit (by omega), sextet_digit (by omega), sextet_digit hthird]
  simp only [Option.bind_eq_bind, Option.bind_some, if_neg (digit_ne_pad hthird), first_byte]
  simpa using hsecond

theorem decode_one :
    decode [digit (a.toNat / 4), digit (a.toNat % 4 * 16), '=', '='] = some [a] := by
  have ha := a.toNat_lt
  have hfirst := first_byte a 0
  rw [decode, sextet_digit (by omega), sextet_digit (by omega)]
  simpa using hfirst

end

end Agenterm.Lib.Base64
