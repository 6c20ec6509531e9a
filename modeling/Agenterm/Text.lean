import Mathlib.Data.List.Basic

/-!
# Texts

The functions of the standard library on texts that the models of several crates use.
-/

namespace Agenterm

/-- `str::parse` of an unsigned integer up to `limit`. -/
def parseUnsigned (limit : Nat) (text : List Char) : Option Nat :=
  let digits := match text with
    | '+' :: rest => rest
    | chars => chars
  if digits.isEmpty || !digits.all Char.isDigit then
    none
  else
    let value := digits.foldl (fun value c => value * 10 + (c.toNat - 48)) 0
    if value ≤ limit then some value else none

/-- A number reads back from its own digits. -/
lemma parseUnsigned_toString {limit n : Nat} (h : n ≤ limit) :
    parseUnsigned limit (toString n).toList = some n := by
  have hdigits : (toString n).toList = Nat.toDigits 10 n := Nat.toList_repr
  have hall : ∀ c ∈ Nat.toDigits 10 n, c.isDigit = true := fun c hc =>
    Nat.isDigit_of_mem_toDigits (by decide) (by decide) hc
  rw [hdigits]
  -- no digit is a sign
  have hsign : ∀ rest, Nat.toDigits 10 n ≠ '+' :: rest := by
    intro rest hcons
    have hplus := hall '+' (by rw [hcons]; exact List.mem_cons_self)
    exact absurd hplus (by decide)
  have hvalue : (Nat.toDigits 10 n).foldl (fun value c => value * 10 + (c.toNat - 48)) 0 = n := by
    have hread : Nat.ofDigitChars 10 (Nat.toDigits 10 n) 0 = n := Nat.ofDigitChars_ten_toDigits
    rw [Nat.ofDigitChars_eq_foldl] at hread
    simp only [Nat.mul_comm 10] at hread
    exact hread
  unfold parseUnsigned
  split
  · rename_i rest hcons
    exact absurd hcons (hsign rest)
  · dsimp only
    rw [hvalue, if_pos h, if_neg]
    simp only [Bool.or_eq_true, Bool.not_eq_true', not_or, List.isEmpty_iff,
      Bool.not_eq_false, List.all_eq_true]
    exact ⟨Nat.toDigits_ne_nil, hall⟩

/-- `char::is_whitespace`, for `str::trim`. -/
def isWhitespace (c : Char) : Bool :=
  let n := c.toNat
  (9 ≤ n && n ≤ 13) || n = 0x20 || n = 0x85 || n = 0xa0 || n = 0x1680 ||
    (0x2000 ≤ n && n ≤ 0x200a) || n = 0x2028 || n = 0x2029 || n = 0x202f || n = 0x205f ||
    n = 0x3000

def trim (text : List Char) : List Char :=
  ((text.dropWhile isWhitespace).reverse.dropWhile isWhitespace).reverse

end Agenterm
