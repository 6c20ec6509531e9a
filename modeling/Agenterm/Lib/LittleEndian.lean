import Mathlib.Algebra.Order.Ring.Nat
import Mathlib.Data.List.Basic

/-!
# Numbers as bytes

A number written in a fixed number of bytes, least significant byte first, can be read back
(`ofLeBytes_leBytes`), and so can one written most significant byte first
(`ofBeBytes_beBytes`) and the two's complement of a signed 64-bit number
(`int64OfLeBytes_toLeBytes`).
-/

namespace Agenterm.Lib

/-- The `width` low bytes of `n`, least significant first. -/
def leBytes : Nat → Nat → List UInt8
  | 0, _ => []
  | width + 1, n => UInt8.ofNat n :: leBytes width (n / 256)

/-- The number that bytes denote, least significant first. -/
def ofLeBytes : List UInt8 → Nat
  | [] => 0
  | b :: bs => b.toNat + 256 * ofLeBytes bs

@[simp] lemma length_leBytes (width n : Nat) : (leBytes width n).length = width := by
  induction width generalizing n with
  | zero => rfl
  | succ width ih => rw [leBytes, List.length_cons, ih]

/-- A number that fits is read back. -/
theorem ofLeBytes_leBytes {width n : Nat} (h : n < 256 ^ width) :
    ofLeBytes (leBytes width n) = n := by
  induction width generalizing n with
  | zero =>
    have hn : n = 0 := by omega
    rw [hn]
    rfl
  | succ width ih =>
    have hdiv : n / 256 < 256 ^ width := by
      rw [Nat.div_lt_iff_lt_mul (by omega), ← Nat.pow_succ]
      exact h
    rw [leBytes, ofLeBytes, ih hdiv, UInt8.toNat_ofNat']
    have hsplit := Nat.mod_add_div n 256
    omega

/-- The `width` low bytes of `n`, most significant first. -/
def beBytes (width n : Nat) : List UInt8 := (leBytes width n).reverse

/-- The number that bytes denote, most significant first. -/
def ofBeBytes (bytes : List UInt8) : Nat := ofLeBytes bytes.reverse

@[simp] lemma length_beBytes (width n : Nat) : (beBytes width n).length = width := by
  rw [beBytes, List.length_reverse, length_leBytes]

theorem ofBeBytes_beBytes {width n : Nat} (h : n < 256 ^ width) :
    ofBeBytes (beBytes width n) = n := by
  rw [ofBeBytes, beBytes, List.reverse_reverse, ofLeBytes_leBytes h]

/-- `i64::to_le_bytes`. -/
def int64ToLeBytes (v : Int64) : List UInt8 := leBytes 8 v.toUInt64.toNat

/-- `i64::from_le_bytes`. -/
def int64OfLeBytes (bytes : List UInt8) : Int64 := (UInt64.ofNat (ofLeBytes bytes)).toInt64

@[simp] lemma length_int64ToLeBytes (v : Int64) : (int64ToLeBytes v).length = 8 :=
  length_leBytes 8 _

/-- A signed number is read back. -/
theorem int64OfLeBytes_toLeBytes (v : Int64) : int64OfLeBytes (int64ToLeBytes v) = v := by
  have hlt : v.toUInt64.toNat < 256 ^ 8 := v.toUInt64.toNat_lt
  rw [int64OfLeBytes, int64ToLeBytes, ofLeBytes_leBytes hlt, UInt64.ofNat_toNat,
    Int64.toInt64_toUInt64]

end Agenterm.Lib
