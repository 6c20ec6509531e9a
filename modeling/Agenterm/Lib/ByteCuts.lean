import Mathlib
import Mathlib.Algebra.Order.Group.Nat
import Mathlib.Data.List.Basic

/-!
# Cutting a text at a byte

A text of the machine is cut at a number of bytes, and the program stops when that is inside a
character. `takeBytes` is the cut, and `CutsChar` says that it is inside one
(`takeBytes_eq_none_iff`).
-/

namespace Agenterm.Lib

open List

/-- The bytes of a text in UTF-8. -/
def byteSize (text : List Char) : Nat := (text.map Char.utf8Size).sum

/-- The first `n` bytes of a text, when a character ends there. -/
def takeBytes : Nat → List Char → Option (List Char)
  | 0, _ => some []
  | _ + 1, [] => none
  | n + 1, c :: text =>
    if c.utf8Size ≤ n + 1 then (takeBytes (n + 1 - c.utf8Size) text).map (c :: ·) else none

/-- The byte `n` of a text is inside a character. -/
def CutsChar (n : Nat) (text : List Char) : Prop :=
  ∃ front c back, text = front ++ c :: back ∧ byteSize front < n ∧
    n < byteSize front + c.utf8Size

@[simp] lemma byteSize_nil : byteSize [] = 0 := rfl

@[simp] lemma byteSize_cons (c : Char) (text : List Char) :
    byteSize (c :: text) = c.utf8Size + byteSize text := rfl

@[simp] lemma byteSize_replicate (count : Nat) (c : Char) :
    byteSize (List.replicate count c) = count * c.utf8Size := by
  unfold byteSize
  rw [map_replicate, sum_replicate_nat]

section
variable {n : Nat} {c : Char} {text : List Char}

lemma cutsChar_cons_of_le (h : c.utf8Size ≤ n) :
    CutsChar n (c :: text) ↔ CutsChar (n - c.utf8Size) text := by
  have hpos := c.utf8Size_pos
  constructor
  · intro ⟨front, d, back, htext, hfront, hback⟩
    cases front with
    | nil =>
      obtain ⟨rfl, rfl⟩ := List.cons.inj htext
      rw [byteSize_nil] at hback
      omega
    | cons e front =>
      obtain ⟨rfl, hrest⟩ := List.cons.inj htext
      rw [byteSize_cons] at hfront hback
      exact ⟨front, d, back, hrest, by omega, by omega⟩
  · intro ⟨front, d, back, htext, hfront, hback⟩
    refine ⟨c :: front, d, back, by rw [htext]; rfl, ?_, ?_⟩
    · rw [byteSize_cons]
      omega
    · rw [byteSize_cons]
      omega

lemma cutsChar_cons_of_lt (hpos : 0 < n) (h : n < c.utf8Size) : CutsChar n (c :: text) :=
  ⟨[], c, text, rfl, hpos, by simpa using h⟩

/-- A text is cut at any byte that is not inside a character. -/
lemma takeBytes_eq_none_iff (h : n ≤ byteSize text) :
    takeBytes n text = none ↔ CutsChar n text := by
  induction text generalizing n with
  | nil =>
    have hn : n = 0 := Nat.le_zero.mp h
    subst hn
    refine iff_of_false (by simp [takeBytes]) ?_
    intro ⟨front, c, back, _, hfront, _⟩
    exact Nat.not_lt_zero _ hfront
  | cons c text ih =>
    cases n with
    | zero =>
      refine iff_of_false (by simp [takeBytes]) ?_
      intro ⟨front, c, back, _, hfront, _⟩
      exact Nat.not_lt_zero _ hfront
    | succ n =>
      rw [takeBytes]
      by_cases hfits : c.utf8Size ≤ n + 1
      · rw [if_pos hfits, Option.map_eq_none_iff, cutsChar_cons_of_le hfits]
        apply ih
        rw [byteSize_cons] at h
        omega
      · rw [if_neg hfits]
        exact iff_of_true rfl (cutsChar_cons_of_lt (Nat.succ_pos n) (Nat.lt_of_not_le hfits))

lemma CutsChar.lt (h : CutsChar n text) : n < byteSize text := by
  obtain ⟨front, c, back, rfl, _, hback⟩ := h
  unfold byteSize at hback ⊢
  rw [map_append, sum_append, map_cons, sum_cons]
  omega

lemma cutsChar_map {f : Char → Char} (hf : ∀ c, (f c).utf8Size = c.utf8Size) :
    CutsChar n (text.map f) ↔ CutsChar n text := by
  induction text generalizing n with
  | nil => rfl
  | cons c text ih =>
    rw [map_cons]
    by_cases hfits : c.utf8Size ≤ n
    · rw [cutsChar_cons_of_le (by rw [hf]; exact hfits), cutsChar_cons_of_le hfits, hf]
      exact ih
    · by_cases hpos : 0 < n
      · exact iff_of_true (cutsChar_cons_of_lt hpos (by rw [hf]; omega))
          (cutsChar_cons_of_lt hpos (by omega))
      · have hnever : ∀ text, ¬ CutsChar n text := by
          intro text ⟨front, d, back, _, hfront, _⟩
          omega
        exact iff_of_false (hnever _) (hnever _)

end

end Agenterm.Lib
