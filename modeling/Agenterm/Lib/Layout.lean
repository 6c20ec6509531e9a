import Mathlib.Algebra.Order.Ring.Nat
import Mathlib.Data.List.Basic

/-!
# Records of varying length in one stream

Chunks written one after the other. `offsetsFrom` is where each of them starts; reading the stream
from an offset finds the chunk and what follows it (`drop_offset`), and when no chunk is empty the
offsets are strictly increasing (`offsetsFrom_pairwise`), so that an offset says which chunk it is
(`findIdx?_increasing`).
-/

namespace Agenterm.Lib

open List

/-- The positions at which chunks of these sizes start, the first at `cursor`. -/
def offsetsFrom (cursor : Nat) : List Nat → List Nat
  | [] => []
  | size :: sizes => cursor :: offsetsFrom (cursor + size) sizes

@[simp] lemma length_offsetsFrom (cursor : Nat) (sizes : List Nat) :
    (offsetsFrom cursor sizes).length = sizes.length := by
  induction sizes generalizing cursor with
  | nil => rfl
  | cons size sizes ih => rw [offsetsFrom, length_cons, ih, length_cons]

variable {cursor i offset : Nat} {sizes : List Nat}

lemma offsetsFrom_ge (h : offset ∈ offsetsFrom cursor sizes) : cursor ≤ offset := by
  induction sizes generalizing cursor with
  | nil => exact absurd h not_mem_nil
  | cons size sizes ih =>
    rw [offsetsFrom, mem_cons] at h
    rcases h with rfl | h
    · exact Nat.le_refl _
    · have hle := ih h
      omega

/-- Chunks that are not empty start at increasing positions. -/
lemma offsetsFrom_pairwise (cursor : Nat) (hpos : ∀ size ∈ sizes, 0 < size) :
    (offsetsFrom cursor sizes).Pairwise (· < ·) := by
  induction sizes generalizing cursor with
  | nil => exact List.Pairwise.nil
  | cons size sizes ih =>
    rw [offsetsFrom, pairwise_cons]
    refine ⟨fun offset hoffset => ?_, ih _ fun s hs => hpos s (mem_cons_of_mem _ hs)⟩
    have hle := offsetsFrom_ge hoffset
    have hsize := hpos size mem_cons_self
    omega

lemma offsetsFrom_le {bound : Nat} (hbound : ∀ size ∈ sizes, size ≤ bound)
    (h : offset ∈ offsetsFrom cursor sizes) : offset ≤ cursor + bound * sizes.length := by
  induction sizes generalizing cursor with
  | nil => exact absurd h not_mem_nil
  | cons size sizes ih =>
    rw [offsetsFrom, mem_cons] at h
    rw [length_cons, Nat.mul_succ]
    rcases h with rfl | h
    · omega
    · have hrest := ih (fun s hs => hbound s (mem_cons_of_mem _ hs)) h
      have hsize := hbound size mem_cons_self
      omega

/-- In an increasing list a value is found at the place it has. -/
lemma findIdx?_increasing {l : List Nat} (hl : l.Pairwise (· < ·)) {x : Nat} (hi : l[i]? = some x) :
    (l.findIdx? fun y => y = x) = some i := by
  induction l generalizing i with
  | nil => exact absurd hi (by simp)
  | cons y l ih =>
    rw [pairwise_cons] at hl
    cases i with
    | zero =>
      rw [List.getElem?_cons_zero, Option.some.injEq] at hi
      rw [List.findIdx?_cons, if_pos (by simpa using hi)]
    | succ i =>
      rw [List.getElem?_cons_succ] at hi
      have hlt := hl.1 x (mem_of_getElem? hi)
      have hne : ¬ decide (y = x) = true := by
        rw [decide_eq_true_eq]
        omega
      rw [List.findIdx?_cons, if_neg hne, ih hl.2 hi]
      rfl

section
variable {α : Type}

/-- From the offset of a chunk on, the stream is that chunk and the ones behind it. -/
theorem drop_offset (before : List α) {chunks : List (List α)} {chunk : List α}
    (hchunk : chunks[i]? = some chunk) :
    ∃ offset rest, (offsetsFrom before.length (chunks.map List.length))[i]? = some offset ∧
      (before ++ chunks.flatten).drop offset = chunk ++ rest ∧
      offset + chunk.length ≤ (before ++ chunks.flatten).length := by
  induction chunks generalizing before i with
  | nil => exact absurd hchunk (by simp)
  | cons first chunks ih =>
    cases i with
    | zero =>
      rw [List.getElem?_cons_zero, Option.some.injEq] at hchunk
      subst hchunk
      refine ⟨before.length, chunks.flatten, rfl, ?_, ?_⟩
      · rw [drop_left, flatten_cons]
      · rw [length_append, flatten_cons, length_append]
        omega
    | succ i =>
      rw [List.getElem?_cons_succ] at hchunk
      obtain ⟨offset, rest, hoffset, hdrop, hle⟩ := ih (before ++ first) hchunk
      rw [length_append] at hoffset
      rw [append_assoc, ← flatten_cons] at hdrop hle
      refine ⟨offset, rest, ?_, hdrop, hle⟩
      rw [map_cons, offsetsFrom, List.getElem?_cons_succ]
      exact hoffset

end

end Agenterm.Lib
