import Mathlib.Data.List.Basic

/-!
# Timelines

What an undo stack is for: a present with the states before it, nearest first, and the undone states
after it, nearest first. A new state forgets the undone ones, and of the earlier ones those that a
limit leaves no room for.
-/

namespace Agenterm.Lib

open List

structure Timeline (α : Type) where
  past : List α
  present : α
  future : List α
deriving DecidableEq

namespace Timeline

section
variable {α : Type}

/-- All the states in the order of time. The present is at the place `past.length`. -/
def toList (t : Timeline α) : List α := t.past.reverse ++ t.present :: t.future

def single (a : α) : Timeline α := ⟨[], a, []⟩

def record (limit : Nat) (t : Timeline α) (a : α) : Timeline α :=
  ⟨(t.present :: t.past).take (limit - 1), a, []⟩

def undo (t : Timeline α) : Option (Timeline α) :=
  match t.past with
  | [] => none
  | a :: past => some ⟨past, a, t.present :: t.future⟩

def redo (t : Timeline α) : Option (Timeline α) :=
  match t.future with
  | [] => none
  | a :: future => some ⟨t.present :: t.past, a, future⟩

variable {t t' : Timeline α} {limit : Nat} {a : α}

@[simp] lemma length_toList (t : Timeline α) :
    t.toList.length = t.past.length + t.future.length + 1 := by
  simp only [toList, length_append, length_reverse, length_cons]
  omega

lemma toList_past_length (t : Timeline α) : t.toList[t.past.length]? = some t.present := by
  rw [toList, List.getElem?_append_right (by simp), length_reverse, Nat.sub_self]
  rfl

/-- A list with a place in it is the list of a timeline. -/
lemma exists_toList {l : List α} {i : Nat} (h : i < l.length) :
    ∃ t : Timeline α, t.toList = l ∧ t.past.length = i := by
  refine ⟨⟨(l.take i).reverse, l[i], l.drop (i + 1)⟩, ?_, ?_⟩
  · rw [toList, reverse_reverse, getElem_cons_drop, take_append_drop]
  · rw [length_reverse, length_take]
    omega

/-! ## Undo and redo -/

/-- An undo moves the cursor back over the same states. -/
lemma undo_eq_some (h : t.undo = some t') :
    t'.toList = t.toList ∧ t.past.length = t'.past.length + 1 := by
  obtain ⟨past, present, future⟩ := t
  cases past with
  | nil => cases h
  | cons a past =>
    cases h
    refine ⟨?_, rfl⟩
    simp only [toList, reverse_cons, append_assoc, cons_append, nil_append]

lemma redo_eq_some (h : t.redo = some t') :
    t'.toList = t.toList ∧ t'.past.length = t.past.length + 1 := by
  obtain ⟨past, present, future⟩ := t
  cases future with
  | nil => cases h
  | cons a future =>
    cases h
    refine ⟨?_, rfl⟩
    simp only [toList, reverse_cons, append_assoc, cons_append, nil_append]

lemma redo_of_undo (h : t.undo = some t') : t'.redo = some t := by
  obtain ⟨past, present, future⟩ := t
  cases past with
  | nil => cases h
  | cons a past =>
    cases h
    rfl

/-! ## Recording -/

/-- An undo after a record shows what was present before it. -/
theorem undo_record (t : Timeline α) (h : 2 ≤ limit) (a : α) :
    ∃ t', (t.record limit a).undo = some t' ∧ t'.present = t.present := by
  obtain ⟨n, rfl⟩ := Nat.exists_eq_add_of_le' h
  exact ⟨_, rfl, rfl⟩

lemma length_record_le (h : 1 ≤ limit) : (t.record limit a).toList.length ≤ limit := by
  rw [length_toList, record, length_take]
  show min (limit - 1) _ + 0 + 1 ≤ limit
  omega

/-- The states after a record: those up to the present and the new one, less what the limit leaves
no room for. -/
lemma toList_record (h : 1 ≤ limit) :
    (t.record limit a).toList =
      (t.past.reverse ++ [t.present, a]).drop (t.past.length + 2 - limit) := by
  have hlast : t.past.reverse ++ [t.present, a] = (a :: t.present :: t.past).reverse := by
    simp only [reverse_cons, append_assoc, cons_append, nil_append]
  obtain ⟨n, rfl⟩ := Nat.exists_eq_add_of_le' h
  rw [hlast, drop_reverse, toList]
  show ((t.present :: t.past).take n).reverse ++ [a] = _
  rw [← reverse_cons, ← take_succ_cons]
  congr 1
  rw [take_eq_take_iff]
  simp only [length_cons]
  omega

end

end Timeline

end Agenterm.Lib
