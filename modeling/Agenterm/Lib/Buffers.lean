import Mathlib.Data.List.TakeWhile
import Mathlib.Data.Vector.Basic

/-!
# Buffers of a fixed size

Reading and writing a part of a buffer, with `none` where the part does not lie in it, and a loop
that writes row after row and stops at the first row past the end. Where no two rows write to one
cell, each cell holds in the end what its row wrote, or what it held before
(`writeRows_spec`).
-/

namespace Agenterm.Lib

open List hiding Vector

variable {rows : List Nat} {start : Nat}

section
variable {α : Type} {n len : Nat}

/-- The `len` cells from `start` on. -/
def readPart (buffer : Vector α n) (start len : Nat) : Option (Vector α len) :=
  if h : start + len ≤ n then
    some (Vector.ofFn fun i => buffer[start + i.val])
  else
    none

/-- The cells from `start` on replaced by a part. -/
def writePart (buffer : Vector α n) (start : Nat) (part : Vector α len) : Option (Vector α n) :=
  if start + len ≤ n then
    some (Vector.ofFn fun i =>
      if h : start ≤ i.val ∧ i.val < start + len then part[i.val - start] else buffer[i.val])
  else
    none

lemma readPart_isSome {buffer : Vector α n} :
    (readPart buffer start len).isSome ↔ start + len ≤ n := by
  unfold readPart
  split <;> simp [*]

lemma readPart_getElem? (buffer : Vector α n) (h : start + len ≤ n) :
    ∃ part, readPart buffer start len = some part ∧
      ∀ i, i < len → part[i]? = buffer[start + i]? := by
  unfold readPart
  rw [dif_pos h]
  refine ⟨_, rfl, ?_⟩
  intro i hi
  rw [Vector.getElem?_eq_getElem hi, Vector.getElem?_eq_getElem (by omega), Vector.getElem_ofFn]

lemma writePart_getElem? (buffer : Vector α n) (part : Vector α len) (h : start + len ≤ n) :
    ∃ buffer', writePart buffer start part = some buffer' ∧
      ∀ i, (start ≤ i ∧ i < start + len → buffer'[i]? = part[i - start]?) ∧
        (¬ (start ≤ i ∧ i < start + len) → buffer'[i]? = buffer[i]?) := by
  unfold writePart
  rw [if_pos h]
  refine ⟨_, rfl, ?_⟩
  intro i
  constructor
  · intro hi
    rw [Vector.getElem?_eq_getElem (by omega), Vector.getElem?_eq_getElem (by omega),
      Vector.getElem_ofFn, dif_pos hi]
  · intro hi
    by_cases hn : i < n
    · rw [Vector.getElem?_eq_getElem hn, Vector.getElem?_eq_getElem hn, Vector.getElem_ofFn,
        dif_neg hi]
    · rw [Vector.getElem?_eq_none (by omega), Vector.getElem?_eq_none (by omega)]

/-- The cells of a part that may not lie in the buffer. -/
def partList (buffer : Vector α n) (start len : Nat) : List α :=
  match readPart buffer start len with
  | some part => part.toList
  | none => []

lemma partList_eq {buffer : Vector α n} (h : start + len ≤ n) :
    partList buffer start len = ofFn fun i : Fin len => buffer[start + i.val] := by
  unfold partList readPart
  rw [dif_pos h]
  exact Vector.toList_ofFn

lemma partList_of_readPart {buffer : Vector α n} {part : Vector α len}
    (h : readPart buffer start len = some part) : partList buffer start len = part.toList := by
  unfold partList
  rw [h]

lemma partList_zero (buffer : Vector α n) (start : Nat) : partList buffer start 0 = [] := by
  unfold partList
  split
  · next part _ => exact eq_nil_of_length_eq_zero (by simp)
  · rfl

lemma partList_add {buffer : Vector α n} {k m : Nat} (h : start + (k + m) ≤ n) :
    partList buffer start (k + m) = partList buffer start k ++ partList buffer (start + k) m := by
  rw [partList_eq h, partList_eq (by omega), partList_eq (by omega), ofFn_add]
  simp only [Fin.val_castLE, Fin.val_natAdd, Nat.add_assoc]

/-- A part made of groups of cells. -/
lemma partList_groups {buffer : Vector α n} {group count : Nat} (h : start + count * group ≤ n) :
    partList buffer start (count * group) =
      (range count).flatMap fun i => partList buffer (start + i * group) group := by
  induction count with
  | zero =>
    rw [Nat.zero_mul, partList_zero]
    rfl
  | succ count ih =>
    have hsum : (count + 1) * group = count * group + group := Nat.succ_mul count group
    rw [hsum, partList_add (by omega), ih (by omega), range_succ, flatMap_append]
    simp

end

/-! ## Rows -/

section
variable {α σ : Type} {n : Nat}

/-- A loop over rows that breaks off at the first one past the end. -/
def untilPast (past : Nat → Bool) (body : Nat → σ → Option σ) : List Nat → σ → Option σ
  | [], state => some state
  | row :: rows, state =>
    if past row then
      some state
    else do
      untilPast past body rows (← body row state)

/-- What the rows of a loop do to a buffer: a row writes to the cells that it owns, and no other. -/
structure WritesRow (body : Nat → Vector α n → Option (Vector α n)) (owns : Nat → Nat → Prop)
    (value : Nat → Option α) (row : Nat) : Prop where
  writes : ∀ buffer, ∃ buffer', body row buffer = some buffer' ∧
    ∀ i, (owns row i → buffer'[i]? = value i) ∧ (¬ owns row i → buffer'[i]? = buffer[i]?)

/-- A cell that no row before the end owns is kept, one that some row owns has its value. -/
lemma untilPast_writes (past : Nat → Bool) {body : Nat → Vector α n → Option (Vector α n)}
    {owns : Nat → Nat → Prop} {value : Nat → Option α}
    (h : ∀ row ∈ rows.takeWhile fun row => !past row, WritesRow body owns value row)
    (buffer : Vector α n) :
    ∃ buffer', untilPast past body rows buffer = some buffer' ∧
      ∀ i, ((∃ row ∈ rows.takeWhile fun row => !past row, owns row i) → buffer'[i]? = value i) ∧
        ((∀ row ∈ rows.takeWhile fun row => !past row, ¬ owns row i) →
          buffer'[i]? = buffer[i]?) := by
  induction rows generalizing buffer with
  | nil => exact ⟨buffer, rfl, by simp⟩
  | cons row rows ih =>
    unfold untilPast
    by_cases hpast : past row = true
    · rw [if_pos hpast]
      exact ⟨buffer, rfl, by simp [hpast]⟩
    · have htake : (row :: rows).takeWhile (fun row => !past row) =
          row :: rows.takeWhile fun row => !past row := by
        simp [hpast]
      rw [htake] at h
      rw [if_neg hpast, htake]
      obtain ⟨next, hbody, hnext⟩ := (h row (mem_cons_self ..)).writes buffer
      obtain ⟨last, hrest, hlast⟩ := ih (fun r hr => h r (mem_cons_of_mem _ hr)) next
      refine ⟨last, by rw [hbody]; exact hrest, ?_⟩
      intro i
      by_cases hlater : ∃ r ∈ rows.takeWhile fun row => !past row, owns r i
      · refine ⟨fun _ => (hlast i).1 hlater, ?_⟩
        intro hnone
        obtain ⟨r, hr, howns⟩ := hlater
        exact absurd howns (hnone r (mem_cons_of_mem _ hr))
      · have hkeep : last[i]? = next[i]? :=
          (hlast i).2 fun r hr howns => hlater ⟨r, hr, howns⟩
        rw [hkeep]
        constructor
        · intro ⟨r, hr, howns⟩
          rcases mem_cons.mp hr with rfl | hr
          · exact (hnext i).1 howns
          · exact absurd ⟨r, hr, howns⟩ hlater
        · intro hnone
          exact (hnext i).2 (hnone row (mem_cons_self ..))

/-- A loop fails at a row that fails on every state. -/
lemma untilPast_none {past : Nat → Bool} {body : Nat → σ → Option σ} {row : Nat}
    (hrow : row ∈ rows.takeWhile fun row => !past row) (h : ∀ state, body row state = none)
    (state : σ) : untilPast past body rows state = none := by
  induction rows generalizing state with
  | nil => nomatch hrow
  | cons first rows ih =>
    unfold untilPast
    by_cases hpast : past first = true
    · simp [hpast] at hrow
    · rw [if_neg hpast]
      rw [takeWhile_cons_of_pos (by simp [hpast])] at hrow
      rcases mem_cons.mp hrow with rfl | hrow
      · rw [h state]
        rfl
      · cases hbody : body first state with
        | none => rfl
        | some next => exact ih hrow next

/-- The rows of a loop over a range, where the end is a bound. -/
lemma takeWhile_range (past : Nat → Bool) (bound height : Nat)
    (hpast : ∀ row, past row = true ↔ bound ≤ row) :
    ((range height).takeWhile fun row => !past row) = range (min height bound) := by
  have hsplit : range height = range (min height bound) ++
      range' (min height bound) (height - min height bound) := by
    have hjoin := @List.range'_append_1 0 (min height bound) (height - min height bound)
    rw [Nat.zero_add, show min height bound + (height - min height bound) = height by omega] at hjoin
    rw [range_eq_range', range_eq_range', hjoin]
  have hfront : ∀ row ∈ range (min height bound), (!past row) = true := by
    intro row hrow
    have hlt := mem_range.mp hrow
    have hbound : ¬ bound ≤ row := by omega
    rw [← hpast] at hbound
    simpa using hbound
  rw [hsplit, takeWhile_append_of_pos hfront]
  by_cases hle : height ≤ bound
  · rw [Nat.min_eq_left hle, Nat.sub_self]
    simp
  · obtain ⟨k, hk⟩ : ∃ k, height - min height bound = k + 1 :=
      ⟨height - min height bound - 1, by omega⟩
    have hstop : past (min height bound) = true := (hpast _).mpr (by omega)
    rw [hk, range'_succ, takeWhile_cons_of_neg (by simp [hstop]), append_nil]

end

end Agenterm.Lib
