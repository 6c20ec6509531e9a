import Mathlib.Algebra.Order.Ring.Nat
import Mathlib.Data.List.Basic

/-!
# Texts made of lines

A text in which every line ends with a separator (`unlines`), and where its lines start
(`located`). A position in such a text falls into one of its lines (`exists_cut`).

Any text is cut into its lines by `splitLines`, each with its separator and the last one perhaps
without. `selectLines` puts together those that start in some way.
-/

namespace Agenterm.Lib

open List

section
variable {α : Type} (sep : α)

/-- Lines, each followed by the separator. -/
def unlines (lines : List (List α)) : List α := lines.flatMap (· ++ [sep])

/-- The lines of a text that starts at a position, with the positions at which they start. -/
def located : Nat → List (List α) → List (Nat × List α)
  | _, [] => []
  | start, line :: lines => (start, line) :: located (start + line.length + 1) lines

@[simp] theorem unlines_nil : unlines sep [] = [] := rfl

theorem unlines_cons (line : List α) (lines : List (List α)) :
    unlines sep (line :: lines) = line ++ sep :: unlines sep lines := by
  unfold unlines
  rw [flatMap_cons, append_assoc, singleton_append]

theorem unlines_append (lines lines' : List (List α)) :
    unlines sep (lines ++ lines') = unlines sep lines ++ unlines sep lines' :=
  flatMap_append

theorem length_unlines_cons (line : List α) (lines : List (List α)) :
    (unlines sep (line :: lines)).length = line.length + 1 + (unlines sep lines).length := by
  rw [unlines_cons, length_append, length_cons]
  omega

theorem length_unlines_append (lines lines' : List (List α)) :
    (unlines sep (lines ++ lines')).length
      = (unlines sep lines).length + (unlines sep lines').length := by
  rw [unlines_append, length_append]

/-- A line is no longer than the text it is in. -/
theorem length_lt_of_mem {line : List α} {lines : List (List α)} (h : line ∈ lines) :
    line.length + 1 ≤ (unlines sep lines).length := by
  obtain ⟨before, after, rfl⟩ := append_of_mem h
  rw [length_unlines_append, length_unlines_cons]
  omega

@[simp] theorem length_located (start : Nat) (lines : List (List α)) :
    (located start lines).length = lines.length := by
  induction lines generalizing start with
  | nil => rfl
  | cons line lines ih => rw [located, length_cons, length_cons, ih]

theorem map_located (start : Nat) (lines : List (List α)) :
    (located start lines).map Prod.snd = lines := by
  induction lines generalizing start with
  | nil => rfl
  | cons line lines ih => rw [located, map_cons, ih]

theorem located_append (start : Nat) (lines lines' : List (List α)) :
    located start (lines ++ lines')
      = located start lines ++ located (start + (unlines sep lines).length) lines' := by
  induction lines generalizing start with
  | nil => rfl
  | cons line lines ih =>
    have hstart : start + line.length + 1 + (unlines sep lines).length
        = start + (unlines sep (line :: lines)).length := by
      rw [length_unlines_cons]
      omega
    rw [cons_append, located, located, ih, hstart, cons_append]

/-- A position in a text falls into one of its lines, and the rest of the text is the rest of that
line and the lines after it. -/
theorem exists_cut {lines : List (List α)} {start : Nat}
    (h : start < (unlines sep lines).length) :
    ∃ before line after, lines = before ++ line :: after ∧
      (unlines sep before).length ≤ start ∧
      start ≤ (unlines sep before).length + line.length ∧
      (unlines sep lines).drop start
        = line.drop (start - (unlines sep before).length) ++ sep :: unlines sep after := by
  induction lines generalizing start with
  | nil => exact absurd h (Nat.not_lt_zero _)
  | cons line lines ih =>
    rw [length_unlines_cons] at h
    by_cases hfirst : start ≤ line.length
    · refine ⟨[], line, lines, rfl, Nat.zero_le _, ?_, ?_⟩
      · rw [unlines_nil, length_nil]
        omega
      · rw [unlines_cons, unlines_nil, length_nil, Nat.sub_zero,
          drop_append_of_le_length hfirst]
    · -- the position is behind the first line
      have hrest : start - (line.length + 1) < (unlines sep lines).length := by omega
      obtain ⟨before, found, after, rfl, hbefore, hfound, hdrop⟩ := ih hrest
      refine ⟨line :: before, found, after, rfl, ?_, ?_, ?_⟩
      · rw [length_unlines_cons]
        omega
      · rw [length_unlines_cons]
        omega
      · have hskip : (unlines sep (line :: (before ++ found :: after))).drop start
            = (unlines sep (before ++ found :: after)).drop (start - (line.length + 1)) := by
          have hlength : (line ++ [sep]).length = line.length + 1 := by simp
          rw [unlines_cons, append_cons, drop_append, hlength,
            drop_of_length_le (by omega), nil_append]
        have hsub : start - (line.length + 1) - (unlines sep before).length
            = start - (unlines sep (line :: before)).length := by
          rw [length_unlines_cons]
          omega
        rw [hskip, hdrop, hsub]

end

/-! ## The lines of a text -/

section
variable {α : Type} [DecidableEq α] (sep : α)

/-- The first line, with its separator. -/
def firstLine : List α → List α
  | [] => []
  | a :: l => if a = sep then [a] else a :: firstLine l

/-- What follows the first line. -/
def afterLine : List α → List α
  | [] => []
  | a :: l => if a = sep then l else afterLine l

/-- The lines with their separators. -/
def splitLines : List α → List (List α)
  | [] => []
  | a :: l =>
    if a = sep then [a] :: splitLines l
    else
      match splitLines l with
      | [] => [[a]]
      | line :: lines => (a :: line) :: lines

/-- The lines that start with `front`, put together. -/
def selectLines (front l : List α) : List α :=
  ((splitLines sep l).filter fun line => front.isPrefixOf line).flatten

/-- The lines without their separators. -/
def segments (l : List α) : List (List α) :=
  (splitLines sep l).map fun line => line.takeWhile (· != sep)

variable {sep} {l t : List α}

lemma firstLine_append_afterLine (l : List α) : firstLine sep l ++ afterLine sep l = l := by
  induction l with
  | nil => rfl
  | cons a l ih =>
    unfold firstLine afterLine
    split
    · rfl
    · rw [cons_append, ih]

lemma splitLines_eq (h : l ≠ []) :
    splitLines sep l = firstLine sep l :: splitLines sep (afterLine sep l) := by
  induction l with
  | nil => exact absurd rfl h
  | cons a l ih =>
    rw [splitLines, firstLine, afterLine]
    split
    · rfl
    · cases l with
      | nil => rfl
      | cons b l => rw [ih (cons_ne_nil _ _)]

lemma firstLine_append_of_not_mem (h : sep ∉ l) : firstLine sep (l ++ t) = l ++ firstLine sep t := by
  induction l with
  | nil => rfl
  | cons a l ih =>
    obtain ⟨ha, hl⟩ := not_or.mp (mt mem_cons.mpr h)
    rw [cons_append, firstLine, if_neg (Ne.symm ha), ih hl, cons_append]

lemma afterLine_append_of_not_mem (h : sep ∉ l) : afterLine sep (l ++ t) = afterLine sep t := by
  induction l with
  | nil => rfl
  | cons a l ih =>
    obtain ⟨ha, hl⟩ := not_or.mp (mt mem_cons.mpr h)
    rw [cons_append, afterLine, if_neg (Ne.symm ha), ih hl]

lemma firstLine_eq_self (h : sep ∉ l) : firstLine sep l = l := by
  have happend := firstLine_append_of_not_mem (t := []) h
  rwa [append_nil, firstLine, append_nil] at happend

lemma afterLine_eq_nil (h : sep ∉ l) : afterLine sep l = [] := by
  have happend := afterLine_append_of_not_mem (t := []) h
  rwa [append_nil, afterLine] at happend

lemma takeWhile_firstLine (l : List α) :
    (firstLine sep l).takeWhile (· != sep) = l.takeWhile (· != sep) := by
  induction l with
  | nil => rfl
  | cons a l ih =>
    rw [firstLine]
    by_cases ha : a = sep
    · simp [ha]
    · simp [ha, ih]

@[simp] lemma segments_nil : segments sep [] = [] := rfl

lemma segments_eq (h : l ≠ []) :
    segments sep l = l.takeWhile (· != sep) :: segments sep (afterLine sep l) := by
  rw [segments, splitLines_eq h, map_cons, takeWhile_firstLine]
  rfl

/-- A line that has ended is not changed by what comes later. -/
lemma lines_of_findIdx? {i : Nat} (h : l.findIdx? (· == sep) = some i) (t : List α) :
    firstLine sep (l ++ t) = l.take (i + 1) ∧ afterLine sep (l ++ t) = l.drop (i + 1) ++ t := by
  induction l generalizing i with
  | nil => cases h
  | cons a l ih =>
    rw [List.findIdx?_cons] at h
    rw [cons_append, firstLine, afterLine]
    by_cases ha : a = sep
    · rw [if_pos (beq_iff_eq.mpr ha)] at h
      cases h
      rw [if_pos ha, if_pos ha]
      exact ⟨rfl, rfl⟩
    · rw [if_neg (by rwa [beq_iff_eq])] at h
      obtain ⟨j, hj, rfl⟩ := Option.map_eq_some_iff.mp h
      obtain ⟨hfirst, hafter⟩ := ih hj
      rw [if_neg ha, if_neg ha, hfirst, hafter]
      exact ⟨rfl, rfl⟩

lemma takeWhile_of_findIdx? {i : Nat} (h : l.findIdx? (· == sep) = some i) (t : List α) :
    (l ++ t).takeWhile (· != sep) = l.take i := by
  induction l generalizing i with
  | nil => cases h
  | cons a l ih =>
    rw [List.findIdx?_cons] at h
    rw [cons_append, takeWhile_cons]
    by_cases ha : a = sep
    · rw [if_pos (beq_iff_eq.mpr ha)] at h
      cases h
      rw [if_neg (by simpa using ha)]
      rfl
    · rw [if_neg (by rwa [beq_iff_eq])] at h
      obtain ⟨j, hj, rfl⟩ := Option.map_eq_some_iff.mp h
      rw [if_pos (by simpa using ha), ih hj]
      rfl

lemma not_mem_of_findIdx? (h : l.findIdx? (· == sep) = none) : sep ∉ l := by
  rw [List.findIdx?_eq_none_iff] at h
  intro hmem
  exact Bool.false_ne_true ((h sep hmem).symm.trans (beq_self_eq_true sep))

@[simp] lemma selectLines_nil (front : List α) : selectLines sep front [] = [] := rfl

lemma selectLines_eq (front : List α) (h : l ≠ []) :
    selectLines sep front l =
      (if front.isPrefixOf (firstLine sep l) then firstLine sep l else []) ++
        selectLines sep front (afterLine sep l) := by
  rw [selectLines, splitLines_eq h, filter_cons]
  split
  · rfl
  · rfl

end

end Agenterm.Lib
