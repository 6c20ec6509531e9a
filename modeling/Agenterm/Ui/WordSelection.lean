import Agenterm.Lib.ConstantRuns
import Agenterm.Text

/-!
# The word under a click

`word_selection_bounds` of `frontend/selection.rs`. A cell source gives the text of a cell and whether
it continues the wide character before it; `char::is_alphanumeric` is a parameter.
-/

namespace Agenterm.Selection

/-- `TerminalCellSource`. -/
structure TerminalCellSource where
  rows : Nat
  cols : Nat
  cell : Nat → Nat → Option (String × Bool)

/-- The source of a remote screen: rows of cells, and an empty text in a continuation. -/
def remoteCells (cells : List (List (Option String))) : TerminalCellSource where
  rows := cells.length
  cols := (cells.head?.map List.length).getD 0
  cell := fun row col => do
    let text ← (← (← cells[row]?)[col]?)
    some (text, text.toList.isEmpty)

inductive CellWordClass where
  | whitespace
  | word
  | punctuation (first : Char)
deriving DecidableEq

variable {col : Nat}

section
variable (isAlphanumeric : Char → Bool)

def isTerminalWordCharacter (character : Char) : Bool :=
  isAlphanumeric character || ['_', '-', '.', '/', '\\', ':', '@', '~'].contains character

def cellWordClass (source : TerminalCellSource) (row col : Nat) : CellWordClass :=
  let contents := ((source.cell row col).map Prod.fst).getD ""
  match contents.toList with
  | [] => .whitespace
  | first :: rest =>
    if (first :: rest).all isWhitespace then .whitespace
    else if (first :: rest).any (isTerminalWordCharacter isAlphanumeric) then .word
    else .punctuation first

/-- `source.cell(row, col).is_some_and(|(_, continuation)| continuation)`. -/
def isContinuation (source : TerminalCellSource) (row col : Nat) : Bool :=
  ((source.cell row col).map Prod.snd).getD false

/-- Goes left as long as there is a continuation. -/
def cellStart (source : TerminalCellSource) (row : Nat) : Nat → Nat
  | 0 => 0
  | col + 1 => if isContinuation source row (col + 1) then cellStart source row col else col + 1

def previousCellStart (source : TerminalCellSource) (row col : Nat) : Nat :=
  cellStart source row (col - 1)

def cellEnd (source : TerminalCellSource) (row col cols : Nat) : Nat :=
  if col + 1 < cols && isContinuation source row (col + 1) then col + 1 else col

/-- The end of a cell is below `cols`, so the sum does not saturate. -/
def nextCellStart (source : TerminalCellSource) (row col cols : Nat) : Option Nat :=
  let next := cellEnd source row col cols + 1
  if next < cols then some next else none

lemma cellStart_le (source : TerminalCellSource) (row col : Nat) :
    cellStart source row col ≤ col := by
  induction col with
  | zero => exact Nat.le_refl 0
  | succ col ih =>
    unfold cellStart
    split <;> omega

lemma le_cellEnd (source : TerminalCellSource) (row col cols : Nat) :
    col ≤ cellEnd source row col cols := by
  unfold cellEnd
  split <;> omega

lemma nextCellStart_bounds {source : TerminalCellSource} {row cols next : Nat}
    (h : nextCellStart source row col cols = some next) : col < next ∧ next < cols := by
  have hend := le_cellEnd source row col cols
  unfold nextCellStart at h
  simp only [Option.ite_none_right_eq_some, Option.some.injEq] at h
  omega

/-- The loop to the left. -/
def wordStart (source : TerminalCellSource) (row : Nat) (clickedClass : CellWordClass)
    (start : Nat) : Nat :=
  if start = 0 then
    start
  else
    let previous := previousCellStart source row start
    if cellWordClass isAlphanumeric source row previous ≠ clickedClass then
      start
    else
      wordStart source row clickedClass previous
termination_by start
decreasing_by
  have hle := cellStart_le source row (start - 1)
  unfold previousCellStart
  omega

/-- The loop to the right. -/
def wordEndStart (source : TerminalCellSource) (row : Nat) (clickedClass : CellWordClass)
    (cols endStart : Nat) : Nat :=
  match _hnext : nextCellStart source row endStart cols with
  | none => endStart
  | some next =>
    if cellWordClass isAlphanumeric source row next ≠ clickedClass then
      endStart
    else
      wordEndStart source row clickedClass cols next
termination_by cols - endStart
decreasing_by
  have hbounds := nextCellStart_bounds _hnext
  omega

def wordSelectionBounds (source : TerminalCellSource) (point : Nat × Nat) :
    Option ((Nat × Nat) × (Nat × Nat)) :=
  let rows := source.rows
  let cols := source.cols
  if rows = 0 || cols = 0 then
    none
  else
    let row := min point.1 (rows - 1)
    let clickedCol := cellStart source row (min point.2 (cols - 1))
    let clickedClass := cellWordClass isAlphanumeric source row clickedCol
    let start := wordStart isAlphanumeric source row clickedClass clickedCol
    let endStart := wordEndStart isAlphanumeric source row clickedClass cols clickedCol
    some ((row, start), (row, cellEnd source row endStart cols))

end

/-!
Give each column the class of the glyph that it belongs to. The loop to the left and the loop to the
right, with their different looks at continuations, both search a maximal run of this sequence from
the clicked column on (`wordStart_reaches`, `wordEnd_reaches`), so the words of a row are its maximal
runs, and there is one through each column.
-/

open Lib

/-- Every continuation on the grid follows a cell of its row that is none. -/
def WellFormed (source : TerminalCellSource) : Prop :=
  ∀ row col, row < source.rows → col < source.cols → isContinuation source row col = true →
    0 < col ∧ isContinuation source row (col - 1) = false

section
variable {isAlphanumeric : Char → Bool} {source : TerminalCellSource} {row : Nat}

/-- Where the glyph of a column starts. -/
def glyphStart (source : TerminalCellSource) (row col : Nat) : Nat :=
  if isContinuation source row col then col - 1 else col

/-- The class of the glyph that a column belongs to. -/
def columnClass (isAlphanumeric : Char → Bool) (source : TerminalCellSource) (row col : Nat) :
    CellWordClass :=
  cellWordClass isAlphanumeric source row (glyphStart source row col)

lemma glyphStart_of_start (h : isContinuation source row col = false) :
    glyphStart source row col = col := by
  unfold glyphStart
  rw [h]
  rfl

lemma columnClass_of_start {col : Nat} (h : isContinuation source row col = false) :
    columnClass isAlphanumeric source row col = cellWordClass isAlphanumeric source row col := by
  unfold columnClass
  rw [glyphStart_of_start h]

/-- A run of continuations is one cell long. -/
lemma cellStart_eq (h : WellFormed source) (hrow : row < source.rows) (hcol : col < source.cols) :
    cellStart source row col = glyphStart source row col := by
  cases col with
  | zero =>
    unfold cellStart glyphStart
    split <;> rfl
  | succ col =>
    unfold cellStart glyphStart
    split
    · next hcontinuation =>
      have hbefore := (h row (col + 1) hrow hcol hcontinuation).2
      rw [Nat.add_sub_cancel] at hbefore ⊢
      cases col with
      | zero => rfl
      | succ col =>
        unfold cellStart
        rw [hbefore]
        rfl
    · rfl

lemma glyphStart_spec (h : WellFormed source) (hrow : row < source.rows)
    (hcol : col < source.cols) :
    isContinuation source row (glyphStart source row col) = false ∧
      glyphStart source row col ≤ col ∧ ∀ j, glyphStart source row col ≤ j → j ≤ col →
        glyphStart source row j = glyphStart source row col := by
  unfold glyphStart
  by_cases hcontinuation : isContinuation source row col = true
  · obtain ⟨hpos, hbefore⟩ := h row col hrow hcol hcontinuation
    rw [if_pos hcontinuation]
    refine ⟨hbefore, by omega, ?_⟩
    intro j hlow hhigh
    rcases Nat.lt_or_ge j col with hlt | hge
    · obtain rfl : j = col - 1 := by omega
      rw [hbefore]
      rfl
    · obtain rfl : j = col := by omega
      rw [if_pos hcontinuation]
  · rw [if_neg hcontinuation]
    refine ⟨by simpa using hcontinuation, le_refl _, ?_⟩
    intro j hlow hhigh
    obtain rfl : j = col := by omega
    rw [if_neg hcontinuation]

/-- The columns of a glyph have one class. -/
lemma columnClass_glyph (h : WellFormed source) (hrow : row < source.rows) {j : Nat}
    (hcol : col < source.cols) (hlow : glyphStart source row col ≤ j) (hhigh : j ≤ col) :
    columnClass isAlphanumeric source row j = columnClass isAlphanumeric source row col := by
  unfold columnClass
  rw [(glyphStart_spec h hrow hcol).2.2 j hlow hhigh]

/-! ## The loop to the left -/

/-- The scan to the left stops at a glyph, at the start of the run of its class. -/
lemma wordStart_reaches (h : WellFormed source) (hrow : row < source.rows) {start : Nat}
    (hstart : start < source.cols) (hglyph : isContinuation source row start = false) :
    ReachesLeft (columnClass isAlphanumeric source row) start
        (wordStart isAlphanumeric source row (columnClass isAlphanumeric source row start) start) ∧
      isContinuation source row
        (wordStart isAlphanumeric source row (columnClass isAlphanumeric source row start) start) =
          false := by
  induction start using Nat.strongRecOn with
  | ind start ih =>
    rw [wordStart]
    by_cases hzero : start = 0
    · rw [if_pos hzero]
      refine ⟨⟨le_refl _, ?_, by omega⟩, hglyph⟩
      intro j hlow hhigh
      rw [Nat.le_antisymm hhigh hlow]
    · rw [if_neg hzero]
      have hbefore : start - 1 < source.cols := by omega
      have hprevious : previousCellStart source row start = glyphStart source row (start - 1) :=
        cellStart_eq h hrow hbefore
      obtain ⟨hfirst, hle, _⟩ := glyphStart_spec h hrow hbefore
      have hsame : columnClass isAlphanumeric source row (glyphStart source row (start - 1)) =
          columnClass isAlphanumeric source row (start - 1) :=
        columnClass_glyph h hrow hbefore (le_refl _) hle
      simp only [hprevious]
      rw [← columnClass_of_start hfirst]
      by_cases hclass : columnClass isAlphanumeric source row (glyphStart source row (start - 1)) =
          columnClass isAlphanumeric source row start
      · rw [if_neg (not_not.mpr hclass), ← hclass]
        obtain ⟨hreaches, hboundary⟩ := ih _ (by omega) (by omega) hfirst
        refine ⟨⟨hreaches.le.trans (by omega), ?_, ?_⟩, hboundary⟩
        · intro j hlow hhigh
          rcases Nat.lt_or_ge j (glyphStart source row (start - 1)) with hlt | hge
          · exact (hreaches.constant j hlow hlt.le).trans hclass
          · rcases Nat.lt_or_ge j start with hlt | hge'
            · rw [columnClass_glyph h hrow hbefore hge (by omega), ← hsame, hclass]
            · rw [Nat.le_antisymm hhigh hge']
        · rw [← hclass]
          exact hreaches.maximal
      · rw [if_pos hclass]
        refine ⟨⟨le_refl _, ?_, ?_⟩, hglyph⟩
        · intro j hlow hhigh
          rw [Nat.le_antisymm hhigh hlow]
        · intro _
          rw [← hsame]
          exact hclass

/-! ## The loop to the right -/

/-- From the start of a glyph to its end, and no continuation after it. -/
lemma cellEnd_spec (h : WellFormed source) (hrow : row < source.rows) (hcol : col < source.cols)
    (hglyph : isContinuation source row col = false) :
    cellEnd source row col source.cols < source.cols ∧
      (∀ j, col ≤ j → j ≤ cellEnd source row col source.cols → glyphStart source row j = col) ∧
        (cellEnd source row col source.cols + 1 < source.cols →
          isContinuation source row (cellEnd source row col source.cols + 1) = false) := by
  unfold cellEnd
  by_cases hnext : (decide (col + 1 < source.cols) && isContinuation source row (col + 1)) = true
  · rw [if_pos hnext]
    simp only [Bool.and_eq_true, decide_eq_true_eq] at hnext
    refine ⟨hnext.1, ?_, ?_⟩
    · intro j hlow hhigh
      rcases Nat.lt_or_ge col j with hlt | hge
      · obtain rfl : j = col + 1 := by omega
        unfold glyphStart
        rw [if_pos hnext.2, Nat.add_sub_cancel]
      · obtain rfl : j = col := by omega
        exact glyphStart_of_start hglyph
    · intro hlt
      by_contra hcontinuation
      have hbefore := (h row (col + 1 + 1) hrow hlt (by simpa using hcontinuation)).2
      rw [Nat.add_sub_cancel, hnext.2] at hbefore
      nomatch hbefore
  · rw [if_neg hnext]
    refine ⟨hcol, ?_, ?_⟩
    · intro j hlow hhigh
      obtain rfl : j = col := by omega
      exact glyphStart_of_start hglyph
    · intro hlt
      simpa [hlt] using hnext

/-- The scan to the right stops at a glyph, at the end of the run of its class. -/
lemma wordEnd_reaches (h : WellFormed source) (hrow : row < source.rows) {col : Nat}
    (hcol : col < source.cols) (hglyph : isContinuation source row col = false)
    {clickedClass : CellWordClass} (hclass : columnClass isAlphanumeric source row col = clickedClass) :
    isContinuation source row
        (wordEndStart isAlphanumeric source row clickedClass source.cols col) = false ∧
      wordEndStart isAlphanumeric source row clickedClass source.cols col < source.cols ∧
        ReachesRight (columnClass isAlphanumeric source row) source.cols col
          (cellEnd source row
            (wordEndStart isAlphanumeric source row clickedClass source.cols col)
            source.cols) := by
  induction hleft : source.cols - col using Nat.strongRecOn generalizing col with
  | ind left ih =>
    subst hleft
    obtain ⟨hend, hsame, hafter⟩ := cellEnd_spec h hrow hcol hglyph
    have hle := le_cellEnd source row col source.cols
    have hconstant : ∀ j, col ≤ j → j ≤ cellEnd source row col source.cols →
        columnClass isAlphanumeric source row j = columnClass isAlphanumeric source row col := by
      intro j hlow hhigh
      unfold columnClass
      rw [hsame j hlow hhigh, glyphStart_of_start hglyph]
    rw [wordEndStart]
    split
    · next hnone =>
      refine ⟨hglyph, hcol, hle, hend, hconstant, ?_⟩
      intro hlt
      unfold nextCellStart at hnone
      rw [if_pos hlt] at hnone
      nomatch hnone
    · next next hnext =>
      have hbounds := nextCellStart_bounds hnext
      have hnext' : next = cellEnd source row col source.cols + 1 := by
        unfold nextCellStart at hnext
        simp only [Option.ite_none_right_eq_some, Option.some.injEq] at hnext
        exact hnext.2.symm
      have hnextGlyph : isContinuation source row next = false := by
        rw [hnext']
        exact hafter (by omega)
      rw [← columnClass_of_start hnextGlyph]
      by_cases hstays : columnClass isAlphanumeric source row next = clickedClass
      · rw [if_neg (not_not.mpr hstays)]
        obtain ⟨hstart, hbelow, hreaches⟩ :=
          ih (source.cols - next) (by omega) hbounds.2 hnextGlyph hstays rfl
        refine ⟨hstart, hbelow, hbounds.1.le.trans hreaches.le, hreaches.below, ?_, ?_⟩
        · intro j hlow hhigh
          rcases Nat.lt_or_ge j next with hlt | hge
          · exact hconstant j hlow (by omega)
          · rw [hreaches.constant j hge hhigh, hstays, hclass]
        · intro hlt hin
          exact hreaches.maximal hlt (hin.trans (hclass.trans hstays.symm))
      · rw [if_pos hstays]
        refine ⟨hglyph, hcol, hle, hend, hconstant, ?_⟩
        intro _
        rw [← hnext', hclass]
        exact hstays

/-! ## The word -/

/-- A word of a row: a maximal run of its columns, from the start of a glyph to the end of one. -/
structure IsWord (isAlphanumeric : Char → Bool) (source : TerminalCellSource)
    (row first last : Nat) : Prop where
  run : MaximalRun (columnClass isAlphanumeric source row) source.cols first last
  startsGlyph : isContinuation source row first = false
  endsGlyph : last + 1 < source.cols → isContinuation source row (last + 1) = false

/-- The column on the grid that a click is for. -/
def clampedCol (source : TerminalCellSource) (point : Nat × Nat) : Nat :=
  min point.2 (source.cols - 1)

def clampedRow (source : TerminalCellSource) (point : Nat × Nat) : Nat :=
  min point.1 (source.rows - 1)

/-- A continuation is not after the end of its glyph. -/
lemma le_of_glyphStart_le {last : Nat} (hcol : col < source.cols)
    (hle : glyphStart source row col ≤ last)
    (hends : last + 1 < source.cols → isContinuation source row (last + 1) = false) :
    col ≤ last := by
  unfold glyphStart at hle
  split at hle
  · next hcontinuation =>
    by_contra hlt
    have hcol' : last + 1 = col := by omega
    have hno := hends (by omega)
    rw [hcol', hcontinuation] at hno
    nomatch hno
  · exact hle

lemma wordSelectionBounds_spec (h : WellFormed source) (hrows : 0 < source.rows)
    (hcols : 0 < source.cols) (point : Nat × Nat) :
    ∃ first last, wordSelectionBounds isAlphanumeric source point =
        some ((clampedRow source point, first), (clampedRow source point, last)) ∧
      first ≤ clampedCol source point ∧ clampedCol source point ≤ last ∧
        IsWord isAlphanumeric source (clampedRow source point) first last := by
  have hrow : clampedRow source point < source.rows := by
    unfold clampedRow
    omega
  have hcol : clampedCol source point < source.cols := by
    unfold clampedCol
    omega
  obtain ⟨hglyph, hle, _⟩ := glyphStart_spec h hrow hcol
  have hstart := cellStart_eq h hrow hcol
  have hclicked : glyphStart source (clampedRow source point) (clampedCol source point) <
      source.cols := by
    omega
  have hclass := @columnClass_of_start isAlphanumeric _ _ _ hglyph
  obtain ⟨hleft, hboundary⟩ := @wordStart_reaches isAlphanumeric _ _ h hrow _ hclicked hglyph
  obtain ⟨hend, hbelow, hright⟩ := @wordEnd_reaches isAlphanumeric _ _ h hrow _ hclicked hglyph _ rfl
  rw [hclass] at hleft hboundary hend hbelow hright
  refine ⟨_, _, ?_, ?_, ?_, ⟨.of_reaches hleft hright, hboundary, ?_⟩⟩
  · unfold wordSelectionBounds
    simp only
    rw [if_neg (by simp; omega)]
    unfold clampedRow clampedCol at hstart
    rw [hstart]
    rfl
  · exact hleft.le.trans hle
  · exact le_of_glyphStart_le hcol hright.le (cellEnd_spec h hrow hbelow hend).2.2
  · exact (cellEnd_spec h hrow hbelow hend).2.2

/-- What a click selects. -/
structure SelectsWord (isAlphanumeric : Char → Bool) (source : TerminalCellSource)
    (point : Nat × Nat) (row first last : Nat) : Prop where
  selected : wordSelectionBounds isAlphanumeric source point = some ((row, first), (row, last))
  row_eq : row = clampedRow source point
  inside : row < source.rows ∧ last < source.cols
  contains : first ≤ clampedCol source point ∧ clampedCol source point ≤ last
  word : IsWord isAlphanumeric source row first last

/-- Every click on a grid selects the word of its column, every click on the word selects it again,
and two words of a row are one or have no column in common. -/
theorem word_selection_partitions (isAlphanumeric : Char → Bool) (source : TerminalCellSource)
    (h : WellFormed source) :
    (∀ point, source.rows = 0 ∨ source.cols = 0 →
        wordSelectionBounds isAlphanumeric source point = none) ∧
      ∀ point, ¬ (source.rows = 0 ∨ source.cols = 0) → ∃ first last,
        SelectsWord isAlphanumeric source point (clampedRow source point) first last ∧
          ∀ other, clampedRow source other = clampedRow source point →
            (first ≤ clampedCol source other ∧ clampedCol source other ≤ last →
              wordSelectionBounds isAlphanumeric source other =
                wordSelectionBounds isAlphanumeric source point) ∧
            ∀ first' last', SelectsWord isAlphanumeric source other (clampedRow source other)
                first' last' →
              (first' = first ∧ last' = last) ∨ last < first' ∨ last' < first := by
  constructor
  · intro point hempty
    unfold wordSelectionBounds
    simp only
    rw [if_pos (by simpa using hempty)]
  · intro point hgrid
    have hrows : 0 < source.rows := by omega
    have hcols : 0 < source.cols := by omega
    obtain ⟨first, last, hselected, hfirst, hlast, hword⟩ :=
      @wordSelectionBounds_spec isAlphanumeric _ h hrows hcols point
    have hinside : clampedRow source point < source.rows ∧ last < source.cols := by
      refine ⟨?_, hword.run.below⟩
      unfold clampedRow
      omega
    refine ⟨first, last, ⟨hselected, rfl, hinside, ⟨hfirst, hlast⟩, hword⟩, ?_⟩
    intro other hrow
    constructor
    · intro hother
      obtain ⟨first', last', hselected', hfirst', hlast', hword'⟩ :=
        @wordSelectionBounds_spec isAlphanumeric _ h hrows hcols other
      rw [hrow] at hselected' hword'
      obtain ⟨hfirstEq, hlastEq⟩ := hword.run.unique hword'.run hother ⟨hfirst', hlast'⟩
      rw [hselected', hselected, hfirstEq, hlastEq]
    · intro first' last' hother
      have hword' := hother.word
      rw [hrow] at hword'
      by_cases happart : last < first' ∨ last' < first
      · exact .inr happart
      · have hordered := hword.run.ordered
        have hordered' := hword'.run.ordered
        have hmeets : first ≤ max first first' ∧ max first first' ≤ last := by omega
        have hmeets' : first' ≤ max first first' ∧ max first first' ≤ last' := by omega
        obtain ⟨hfirstEq, hlastEq⟩ := hword.run.unique hword'.run hmeets hmeets'
        exact .inl ⟨hfirstEq.symm, hlastEq.symm⟩

end

/-- A row with a wide character: `a`, a wide one with its continuation, and a dot. -/
def wideRow : TerminalCellSource := remoteCells [[some "a", some "\u5b57", some "", some "."]]

/-- `char::is_alphanumeric`, on the characters of this row. -/
def wideAlphanumeric (c : Char) : Bool := c.isAlphanum || c = '\u5b57'

theorem word_selection_partitions_wide :
    (∀ point, wideRow.rows = 0 ∨ wideRow.cols = 0 →
        wordSelectionBounds wideAlphanumeric wideRow point = none) ∧
      ∀ point, ¬ (wideRow.rows = 0 ∨ wideRow.cols = 0) → ∃ first last,
        SelectsWord wideAlphanumeric wideRow point (clampedRow wideRow point) first last ∧
          ∀ other, clampedRow wideRow other = clampedRow wideRow point →
            (first ≤ clampedCol wideRow other ∧ clampedCol wideRow other ≤ last →
              wordSelectionBounds wideAlphanumeric wideRow other =
                wordSelectionBounds wideAlphanumeric wideRow point) ∧
            ∀ first' last', SelectsWord wideAlphanumeric wideRow other (clampedRow wideRow other)
                first' last' →
              (first' = first ∧ last' = last) ∨ last < first' ∨ last' < first := by
  apply word_selection_partitions
  have hall : ∀ row < 1, ∀ col < 4, isContinuation wideRow row col = true →
      0 < col ∧ isContinuation wideRow row (col - 1) = false := by
    decide
  intro row col hrow hcol
  exact hall row hrow col hcol

end Agenterm.Selection
