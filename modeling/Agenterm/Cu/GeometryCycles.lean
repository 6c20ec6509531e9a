import Agenterm.Cu.GeometryResize
import Agenterm.Lib.Rotation

/-!
# Placement in rounds

A half or corner action recognises the stage that a window is in by its middle, within one. The
three stages of an action on a frame of at least 60 have middles further apart, or lengths that do
not fit into each other (`lengths`), so that no stage is taken for another and the action goes round
them (`cycle_rotates`). The six thirds are recognised in the same way (`walkThirds_third`).
-/

namespace Agenterm.Cu.Place

open Lib List

/-! ## Lengths -/

lemma floor_le (q : ℚ) : floor q ≤ q := Int.floor_le q

lemma lt_floor_add_one (q : ℚ) : q < floor q + 1 := Int.lt_floor_add_one q

/-- What is needed of the lengths of the three stages on an axis. -/
structure Lengths (length half two one : ℚ) : Prop where
  one_nonneg : 0 ≤ one
  one_lt_half : one + 3 ≤ half
  half_lt_two : half + 3 ≤ two
  two_half : 2 * half ≤ length
  two_le : two ≤ length

variable {action : PlaceAction} {i : Nat} {length length' low low' : ℚ} {stage : Stage}
  {step : Rect → Rect}

lemma lengths (h : 60 ≤ length) :
    Lengths length (floor (length / 2)) (floor (length * 2 / 3)) (floor (length / 3)) := by
  have hhalf := floor_le (length / 2)
  have hhalf' := lt_floor_add_one (length / 2)
  have htwo := floor_le (length * 2 / 3)
  have htwo' := lt_floor_add_one (length * 2 / 3)
  have hone := floor_le (length / 3)
  have hone' := lt_floor_add_one (length / 3)
  exact ⟨by linarith, by linarith, by linarith, by linarith, by linarith⟩

/-- The upper half ends at the upper edge. -/
lemma half_add_remTwo (h : 0 ≤ length) :
    floor (length / 2) + remTwo length = length - floor (length / 2) := by
  rw [remTwo, if_pos h, floor]
  ring

/-! ## Spans -/

/-- One axis of `centered_within`. -/
def SpanWithin (low length low' length' : ℚ) : Prop :=
  low' ≤ low ∧ low + length ≤ low' + length' ∧
    |low + length / 2 - (low' + length' / 2)| ≤ 1

variable {half one two : ℚ} {j : Nat} {rect third : Rect}

lemma centeredWithin_iff {outer : Rect} :
    rect.centeredWithin outer = true ↔
      SpanWithin rect.x rect.width outer.x outer.width ∧
        SpanWithin rect.y rect.height outer.y outer.height := by
  rw [Rect.centeredWithin, Bool.and_eq_true, Bool.and_eq_true, contains_iff, decide_eq_true_eq,
    decide_eq_true_eq]
  unfold SpanWithin Rect.maxX Rect.maxY Rect.midX Rect.midY
  tauto

lemma spanWithin_self (low length : ℚ) : SpanWithin low length low length :=
  ⟨le_refl _, le_refl _, by rw [sub_self, abs_zero]; exact zero_le_one⟩

lemma centeredWithin_self (rect : Rect) : rect.centeredWithin rect = true :=
  centeredWithin_iff.mpr ⟨spanWithin_self _ _, spanWithin_self _ _⟩

lemma not_spanWithin_of_longer (h : length' < length) : ¬ SpanWithin low length low' length' := by
  rintro ⟨hlow, hhigh, -⟩
  linarith

lemma not_spanWithin_of_above (h : low' + length' / 2 + 1 < low + length / 2) :
    ¬ SpanWithin low length low' length' := by
  rintro ⟨-, -, hmiddle⟩
  have hle := (abs_le.mp hmiddle).2
  linarith

lemma not_spanWithin_of_below (h : low + length / 2 + 1 < low' + length' / 2) :
    ¬ SpanWithin low length low' length' := by
  rintro ⟨-, -, hmiddle⟩
  have hle := (abs_le.mp hmiddle).1
  linarith

/-- Three spans of which none is taken for an earlier one. -/
structure Apart (half two one : ℚ × ℚ) : Prop where
  two_half : ¬ SpanWithin two.1 two.2 half.1 half.2
  one_half : ¬ SpanWithin one.1 one.2 half.1 half.2
  one_two : ¬ SpanWithin one.1 one.2 two.1 two.2

/-- Spans from the low end. -/
lemma apart_low (low : ℚ) (h : Lengths length half two one) :
    Apart (low, half) (low, two) (low, one) := by
  have hone := h.one_lt_half
  have htwo := h.half_lt_two
  exact ⟨not_spanWithin_of_longer (by linarith), not_spanWithin_of_below (by linarith),
    not_spanWithin_of_below (by linarith)⟩

/-- Spans from the high end, where the half may stop short of it. -/
lemma apart_high (high start : ℚ) (h : Lengths length half two one) (hstart : start + half ≤ high) :
    Apart (start, half) (high - two, two) (high - one, one) := by
  have hone := h.one_lt_half
  have htwo := h.half_lt_two
  refine ⟨not_spanWithin_of_longer (by linarith), not_spanWithin_of_above ?_,
    not_spanWithin_of_above ?_⟩
  · show start + half / 2 + 1 < high - one + one / 2
    linarith
  · show high - two + two / 2 + 1 < high - one + one / 2
    linarith

/-! ## Rounds -/

/-- The shape of the half and corner actions: a check on the other axis, then the stages. -/
def cycleStages (centred : Prop) [Decidable centred] (half two one window : Rect) : Rect :=
  if centred then
    if window.centeredWithin half then two
    else if window.centeredWithin two then one
    else half
  else half

/-- No stage is taken for another. -/
structure Told (half two one : Rect) : Prop where
  two_half : two.centeredWithin half = false
  one_half : one.centeredWithin half = false
  one_two : one.centeredWithin two = false

lemma rotates_of_told {centred : Rect → Prop} [DecidablePred centred] {half two one : Rect}
    (hstep : ∀ window, step window = cycleStages (centred window) half two one window)
    (hhalf : centred half) (htwo : centred two) (h : Told half two one) :
    Rotates step half two one := by
  refine ⟨?_, ?_, ?_, fun window => ?_⟩
  · rw [hstep, cycleStages, if_pos hhalf, if_pos (centeredWithin_self half)]
  · rw [hstep, cycleStages, if_pos htwo, h.two_half, if_neg Bool.false_ne_true,
      if_pos (centeredWithin_self two)]
  · rw [hstep, cycleStages, h.one_half, h.one_two, if_neg Bool.false_ne_true,
      if_neg Bool.false_ne_true, ite_self]
  · rw [hstep, cycleStages]
    split
    · split
      · exact .inr (.inl rfl)
      · split
        · exact .inr (.inr rfl)
        · exact .inl rfl
    · exact .inl rfl

/-! ## The stages of the actions -/

inductive Stage where
  | half
  | two
  | one
deriving DecidableEq

/-- How much of an axis a stage takes. -/
def Stage.part (length : ℚ) : Stage → ℚ
  | .half => floor (length / 2)
  | .two => floor (length * 2 / 3)
  | .one => floor (length / 3)

/-- A stage from the left edge. -/
def leftStage (visible : Rect) (y height : ℚ) (stage : Stage) : Rect :=
  ⟨visible.x, y, stage.part visible.width, height⟩

/-- A stage from the right edge. The half starts in the middle, and of an odd width it leaves the
last column free. -/
def rightStage (visible : Rect) (y height : ℚ) (stage : Stage) : Rect :=
  { x := if stage = .half then visible.x + stage.part visible.width
      else visible.x + visible.width - stage.part visible.width
    y := y
    width := stage.part visible.width
    height := height }

/-- A stage from the upper edge. -/
def topStage (visible : Rect) (stage : Stage) : Rect :=
  ⟨visible.x, visible.maxY - stage.part visible.height, visible.width, stage.part visible.height⟩

/-- A stage from the lower edge. -/
def bottomStage (visible : Rect) (stage : Stage) : Rect :=
  ⟨visible.x, visible.y, visible.width, stage.part visible.height⟩

/-- What an action makes of the frame at a stage. The corners keep to half of the height. -/
def stageRect (visible : Rect) (stage : Stage) : PlaceAction → Option Rect
  | .leftHalf => some (leftStage visible visible.y visible.height stage)
  | .rightHalf => some (rightStage visible visible.y visible.height stage)
  | .topHalf => some (topStage visible stage)
  | .bottomHalf => some (bottomStage visible stage)
  | .upperLeft =>
    some (leftStage visible (visible.maxY - Stage.half.part visible.height)
      (Stage.half.part visible.height) stage)
  | .lowerLeft => some (leftStage visible visible.y (Stage.half.part visible.height) stage)
  | .upperRight =>
    some (rightStage visible (visible.maxY - Stage.half.part visible.height)
      (Stage.half.part visible.height) stage)
  | .lowerRight => some (rightStage visible visible.y (Stage.half.part visible.height) stage)
  | _ => none

section
variable {visible : Rect} {y height : ℚ}

lemma told_left (hwidth : 60 ≤ visible.width) :
    Told (leftStage visible y height .half) (leftStage visible y height .two)
      (leftStage visible y height .one) := by
  have h := apart_low visible.x (lengths hwidth)
  refine ⟨?_, ?_, ?_⟩ <;> rw [← Bool.not_eq_true, centeredWithin_iff]
  · exact fun hin => h.two_half hin.1
  · exact fun hin => h.one_half hin.1
  · exact fun hin => h.one_two hin.1

lemma told_right (hwidth : 60 ≤ visible.width) :
    Told (rightStage visible y height .half) (rightStage visible y height .two)
      (rightStage visible y height .one) := by
  have hlengths := lengths hwidth
  have hfits := hlengths.two_half
  have h := apart_high (visible.x + visible.width) (visible.x + floor (visible.width / 2)) hlengths (by linarith)
  refine ⟨?_, ?_, ?_⟩ <;> rw [← Bool.not_eq_true, centeredWithin_iff]
  · exact fun hin => h.two_half hin.1
  · exact fun hin => h.one_half hin.1
  · exact fun hin => h.one_two hin.1

lemma told_top (hheight : 60 ≤ visible.height) :
    Told (topStage visible .half) (topStage visible .two) (topStage visible .one) := by
  have hlengths := lengths hheight
  have h := apart_high visible.maxY (visible.maxY - floor (visible.height / 2)) hlengths (by linarith)
  refine ⟨?_, ?_, ?_⟩ <;> rw [← Bool.not_eq_true, centeredWithin_iff]
  · exact fun hin => h.two_half hin.2
  · exact fun hin => h.one_half hin.2
  · exact fun hin => h.one_two hin.2

lemma told_bottom (hheight : 60 ≤ visible.height) :
    Told (bottomStage visible .half) (bottomStage visible .two) (bottomStage visible .one) := by
  have h := apart_low visible.y (lengths hheight)
  refine ⟨?_, ?_, ?_⟩ <;> rw [← Bool.not_eq_true, centeredWithin_iff]
  · exact fun hin => h.two_half hin.2
  · exact fun hin => h.one_half hin.2
  · exact fun hin => h.one_two hin.2

/-- The middles on the other axis are the same at every stage. -/
lemma abs_sub_self_le (q : ℚ) : |q - q| ≤ 1 := by
  rw [sub_self, abs_zero]
  exact zero_le_one

lemma rotates_left (hwidth : 60 ≤ visible.width)
    (hstep : ∀ window, step window =
      cycleStages (|window.midY - (leftStage visible y height .half).midY| ≤ 1)
        (leftStage visible y height .half) (leftStage visible y height .two)
        (leftStage visible y height .one) window) :
    Rotates step (leftStage visible y height .half) (leftStage visible y height .two)
      (leftStage visible y height .one) :=
  rotates_of_told hstep (abs_sub_self_le _) (abs_sub_self_le _) (told_left hwidth)

lemma rotates_right (hwidth : 60 ≤ visible.width)
    (hstep : ∀ window, step window =
      cycleStages (|window.midY - (rightStage visible y height .half).midY| ≤ 1)
        (rightStage visible y height .half) (rightStage visible y height .two)
        (rightStage visible y height .one) window) :
    Rotates step (rightStage visible y height .half) (rightStage visible y height .two)
      (rightStage visible y height .one) :=
  rotates_of_told hstep (abs_sub_self_le _) (abs_sub_self_le _) (told_right hwidth)

lemma rotates_top (hheight : 60 ≤ visible.height)
    (hstep : ∀ window, step window =
      cycleStages (|window.midX - (topStage visible .half).midX| ≤ 1) (topStage visible .half)
        (topStage visible .two) (topStage visible .one) window) :
    Rotates step (topStage visible .half) (topStage visible .two) (topStage visible .one) :=
  rotates_of_told hstep (abs_sub_self_le _) (abs_sub_self_le _) (told_top hheight)

lemma rotates_bottom (hheight : 60 ≤ visible.height)
    (hstep : ∀ window, step window =
      cycleStages (|window.midX - (bottomStage visible .half).midX| ≤ 1) (bottomStage visible .half)
        (bottomStage visible .two) (bottomStage visible .one) window) :
    Rotates step (bottomStage visible .half) (bottomStage visible .two)
      (bottomStage visible .one) :=
  rotates_of_told hstep (abs_sub_self_le _) (abs_sub_self_le _) (told_bottom hheight)

/-- The upper half, as the code places it, ends at the upper edge. -/
lemma upper_start (hheight : 60 ≤ visible.height) :
    visible.y + floor (visible.height / 2) + remTwo visible.height
      = visible.maxY - Stage.half.part visible.height := by
  have hsum := half_add_remTwo (show 0 ≤ visible.height by linarith)
  unfold Rect.maxY Stage.part
  linarith

/-- Each of the eight actions goes round its stages. -/
theorem cycle_rotates (hwidth : 60 ≤ visible.width) (hheight : 60 ≤ visible.height)
    {half two one : Rect} (hhalf : stageRect visible .half action = some half)
    (htwo : stageRect visible .two action = some two)
    (hone : stageRect visible .one action = some one) :
    Rotates (calculate action · visible) half two one := by
  have hupper := upper_start hheight
  cases action <;> (first | (cases hhalf; cases htwo; cases hone) | contradiction)
  case leftHalf => exact rotates_left hwidth fun _ => rfl
  case rightHalf => exact rotates_right hwidth fun _ => rfl
  case topHalf =>
    refine rotates_top hheight fun window => ?_
    show cycleTop window visible = _
    rw [cycleTop, ← add_assoc, hupper]
    rfl
  case bottomHalf => exact rotates_bottom hheight fun _ => rfl
  case upperLeft =>
    refine rotates_left hwidth fun window => ?_
    show cycleUpperLeft window visible = _
    rw [cycleUpperLeft, hupper]
    rfl
  case lowerLeft => exact rotates_left hwidth fun _ => rfl
  case upperRight =>
    refine rotates_right hwidth fun window => ?_
    show cycleUpperRight window visible = _
    rw [cycleUpperRight, hupper]
    rfl
  case lowerRight => exact rotates_right hwidth fun _ => rfl

lemma Stage.part_mem (h : 60 ≤ length) (stage : Stage) :
    0 ≤ stage.part length ∧ stage.part length ≤ length := by
  obtain ⟨hnonneg, hone, htwo, -, hle⟩ := lengths h
  cases stage
  all_goals
    unfold Stage.part
    constructor <;> linarith

lemma contains_leftStage (hwidth : 60 ≤ visible.width) (hlow : visible.y ≤ y)
    (hhigh : y + height ≤ visible.maxY) :
    visible.contains (leftStage visible y height stage) = true := by
  have hpart := (stage.part_mem hwidth).2
  refine contains_iff.mpr ⟨⟨le_refl _, ?_⟩, hlow, hhigh⟩
  show visible.x + stage.part visible.width ≤ visible.x + visible.width
  linarith

lemma contains_rightStage (hwidth : 60 ≤ visible.width) (hlow : visible.y ≤ y)
    (hhigh : y + height ≤ visible.maxY) :
    visible.contains (rightStage visible y height stage) = true := by
  have hpart := stage.part_mem hwidth
  have hmiddle : 2 * Stage.half.part visible.width ≤ visible.width := (lengths hwidth).two_half
  refine contains_iff.mpr ⟨?_, hlow, hhigh⟩
  show visible.x ≤ (if stage = .half then visible.x + stage.part visible.width
      else visible.x + visible.width - stage.part visible.width) ∧
    (if stage = .half then visible.x + stage.part visible.width
      else visible.x + visible.width - stage.part visible.width) + stage.part visible.width
      ≤ visible.x + visible.width
  split
  next hhalf =>
    subst hhalf
    constructor <;> linarith
  next => constructor <;> linarith

/-- Every stage is inside the frame. -/
lemma contains_stageRect (hwidth : 60 ≤ visible.width) (hheight : 60 ≤ visible.height)
    (h : stageRect visible stage action = some rect) : visible.contains rect = true := by
  have hpart := stage.part_mem hheight
  have hhalf := Stage.half.part_mem hheight
  have htop : visible.maxY = visible.y + visible.height := rfl
  cases action <;> cases h
  case leftHalf => exact contains_leftStage hwidth (le_refl _) (le_refl _)
  case rightHalf => exact contains_rightStage hwidth (le_refl _) (le_refl _)
  case topHalf =>
    refine contains_iff.mpr ⟨⟨le_refl _, le_refl _⟩, ?_, ?_⟩
    · show visible.y ≤ visible.maxY - stage.part visible.height
      linarith
    · show visible.maxY - stage.part visible.height + stage.part visible.height ≤ visible.maxY
      linarith
  case bottomHalf =>
    refine contains_iff.mpr ⟨⟨le_refl _, le_refl _⟩, le_refl _, ?_⟩
    show visible.y + stage.part visible.height ≤ visible.maxY
    linarith
  case upperLeft => exact contains_leftStage hwidth (by linarith) (by linarith)
  case lowerLeft => exact contains_leftStage hwidth (le_refl _) (by linarith)
  case upperRight => exact contains_rightStage hwidth (by linarith) (by linarith)
  case lowerRight => exact contains_rightStage hwidth (le_refl _) (by linarith)

/-! ## Thirds -/

/-- A column or a row of the thirds. -/
def thirdAt (visible : Rect) (i : Nat) : Rect :=
  if i < 3 then
    ⟨visible.x + floor (visible.width / 3) * i, visible.y, floor (visible.width / 3),
      visible.height⟩
  else
    ⟨visible.x, visible.y + visible.height - floor (visible.height / 3) * (i - 2), visible.width,
      floor (visible.height / 3)⟩

lemma thirds_eq : thirds visible = (List.range 6).map (thirdAt visible) := by
  have hrange : List.range 6 = [0, 1, 2, 3, 4, 5] := rfl
  rw [hrange]
  norm_num [thirds, thirdAt]

/-- Two multiples of a unit above 1 that are within 1 of each other are the same. -/
lemma eq_of_multiples {unit : ℚ} (hunit : 1 < unit) (h : |unit * i - unit * j| ≤ 1) : i = j := by
  obtain ⟨hlow, hhigh⟩ := abs_le.mp h
  rcases Nat.lt_trichotomy i j with hlt | heq | hgt
  · have hstep : (i : ℚ) + 1 ≤ j := by exact_mod_cast hlt
    have hle : unit * (i + 1) ≤ unit * j := mul_le_mul_of_nonneg_left hstep (by linarith)
    linarith
  · exact heq
  · have hstep : (j : ℚ) + 1 ≤ i := by exact_mod_cast hgt
    have hle : unit * (j + 1) ≤ unit * i := mul_le_mul_of_nonneg_left hstep (by linarith)
    linarith

/-- A third is taken for no other third. -/
lemma thirdAt_centeredWithin (hwidth : 60 ≤ visible.width) (hheight : 60 ≤ visible.height) :
    (thirdAt visible i).centeredWithin (thirdAt visible j) = true ↔ i = j := by
  refine ⟨fun hin => ?_, fun heq => heq ▸ centeredWithin_self _⟩
  obtain ⟨hx, hy⟩ := centeredWithin_iff.mp hin
  have hw := lt_floor_add_one (visible.width / 3)
  have hw' := floor_le (visible.width / 3)
  have hh := lt_floor_add_one (visible.height / 3)
  have hh' := floor_le (visible.height / 3)
  unfold thirdAt at hx hy
  split at hx
  · rename_i hi
    split at hx
    · rename_i hj
      -- two columns
      rw [if_pos hi, if_pos hj] at hy
      refine eq_of_multiples (show 1 < floor (visible.width / 3) by linarith) ?_
      have hmid := hx.2.2
      rw [abs_le] at hmid ⊢
      constructor <;> linarith
    · rename_i hj
      -- a column is higher than a row
      rw [if_pos hi, if_neg hj] at hy
      exact absurd hy (not_spanWithin_of_longer (by linarith))
  · rename_i hi
    split at hx
    · -- a row is wider than a column
      exact absurd hx (not_spanWithin_of_longer (by linarith))
    · rename_i hj
      rw [if_neg hi, if_neg hj] at hy
      refine eq_of_multiples (show 1 < floor (visible.height / 3) by linarith) ?_
      have hmid := hy.2.2
      rw [abs_le] at hmid ⊢
      constructor <;> linarith

lemma findIdx?_thirds (hwidth : 60 ≤ visible.width) (hheight : 60 ≤ visible.height) (hi : i < 6) :
    (thirds visible).findIdx? (fun third => (thirdAt visible i).centeredWithin third) = some i := by
  have hlength : i < ((List.range 6).map (thirdAt visible)).length := by
    rwa [length_map, length_range]
  rw [thirds_eq, List.findIdx?_eq_some_iff_getElem]
  refine ⟨hlength, ?_, fun j hj => ?_⟩
  · rw [getElem_map, getElem_range]
    exact centeredWithin_self _
  · rw [getElem_map, getElem_range, thirdAt_centeredWithin hwidth hheight]
    omega

/-- A walk from a third goes to the third that stands `offset` behind it. -/
lemma walkThirds_thirdAt (hwidth : 60 ≤ visible.width) (hheight : 60 ≤ visible.height)
    (hi : i < 6) (offset : Nat) :
    walkThirds offset (thirdAt visible i) visible = thirdAt visible ((i + offset) % 6) := by
  have hlength : (thirds visible).length = 6 := rfl
  have hmod : (i + offset) % 6 < 6 := Nat.mod_lt _ (by omega)
  unfold walkThirds
  dsimp only
  rw [findIdx?_thirds hwidth hheight hi, Option.elim_some, hlength, thirds_eq, List.getElem?_map,
    List.getElem?_range hmod]
  rfl

lemma walkThirds_iterate (hwidth : 60 ≤ visible.width) (hheight : 60 ≤ visible.height)
    (hi : i < 6) (offset k : Nat) :
    (walkThirds offset · visible)^[k] (thirdAt visible i)
      = thirdAt visible ((i + offset * k) % 6) := by
  induction k with
  | zero => rw [Nat.mul_zero, Nat.add_zero, Nat.mod_eq_of_lt hi]; rfl
  | succ k ih =>
    have hmod : (i + offset * k) % 6 < 6 := Nat.mod_lt _ (by omega)
    rw [Function.iterate_succ_apply', ih, walkThirds_thirdAt hwidth hheight hmod, Nat.mod_add_mod,
      Nat.add_assoc, ← Nat.mul_succ]

lemma mem_thirds : third ∈ thirds visible ↔ ∃ i, i < 6 ∧ third = thirdAt visible i := by
  rw [thirds_eq, mem_map]
  simp only [mem_range, eq_comm]

/-- The walks from a third: inverse to each other, and the one forwards of period six. -/
theorem thirds_walk (hwidth : 60 ≤ visible.width) (hheight : 60 ≤ visible.height)
    (h : third ∈ thirds visible) :
    findNextThird third visible ∈ thirds visible ∧
      findPreviousThird third visible ∈ thirds visible ∧
      findPreviousThird (findNextThird third visible) visible = third ∧
      findNextThird (findPreviousThird third visible) visible = third ∧
      ∀ k, (findNextThird · visible)^[k] third = third ↔ 6 ∣ k := by
  obtain ⟨i, hi, rfl⟩ := mem_thirds.mp h
  have hnext := walkThirds_thirdAt hwidth hheight hi 1
  have hprevious := walkThirds_thirdAt hwidth hheight hi 5
  have hmod (offset : Nat) : (i + offset) % 6 < 6 := Nat.mod_lt _ (by omega)
  unfold findNextThird findPreviousThird
  rw [hnext, hprevious, walkThirds_thirdAt hwidth hheight (hmod 1),
    walkThirds_thirdAt hwidth hheight (hmod 5)]
  refine ⟨mem_thirds.mpr ⟨_, hmod 1, rfl⟩, mem_thirds.mpr ⟨_, hmod 5, rfl⟩, ?_, ?_, fun k => ?_⟩
  · congr 1
    omega
  · congr 1
    omega
  · rw [walkThirds_iterate hwidth hheight hi, Nat.one_mul]
    constructor
    · intro heq
      have hsame : (i + k) % 6 = i := (thirdAt_centeredWithin hwidth hheight).mp <| by
        rw [heq]
        exact centeredWithin_self _
      omega
    · intro hdvd
      congr 1
      omega

/-! ## Placement on one screen -/

/-- A placement on one screen, with the window left alone where there is none. -/
def applied (action : PlaceAction) (screen : Screen) (window : Rect) : Rect :=
  (place action window [screen]).getD window

lemma screenContaining_one (window : Rect) (screen : Screen) :
    screenContaining window [screen] = some screen := by
  unfold screenContaining bestScreen
  split
  · rfl
  · split <;> rfl

/-- On one screen, an action that neither walks the displays nor the history is computed from the
frame of the screen. -/
lemma applied_eq (hhistory : action.isHistory = false) (hwalk : action.isDisplayWalk = false)
    (screen : Screen) : applied action screen = (calculate action · screen.visible) := by
  funext window
  rw [applied, place, hhistory, hwalk, screensInConsistentOrder, mergeSort_singleton,
    if_neg Bool.false_ne_true, isEmpty_cons, if_neg Bool.false_ne_true]
  dsimp only
  rw [screenContaining_one]
  rfl

/-- On a screen with a visible frame of at least 60 by 60, each of the eight half and corner
actions is at its half after at most three placements, from any window. From then on the half, the
two thirds and the one third follow each other, and every placement is inside the frame. The thirds
are walked in a round of six, forwards and backwards. -/
theorem placement_cycles (screen : Screen) (hwidth : 60 ≤ screen.visible.width)
    (hheight : 60 ≤ screen.visible.height) :
    (∀ action half two one, stageRect screen.visible .half action = some half →
      stageRect screen.visible .two action = some two →
      stageRect screen.visible .one action = some one →
      ∀ window, (∃ n, 1 ≤ n ∧ n ≤ 3 ∧ ∀ k, (applied action screen)^[n + 3 * k] window = half ∧
          (applied action screen)^[n + 3 * k + 1] window = two ∧
          (applied action screen)^[n + 3 * k + 2] window = one) ∧
        ∀ n, 1 ≤ n → screen.visible.contains ((applied action screen)^[n] window) = true) ∧
      ∀ third ∈ thirds screen.visible,
        applied .nextThird screen third ∈ thirds screen.visible ∧
        applied .previousThird screen third ∈ thirds screen.visible ∧
        applied .previousThird screen (applied .nextThird screen third) = third ∧
        applied .nextThird screen (applied .previousThird screen third) = third ∧
        ∀ k, (applied .nextThird screen)^[k] third = third ↔ 6 ∣ k := by
  refine ⟨fun action half two one hhalf htwo hone window => ?_, fun third hthird => ?_⟩
  · have hrotates := cycle_rotates hwidth hheight hhalf htwo hone
    rw [applied_eq (by cases action <;> first | rfl | cases hhalf)
      (by cases action <;> first | rfl | cases hhalf)]
    refine ⟨hrotates.follows window, fun n hn => ?_⟩
    rcases hrotates.stays window hn with hstage | hstage | hstage
    · rw [hstage]
      exact contains_stageRect hwidth hheight hhalf
    · rw [hstage]
      exact contains_stageRect hwidth hheight htwo
    · rw [hstage]
      exact contains_stageRect hwidth hheight hone
  · rw [applied_eq rfl rfl, applied_eq rfl rfl]
    exact thirds_walk hwidth hheight hthird

/-- A frame of 101 by 61, where a half leaves a column free. -/
def oddScreen : Screen := ⟨⟨3, 5, 101, 61⟩, ⟨0, 0, 104, 66⟩⟩

theorem placement_cycles_odd :
    stageRect oddScreen.visible .half .rightHalf = some ⟨53, 5, 50, 61⟩ ∧
      (applied .rightHalf oddScreen)^[1] ⟨0, 0, 10, 10⟩ = ⟨53, 5, 50, 61⟩ ∧
      ∀ n, 1 ≤ n →
        oddScreen.visible.contains ((applied .rightHalf oddScreen)^[n] ⟨0, 0, 10, 10⟩) = true := by
  refine ⟨by decide +kernel, by decide +kernel, ?_⟩
  exact ((placement_cycles oddScreen (by decide) (by decide)).1 .rightHalf _ _ _ rfl rfl rfl
    ⟨0, 0, 10, 10⟩).2

end

end Agenterm.Cu.Place
