import Agenterm.Cu.Geometry
import Mathlib.Tactic.Linarith
import Mathlib.Tactic.NormNum

/-!
# Making a window larger

`resizeWindowRect` grows a window by 30 and keeps the edges that touch the frame. It bounds the size
by the frame and not the place: a window whose gaps are too small to take the growth is pushed over
an edge (`contains_larger_iff`). The result fits into the frame, so that `clamp` brings it back
(`contains_clamp`).
-/

namespace Agenterm.Cu.Place

/-! ## Edges -/

lemma contains_iff {outer inner : Rect} :
    outer.contains inner = true ↔ (outer.x ≤ inner.x ∧ inner.maxX ≤ outer.maxX) ∧
      (outer.y ≤ inner.y ∧ inner.maxY ≤ outer.maxY) := by
  simp only [Rect.contains, Bool.and_eq_true, decide_eq_true_eq]
  tauto

/-- A contained window is against an edge when its gap is at most 5. -/
lemma againstEdge_iff {gap : ℚ} (h : 0 ≤ gap) : againstEdge gap = true ↔ gap ≤ 5 := by
  rw [againstEdge, decide_eq_true_eq, abs_of_nonneg h]

lemma againstEdge_neg_iff {gap : ℚ} (h : gap ≤ 0) : againstEdge gap = true ↔ -gap ≤ 5 := by
  rw [againstEdge, decide_eq_true_eq, abs_of_nonpos h]

lemma floor_half_offset : floor (30 / 2) = 15 := by
  norm_num [floor]

/-! ## Widths -/

/-- The window can take the growth of its width where it is. -/
def TakesWidth (window visible : Rect) : Prop :=
  againstLeft window visible = true ∨
    (againstRight window visible = true ∧ window.width + 30 ≤ visible.width) ∨
    (againstRight window visible = false ∧ (window.x - visible.x = 15 ∨
      15 ≤ window.x - visible.x ∧ 15 ≤ visible.maxX - window.maxX))

section
variable {window visible : Rect}

lemma resizeWidth_eq (h : visible.x ≤ window.x ∧ window.maxX ≤ visible.maxX) :
    resizeWidth window visible 30 = { window with
      width := min (window.width + 30) visible.width
      x := if againstLeft window visible = true then visible.x
        else if againstRight window visible = true then visible.maxX - (window.width + 30)
        else window.x - 15 } := by
  have hmin : ∀ {x : ℚ}, (if visible.width ≤ window.width + 30 then
      ({ window with x, width := visible.width } : Rect)
      else { window with x, width := window.width + 30 }) =
        { window with x, width := min (window.width + 30) visible.width } := by
    intro x
    split
    · rename_i hle
      rw [min_eq_right hle]
    · rename_i hle
      rw [min_eq_left (le_of_not_ge hle)]
  unfold resizeWidth adjustLeftRight
  rw [floor_half_offset]
  cases hleft : againstLeft window visible <;> cases hright : againstRight window visible
  · simp only [Bool.false_eq_true, if_false]
    exact hmin
  · simp only [Bool.false_eq_true, if_false, if_true]
    exact hmin
  · simp only [Bool.false_eq_true, if_false, if_true]
    exact hmin
  · -- a window against both edges takes the whole width
    have hl := (againstEdge_iff (sub_nonneg.mpr h.1)).mp hleft
    have hr := (againstEdge_neg_iff (sub_nonpos.mpr h.2)).mp hright
    unfold Rect.maxX at hr
    rw [min_eq_right (by linarith)]
    simp only [if_true, le_refl]

lemma takesWidth_iff (h : visible.x ≤ window.x ∧ window.maxX ≤ visible.maxX) :
    (visible.x ≤ (resizeWidth window visible 30).x ∧
        (resizeWidth window visible 30).maxX ≤ visible.maxX) ↔ TakesWidth window visible := by
  rw [resizeWidth_eq h]
  unfold TakesWidth
  have hwidth := min_le_right (window.width + 30) visible.width
  obtain ⟨hleft, hright⟩ := h
  unfold Rect.maxX at *
  dsimp only
  by_cases hagainst : againstLeft window visible = true
  · rw [if_pos hagainst]
    exact ⟨fun _ => .inl hagainst, fun _ => ⟨le_refl _, by linarith⟩⟩
  rw [if_neg hagainst]
  by_cases hagainst' : againstRight window visible = true
  · rw [if_pos hagainst']
    constructor
    · rintro ⟨hx, -⟩
      exact .inr (.inl ⟨hagainst', by linarith⟩)
    · rintro (hl | ⟨-, hroom⟩ | ⟨hr, -⟩)
      · exact absurd hl hagainst
      · rw [min_eq_left hroom]
        exact ⟨by linarith, by linarith⟩
      · exact absurd hagainst' (by rw [hr]; exact Bool.false_ne_true)
  · rw [if_neg hagainst']
    rw [Bool.not_eq_true] at hagainst'
    constructor
    · rintro ⟨hx, hmax⟩
      refine .inr (.inr ⟨hagainst', ?_⟩)
      rcases le_total (window.width + 30) visible.width with hroom | hroom
      · rw [min_eq_left hroom] at hmax
        exact .inr ⟨by linarith, by linarith⟩
      · rw [min_eq_right hroom] at hmax
        exact .inl (by linarith)
    · rintro (hl | ⟨hr, -⟩ | ⟨-, hgap | ⟨hlow, hhigh⟩⟩)
      · exact absurd hl hagainst
      · exact absurd hr (by rw [hagainst']; exact Bool.false_ne_true)
      · exact ⟨by linarith, by linarith⟩
      · have hroom := min_le_left (window.width + 30) visible.width
        exact ⟨by linarith, by linarith⟩

end

/-! ## Heights -/

/-- The window can take the growth of its height where it is. -/
def TakesHeight (window visible : Rect) : Prop :=
  if visible.height ≤ window.height + 30 then window.y = visible.y
  else againstBottom window visible = true ∨ againstTop window visible = true ∨
    (15 ≤ window.y - visible.y ∧ 15 ≤ visible.maxY - window.maxY)

section
variable {window visible resized : Rect}

lemma resizeHeight_eq (h : visible.y ≤ window.y ∧ window.maxY ≤ visible.maxY)
    (hy : resized.y = window.y) (hheight : resized.height = window.height) :
    resizeHeight window resized visible 30 = { resized with
      height := min (window.height + 30) visible.height
      y := if visible.height ≤ window.height + 30 then window.y
        else if againstBottom window visible = true then visible.y
        else if againstTop window visible = true then visible.maxY - (window.height + 30)
        else window.y - 15 } := by
  unfold resizeHeight adjustTopBottom
  rw [floor_half_offset, hy, hheight]
  have hmin : ∀ {y : ℚ}, (if visible.height ≤ window.height + 30 then
      ({ resized with y := window.y, height := visible.height } : Rect)
      else { resized with y, height := window.height + 30 }) =
        { resized with
          y := if visible.height ≤ window.height + 30 then window.y else y
          height := min (window.height + 30) visible.height } := by
    intro y
    split
    · rename_i hle
      rw [min_eq_right hle]
    · rename_i hle
      rw [min_eq_left (le_of_not_ge hle)]
  cases hbottom : againstBottom window visible <;> cases htop : againstTop window visible
  · simp only [Bool.false_eq_true, if_false]
    exact hmin
  · simp only [Bool.false_eq_true, if_false, if_true]
    exact hmin
  · simp only [Bool.false_eq_true, if_false, if_true]
    exact hmin
  · -- a window against both edges takes the whole height
    have hb := (againstEdge_iff (sub_nonneg.mpr h.1)).mp hbottom
    have ht := (againstEdge_neg_iff (sub_nonpos.mpr h.2)).mp htop
    unfold Rect.maxY at ht
    have hroom : visible.height ≤ window.height + 30 := by linarith
    rw [min_eq_right hroom, if_pos hroom]
    simp only [if_true, le_refl]

lemma takesHeight_iff (h : visible.y ≤ window.y ∧ window.maxY ≤ visible.maxY)
    (hy : resized.y = window.y) (hheight : resized.height = window.height) :
    (visible.y ≤ (resizeHeight window resized visible 30).y ∧
        (resizeHeight window resized visible 30).maxY ≤ visible.maxY) ↔
      TakesHeight window visible := by
  rw [resizeHeight_eq h hy hheight]
  unfold TakesHeight
  obtain ⟨hbottom, htop⟩ := h
  unfold Rect.maxY at *
  dsimp only
  by_cases hfull : visible.height ≤ window.height + 30
  · rw [if_pos hfull, if_pos hfull, min_eq_right hfull]
    constructor
    · rintro ⟨hlow, hhigh⟩
      linarith
    · intro hsame
      exact ⟨by linarith, by linarith⟩
  rw [if_neg hfull, if_neg hfull, min_eq_left (le_of_not_ge hfull)]
  have hroom := lt_of_not_ge hfull
  by_cases hagainst : againstBottom window visible = true
  · rw [if_pos hagainst]
    exact ⟨fun _ => .inl hagainst, fun _ => ⟨le_refl _, by linarith⟩⟩
  rw [if_neg hagainst]
  by_cases hagainst' : againstTop window visible = true
  · rw [if_pos hagainst']
    exact ⟨fun _ => .inr (.inl hagainst'), fun _ => ⟨by linarith, by linarith⟩⟩
  · rw [if_neg hagainst']
    constructor
    · rintro ⟨hlow, hhigh⟩
      exact .inr (.inr ⟨by linarith, by linarith⟩)
    · rintro (hb | ht | ⟨hlow, hhigh⟩)
      · exact absurd hb hagainst
      · exact absurd ht hagainst'
      · exact ⟨by linarith, by linarith⟩

end

/-! ## Larger -/

/-- The grown window is still too small for its screen, and stays as it was. -/
def RemainsSmall (window visible : Rect) : Prop :=
  min (window.width + 30) visible.width ≤ floor (visible.width / 4) ∨
    min (window.height + 30) visible.height ≤ floor (visible.height / 4)

section
variable {window visible : Rect}

lemma resize_larger_eq :
    resizeWindowRect window visible 30 =
      if tooSmall (resizeHeight window (resizeWidth window visible 30) visible 30) visible = true
        then window
      else resizeHeight window (resizeWidth window visible 30) visible 30 := by
  unfold resizeWindowRect
  have hgrows : ¬ (againstAll window visible = true ∧ (30 : ℚ) < 0) := fun h => by
    norm_num at h
  simp only [if_neg hgrows]

/-- What `resizeWindowRect` makes of a contained window. -/
lemma grown_eq (h : visible.contains window = true) :
    let grown := resizeHeight window (resizeWidth window visible 30) visible 30
    grown.width = min (window.width + 30) visible.width ∧
      grown.height = min (window.height + 30) visible.height ∧
      (visible.contains grown = true ↔ TakesWidth window visible ∧ TakesHeight window visible) := by
  obtain ⟨hx, hy⟩ := contains_iff.mp h
  have hwidth := resizeWidth_eq hx
  have hsameY : (resizeWidth window visible 30).y = window.y := by rw [hwidth]
  have hsameHeight : (resizeWidth window visible 30).height = window.height := by rw [hwidth]
  have hheight := resizeHeight_eq hy hsameY hsameHeight
  have hgrownX : (resizeHeight window (resizeWidth window visible 30) visible 30).x =
      (resizeWidth window visible 30).x := by rw [hheight]
  have hgrownWidth : (resizeHeight window (resizeWidth window visible 30) visible 30).width =
      (resizeWidth window visible 30).width := by rw [hheight]
  refine ⟨?_, ?_, ?_⟩
  · rw [hgrownWidth, hwidth]
  · rw [hheight]
  · rw [contains_iff, ← takesWidth_iff hx, ← takesHeight_iff hy hsameY hsameHeight, Rect.maxX,
      hgrownX, hgrownWidth]
    exact Iff.rfl

lemma tooSmall_grown (h : visible.contains window = true) :
    tooSmall (resizeHeight window (resizeWidth window visible 30) visible 30) visible = true ↔
      RemainsSmall window visible := by
  obtain ⟨hwidth, hheight, -⟩ := grown_eq h
  rw [tooSmall, Bool.or_eq_true, decide_eq_true_eq, decide_eq_true_eq, hwidth, hheight]
  exact Iff.rfl

/-- A rectangle that fits into the frame is clamped into it. -/
lemma contains_clamp {rect : Rect} (hwidth : rect.width ≤ visible.width)
    (hheight : rect.height ≤ visible.height) :
    visible.contains (clamp rect visible) = true := by
  have haxis : ∀ {low size position length : ℚ}, length ≤ size →
      low ≤ (if position < low then low
          else if low + size < position + length then low + size - length else position) ∧
        (if position < low then low
          else if low + size < position + length then low + size - length else position) + length
            ≤ low + size := by
    intro low size position length hfits
    split
    · exact ⟨le_refl _, by linarith⟩
    · split
      · exact ⟨by linarith, by linarith⟩
      · exact ⟨by linarith, by linarith⟩
  exact contains_iff.mpr ⟨haxis hwidth, haxis hheight⟩

theorem contains_larger_iff {window : Rect} {screens : List Screen} {screen : Screen}
    (hscreen : screenContaining window (screensInConsistentOrder screens) = some screen)
    (h : screen.visible.contains window = true) :
    ∃ rect, place .larger window screens = some rect ∧
      (window.width ≤ rect.width ∧ window.height ≤ rect.height) ∧
      (rect.width ≤ screen.visible.width ∧ rect.height ≤ screen.visible.height) ∧
      screen.visible.contains (clamp rect screen.visible) = true ∧
      (screen.visible.contains rect = true ↔
        RemainsSmall window screen.visible ∨
          TakesWidth window screen.visible ∧ TakesHeight window screen.visible) := by
  obtain ⟨hx, hy⟩ := contains_iff.mp h
  unfold Rect.maxX at hx
  unfold Rect.maxY at hy
  have hfits : window.width ≤ screen.visible.width ∧ window.height ≤ screen.visible.height :=
    ⟨by linarith, by linarith⟩
  have hplace : place .larger window screens =
      some (resizeWindowRect window screen.visible 30) := by
    have hsome : screens.isEmpty = false := by
      cases screens with
      | nil =>
        rw [screensInConsistentOrder, List.mergeSort_nil] at hscreen
        cases hscreen
      | cons head tail => rfl
    simp only [place, PlaceAction.isHistory, PlaceAction.isDisplayWalk, Bool.false_eq_true, if_false,
      hsome, hscreen, Option.bind_some, Option.map_some, calculate]
  obtain ⟨hwidth, hheight, htakes⟩ := grown_eq h
  have hsmall := tooSmall_grown h
  refine ⟨_, hplace, ?_⟩
  rw [resize_larger_eq]
  by_cases hremains : RemainsSmall window screen.visible
  · rw [if_pos (hsmall.mpr hremains)]
    exact ⟨⟨le_refl _, le_refl _⟩, hfits, contains_clamp hfits.1 hfits.2,
      fun _ => .inl hremains, fun _ => h⟩
  · rw [if_neg (mt hsmall.mp hremains)]
    refine ⟨⟨?_, ?_⟩, ⟨?_, ?_⟩, contains_clamp ?_ ?_, ?_⟩
    · rw [hwidth]
      exact le_min (by linarith) hfits.1
    · rw [hheight]
      exact le_min (by linarith) hfits.2
    · exact hwidth.trans_le (min_le_right _ _)
    · exact hheight.trans_le (min_le_right _ _)
    · exact hwidth.trans_le (min_le_right _ _)
    · exact hheight.trans_le (min_le_right _ _)
    · rw [htakes]
      exact ⟨.inr, fun hor => hor.resolve_left hremains⟩

/-- A desk of 1000 by 1000. -/
def square : Screen := ⟨⟨0, 0, 1000, 1000⟩, ⟨0, 0, 1000, 1000⟩⟩

theorem contains_larger_roomy :
    ∃ rect, place .larger ⟨100, 100, 500, 500⟩ [square] = some rect ∧
      square.visible.contains rect = true := by
  have hscreen : screenContaining ⟨100, 100, 500, 500⟩ (screensInConsistentOrder [square]) =
      some square := by
    norm_num [screenContaining, screensInConsistentOrder, bestScreen, square, Rect.contains,
      Rect.maxX, Rect.maxY]
  obtain ⟨rect, hplace, -, -, -, hiff⟩ := contains_larger_iff hscreen
    (by norm_num [square, Rect.contains, Rect.maxX, Rect.maxY])
  have hwidth : TakesWidth ⟨100, 100, 500, 500⟩ square.visible :=
    .inr (.inr ⟨by norm_num [againstRight, againstEdge, square, Rect.maxX], .inr
      (by norm_num [square, Rect.maxX])⟩)
  have hheight : TakesHeight ⟨100, 100, 500, 500⟩ square.visible := by
    unfold TakesHeight
    rw [if_neg (by norm_num [square])]
    exact .inr (.inr (by norm_num [square, Rect.maxY]))
  exact ⟨rect, hplace, hiff.mpr (.inr ⟨hwidth, hheight⟩)⟩

/-- A gap of 10 does not take a growth of 15. -/
theorem larger_leaves_screen :
    square.visible.contains ⟨10, 100, 500, 500⟩ = true ∧
      place .larger ⟨10, 100, 500, 500⟩ [square] = some ⟨-5, 85, 530, 530⟩ ∧
      square.visible.contains ⟨-5, 85, 530, 530⟩ = false := by
  refine ⟨by decide +kernel, by decide +kernel, by decide +kernel⟩

end

end Agenterm.Cu.Place
