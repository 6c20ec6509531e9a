import Agenterm.Ui.WorkspaceLayoutTheorems

/-!
# The composer's controls

The input and the send button are placed from opposite edges of the composer's band and then confined
to it. They are inside it and not inverted, whatever the band. They share pixels where the band is
wider than both margins but too narrow for the send button next to the narrowest input.
-/

namespace Agenterm.UiGeometry

open Lib PixelRect

/-- A child of an upright parent is cut to it on all sides. -/
lemma clampedTo_returns {r parent : PixelRect} (hparent : parent.Upright) :
    Returns (r.clampedTo parent) fun c => c.Upright ∧ c.Within parent ∧
      c.left.val = max parent.left.val (min r.left.val parent.right.val) ∧
      c.right.val = max c.left.val (min r.right.val parent.right.val) ∧
      c.top.val = max parent.top.val (min r.top.val parent.bottom.val) ∧
      c.bottom.val = max c.top.val (min r.bottom.val parent.bottom.val) := by
  obtain ⟨hwide, htall⟩ := hparent
  unfold clampedTo
  extract_lets parentRight parentBottom
  have hright : parentRight.val = parent.right.val := max_eq_left hwide
  have hbottom : parentBottom.val = parent.bottom.val := max_eq_left htall
  clear_value parentRight parentBottom
  apply (I32.clamp_returns (by omega)).bind
  intro left hleft
  apply (I32.clamp_returns (by omega)).bind
  intro right hright'
  apply (I32.clamp_returns (by omega)).bind
  intro top htop
  apply (I32.clamp_returns (by omega)).bind
  intro bottom hbottom'
  rw [hright] at hleft hright'
  rw [hbottom] at htop hbottom'
  apply Returns.pure
  refine ⟨⟨?_, ?_⟩, ⟨?_, ?_, ?_, ?_⟩, hleft, hright', htop, hbottom'⟩
  all_goals
    dsimp only
    omega

/-- Two upright rectangles share a pixel where their sides overlap in both directions. -/
lemma not_apart_iff {a b : PixelRect} :
    ¬a.Apart b ↔ (a.left.val < a.right.val ∧ a.left.val < b.right.val ∧
      b.left.val < a.right.val ∧ b.left.val < b.right.val) ∧
      a.top.val < a.bottom.val ∧ a.top.val < b.bottom.val ∧
      b.top.val < a.bottom.val ∧ b.top.val < b.bottom.val := by
  unfold Apart
  simp only [not_forall, not_not, contains_iff]
  constructor
  · intro ⟨x, y, h⟩
    omega
  · intro h
    refine ⟨max a.left b.left, max a.top b.top, ?_⟩
    simp only [I32.val_max]
    omega

/-- From left to right: the button is placed from the right edge, the input from the left one, and
the input is 80 pixels wide or more before it is cut. -/
lemma sides_overlap_iff {left right inputLeft inputRight sendLeft sendRight : Int}
    (hwide : left ≤ right) (hsendLeft : sendLeft = max left (min (right - 82) right))
    (hsendRight : sendRight = max sendLeft (min (right - 6) right))
    (hinputLeft : inputLeft = max left (min (left + 6) right))
    (hinputRight : inputRight = max inputLeft (min (max (right - 88) (left + 86)) right)) :
    (inputLeft < inputRight ∧ inputLeft < sendRight ∧ sendLeft < inputRight ∧
      sendLeft < sendRight) ↔ 12 < right - left ∧ right - left < 168 := by
  rw [min_eq_left (by omega)] at hsendLeft hsendRight
  omega

/-- Downwards both start at the same row, and each has a row where the band goes further down. -/
lemma rows_overlap_iff {top bottom inputTop inputBottom sendTop sendBottom : Int}
    (htall : top ≤ bottom) (hsendTop : sendTop = max top (min (top + 26) bottom))
    (hsendBottom : sendBottom = max sendTop (min (top + 60) bottom))
    (hinputTop : inputTop = max top (min (top + 26) bottom))
    (hinputBottom : inputBottom = max inputTop (min (max (bottom - 8) (top + 56)) bottom)) :
    (inputTop < inputBottom ∧ inputTop < sendBottom ∧ sendTop < inputBottom ∧
      sendTop < sendBottom) ↔ 26 < bottom - top := by
  obtain rfl : inputTop = sendTop := hinputTop.trans hsendTop.symm
  omega

/-- The composer's controls in a band that has room above the machine's largest values. -/
lemma composerGeometry_returns {composer : PixelRect} (hleft : 0 ≤ composer.left.val)
    (hupright : composer.Upright) (hmax : composer.left.val ≤ 2147483647 - 86)
    (htop : 0 ≤ composer.top.val) (hbottom : composer.bottom.val ≤ 2147483647 - 64) :
    Returns (composerGeometry composer) fun g =>
      (g.input.Upright ∧ g.input.Within composer) ∧ (g.send.Upright ∧ g.send.Within composer) ∧
        (g.input.Apart g.send ↔ ¬(12 < composer.right.val - composer.left.val ∧
          composer.right.val - composer.left.val < 168 ∧
          26 < composer.bottom.val - composer.top.val)) := by
  have hmargin : composerMargin.val = 6 := rfl
  have hsendWidth : composerSendWidth.val = 76 := rfl
  have hsendHeight : composerSendHeight.val = 34 := rfl
  have hinputTop : composerInputTop.val = 26 := rfl
  have hinset : composerInputBottomInset.val = 8 := rfl
  have hminWidth : composerInputMinWidth.val = 80 := rfl
  have hminHeight : composerInputMinHeight.val = 56 := rfl
  have hhigh := composer.right.high
  obtain ⟨hwide, htall⟩ := hupright
  unfold composerGeometry
  apply (I32.sub_returns (by omega)).bind
  intro beforeSend hbeforeSend
  apply (I32.sub_returns (by omega)).bind
  intro sendLeft hsendLeft
  apply (I32.add_returns (by omega)).bind
  intro sendTop hsendTop
  apply (I32.sub_returns (by omega)).bind
  intro sendRight hsendRight
  apply (I32.add_returns (by omega)).bind
  intro sendTop' hsendTop'
  apply (I32.add_returns (by omega)).bind
  intro sendBottom hsendBottom
  extract_lets send
  apply (I32.add_returns (by omega)).bind
  intro inputLeft hinputLeft
  apply (I32.add_returns (by omega)).bind
  intro inputTop hinputTop'
  apply (I32.sub_returns (by omega)).bind
  intro beforeSend' hbeforeSend'
  apply (I32.checked_returns (by decide)).bind
  intro margins (hmargins : margins.val = 6 * 2)
  apply (I32.sub_returns (by omega)).bind
  intro inputRight hinputRight
  apply (I32.add_returns (by omega)).bind
  intro inputLeft' hinputLeft'
  apply (I32.add_returns (by omega)).bind
  intro inputFloor hinputFloor
  apply (I32.sub_returns (by omega)).bind
  intro inputBottom hinputBottom
  apply (I32.add_returns (by omega)).bind
  intro inputLow hinputLow
  extract_lets input
  -- What the two rectangles are before they are cut to the band.
  have hsend : send.left.val = composer.right.val - 82 ∧ send.right.val = composer.right.val - 6 ∧
      send.top.val = composer.top.val + 26 ∧ send.bottom.val = composer.top.val + 60 := by
    show sendLeft.val = _ ∧ sendRight.val = _ ∧ sendTop.val = _ ∧ sendBottom.val = _
    omega
  have hinput : input.left.val = composer.left.val + 6 ∧
      input.right.val = max (composer.right.val - 88) (composer.left.val + 86) ∧
      input.top.val = composer.top.val + 26 ∧
      input.bottom.val = max (composer.bottom.val - 8) (composer.top.val + 56) := by
    show inputLeft.val = _ ∧ max inputRight.val inputFloor.val = _ ∧ inputTop.val = _ ∧
      max inputBottom.val inputLow.val = _
    omega
  clear_value send input
  apply (clampedTo_returns ⟨hwide, htall⟩).bind
  intro send ⟨hsendUpright, hsendWithin, hsl, hsr, hst, hsb⟩
  apply (clampedTo_returns ⟨hwide, htall⟩).bind
  intro input ⟨hinputUpright, hinputWithin, hil, hir, hit, hib⟩
  apply Returns.pure
  refine ⟨⟨hinputUpright, hinputWithin⟩, ⟨hsendUpright, hsendWithin⟩, ?_⟩
  rw [hsend.1] at hsl
  rw [hsend.2.1] at hsr
  rw [hsend.2.2.1] at hst
  rw [hsend.2.2.2] at hsb
  rw [hinput.1] at hil
  rw [hinput.2.1] at hir
  rw [hinput.2.2.1] at hit
  rw [hinput.2.2.2] at hib
  have hsides := sides_overlap_iff hwide hsl hsr hil hir
  have hrows := rows_overlap_iff htall hst hsb hit hib
  rw [← not_iff_not, not_not, not_apart_iff, hsides, hrows, and_assoc]

/-- What is promised of the controls: they are computed, stay in the band upright, and share no
pixel. -/
def ControlsPlaced (input : WorkspaceLayoutInput) : Prop :=
  ∃ l g, workspaceLayout input = some l ∧ composerGeometry l.composer = some g ∧
    (g.input.Upright ∧ g.input.Within l.composer) ∧ (g.send.Upright ∧ g.send.Within l.composer) ∧
    g.input.Apart g.send

/-- Windows below the machine's largest heights: the controls are computed and stay in the band, and
share pixels exactly in a narrow window whose composer is taller than its first 26 rows. -/
lemma composer_controls (input : WorkspaceLayoutInput)
    (hheight : input.clientHeight.val < 2147483647 - 64) :
    ∃ l g, workspaceLayout input = some l ∧ composerGeometry l.composer = some g ∧
      (g.input.Upright ∧ g.input.Within l.composer) ∧
      (g.send.Upright ∧ g.send.Within l.composer) ∧
      (g.input.Apart g.send ↔ ¬(12 < input.clientWidth.val ∧ input.clientWidth.val < 168 ∧
        26 < input.composerHeight.val ∧
        72 < input.clientHeight.val - max input.serverStripHeight.val 0 -
          max input.statusHeight.val 0)) := by
  obtain ⟨l, hl, -, hmeasures⟩ := workspaceLayout_returns input
  obtain ⟨hleft, hright, htop, hbottom, htall⟩ := hmeasures
  have hhigh := l.composer.right.high
  obtain ⟨g, hg, hinput, hsend, hapart⟩ := @composerGeometry_returns l.composer
    (by omega) ⟨by omega, by omega⟩ (by omega) htop (by omega)
  refine ⟨l, g, hl, hg, hinput, hsend, hapart.trans (not_congr ?_)⟩
  have hstrip : 0 ≤ max input.serverStripHeight.val 0 := le_max_right _ _
  have hstatus : 0 ≤ max input.statusHeight.val 0 := le_max_right _ _
  generalize max input.serverStripHeight.val 0 = strip at *
  generalize max input.statusHeight.val 0 = status at *
  -- A sidebar leaves the terminal column 320 pixels, so only a window without one is narrow.
  have hsides : (12 < l.composer.right.val - l.composer.left.val ∧
      l.composer.right.val - l.composer.left.val < 168) ↔
      12 < input.clientWidth.val ∧ input.clientWidth.val < 168 := by
    clear htall hbottom htop hheight
    omega
  have hrows : 26 < l.composer.bottom.val - l.composer.top.val ↔
      26 < input.composerHeight.val ∧ 72 < input.clientHeight.val - strip - status := by
    rw [htall]
    clear htall hleft hright hhigh hsides hbottom htop
    omega
  rw [← and_assoc, hsides, hrows, and_assoc]

/-- The controls are always upright and inside the composer, and they are apart except in the windows
that are named: there the input keeps its smallest width. -/
theorem controlsPlaced_iff (input : WorkspaceLayoutInput)
    (hheight : input.clientHeight.val < 2147483647 - 64) :
    (∃ l g, workspaceLayout input = some l ∧ composerGeometry l.composer = some g ∧
      (g.input.Upright ∧ g.input.Within l.composer) ∧
      g.send.Upright ∧ g.send.Within l.composer) ∧
    (ControlsPlaced input ↔ ¬(12 < input.clientWidth.val ∧ input.clientWidth.val < 168 ∧
      26 < input.composerHeight.val ∧
      72 < input.clientHeight.val - max input.serverStripHeight.val 0 -
        max input.statusHeight.val 0)) := by
  obtain ⟨l, g, hl, hg, hinput, hsend, hapart⟩ := composer_controls input hheight
  refine ⟨⟨l, g, hl, hg, hinput, hsend⟩, ?_⟩
  rw [← hapart]
  constructor
  · rintro ⟨l', g', hl', hg', -, -, hplaced⟩
    obtain rfl := Option.some.inj (hl.symm.trans hl')
    obtain rfl := Option.some.inj (hg.symm.trans hg')
    exact hplaced
  · intro hplaced
    exact ⟨l, g, hl, hg, hinput, hsend, hplaced⟩

/-- A window with the strip and the sidebar off. -/
def plainWindow (width : I32) : WorkspaceLayoutInput where
  clientWidth := width
  clientHeight := .lit 700
  tabsVisible := false
  configuredTabsWidth := .lit 250
  composerHeight := .lit 104
  statusHeight := .lit 26
  serverStripHeight := 0

theorem controlsPlaced_wide : ControlsPlaced (plainWindow (.lit 1000)) :=
  (controlsPlaced_iff (plainWindow (.lit 1000)) (by decide)).2.mpr (by decide)

/-- In a window of 160 pixels the input ends at 86 and the send button starts at 78. -/
theorem controlsPlaced_narrow : ¬ControlsPlaced (plainWindow (.lit 160)) := by
  rintro ⟨l, g, hl, hg, -, -, hplaced⟩
  have hcomputed : (workspaceLayout (plainWindow (.lit 160))).bind
      (fun l => composerGeometry l.composer) = some g := by
    rw [hl]
    exact hg
  have hshared : ((workspaceLayout (plainWindow (.lit 160))).bind
      fun l => composerGeometry l.composer).any (fun g =>
        g.input.contains (.lit 80) (.lit 600) && g.send.contains (.lit 80) (.lit 600)) = true := by
    decide
  rw [hcomputed, Option.any_some, Bool.and_eq_true] at hshared
  exact hplaced _ _ hshared

end Agenterm.UiGeometry
