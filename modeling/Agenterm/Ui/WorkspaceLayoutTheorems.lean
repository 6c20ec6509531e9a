import Agenterm.Ui.WorkspaceLayout

/-!
# The layout tiles the window

The stages of `workspaceLayout` one after the other: the status bar, the toolbar, the grip, the
window. Each stage gives a value for all inputs the window can hand it, and its parts fill what they
were placed in.
-/

namespace Agenterm.UiGeometry

open Lib List Option

variable {a b status toolbar : PixelRect} {bodyTop effective height width : I32}
  {tabsVisible : Bool}

namespace PixelRect

/-- A rectangle that is not inverted. -/
def Upright (r : PixelRect) : Prop := r.left.val ≤ r.right.val ∧ r.top.val ≤ r.bottom.val

def Within (r whole : PixelRect) : Prop :=
  whole.left.val ≤ r.left.val ∧ r.right.val ≤ whole.right.val ∧
    whole.top.val ≤ r.top.val ∧ r.bottom.val ≤ whole.bottom.val

/-- No pixel belongs to both. -/
def Apart (a b : PixelRect) : Prop := ∀ x y, ¬(a.contains x y = true ∧ b.contains x y = true)

def across (r : PixelRect) : Int × Int := (r.left.val, r.right.val)

def downwards (r : PixelRect) : Int × Int := (r.top.val, r.bottom.val)

/-- The parts stand side by side, from the left edge of the whole to its right edge. -/
def Row (whole : PixelRect) (parts : List PixelRect) : Prop :=
  (∀ r ∈ parts, r.downwards = whole.downwards) ∧
    Consecutive whole.left.val (parts.map across) whole.right.val

/-- The parts stand on one another, from the top edge of the whole to its bottom edge. -/
def Stack (whole : PixelRect) (parts : List PixelRect) : Prop :=
  (∀ r ∈ parts, r.across = whole.across) ∧
    Consecutive whole.top.val (parts.map downwards) whole.bottom.val

lemma contains_iff (r : PixelRect) (x y : I32) :
    r.contains x y = true ↔
      (r.left.val ≤ x.val ∧ x.val < r.right.val) ∧ r.top.val ≤ y.val ∧ y.val < r.bottom.val := by
  simp [contains, containsX]

lemma apart_of_right (h : a.right.val ≤ b.left.val) : a.Apart b := by
  intro x y hxy
  simp only [contains_iff] at hxy
  omega

lemma apart_of_above (h : b.bottom.val ≤ a.top.val) : a.Apart b := by
  intro x y hxy
  simp only [contains_iff] at hxy
  omega

/-- No pixel belongs to two parts of a row. -/
lemma Row.apart {whole : PixelRect} {parts : List PixelRect} (h : Row whole parts) :
    parts.Pairwise Apart := by
  have hordered := pairwise_map.mp h.2.spaced.ordered
  exact hordered.imp fun hab => apart_of_right hab

end PixelRect

open PixelRect

/-! ## The status bar -/

def StatusSegmentLayout.segments (s : StatusSegmentLayout) : List PixelRect :=
  s.tabsRecovery.toList ++ [s.cwd, s.provider, s.ime, s.cursor, s.mouse]

/-- Where the readouts start. -/
abbrev readoutsLeft (status : PixelRect) (recovery : Option PixelRect) : I32 :=
  (recovery.map PixelRect.right).getD status.left

lemma placeRecovery_returns (hright : status.left.val ≤ status.right.val)
    (hhidden : tabsVisible = false → status.left.val = 0) :
    Returns (placeRecovery status tabsVisible) fun recovery =>
      recovery.isSome = !tabsVisible ∧ (∀ r ∈ recovery, r.downwards = status.downwards) ∧
        status.left.val ≤ (readoutsLeft status recovery).val ∧
        (readoutsLeft status recovery).val ≤ status.right.val ∧
        ∀ parts, Consecutive (readoutsLeft status recovery).val parts status.right.val →
          Consecutive status.left.val (recovery.toList.map across ++ parts) status.right.val := by
  unfold placeRecovery
  cases tabsVisible with
  | true => exact Returns.pure ⟨rfl, by simp, le_refl _, hright, fun parts hparts => hparts⟩
  | false =>
    have hzero := hhidden rfl
    have hwidth : statusTabsWidth.val = 72 := rfl
    apply (I32.add_returns (by omega)).bind
    intro tabsRight htabsRight
    apply Returns.pure
    have hend : (min tabsRight status.right).val = min tabsRight.val status.right.val := rfl
    have hstart : status.left.val ≤ (min tabsRight status.right).val := by omega
    refine ⟨rfl, by simp [rect, downwards], hstart, ?_, fun parts hparts => ⟨rfl, hstart, hparts⟩⟩
    show (min tabsRight status.right).val ≤ status.right.val
    omega

/-- The recovery control and the readouts fill the bar. -/
lemma statusSegmentLayout_returns (hleft : 0 ≤ status.left.val)
    (hright : status.left.val ≤ status.right.val)
    (hhidden : tabsVisible = false → status.left.val = 0) :
    Returns (statusSegmentLayout status tabsVisible) fun s =>
      Row status s.segments ∧ (s.tabsRecovery.isSome = !tabsVisible) := by
  have hmax := status.right.high
  unfold statusSegmentLayout
  apply (placeRecovery_returns hright hhidden).bind
  rintro recovery ⟨hsome, hdown, hstart, hend, hrow⟩
  extract_lets left
  change status.left.val ≤ left.val at hstart
  change left.val ≤ status.right.val at hend
  apply (I32.sub_returns_of_nonneg (by omega) (by omega)).bind
  intro rest hrest
  extract_lets available cwdFloor
  have havailable : available.val = max rest.val 0 := rfl
  have hfloor : cwdFloor.val = min 170 available.val := rfl
  apply (I32.sub_returns_of_nonneg (by omega) (by omega)).bind
  intro telemetryWidth htelemetry
  extract_lets mouseWidth
  have hmouse : mouseWidth.val = min 172 telemetryWidth.val := rfl
  apply (I32.sub_returns_of_nonneg (by omega) (by omega)).bind
  intro mouseLeft hmouseLeft
  apply (I32.sub_returns_of_nonneg (by omega) (by omega)).bind
  intro afterMouse hafterMouse
  extract_lets cursorWidth
  have hcursor : cursorWidth.val = min 148 afterMouse.val := rfl
  apply (I32.sub_returns_of_nonneg (by omega) (by omega)).bind
  intro cursorLeft hcursorLeft
  apply (I32.sub_returns_of_nonneg (by omega) (by omega)).bind
  intro afterMouse' hafterMouse'
  apply (I32.sub_returns_of_nonneg (by omega) (by omega)).bind
  intro afterCursor hafterCursor
  extract_lets imeWidth
  have hime : imeWidth.val = min 220 afterCursor.val := rfl
  apply (I32.sub_returns_of_nonneg (by omega) (by omega)).bind
  intro imeLeft himeLeft
  apply (I32.sub_returns_of_nonneg (by omega) (by omega)).bind
  intro room hroom
  extract_lets cwdWidth
  have hcwd : cwdWidth.val = min 260 room.val := rfl
  apply (I32.add_returns (by omega)).bind
  intro cwdRight hcwdRight
  -- From here on the readouts only have to be in order.
  have horder : left.val ≤ cwdRight.val ∧ cwdRight.val ≤ imeLeft.val ∧
      imeLeft.val ≤ cursorLeft.val ∧ cursorLeft.val ≤ mouseLeft.val ∧
      mouseLeft.val ≤ status.right.val := by omega
  apply Returns.pure
  refine ⟨⟨?_, ?_⟩, hsome⟩
  · intro r hr
    rcases mem_append.mp hr with hr | hr
    · exact hdown r (mem_toList.mp hr)
    · simp only [mem_cons, not_mem_nil, or_false] at hr
      rcases hr with rfl | rfl | rfl | rfl | rfl <;> rfl
  · rw [StatusSegmentLayout.segments, map_append]
    apply hrow
    exact ⟨rfl, horder.1, rfl, horder.2.1, rfl, horder.2.2.1, rfl, horder.2.2.2.1, rfl,
      horder.2.2.2.2, rfl⟩

/-! ## The toolbar -/

def WorkspaceToolbarLayout.buttons (t : WorkspaceToolbarLayout) : List PixelRect :=
  [t.tabs, t.newTab, t.controlCenter, t.settings, t.locale, t.fontDecrease, t.fontIncrease]

/-- The buttons stand inside the toolbar from left to right. -/
structure WorkspaceToolbarLayout.Placed (t : WorkspaceToolbarLayout) : Prop where
  inside : ∀ b ∈ t.buttons, b.Upright ∧ b.Within t.bounds
  ordered : t.buttons.Pairwise fun a b => a.right.val ≤ b.left.val
  apart : t.buttons.Pairwise Apart

/-- Buttons in a row with gaps, each as tall as the toolbar or less, are placed. -/
lemma WorkspaceToolbarLayout.placed_of_spaced {t : WorkspaceToolbarLayout}
    (hspaced : Spaced t.bounds.left.val (t.buttons.map across) t.bounds.right.val)
    (htall : ∀ b ∈ t.buttons, b.top.val ≤ b.bottom.val ∧
      t.bounds.top.val ≤ b.top.val ∧ b.bottom.val ≤ t.bounds.bottom.val) : t.Placed := by
  have hordered := pairwise_map.mp hspaced.ordered
  refine ⟨fun b hb => ?_, hordered, hordered.imp fun hab => apart_of_right hab⟩
  obtain ⟨hleft, hwide, hright⟩ := hspaced.inside (mem_map_of_mem hb)
  obtain ⟨hup, htop, hbottom⟩ := htall b hb
  exact ⟨⟨hwide, hup⟩, hleft, hright, htop, hbottom⟩

/-- At every width a toolbar has, the three groups of buttons fit next to one another. -/
lemma buttonWidths_fit (hwidth : 296 ≤ width.val) {mode : WorkspaceToolbarMode}
    (hmode : mode = if width.val ≥ fullToolbarRequiredWidth.val then .full else .compact)
    {new tabs center settings locale font : I32}
    (h : mode.buttonWidths = (new, tabs, center, settings, locale, font)) :
    0 ≤ new.val ∧ 0 ≤ tabs.val ∧ 0 ≤ center.val ∧ 0 ≤ settings.val ∧ 0 ≤ locale.val ∧
      0 ≤ font.val ∧ 8 + tabs.val + new.val ≤ width.val / 2 - center.val / 2 ∧
      width.val / 2 - center.val / 2 + center.val ≤
        width.val - 12 - 2 * font.val - locale.val - settings.val := by
  have hfull : fullToolbarRequiredWidth.val = 560 := rfl
  simp only [WorkspaceToolbarMode.buttonWidths] at h
  split at hmode
  all_goals
    subst hmode
    simp only [Prod.mk.injEq] at h
    obtain ⟨rfl, rfl, rfl, rfl, rfl, rfl⟩ := h
    simp only [workspaceNewButtonWidth, workspaceTabsButtonWidth,
      workspaceControlCenterButtonWidth, workspaceSettingsButtonWidth, workspaceLocaleButtonWidth,
      workspaceFontButtonWidth, workspaceCompactNewButtonWidth, workspaceCompactActionButtonWidth,
      workspaceCompactControlCenterButtonWidth, workspaceCompactLocaleButtonWidth,
      workspaceCompactFontButtonWidth, I32.val_lit]
    omega

/-- A toolbar with room for its buttons has them in order and inside. -/
lemma placeToolbar_returns (hleft : 0 ≤ toolbar.left.val) (htop : 0 ≤ toolbar.top.val)
    (hwidth : toolbar.left.val + 296 ≤ toolbar.right.val)
    (hheight : toolbar.top.val + 46 ≤ toolbar.bottom.val) :
    Returns (placeToolbar toolbar) fun t => t.bounds = toolbar ∧ t.Placed := by
  have hright := toolbar.right.high
  have hbottom := toolbar.bottom.high
  have hdivider : workspaceToolbarDividerHeight.val = 1 := rfl
  have hpadding : workspaceToolbarHorizontalPadding.val = 4 := rfl
  have hgap : workspaceToolbarButtonGap.val = 4 := rfl
  have hbutton : workspaceToolbarButtonHeight.val = 34 := rfl
  unfold placeToolbar
  apply (I32.sub_returns_of_nonneg (by omega) (by omega)).bind
  intro dividerTop hdividerTop
  extract_lets divider
  apply (I32.sub_returns_of_nonneg (by omega) (by omega)).bind
  intro toolbarWidth htoolbarWidth
  extract_lets mode
  -- The arithmetic from here on knows of the widths only that the three groups fit.
  rcases hwidths : mode.buttonWidths with ⟨new, tabs, center, settings, locale, font⟩
  obtain ⟨hnew, htabs, hcenter, hsettings, hlocale, hfont, hfitsLeft, hfitsRight⟩ :=
    buttonWidths_fit (by omega) rfl hwidths
  dsimp only
  apply (I32.sub_returns_of_nonneg (by omega) (by omega)).bind
  intro barHeight hbarHeight
  apply (I32.sub_returns_of_nonneg (by omega) (by omega)).bind
  intro slack hslack
  apply (I32.half_returns (by omega)).bind
  intro inset hinset
  apply (I32.add_returns (by omega)).bind
  intro buttonTop hbuttonTop
  apply (I32.add_returns (by omega)).bind
  intro buttonBottom hbuttonBottom
  have htall : buttonTop.val ≤ buttonBottom.val ∧ toolbar.top.val ≤ buttonTop.val ∧
      buttonBottom.val ≤ toolbar.bottom.val := by omega
  clear hbutton hdivider hdividerTop htop hheight hbottom hbarHeight hslack hinset hbuttonTop
    hbuttonBottom
  apply (I32.add_returns (by omega)).bind
  intro tabsLeft htabsLeft
  apply (I32.add_returns (by omega)).bind
  intro tabsRight htabsRight
  apply (I32.add_returns (by show FitsI32 (tabsRight.val + _); omega)).bind
  intro newLeft (hnewLeft : newLeft.val = tabsRight.val + workspaceToolbarButtonGap.val)
  apply (I32.add_returns (by omega)).bind
  intro newRight hnewRight
  apply (I32.half_returns (by omega)).bind
  intro half hhalf
  apply (I32.add_returns (by omega)).bind
  intro toolbarCenter htoolbarCenter
  apply (I32.half_returns (by omega)).bind
  intro halfCenter hhalfCenter
  apply (I32.sub_returns_of_nonneg (by omega) (by omega)).bind
  intro centerLeft hcenterLeft
  apply (I32.add_returns (by omega)).bind
  intro centerRight hcenterRight
  apply (I32.sub_returns_of_nonneg (by omega) (by omega)).bind
  intro increaseRight hincreaseRight
  apply (I32.sub_returns_of_nonneg (by omega) (by omega)).bind
  intro increaseLeft hincreaseLeft
  apply (I32.sub_returns_of_nonneg (by show 0 ≤ increaseLeft.val; omega) (by omega)).bind
  intro decreaseLeft (hdecreaseLeft : decreaseLeft.val = increaseLeft.val - font.val)
  apply (I32.sub_returns_of_nonneg (by show 0 ≤ decreaseLeft.val; omega) (by omega)).bind
  intro localeRight (hlocaleRight : localeRight.val = decreaseLeft.val - 4)
  apply (I32.sub_returns_of_nonneg (by omega) (by omega)).bind
  intro localeLeft hlocaleLeft
  apply (I32.sub_returns_of_nonneg (by show 0 ≤ localeLeft.val; omega) (by omega)).bind
  intro settingsRight (hsettingsRight : settingsRight.val = localeLeft.val - 4)
  apply (I32.sub_returns_of_nonneg (by omega) (by omega)).bind
  intro settingsLeft hsettingsLeft
  -- The seven buttons in a row, with gaps.
  have hspaced : Spaced toolbar.left.val
      [(tabsLeft.val, tabsRight.val), (newLeft.val, newRight.val),
        (centerLeft.val, centerRight.val), (settingsLeft.val, settingsRight.val),
        (localeLeft.val, localeRight.val), (decreaseLeft.val, increaseLeft.val),
        (increaseLeft.val, increaseRight.val)] toolbar.right.val := by
    simp only [Spaced]
    omega
  apply Returns.pure
  refine ⟨rfl, WorkspaceToolbarLayout.placed_of_spaced hspaced ?_⟩
  simp only [WorkspaceToolbarLayout.buttons, rect, forall_mem_cons, not_mem_nil,
    false_implies, implies_true, and_true]
  exact ⟨htall, htall, htall, htall, htall, htall, htall⟩

lemma workspaceToolbarRegion_returns (visible : Bool) (hleft : 0 ≤ toolbar.left.val)
    (hright : toolbar.left.val ≤ toolbar.right.val) (htop : 0 ≤ toolbar.top.val)
    (hbottom : toolbar.top.val ≤ toolbar.bottom.val) :
    Returns (workspaceToolbarRegion toolbar visible) fun region =>
      ∀ t ∈ region, t.bounds = toolbar ∧ t.Placed := by
  unfold workspaceToolbarRegion
  apply Returns.ite
  · intro _
    exact Returns.pure (by simp)
  · intro _
    apply (I32.sub_returns_of_nonneg (by omega) hleft).bind
    intro width hwidth
    apply Returns.ite
    · intro _
      exact Returns.pure (by simp)
    · intro hwide
      apply (I32.sub_returns_of_nonneg (by omega) htop).bind
      intro height hheight
      apply Returns.ite
      · intro _
        exact Returns.pure (by simp)
      · intro htall
        have hcompact : compactToolbarRequiredWidth.val = 296 := rfl
        have htoolbar : workspaceToolbarHeight.val = 46 := rfl
        apply (placeToolbar_returns hleft htop (by omega) (by omega)).bind
        intro t ht
        apply Returns.pure
        intro t' ht'
        exact some.inj ht' ▸ ht

/-! ## The window -/

lemma placeGrip_returns (heffective : 0 ≤ effective.val) (hwidth : effective.val ≤ width.val) :
    Returns (placeGrip tabsVisible effective bodyTop width height) fun grip =>
      ∀ g ∈ grip, 0 ≤ g.left.val ∧ g.left.val < g.right.val ∧ g.right.val = effective.val ∧
        g.top = bodyTop ∧ g.bottom = height := by
  have hgrip : tabsResizeGripWidth.val = 6 := rfl
  have hhigh := effective.high
  unfold placeGrip
  apply Returns.ite
  · intro _
    exact Returns.pure (by simp)
  · intro _
    apply (I32.sub_returns (by omega)).bind
    intro start hstart
    apply (I32.clamp_returns (by show 0 ≤ width.val; omega)).bind
    intro left (hleft : left.val = max 0 (min start.val width.val))
    have hright : (min effective width).val = min effective.val width.val := rfl
    apply (I32.sub_returns_of_nonneg (by show 0 ≤ (min effective width).val; omega)
      (by show 0 ≤ left.val; omega)).bind
    intro gripWidth (hgripWidth : gripWidth.val = (min effective width).val - left.val)
    apply Returns.ite
    · intro hpos
      apply Returns.pure
      intro g hg
      rw [← some.inj hg]
      refine ⟨?_, ?_, ?_, rfl, rfl⟩
      · show 0 ≤ left.val
        omega
      · show left.val < (min effective width).val
        omega
      · show (min effective width).val = effective.val
        omega
    · intro _
      exact Returns.pure (by simp)

lemma pairwise_toList {α : Type} {R : α → α → Prop} (o : Option α) : o.toList.Pairwise R := by
  cases o with
  | none => exact List.Pairwise.nil
  | some x => exact pairwise_singleton R x

/-- The tree, the grip and the clock share the sidebar column. -/
lemma sidebar_placed {grip clock : Option PixelRect} (heffective : 0 ≤ effective.val)
    (hbody : 0 ≤ bodyTop.val) (hheight : bodyTop.val ≤ height.val)
    (hgrip : ∀ g ∈ grip, 0 ≤ g.left.val ∧ g.left.val < g.right.val ∧ g.right.val = effective.val ∧
      g.top = bodyTop ∧ g.bottom = height) (hclock : ∀ c ∈ clock, c = rect 0 0 effective bodyTop) :
    let parts := rect 0 bodyTop ((grip.map left).getD effective) height ::
      (grip.toList ++ clock.toList)
    (∀ r ∈ parts, r.Upright ∧ r.Within (rect 0 0 effective height)) ∧ parts.Pairwise Apart := by
  intro parts
  have hbelow : ∀ {c : PixelRect}, c ∈ clock → ∀ {r : PixelRect}, r.top = bodyTop → r.Apart c := by
    intro c hc r hr
    apply apart_of_above
    rw [hclock c hc, hr]
    exact le_refl bodyTop.val
  have hclockIn : ∀ c ∈ clock, c.Upright ∧ c.Within (rect 0 0 effective height) := by
    intro c hc
    rw [hclock c hc]
    exact ⟨⟨heffective, hbody⟩, le_refl (0 : Int), le_refl effective.val, le_refl (0 : Int), hheight⟩
  have hgripIn : ∀ g ∈ grip, g.Upright ∧ g.Within (rect 0 0 effective height) := by
    intro g hg
    obtain ⟨hleft, hwide, hright, htop, hbottom⟩ := hgrip g hg
    refine ⟨⟨hwide.le, ?_⟩, hleft, hright.le, ?_, ?_⟩
    · rw [htop, hbottom]
      exact hheight
    · rw [htop]
      exact hbody
    · rw [hbottom]
      exact le_refl height.val
  -- The tree ends where the grip starts, or takes the whole width.
  have htree : 0 ≤ ((grip.map left).getD effective).val ∧
      ((grip.map left).getD effective).val ≤ effective.val := by
    cases hcase : grip with
    | none => exact ⟨heffective, le_refl _⟩
    | some g =>
      obtain ⟨hleft, hwide, hright, -, -⟩ := hgrip g hcase
      show 0 ≤ g.left.val ∧ g.left.val ≤ effective.val
      omega
  constructor
  · intro r hr
    rcases mem_cons.mp hr with rfl | hr
    · exact ⟨⟨htree.1, hheight⟩, le_refl (0 : Int), htree.2, hbody, le_refl height.val⟩
    · rcases mem_append.mp hr with hr | hr
      · exact hgripIn r (mem_toList.mp hr)
      · exact hclockIn r (mem_toList.mp hr)
  · rw [pairwise_cons, pairwise_append]
    refine ⟨?_, pairwise_toList grip, pairwise_toList clock, ?_⟩
    · intro r hr
      rcases mem_append.mp hr with hr | hr
      · apply apart_of_right
        rw [mem_toList.mp hr]
        exact le_refl r.left.val
      · exact hbelow (mem_toList.mp hr) rfl
    · intro g hg c hc
      exact hbelow (mem_toList.mp hc) (hgrip g (mem_toList.mp hg)).2.2.2.1

namespace WorkspaceLayout

/-- The whole height of the window, left of the terminal column. -/
def sidebarColumn (l : WorkspaceLayout) : PixelRect :=
  rect l.sidebar.left l.client.top l.sidebar.right l.client.bottom

def terminalColumn (l : WorkspaceLayout) : PixelRect :=
  rect l.terminal.left l.client.top l.terminal.right l.client.bottom

/-- What is above the body in the terminal column. -/
def stripBand (l : WorkspaceLayout) : PixelRect :=
  rect l.terminal.left l.client.top l.terminal.right l.sidebar.top

/-- What is between the body's top and the terminal. -/
def toolbarBand (l : WorkspaceLayout) : PixelRect :=
  rect l.terminal.left l.sidebar.top l.terminal.right l.terminal.top

/-- What the sidebar column shows: the tree, the grip and the clock. -/
def sidebarParts (l : WorkspaceLayout) : List PixelRect :=
  l.sidebarTree :: (l.resizeGrip.toList ++ l.sidebarClock.toList)

/-- The parts of the layout fill the window and what they are placed in. -/
structure Tiles (l : WorkspaceLayout) (input : WorkspaceLayoutInput) : Prop where
  client : l.client = rect 0 0 (max input.clientWidth 0) (max input.clientHeight 0)
  columns : Row l.client [l.sidebarColumn, l.terminalColumn]
  bands : Stack l.terminalColumn [l.stripBand, l.toolbarBand, l.terminal, l.composer, l.status]
  strip : (∀ r ∈ l.serverStrip, r = l.stripBand) ∧
    (l.serverStrip = none → ∀ x y, l.stripBand.contains x y = false)
  sidebar : ∀ r ∈ l.sidebarParts, r.Upright ∧ r.Within l.sidebarColumn
  sidebarApart : l.sidebarParts.Pairwise Apart
  statusBar : Row l.status l.statusSegments.segments ∧
    l.statusSegments.segments.Pairwise Apart
  recovery : l.statusSegments.tabsRecovery.isSome = !input.tabsVisible
  toolbar : ∀ t ∈ l.workspaceToolbar, t.bounds = l.toolbarBand ∧ t.Placed

/-- How wide the sidebar is and how tall the composer. -/
structure Measures (l : WorkspaceLayout) (input : WorkspaceLayoutInput) : Prop where
  left : l.composer.left.val = 0 ∨ 0 < l.composer.left.val ∧
    l.composer.left.val + 320 ≤ l.composer.right.val
  right : l.composer.right.val = max input.clientWidth.val 0
  top : 0 ≤ l.composer.top.val
  bottom : l.composer.bottom.val ≤ max input.clientHeight.val 0
  /-- The composer takes what it asks for of what the other bands leave. -/
  tall : l.composer.bottom.val - l.composer.top.val =
    max 0 (min input.composerHeight.val (max input.clientHeight.val 0 -
      max input.serverStripHeight.val 0 - 46 - max input.statusHeight.val 0))

end WorkspaceLayout

/-- The bands that are not the terminal's or the composer's fit in the window, and leave what they
do not ask for. -/
lemma heights_fit {height strip body toolbar status stripAsk statusAsk : Int} (hheight : 0 ≤ height)
    (hstrip : strip = min (max stripAsk 0) height) (hbody : body = height - strip)
    (htoolbar : toolbar = min 46 body) (hstatus : status = min (max statusAsk 0) (body - toolbar)) :
    (0 ≤ strip ∧ 0 ≤ toolbar ∧ 0 ≤ status ∧ strip + toolbar + status ≤ height) ∧
      height - strip - toolbar - status =
        max 0 (height - max stripAsk 0 - 46 - max statusAsk 0) := by
  have hstripAsk : 0 ≤ max stripAsk 0 := le_max_right _ _
  have hstatusAsk : 0 ≤ max statusAsk 0 := le_max_right _ _
  generalize max stripAsk 0 = stripAsk at *
  generalize max statusAsk 0 = statusAsk at *
  have hstripFits : 0 ≤ strip ∧ strip ≤ height := by omega
  have htoolbarFits : 0 ≤ toolbar ∧ toolbar ≤ body := by omega
  have hstatusFits : 0 ≤ status ∧ status ≤ body - toolbar := by omega
  refine ⟨by omega, ?_⟩
  -- A band that takes all that is left leaves nothing for the ones after it.
  rcases le_total stripAsk height with hs | hs
  · rw [min_eq_left hs] at hstrip
    rcases le_total 46 body with ht | ht
    · rw [min_eq_left ht] at htoolbar
      omega
    · rw [min_eq_right ht] at htoolbar
      omega
  · rw [min_eq_right hs] at hstrip
    omega

/-- The composer takes what it asks for of the room that is left, the terminal has the rest. -/
lemma composer_fits {composer ask room left : Int} (hleft : left = max 0 room)
    (hcomposer : composer = min (max ask 0) left) :
    0 ≤ composer ∧ composer ≤ left ∧ composer = max 0 (min ask room) := by
  omega

/-- Every stage of the layout gives a value. -/
lemma workspaceLayout_returns (input : WorkspaceLayoutInput) :
    Returns (workspaceLayout input) fun l => l.Tiles input ∧ l.Measures input := by
  have hminimum : tabsMinWidth.val = 180 := rfl
  have hmaximum : tabsMaxWidth.val = 480 := rfl
  have hterminalMinimum : terminalMinWidth.val = 320 := rfl
  have htoolbarFull : workspaceToolbarHeight.val = 46 := rfl
  unfold workspaceLayout
  extract_lets width height stripHeight bodyTop bodyHeight toolbarHeight statusHeight client
  have hwidth : width.val = max input.clientWidth.val 0 := rfl
  have hheight : height.val = max input.clientHeight.val 0 := rfl
  have hstrip : stripHeight.val = min (max input.serverStripHeight.val 0) height.val := rfl
  have hpositive : 0 ≤ width.val ∧ 0 ≤ height.val ∧ 0 ≤ stripHeight.val := by omega
  have hbody : bodyHeight.val = height.val - stripHeight.val :=
    I32.val_saturatingSub hpositive.2.1 hpositive.2.2
  have htoolbar : toolbarHeight.val = min 46 bodyHeight.val := rfl
  have hbelow : (bodyHeight.saturatingSub toolbarHeight).val =
      bodyHeight.val - toolbarHeight.val := I32.val_saturatingSub (by omega) (by omega)
  have hstatus : statusHeight.val = min (max input.statusHeight.val 0)
      (bodyHeight.saturatingSub toolbarHeight).val := rfl
  have hhigh := height.high
  obtain ⟨hheights, hroom⟩ := heights_fit hpositive.2.1 hstrip hbody htoolbar
    (hstatus.trans (by rw [hbelow]))
  clear_value stripHeight bodyHeight toolbarHeight statusHeight
  clear hstrip hbody htoolbar hstatus hbelow
  apply (I32.clamp_returns (by omega)).bind
  intro configured hconfigured
  extract_lets effective contentLeft serverStrip sidebarClock sidebar
  have heffective : 0 ≤ effective.val ∧ effective.val ≤ width.val ∧
      (input.tabsVisible = false → effective.val = 0) ∧
      (effective.val = 0 ∨ 0 < effective.val ∧ effective.val + 320 ≤ width.val) := by
    have hdef : effective.val = if input.tabsVisible then min configured.val
        (max (width.saturatingSub terminalMinWidth).val 0) else 0 := by
      show (if input.tabsVisible then _ else (0 : I32)).val = _
      split <;> rfl
    rw [I32.val_saturatingSub hpositive.1 (by decide)] at hdef
    cases htabs : input.tabsVisible with
    | true =>
      rw [htabs, if_pos rfl] at hdef
      simp only [Bool.true_eq_false, false_implies, true_and]
      omega
    | false =>
      rw [htabs, if_neg Bool.false_ne_true] at hdef
      simp only [true_implies]
      omega
  apply (I32.sub_returns_of_nonneg (by omega) (by omega)).bind
  intro statusTop hstatusTop
  apply (I32.add_returns (by show FitsI32 (stripHeight.val + _); omega)).bind
  intro toolbarBottom (htoolbarBottom : toolbarBottom.val = stripHeight.val + toolbarHeight.val)
  extract_lets composerHeight
  have hcomposer : composerHeight.val = min (max input.composerHeight.val 0)
      (statusTop.saturatingSub toolbarBottom).val := rfl
  rw [I32.val_saturatingSub (by omega) (by omega)] at hcomposer
  apply (I32.sub_returns_of_nonneg (by omega) (by omega)).bind
  intro composerTop hcomposerTop
  apply (I32.add_returns (by show FitsI32 (stripHeight.val + _); omega)).bind
  intro chromeTop (hchromeTop : chromeTop.val = stripHeight.val + toolbarHeight.val)
  extract_lets terminal composer
  obtain ⟨hcomposerMin, hcomposerMax, htall⟩ := composer_fits
    (hroom.symm.trans (by omega : _ = statusTop.val - toolbarBottom.val)).symm hcomposer
  have hedges : 0 ≤ stripHeight.val ∧ stripHeight.val ≤ chromeTop.val ∧
      chromeTop.val ≤ composerTop.val ∧ composerTop.val ≤ statusTop.val ∧
      statusTop.val ≤ height.val := by omega
  have hbandTall : statusTop.val - composerTop.val = composerHeight.val := by omega
  rw [htall] at hbandTall
  clear hheights hroom htall hcomposer hcomposerTop hchromeTop hstatusTop htoolbarBottom
  apply (placeGrip_returns heffective.1 heffective.2.1).bind
  intro grip hgrip
  extract_lets sidebarTree
  apply (workspaceToolbarRegion_returns _ heffective.1 heffective.2.1 hedges.1 hedges.2.1).bind
  intro toolbar hregion
  apply (statusSegmentLayout_returns heffective.1 heffective.2.1 heffective.2.2.1).bind
  intro segments hsegments
  apply Returns.pure
  have hparts := sidebar_placed heffective.1 hedges.1 (by omega) hgrip
    fun c (hc : c ∈ sidebarClock) => (some.inj (ite_none_right_eq_some.mp hc).2).symm
  refine ⟨?_, heffective.2.2.2, rfl, ?_, ?_, hbandTall⟩
  rotate_left
  · show 0 ≤ composerTop.val
    omega
  · show statusTop.val ≤ height.val
    omega
  exact {
    client := rfl
    columns := by
      refine ⟨?_, rfl, heffective.1, rfl, heffective.2.1, rfl⟩
      simp only [forall_mem_cons, not_mem_nil, false_implies, implies_true, and_true]
      exact ⟨rfl, rfl⟩
    bands := by
      refine ⟨?_, rfl, hedges.1, rfl, hedges.2.1, rfl, hedges.2.2.1, rfl, hedges.2.2.2.1, rfl,
        hedges.2.2.2.2, rfl⟩
      simp only [forall_mem_cons, not_mem_nil, false_implies, implies_true, and_true]
      exact ⟨rfl, rfl, rfl, rfl, rfl⟩
    strip := by
      constructor
      · intro r hr
        exact (some.inj (ite_none_right_eq_some.mp hr).2).symm
      · intro hnone x y
        -- No strip is shown when it has no height, or the window no width.
        have hnot : ¬(stripHeight.val > 0 ∧ effective.val < width.val) := by
          intro hshown
          exact absurd (hnone.symm.trans (if_pos hshown)) (some_ne_none _).symm
        rw [← Bool.not_eq_true, contains_iff]
        show ¬((effective.val ≤ x.val ∧ x.val < width.val) ∧ 0 ≤ y.val ∧ y.val < stripHeight.val)
        omega
    sidebar := hparts.1
    sidebarApart := hparts.2
    statusBar := ⟨hsegments.1, hsegments.1.apart⟩
    recovery := hsegments.2
    toolbar := hregion }

/-- For all inputs the layout is computed without an overflow and tiles the window. -/
theorem workspaceLayout_tiles (input : WorkspaceLayoutInput) :
    ∃ l, workspaceLayout input = some l ∧ l.Tiles input :=
  (workspaceLayout_returns input).imp fun _ h => h.1

end Agenterm.UiGeometry
