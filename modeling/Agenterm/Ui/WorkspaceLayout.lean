import Agenterm.Lib.Checked
import Agenterm.Lib.Tiling

/-!
# The layout of the window

`workspace_layout` of `ui_geometry.rs` with the toolbar and the status bar it places, and the
composer's controls. Every arithmetic operation is the machine's: a layout is a computation that
stops where one of them overflows.
-/

namespace Agenterm.UiGeometry

open Lib

def tabsMinWidth : I32 := .lit 180
def tabsMaxWidth : I32 := .lit 480
def terminalMinWidth : I32 := .lit 320
def tabsResizeGripWidth : I32 := .lit 6
def workspaceToolbarHeight : I32 := .lit 46
def workspaceToolbarDividerHeight : I32 := .lit 1
def workspaceToolbarHorizontalPadding : I32 := .lit 4
def workspaceToolbarButtonGap : I32 := .lit 4
def workspaceToolbarButtonHeight : I32 := .lit 34
def workspaceNewButtonWidth : I32 := .lit 66
def workspaceTabsButtonWidth : I32 := .lit 52
def workspaceControlCenterButtonWidth : I32 := .lit 120
def workspaceSettingsButtonWidth : I32 := .lit 78
def workspaceLocaleButtonWidth : I32 := .lit 58
def workspaceFontButtonWidth : I32 := .lit 34
def workspaceCompactNewButtonWidth : I32 := .lit 32
def workspaceCompactActionButtonWidth : I32 := .lit 32
def workspaceCompactControlCenterButtonWidth : I32 := .lit 40
def workspaceCompactLocaleButtonWidth : I32 := .lit 36
def workspaceCompactFontButtonWidth : I32 := .lit 22
def statusTabsWidth : I32 := .lit 72
def statusCwdWidth : I32 := .lit 260
def statusCwdMinWidth : I32 := .lit 170
def statusImeWidth : I32 := .lit 220
def statusCursorWidth : I32 := .lit 148
def statusMouseWidth : I32 := .lit 172

structure PixelRect where
  left : I32
  top : I32
  right : I32
  bottom : I32
deriving DecidableEq

def rect (left top right bottom : I32) : PixelRect := { left, top, right, bottom }

namespace PixelRect

def width (r : PixelRect) : Option I32 := r.right.sub r.left

def height (r : PixelRect) : Option I32 := r.bottom.sub r.top

def containsX (r : PixelRect) (x : I32) : Bool := r.left.val ≤ x.val && x.val < r.right.val

def contains (r : PixelRect) (x y : I32) : Bool :=
  r.containsX x && (r.top.val ≤ y.val && y.val < r.bottom.val)

/-- Confine a child rectangle to its parent without inverting it. -/
def clampedTo (r parent : PixelRect) : Option PixelRect := do
  -- `clamp` stops where its bounds are out of order, so the parent is put in order first.
  let parentRight := max parent.right parent.left
  let parentBottom := max parent.bottom parent.top
  let left ← r.left.clamp parent.left parentRight
  let right ← r.right.clamp left parentRight
  let top ← r.top.clamp parent.top parentBottom
  let bottom ← r.bottom.clamp top parentBottom
  some { left, top, right, bottom }

end PixelRect

structure WorkspaceLayoutInput where
  clientWidth : I32
  clientHeight : I32
  tabsVisible : Bool
  configuredTabsWidth : I32
  composerHeight : I32
  statusHeight : I32
  serverStripHeight : I32
deriving DecidableEq

structure StatusSegmentLayout where
  /-- Present only while the tabs are hidden. -/
  tabsRecovery : Option PixelRect
  cwd : PixelRect
  provider : PixelRect
  ime : PixelRect
  cursor : PixelRect
  mouse : PixelRect
  proxy : PixelRect
deriving DecidableEq

inductive WorkspaceToolbarMode where
  | full
  | compact
deriving DecidableEq

structure WorkspaceToolbarLayout where
  bounds : PixelRect
  divider : PixelRect
  mode : WorkspaceToolbarMode
  newTab : PixelRect
  tabs : PixelRect
  controlCenter : PixelRect
  settings : PixelRect
  locale : PixelRect
  fontDecrease : PixelRect
  fontIncrease : PixelRect
deriving DecidableEq

structure WorkspaceLayout where
  client : PixelRect
  tabsVisible : Bool
  configuredTabsWidth : I32
  effectiveTabsWidth : I32
  serverStrip : Option PixelRect
  sidebarClock : Option PixelRect
  sidebar : PixelRect
  sidebarTree : PixelRect
  workspaceToolbar : Option WorkspaceToolbarLayout
  resizeGrip : Option PixelRect
  terminal : PixelRect
  composer : PixelRect
  status : PixelRect
  statusSegments : StatusSegmentLayout
deriving DecidableEq

def clampConfiguredTabsWidth (width : I32) : Option I32 := width.clamp tabsMinWidth tabsMaxWidth

/-! ## The toolbar -/

def fullToolbarRequiredWidth : I32 := .lit 560

def compactToolbarRequiredWidth : I32 := .lit 296

/-- The widths of the buttons: new, tabs, control center, settings, locale, font. -/
def WorkspaceToolbarMode.buttonWidths : WorkspaceToolbarMode → I32 × I32 × I32 × I32 × I32 × I32
  | .full =>
    (workspaceNewButtonWidth, workspaceTabsButtonWidth, workspaceControlCenterButtonWidth,
      workspaceSettingsButtonWidth, workspaceLocaleButtonWidth, workspaceFontButtonWidth)
  | .compact =>
    (workspaceCompactNewButtonWidth, workspaceCompactActionButtonWidth,
      workspaceCompactControlCenterButtonWidth, workspaceCompactActionButtonWidth,
      workspaceCompactLocaleButtonWidth, workspaceCompactFontButtonWidth)

/-- The buttons of a toolbar that is large enough. -/
def placeToolbar (toolbar : PixelRect) : Option WorkspaceToolbarLayout := do
  let dividerTop ← toolbar.bottom.sub workspaceToolbarDividerHeight
  let divider := rect toolbar.left dividerTop toolbar.right toolbar.bottom
  let toolbarWidth ← toolbar.width
  let mode : WorkspaceToolbarMode :=
    if toolbarWidth.val ≥ fullToolbarRequiredWidth.val then .full else .compact
  let (newWidth, tabsWidth, controlCenterWidth, settingsWidth, localeWidth, fontWidth) :=
    mode.buttonWidths
  let buttonTop ← toolbar.top.add
    (← (← (← toolbar.height).sub workspaceToolbarButtonHeight).div (.lit 2))
  let buttonBottom ← buttonTop.add workspaceToolbarButtonHeight
  let tabsLeft ← toolbar.left.add workspaceToolbarHorizontalPadding
  let tabs := rect tabsLeft buttonTop (← tabsLeft.add tabsWidth) buttonBottom
  let newLeft ← tabs.right.add workspaceToolbarButtonGap
  let newTab := rect newLeft buttonTop (← newLeft.add newWidth) buttonBottom
  let toolbarCenter ← toolbar.left.add (← toolbarWidth.div (.lit 2))
  let centerLeft ← toolbarCenter.sub (← controlCenterWidth.div (.lit 2))
  let controlCenter :=
    rect centerLeft buttonTop (← centerLeft.add controlCenterWidth) buttonBottom
  let increaseRight ← toolbar.right.sub workspaceToolbarHorizontalPadding
  let fontIncrease :=
    rect (← increaseRight.sub fontWidth) buttonTop increaseRight buttonBottom
  let fontDecrease :=
    rect (← fontIncrease.left.sub fontWidth) buttonTop fontIncrease.left buttonBottom
  let localeRight ← fontDecrease.left.sub workspaceToolbarButtonGap
  let locale := rect (← localeRight.sub localeWidth) buttonTop localeRight buttonBottom
  let settingsRight ← locale.left.sub workspaceToolbarButtonGap
  let settings :=
    rect (← settingsRight.sub settingsWidth) buttonTop settingsRight buttonBottom
  some { bounds := toolbar, divider, mode, newTab, tabs, controlCenter, settings, locale,
         fontDecrease, fontIncrease }

def workspaceToolbarRegion (toolbar : PixelRect) (visible : Bool) :
    Option (Option WorkspaceToolbarLayout) := do
  if !visible then return none
  if (← toolbar.width).val < compactToolbarRequiredWidth.val then return none
  if (← toolbar.height).val < workspaceToolbarHeight.val then return none
  some (some (← placeToolbar toolbar))

/-! ## The status bar -/

/-- The control at the left end of the bar that brings hidden tabs back. -/
def placeRecovery (status : PixelRect) (tabsVisible : Bool) : Option (Option PixelRect) := do
  if tabsVisible then return none
  let segmentRight := min (← status.left.add statusTabsWidth) status.right
  return some (rect status.left status.top segmentRight status.bottom)

def statusSegmentLayout (status : PixelRect) (tabsVisible : Bool) : Option StatusSegmentLayout := do
  let right := status.right
  let tabsRecovery ← placeRecovery status tabsVisible
  let left := (tabsRecovery.map PixelRect.right).getD status.left
  let available := max (← right.sub left) 0
  let cwdFloor := min statusCwdMinWidth available
  let telemetryWidth ← available.sub cwdFloor
  let mouseWidth := min statusMouseWidth telemetryWidth
  let mouseLeft ← right.sub mouseWidth
  let cursorWidth := min statusCursorWidth (← telemetryWidth.sub mouseWidth)
  let cursorLeft ← mouseLeft.sub cursorWidth
  let imeWidth := min statusImeWidth (← (← telemetryWidth.sub mouseWidth).sub cursorWidth)
  let imeLeft ← cursorLeft.sub imeWidth
  let cwdWidth := min statusCwdWidth (← imeLeft.sub left)
  let cwdRight ← left.add cwdWidth
  some {
    tabsRecovery
    cwd := rect left status.top cwdRight status.bottom
    provider := rect cwdRight status.top imeLeft status.bottom
    ime := rect imeLeft status.top cursorLeft status.bottom
    cursor := rect cursorLeft status.top mouseLeft status.bottom
    mouse := rect mouseLeft status.top right status.bottom
    proxy := rect right status.top right status.bottom }

/-! ## The window -/

/-- The grip at the sidebar's right edge, when it has a width. -/
def placeGrip (tabsVisible : Bool) (effectiveTabsWidth bodyTop width height : I32) :
    Option (Option PixelRect) := do
  if !tabsVisible then return none
  let left ← (← effectiveTabsWidth.sub tabsResizeGripWidth).clamp 0 width
  let grip := rect left bodyTop (min effectiveTabsWidth width) height
  if (← grip.width).val > 0 then return some grip
  return none

def workspaceLayout (input : WorkspaceLayoutInput) : Option WorkspaceLayout := do
  let width := max input.clientWidth 0
  let height := max input.clientHeight 0
  let configuredTabsWidth ← clampConfiguredTabsWidth input.configuredTabsWidth
  let effectiveTabsWidth :=
    if input.tabsVisible then
      min configuredTabsWidth (max (width.saturatingSub terminalMinWidth) 0)
    else 0
  let serverStripHeight := min (max input.serverStripHeight 0) height
  let bodyTop := serverStripHeight
  let bodyHeight := height.saturatingSub serverStripHeight
  let toolbarHeight := min workspaceToolbarHeight bodyHeight
  let statusHeight := min (max input.statusHeight 0) (bodyHeight.saturatingSub toolbarHeight)
  let statusTop ← height.sub statusHeight
  let composerHeight :=
    min (max input.composerHeight 0) (statusTop.saturatingSub (← bodyTop.add toolbarHeight))
  let composerTop ← statusTop.sub composerHeight
  let contentLeft := effectiveTabsWidth
  let chromeTop ← bodyTop.add toolbarHeight
  let client := rect 0 0 width height
  let serverStrip :=
    if serverStripHeight.val > 0 ∧ contentLeft.val < width.val then
      some (rect contentLeft 0 width serverStripHeight)
    else none
  let sidebarClock :=
    if serverStripHeight.val > 0 ∧ effectiveTabsWidth.val > 0 then
      some (rect 0 0 effectiveTabsWidth serverStripHeight)
    else none
  let sidebar := rect 0 bodyTop effectiveTabsWidth height
  let terminal := rect contentLeft chromeTop width composerTop
  let composer := rect contentLeft composerTop width statusTop
  let status := rect contentLeft statusTop width height
  let resizeGrip ← placeGrip input.tabsVisible effectiveTabsWidth bodyTop width height
  let sidebarTree :=
    rect sidebar.left sidebar.top ((resizeGrip.map PixelRect.left).getD sidebar.right)
      sidebar.bottom
  let workspaceToolbar ←
    workspaceToolbarRegion (rect contentLeft bodyTop width chromeTop) (toolbarHeight.val > 0)
  some {
    client
    tabsVisible := input.tabsVisible
    configuredTabsWidth
    effectiveTabsWidth
    serverStrip
    sidebarClock
    sidebar
    sidebarTree
    workspaceToolbar
    resizeGrip
    terminal
    composer
    status
    statusSegments := ← statusSegmentLayout status input.tabsVisible }

/-! ## The composer -/

def composerMargin : I32 := .lit 6
def composerSendWidth : I32 := .lit 76
def composerSendHeight : I32 := .lit 34
def composerInputTop : I32 := .lit 26
def composerInputBottomInset : I32 := .lit 8
def composerInputMinWidth : I32 := .lit 80
def composerInputMinHeight : I32 := .lit 56

structure ComposerGeometry where
  input : PixelRect
  send : PixelRect
deriving DecidableEq

def composerGeometry (composer : PixelRect) : Option ComposerGeometry := do
  let send : PixelRect := {
    left := ← (← composer.right.sub composerSendWidth).sub composerMargin
    top := ← composer.top.add composerInputTop
    right := ← composer.right.sub composerMargin
    bottom := ← (← composer.top.add composerInputTop).add composerSendHeight }
  let input : PixelRect := {
    left := ← composer.left.add composerMargin
    top := ← composer.top.add composerInputTop
    right := max
      (← (← composer.right.sub composerSendWidth).sub (← composerMargin.mul (.lit 2)))
      (← (← composer.left.add composerMargin).add composerInputMinWidth)
    bottom := max
      (← composer.bottom.sub composerInputBottomInset)
      (← composer.top.add composerInputMinHeight) }
  let send ← send.clampedTo composer
  let input ← input.clampedTo composer
  some { input, send }

end Agenterm.UiGeometry
