import Agenterm.Ui.SidebarScroll

/-!
# The rows of the sidebar's tree

`sidebar_tree_row_geometry` of `ui_geometry.rs`: a row is laid out from the origin and then shifted
into the tree surface; `tree_row_at_y` leads from a height back to the row. As elsewhere in the
layout, an operation that overflows stops the computation.
-/

namespace Agenterm.UiGeometry

open Lib

def tabTop : I32 := .lit 3
def tabHeight : I32 := .lit 36
def tabLeft : I32 := .lit 2
def tabRightMargin : I32 := .lit 2
def treeIndent : I32 := .lit 10
def treeAnchorLeft : I32 := .lit 8
def maxTreeDepth : Nat := 10
def treeMinResponsiveIndent : I32 := .lit 3
def treeTextGap : I32 := .lit 2
def treeMinTextWidth : I32 := .lit 28
def treeActionGap : I32 := .lit 2
def treeActionInset : I32 := .lit 2
def treeActionTopInset : I32 := .lit 3
def treeCompactAddActionWidth : I32 := .lit 24
def treeCompactCloseActionWidth : I32 := .lit 24
def treeAddActionWidth : I32 := .lit 24
def treeCloseActionWidth : I32 := .lit 62
def treeSaveActionWidth : I32 := .lit 42
def treeCancelActionWidth : I32 := .lit 48
def treeCompactSaveActionWidth : I32 := .lit 34
def treeCompactCancelActionWidth : I32 := .lit 40
def treeCompactActionThreshold : I32 := .lit 300
def nodeYOffset : I32 := .lit 11

inductive TreeRowMode where
  | normal
  | editing
deriving DecidableEq

inductive TreeRowActionDensity where
  | full
  | compact
deriving DecidableEq

structure TreeRowEditorGeometry where
  name : PixelRect
  note : PixelRect
deriving DecidableEq

structure TreeRowActionGeometry where
  bounds : PixelRect
  density : TreeRowActionDensity
  /-- The add-child action in normal mode. -/
  addChild : Option PixelRect
  /-- Empty in normal mode, Save in editing mode. -/
  primary : PixelRect
  /-- Close in normal mode, Cancel in editing mode. -/
  secondary : PixelRect
deriving DecidableEq

structure TreeRowGeometry where
  mode : TreeRowMode
  row : PixelRect
  selection : PixelRect
  nodeX : I32
  nodeY : I32
  expander : PixelRect
  status : PixelRect
  disclosureHit : PixelRect
  text : PixelRect
  name : PixelRect
  note : PixelRect
  editors : Option TreeRowEditorGeometry
  actions : TreeRowActionGeometry
deriving DecidableEq

/-! ## The budget of a row -/

/-- The widths of the two actions. -/
def desiredWidths (mode : TreeRowMode) (density : TreeRowActionDensity) : I32 × I32 :=
  match mode, density with
  | .normal, .full => (treeAddActionWidth, treeCloseActionWidth)
  | .normal, .compact => (treeCompactAddActionWidth, treeCompactCloseActionWidth)
  | .editing, .full => (treeSaveActionWidth, treeCancelActionWidth)
  | .editing, .compact => (treeCompactSaveActionWidth, treeCompactCancelActionWidth)

def desiredTreeActionWidth (sidebarWidth : I32) (mode : TreeRowMode) : Option I32 := do
  let compact := sidebarWidth.val < treeCompactActionThreshold.val
  match mode, decide compact with
  | .normal, true => (← treeCompactAddActionWidth.add treeCompactCloseActionWidth).add treeActionGap
  | .normal, false => (← treeAddActionWidth.add treeCloseActionWidth).add treeActionGap
  | .editing, true =>
    (← treeCompactSaveActionWidth.add treeCompactCancelActionWidth).add treeActionGap
  | .editing, false => (← treeSaveActionWidth.add treeCancelActionWidth).add treeActionGap

def responsiveTreeIndent (sidebarWidth : I32) (mode : TreeRowMode) : Option I32 := do
  let actionWidth ← desiredTreeActionWidth sidebarWidth mode
  let span ← sidebarWidth.sub tabRightMargin
  let span ← span.sub treeActionInset
  let span ← span.sub actionWidth
  let span ← span.sub treeTextGap
  let span ← span.sub treeMinTextWidth
  let span ← span.sub (.lit 20)
  let span ← span.sub treeAnchorLeft
  let availableAnchorSpan := max span 0
  (← availableAnchorSpan.div (castI32 maxTreeDepth)).clamp treeMinResponsiveIndent treeIndent

def treeConnectorX (depth : Nat) (sidebarWidth : I32) (mode : TreeRowMode) : Option I32 := do
  let depth := min depth maxTreeDepth
  let indent ← responsiveTreeIndent sidebarWidth mode
  treeAnchorLeft.add (← (castI32 depth).mul indent)

/-! ## The actions -/

/-- The width that an action gets of a budget. -/
def actionWidth (desired desiredTotal widthBudget : I32) : Option I32 :=
  if desiredTotal.val ≤ widthBudget.val then
    some desired
  else if desiredTotal.val = 0 then
    some 0
  else do
    (← desired.mul widthBudget).div desiredTotal

/-- There are two actions in either mode, so the loops over them are written out. -/
def treeRowActions (row : PixelRect) (mode : TreeRowMode) : Option TreeRowActionGeometry := do
  let density : TreeRowActionDensity :=
    if (← row.right.add tabRightMargin).val < treeCompactActionThreshold.val then .compact else .full
  let desired := desiredWidths mode density
  let right := max (← row.right.sub treeActionInset) row.left
  let available := max (← right.sub row.left) 0
  let gap := min treeActionGap (← available.div (.lit 2))
  let widthBudget := max (← available.sub gap) 0
  let desiredTotal ← desired.1.add desired.2
  let firstWidth ← actionWidth desired.1 desiredTotal widthBudget
  let secondWidth ← actionWidth desired.2 desiredTotal widthBudget
  let assigned ← firstWidth.add secondWidth
  let firstLeft ← (← right.sub assigned).sub gap
  let top := min (← row.top.add treeActionTopInset) row.bottom
  let bottom := max (← row.bottom.sub treeActionTopInset) top
  let firstRight ← firstLeft.add firstWidth
  let first := rect firstLeft top firstRight bottom
  let secondLeft ← first.right.add gap
  let secondRight ← secondLeft.add secondWidth
  let second := rect secondLeft top secondRight bottom
  let bounds := rect first.left top second.right bottom
  match mode with
  | .normal =>
    some
      { bounds, density, addChild := some first,
        primary := rect first.right top first.right bottom, secondary := second }
  | .editing => some { bounds, density, addChild := none, primary := first, secondary := second }

/-! ## The row -/

def treeRowGeometryImpl (visualPosition : Nat) (nodeX sidebarWidth : I32) (mode : TreeRowMode) :
    Option TreeRowGeometry := do
  let top ← tabTop.add (← (castI32 visualPosition).mul tabHeight)
  let nodeY ← top.add nodeYOffset
  let selectionRight ← sidebarWidth.sub tabRightMargin
  let bottom ← top.add tabHeight
  let selectionBottom ← bottom.sub (.lit 1)
  let selection := rect tabLeft top (max selectionRight tabLeft) selectionBottom
  let actions ← treeRowActions selection mode
  let textLeft ← (← nodeX.add (.lit 17)).clamp selection.left selection.right
  let textRight ← (← actions.bounds.left.sub treeTextGap).clamp textLeft selection.right
  let text := rect textLeft (← top.add (.lit 1)) textRight (← selection.bottom.sub (.lit 1))
  let middle ← top.add (.lit 18)
  let name := rect text.left text.top text.right (min middle text.bottom)
  let note := rect text.left (min middle text.bottom) text.right text.bottom
  let editors := if mode = .editing then some { name, note : TreeRowEditorGeometry } else none
  let expander := rect (← nodeX.sub (.lit 5)) (← nodeY.sub (.lit 5)) (← nodeX.add (.lit 6))
    (← nodeY.add (.lit 6))
  let status := rect (← nodeX.add (.lit 8)) (← nodeY.sub (.lit 4)) (← nodeX.add (.lit 16))
    (← nodeY.add (.lit 5))
  let disclosureHit := rect (← nodeX.sub (.lit 6)) top (← nodeX.add (.lit 12)) bottom
  some
    { mode, row := selection, selection, nodeX, nodeY, expander, status, disclosureHit, text, name,
      note, editors, actions }

def treeRowGeometryForMode (visualPosition depth : Nat) (sidebarWidth : I32) (mode : TreeRowMode) :
    Option TreeRowGeometry := do
  treeRowGeometryImpl visualPosition (← treeConnectorX depth sidebarWidth mode) sidebarWidth mode

def PixelRect.translate (r : PixelRect) (deltaX deltaY : I32) : Option PixelRect := do
  let left ← r.left.add deltaX
  let right ← r.right.add deltaX
  let top ← r.top.add deltaY
  let bottom ← r.bottom.add deltaY
  some { left, top, right, bottom }

def TreeRowActionGeometry.translate (actions : TreeRowActionGeometry) (deltaX deltaY : I32) :
    Option TreeRowActionGeometry := do
  let bounds ← actions.bounds.translate deltaX deltaY
  let addChild ← actions.addChild.mapM fun bounds => bounds.translate deltaX deltaY
  let primary ← actions.primary.translate deltaX deltaY
  let secondary ← actions.secondary.translate deltaX deltaY
  some { actions with bounds, addChild, primary, secondary }

def TreeRowEditorGeometry.translate (editors : TreeRowEditorGeometry) (deltaX deltaY : I32) :
    Option TreeRowEditorGeometry := do
  let name ← editors.name.translate deltaX deltaY
  let note ← editors.note.translate deltaX deltaY
  some { name, note }

def translateTreeRowGeometry (geometry : TreeRowGeometry) (deltaX deltaY : I32) :
    Option TreeRowGeometry := do
  let row ← geometry.row.translate deltaX deltaY
  let selection ← geometry.selection.translate deltaX deltaY
  let nodeX ← geometry.nodeX.add deltaX
  let nodeY ← geometry.nodeY.add deltaY
  let expander ← geometry.expander.translate deltaX deltaY
  let status ← geometry.status.translate deltaX deltaY
  let disclosureHit ← geometry.disclosureHit.translate deltaX deltaY
  let text ← geometry.text.translate deltaX deltaY
  let name ← geometry.name.translate deltaX deltaY
  let note ← geometry.note.translate deltaX deltaY
  let editors ← geometry.editors.mapM fun editors => editors.translate deltaX deltaY
  let actions ← geometry.actions.translate deltaX deltaY
  some
    { geometry with
      row, selection, nodeX, nodeY, expander, status, disclosureHit, text, name, note, editors,
      actions }

def sidebarTreeRowGeometry (sidebarTree : PixelRect) (viewportPosition depth : Nat)
    (mode : TreeRowMode) : Option TreeRowGeometry := do
  let contentLeft := min (← sidebarTree.left.add terminalScrollbarWidth) sidebarTree.right
  let contentWidth := max (← sidebarTree.right.sub contentLeft) 0
  let geometry ← treeRowGeometryForMode viewportPosition depth contentWidth mode
  translateTreeRowGeometry geometry contentLeft sidebarTree.top

/-- The row at a height: the outer option is the machine's, the inner one the function's. -/
def treeRowAtY (y treeTop : I32) : Option (Option Nat) := do
  let localY ← y.sub treeTop
  let row ← (← localY.sub tabTop).div tabHeight
  some (if tabTop.val ≤ localY.val then some (castUsize row.val) else none)

end Agenterm.UiGeometry
