import Agenterm.Ui.WorkspaceLayout

/-!
# The scrollbar of the sidebar

`SidebarViewport` of `ui_geometry.rs`, and `sidebar_scroll_offset_for_thumb_top` of
`frontend/interaction.rs`, which leads from the thumb back to an offset. Row counts are cast to
signed integers and back.
-/

namespace Agenterm.UiGeometry

open Lib

def terminalScrollbarWidth : I32 := .lit 12

structure TerminalScrollbarGeometry where
  track : PixelRect
  thumb : PixelRect
deriving DecidableEq

structure SidebarViewport where
  rowCount : UInt64
  capacity : UInt64
  requestedOffset : UInt64
deriving DecidableEq

def sidebarScrollbarTrack (sidebarTree : PixelRect) : Option PixelRect := do
  let right ← sidebarTree.left.add terminalScrollbarWidth
  some { sidebarTree with right := min right sidebarTree.right }

/-- `thumb_top`. -/
def sidebarThumbTop (track : PixelRect) (offset maximum : Nat) (travel : I32) : Option I32 :=
  if maximum = 0 then
    some track.top
  else do
    let moved ← checkedI64 (castI64 offset * travel.val)
    track.top.add (castI32 (← divI64 moved (castI64 maximum)))

def sidebarScrollbarGeometry (track : PixelRect) (offset maximum rowCapacity rowCount : Nat) :
    Option TerminalScrollbarGeometry := do
  let trackHeight := max (← track.height) 0
  let total := max rowCount 1
  let visible := max (min rowCapacity total) 1
  let scaled ← checkedI64 (trackHeight.val * castI64 visible)
  let proportional := castI32 (← divI64 scaled (castI64 total))
  let thumbHeight :=
    if maximum = 0 then trackHeight else min (max proportional (.lit 24)) trackHeight
  let travel := max (← trackHeight.sub thumbHeight) 0
  let thumbTop ← sidebarThumbTop track offset maximum travel
  let left ← track.left.add (.lit 2)
  let right ← track.right.sub (.lit 2)
  let bottom ← thumbTop.add thumbHeight
  some { track, thumb := { left, top := thumbTop, right := max right left, bottom } }

namespace SidebarViewport

def maxOffset (viewport : SidebarViewport) : Nat :=
  viewport.rowCount.toNat - viewport.capacity.toNat

def offset (viewport : SidebarViewport) : Nat :=
  min viewport.requestedOffset.toNat viewport.maxOffset

def scrollbar (viewport : SidebarViewport) (sidebarTree : PixelRect) :
    Option (TerminalScrollbarGeometry × Nat × Nat) := do
  let track ← sidebarScrollbarTrack sidebarTree
  let maximum := viewport.maxOffset
  let offset := viewport.offset
  let geometry ← sidebarScrollbarGeometry track offset maximum viewport.capacity.toNat
    viewport.rowCount.toNat
  some (geometry, offset, maximum)

end SidebarViewport

def sidebarScrollOffsetForThumbTop (geometry : TerminalScrollbarGeometry) (thumbTop : I32)
    (maximum : Nat) : Option Nat := do
  let thumbHeight ← geometry.thumb.height
  let travel ← (← geometry.track.height).sub thumbHeight
  if maximum = 0 || travel.val ≤ 0 then
    some 0
  else do
    let top ← thumbTop.clamp geometry.track.top (← geometry.track.bottom.sub thumbHeight)
    let distance ← top.sub geometry.track.top
    let scaled ← checkedI64 (distance.val * castI64 maximum)
    let rounded ← checkedI64 (scaled + travel.val.tdiv 2)
    some (castUsize (← divI64 rounded travel.val))

end Agenterm.UiGeometry
