import Mathlib.Algebra.Order.Ring.Rat
import Mathlib.Data.List.Sort
import Mathlib.Data.Rat.Floor

/-!
# Window placement

`place` of `place/geometry.rs` and `clamp` of `place/apply.rs`, computed over exact rationals. The
`y` axis points up, so that the bottom edge of a rectangle is its `y`.
-/

namespace Agenterm.Cu.Place

inductive PlaceAction where
  | center
  | fullscreen
  | leftHalf
  | rightHalf
  | topHalf
  | bottomHalf
  | upperLeft
  | lowerLeft
  | upperRight
  | lowerRight
  | nextThird
  | previousThird
  | nextDisplay
  | previousDisplay
  | larger
  | smaller
  | undo
  | redo
deriving DecidableEq

def PlaceAction.isHistory : PlaceAction → Bool
  | .undo | .redo => true
  | _ => false

def PlaceAction.isDisplayWalk : PlaceAction → Bool
  | .nextDisplay | .previousDisplay => true
  | _ => false

/-! ## Numbers -/

/-- `f64::floor`. -/
def floor (q : ℚ) : ℚ := ⌊q⌋

/-- `f64::round`: half away from zero. -/
def round (q : ℚ) : ℚ := if 0 ≤ q then ⌊q + 1 / 2⌋ else ⌈q - 1 / 2⌉

/-- The remainder by 2, with the sign of the dividend. -/
def remTwo (q : ℚ) : ℚ := q - 2 * (if 0 ≤ q then (⌊q / 2⌋ : ℚ) else ⌈q / 2⌉)

/-! ## Rectangles -/

structure Rect where
  x : ℚ
  y : ℚ
  width : ℚ
  height : ℚ
deriving DecidableEq

namespace Rect

def midX (rect : Rect) : ℚ := rect.x + rect.width / 2

def midY (rect : Rect) : ℚ := rect.y + rect.height / 2

def maxX (rect : Rect) : ℚ := rect.x + rect.width

def maxY (rect : Rect) : ℚ := rect.y + rect.height

def area (rect : Rect) : ℚ := max (rect.width * rect.height) 0

def contains (rect inner : Rect) : Bool :=
  rect.x ≤ inner.x && rect.y ≤ inner.y && inner.maxX ≤ rect.maxX && inner.maxY ≤ rect.maxY

def intersection (rect other : Rect) : Option Rect :=
  let x := max rect.x other.x
  let y := max rect.y other.y
  let maxX := min rect.maxX other.maxX
  let maxY := min rect.maxY other.maxY
  if x < maxX ∧ y < maxY then some ⟨x, y, maxX - x, maxY - y⟩ else none

def centeredWithin (rect outer : Rect) : Bool :=
  outer.contains rect && |rect.midX - outer.midX| ≤ 1 && |rect.midY - outer.midY| ≤ 1

def fitsWithin (rect outer : Rect) : Bool :=
  rect.width ≤ outer.width && rect.height ≤ outer.height

end Rect

structure Screen where
  visible : Rect
  frame : Rect
deriving DecidableEq

/-! ## Screens -/

/-- The order of `screens_in_consistent_order`: the screen at the origin first, then downwards and
to the left. -/
def screenBefore (a b : Screen) : Bool :=
  match decide (a.frame.x = 0 ∧ a.frame.y = 0), decide (b.frame.x = 0 ∧ b.frame.y = 0) with
  | true, false => true
  | false, true => false
  | _, _ => b.frame.y < a.frame.y || (a.frame.y = b.frame.y && b.frame.x ≤ a.frame.x)

def screensInConsistentOrder (screens : List Screen) : List Screen := screens.mergeSort screenBefore

/-- The loop of `screen_containing`. -/
def bestScreen (window : Rect) (best : Option (ℚ × Screen)) : List Screen → Option Screen
  | [] => best.map Prod.snd
  | screen :: screens =>
    if screen.frame.contains window then some screen
    else
      match window.intersection screen.frame with
      | none => bestScreen window best screens
      | some hit =>
        let share := hit.area / max window.area 1
        if best.all fun (held, _) => held < share then
          bestScreen window (some (share, screen)) screens
        else bestScreen window best screens

def screenContaining (window : Rect) (screens : List Screen) : Option Screen :=
  (bestScreen window none screens).or screens.head?

def nextOrPreviousScreen (source : Screen) (action : PlaceAction) (screens : List Screen) :
    Option Screen :=
  if screens.length ≤ 1 then none
  else
    (screens.findIdx? fun screen =>
        |screen.frame.x - source.frame.x| < 1 / 2 && |screen.frame.y - source.frame.y| < 1 / 2).bind
      fun index =>
        match action with
        | .nextDisplay => screens[(index + 1) % screens.length]?
        | .previousDisplay => screens[(index + screens.length - 1) % screens.length]?
        | _ => some source

/-! ## Halves and corners -/

def center (window visible : Rect) : Rect where
  x := round ((visible.width - window.width) / 2) + visible.x
  y := round ((visible.height - window.height) / 2) + visible.y
  width := window.width
  height := window.height

def cycleLeft (window visible : Rect) : Rect :=
  let half := { visible with width := floor (visible.width / 2) }
  let two := { half with width := floor (visible.width * 2 / 3) }
  let one := { half with width := floor (visible.width / 3) }
  if |window.midY - half.midY| ≤ 1 then
    if window.centeredWithin half then two
    else if window.centeredWithin two then one
    else half
  else half

def cycleRight (window visible : Rect) : Rect :=
  let half := { visible with
    x := visible.x + floor (visible.width / 2)
    width := floor (visible.width / 2) }
  let two := { half with
    x := visible.x + visible.width - floor (visible.width * 2 / 3)
    width := floor (visible.width * 2 / 3) }
  let one := { half with
    x := visible.x + visible.width - floor (visible.width / 3)
    width := floor (visible.width / 3) }
  if |window.midY - half.midY| ≤ 1 then
    if window.centeredWithin half then two
    else if window.centeredWithin two then one
    else half
  else half

def cycleTop (window visible : Rect) : Rect :=
  let half := { visible with
    y := visible.y + (floor (visible.height / 2) + remTwo visible.height)
    height := floor (visible.height / 2) }
  let two := { half with
    y := visible.y + visible.height - floor (visible.height * 2 / 3)
    height := floor (visible.height * 2 / 3) }
  let one := { half with
    y := visible.y + visible.height - floor (visible.height / 3)
    height := floor (visible.height / 3) }
  if |window.midX - half.midX| ≤ 1 then
    if window.centeredWithin half then two
    else if window.centeredWithin two then one
    else half
  else half

def cycleBottom (window visible : Rect) : Rect :=
  let half := { visible with height := floor (visible.height / 2) }
  let two := { half with height := floor (visible.height * 2 / 3) }
  let one := { half with height := floor (visible.height / 3) }
  if |window.midX - half.midX| ≤ 1 then
    if window.centeredWithin half then two
    else if window.centeredWithin two then one
    else half
  else half

def cycleCornerWidth (window visible quarter : Rect) (fromRight : Bool) : Rect :=
  let two := { quarter with
    width := floor (visible.width * 2 / 3)
    x := if fromRight then visible.x + visible.width - floor (visible.width * 2 / 3)
      else quarter.x }
  let one := { quarter with
    width := floor (visible.width / 3)
    x := if fromRight then visible.x + visible.width - floor (visible.width / 3)
      else quarter.x }
  if |window.midY - quarter.midY| ≤ 1 then
    if window.centeredWithin quarter then two
    else if window.centeredWithin two then one
    else quarter
  else quarter

def cycleUpperLeft (window visible : Rect) : Rect :=
  cycleCornerWidth window visible
    { visible with
      width := floor (visible.width / 2)
      height := floor (visible.height / 2)
      y := visible.y + floor (visible.height / 2) + remTwo visible.height } false

def cycleLowerLeft (window visible : Rect) : Rect :=
  cycleCornerWidth window visible
    { visible with
      width := floor (visible.width / 2)
      height := floor (visible.height / 2) } false

def cycleUpperRight (window visible : Rect) : Rect :=
  cycleCornerWidth window visible
    { x := visible.x + floor (visible.width / 2)
      y := visible.y + floor (visible.height / 2) + remTwo visible.height
      width := floor (visible.width / 2)
      height := floor (visible.height / 2) } true

def cycleLowerRight (window visible : Rect) : Rect :=
  cycleCornerWidth window visible
    { visible with
      x := visible.x + floor (visible.width / 2)
      width := floor (visible.width / 2)
      height := floor (visible.height / 2) } true

/-! ## Thirds -/

/-- Three columns from the left, then three rows from the top. -/
def thirds (visible : Rect) : List Rect :=
  let width := floor (visible.width / 3)
  let height := floor (visible.height / 3)
  ([0, 1, 2].map fun i : ℚ => ⟨visible.x + width * i, visible.y, width, visible.height⟩)
    ++ [0, 1, 2].map fun i : ℚ =>
      ⟨visible.x, visible.y + visible.height - height * (i + 1), visible.width, height⟩

/-- The third that stands `offset` behind the one that the window fills, or else the first. -/
def walkThirds (offset : Nat) (window visible : Rect) : Rect :=
  let list := thirds visible
  let found := list.findIdx? fun third => window.centeredWithin third
  (list[found.elim 0 fun index => (index + offset) % list.length]?).getD window

def findNextThird (window visible : Rect) : Rect := walkThirds 1 window visible

/-- `(i + list.len() - 1) % list.len()`, of a list of six. -/
def findPreviousThird (window visible : Rect) : Rect := walkThirds 5 window visible

/-! ## Resizing -/

def againstEdge (gap : ℚ) : Bool := |gap| ≤ 5

def againstLeft (window visible : Rect) : Bool := againstEdge (window.x - visible.x)

def againstRight (window visible : Rect) : Bool := againstEdge (window.maxX - visible.maxX)

def againstTop (window visible : Rect) : Bool := againstEdge (window.maxY - visible.maxY)

def againstBottom (window visible : Rect) : Bool := againstEdge (window.y - visible.y)

def againstAll (window visible : Rect) : Bool :=
  againstLeft window visible && againstRight window visible && againstTop window visible
    && againstBottom window visible

def adjustLeftRight (original resized visible : Rect) : Rect :=
  let right :=
    if againstRight original visible then
      { resized with
        x := visible.maxX - resized.width
        width := if againstLeft original visible then visible.width else resized.width }
    else resized
  if againstLeft original visible then { right with x := visible.x } else right

def adjustTopBottom (original resized visible : Rect) : Rect :=
  let top :=
    if againstTop original visible then
      { resized with
        y := visible.maxY - resized.height
        height := if againstBottom original visible then visible.height else resized.height }
    else resized
  if againstBottom original visible then { top with y := visible.y } else top

def tooSmall (window visible : Rect) : Bool :=
  window.width ≤ floor (visible.width / 4) || window.height ≤ floor (visible.height / 4)

/-- The new width, with its place. -/
def resizeWidth (window visible : Rect) (sizeOffset : ℚ) : Rect :=
  let grown := { window with
    width := window.width + sizeOffset
    x := window.x - floor (sizeOffset / 2) }
  let adjusted := adjustLeftRight window grown visible
  if visible.width ≤ adjusted.width then { adjusted with width := visible.width } else adjusted

/-- The new height of a rectangle, with its place. -/
def resizeHeight (window resized visible : Rect) (sizeOffset : ℚ) : Rect :=
  let grown := { resized with
    height := resized.height + sizeOffset
    y := resized.y - floor (sizeOffset / 2) }
  let adjusted := adjustTopBottom window grown visible
  if visible.height ≤ adjusted.height then
    { adjusted with height := visible.height, y := window.y }
  else adjusted

def resizeWindowRect (window visible : Rect) (sizeOffset : ℚ) : Rect :=
  let resized := resizeHeight window (resizeWidth window visible sizeOffset) visible sizeOffset
  let resized :=
    if againstAll window visible ∧ sizeOffset < 0 then
      { width := window.width + sizeOffset
        x := window.x - floor (sizeOffset / 2)
        height := window.height + sizeOffset
        y := window.y - floor (sizeOffset / 2) }
    else resized
  if tooSmall resized visible then window else resized

/-! ## Placement -/

def calculate (action : PlaceAction) (window dest : Rect) : Rect :=
  match action with
  | .center => center window dest
  | .fullscreen => dest
  | .leftHalf => cycleLeft window dest
  | .rightHalf => cycleRight window dest
  | .topHalf => cycleTop window dest
  | .bottomHalf => cycleBottom window dest
  | .upperLeft => cycleUpperLeft window dest
  | .lowerLeft => cycleLowerLeft window dest
  | .upperRight => cycleUpperRight window dest
  | .lowerRight => cycleLowerRight window dest
  | .nextThird => findNextThird window dest
  | .previousThird => findPreviousThird window dest
  | .nextDisplay | .previousDisplay => if window.fitsWithin dest then center window dest else dest
  | .larger => resizeWindowRect window dest 30
  | .smaller => resizeWindowRect window dest (-30)
  | .undo | .redo => window

def place (action : PlaceAction) (window : Rect) (screens : List Screen) : Option Rect :=
  if action.isHistory then none
  else if screens.isEmpty then none
  else
    let ordered := screensInConsistentOrder screens
    (screenContaining window ordered).bind fun source =>
      (if action.isDisplayWalk then nextOrPreviousScreen source action ordered else some source).map
        fun dest => calculate action window dest.visible

/-- `clamp`: the last step of `apply_rect` moves a window back into the visible frame. -/
def clamp (window visible : Rect) : Rect :=
  { window with
    x := if window.x < visible.x then visible.x
      else if visible.maxX < window.maxX then visible.maxX - window.width
      else window.x
    y := if window.y < visible.y then visible.y
      else if visible.maxY < window.maxY then visible.maxY - window.height
      else window.y }

end Agenterm.Cu.Place
