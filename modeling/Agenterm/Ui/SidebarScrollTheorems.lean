import Agenterm.Ui.SidebarScroll
import Mathlib.Tactic.Linarith

/-!
# The thumb and its offset

The offset is scaled to the travel of the thumb and rounded down, the way back rounds to the nearest
offset. Where the travel is at least twice the number of offsets, what was cut off is less than half
of a step, so the way back returns the offset (`nearest_scaled`).
-/

namespace Agenterm.UiGeometry

open Lib

/-! ## Scaling and rounding -/

section
variable {offset maximum travel distance : Int}

/-- An offset scaled to the travel. -/
def scaledOffset (offset maximum travel : Int) : Int := offset * travel / maximum

/-- The offset whose scaled place is nearest, rounding up from the middle. -/
def nearestOffset (distance maximum travel : Int) : Int := (distance * maximum + travel / 2) / travel

lemma scaledOffset_nonneg (hoffset : 0 ≤ offset) (hmax : 0 < maximum) (htravel : 0 ≤ travel) :
    0 ≤ scaledOffset offset maximum travel :=
  Int.ediv_nonneg (Int.mul_nonneg hoffset htravel) hmax.le

lemma scaledOffset_le (hle : offset ≤ maximum) (hmax : 0 < maximum) (htravel : 0 ≤ travel) :
    scaledOffset offset maximum travel ≤ travel := by
  have hscaled : offset * travel ≤ travel * maximum := by
    rw [Int.mul_comm travel]
    exact Int.mul_le_mul_of_nonneg_right hle htravel
  exact Int.ediv_le_of_le_mul hmax hscaled

lemma nearestOffset_mono {d e : Int} (h : d ≤ e) (hmax : 0 ≤ maximum) (htravel : 0 < travel) :
    nearestOffset d maximum travel ≤ nearestOffset e maximum travel := by
  have hscaled : d * maximum ≤ e * maximum := Int.mul_le_mul_of_nonneg_right h hmax
  exact Int.ediv_le_ediv htravel (by omega)

lemma nearestOffset_zero (htravel : 0 < travel) : nearestOffset 0 maximum travel = 0 := by
  unfold nearestOffset
  exact Int.ediv_eq_zero_of_lt (by omega) (by omega)

lemma nearestOffset_travel (htravel : 0 < travel) :
    nearestOffset travel maximum travel = maximum := by
  unfold nearestOffset
  rw [Int.add_comm, Int.add_mul_ediv_left _ _ (by omega), Int.ediv_eq_zero_of_lt (by omega) (by omega),
    Int.zero_add]

/-- The way back from a scaled offset: the scaling cuts off less than `maximum`, that is no more than
half of the travel. -/
lemma nearest_scaled (hmax : 0 < maximum) (htravel : 0 < travel) (hroom : 2 * maximum ≤ travel) :
    nearestOffset (scaledOffset offset maximum travel) maximum travel = offset := by
  have hcut := Int.emod_add_mul_ediv (offset * travel) maximum
  have hlow := Int.emod_nonneg (offset * travel) hmax.ne'
  have hhigh := Int.emod_lt_of_pos (offset * travel) hmax
  have hscaled : scaledOffset offset maximum travel * maximum =
      offset * travel - offset * travel % maximum := by
    unfold scaledOffset
    rw [Int.mul_comm]
    omega
  unfold nearestOffset
  rw [hscaled, show offset * travel - offset * travel % maximum + travel / 2 =
    travel / 2 - offset * travel % maximum + travel * offset by rw [Int.mul_comm travel]; omega,
    Int.add_mul_ediv_left _ _ htravel.ne', Int.ediv_eq_zero_of_lt (by omega) (by omega), Int.zero_add]

end

/-! ## What is rendered -/

/-- A track that is not inverted, wide enough for the margins of the thumb, with a height and a
number of rows that are multiplied without overflow. -/
structure Roomy (tree : PixelRect) (viewport : SidebarViewport) : Prop where
  fitsRight : tree.left.val + 12 ≤ 2147483647
  wide : tree.left.val + 2 ≤ tree.right.val
  high : tree.top.val ≤ tree.bottom.val
  fitsHeight : tree.bottom.val - tree.top.val ≤ 2147483647
  fitsRows : (viewport.rowCount.toNat : Int) ≤ 9223372036854775807
  fitsScaled : ((viewport.rowCount.toNat : Int) + 1) * (tree.bottom.val - tree.top.val) ≤
    9223372036854775807

/-- A product of a count and a distance along the track. -/
lemma Roomy.product_fits {tree : PixelRect} {viewport : SidebarViewport} (h : Roomy tree viewport)
    {count distance : Int} (hcount : 0 ≤ count) (hcount' : count ≤ viewport.rowCount.toNat + 1)
    (hdistance : 0 ≤ distance) (hdistance' : distance ≤ tree.bottom.val - tree.top.val) :
    0 ≤ distance * count ∧ distance * count ≤ 9223372036854775807 := by
  have hscaled := h.fitsScaled
  have hproduct : count * distance ≤
      ((viewport.rowCount.toNat : Int) + 1) * (tree.bottom.val - tree.top.val) :=
    Int.mul_le_mul hcount' hdistance' hdistance (by omega)
  rw [Int.mul_comm distance]
  exact ⟨Int.mul_nonneg hcount hdistance, by omega⟩

/-- The counts are cast without loss. -/
lemma Roomy.cast_count {tree : PixelRect} {viewport : SidebarViewport} (h : Roomy tree viewport)
    {count : Nat} (hcount : count ≤ max viewport.rowCount.toNat 1) :
    castI64 count = count := by
  have hrows := h.fitsRows
  exact castI64_of_fits (by omega) (by omega)

/-- The thumb of a height stands on its track at a distance from the top. -/
structure Rendered (geometry : TerminalScrollbarGeometry) (distance height : Int) : Prop where
  left : geometry.thumb.left.val = geometry.track.left.val + 2
  right : geometry.thumb.right.val =
    max (geometry.track.right.val - 2) (geometry.track.left.val + 2)
  top : geometry.thumb.top.val = geometry.track.top.val + distance
  bottom : geometry.thumb.bottom.val = geometry.thumb.top.val + height
  distance_nonneg : 0 ≤ distance
  height_nonneg : 0 ≤ height
  fits : distance + height ≤ geometry.track.bottom.val - geometry.track.top.val

/-- Where the thumb stands: the scaled offset, if there is something to scroll. -/
def thumbDistance (offset maximum : Nat) (travel : Int) : Int :=
  if maximum = 0 then 0 else scaledOffset offset maximum travel

lemma thumbDistance_bounds {offset maximum : Nat} {travel : Int} (hle : offset ≤ maximum)
    (htravel : 0 ≤ travel) :
    0 ≤ thumbDistance offset maximum travel ∧ thumbDistance offset maximum travel ≤ travel := by
  unfold thumbDistance
  by_cases hmax : maximum = 0
  · rw [if_pos hmax]
    omega
  · rw [if_neg hmax]
    have hpos : (0 : Int) < maximum := by omega
    exact ⟨scaledOffset_nonneg (by omega) hpos htravel,
      scaledOffset_le (by omega) hpos htravel⟩

variable {geometry : TerminalScrollbarGeometry} {height : Int} {track : PixelRect}

section
variable {tree : PixelRect} {viewport : SidebarViewport}

lemma offset_le_max : viewport.offset ≤ viewport.maxOffset := Nat.min_le_right _ _

lemma max_le_rows : viewport.maxOffset ≤ viewport.rowCount.toNat := Nat.sub_le _ _

lemma track_returns (h : Roomy tree viewport) :
    Returns (sidebarScrollbarTrack tree) fun track => track.left = tree.left ∧
      track.top = tree.top ∧ track.bottom = tree.bottom ∧
        track.left.val + 2 ≤ track.right.val := by
  have hlow := tree.left.low
  have hright := h.fitsRight
  have hwide := h.wide
  have hwidth : terminalScrollbarWidth.val = 12 := rfl
  unfold sidebarScrollbarTrack
  apply (I32.add_returns (by omega)).bind
  intro right hsum
  apply Returns.pure
  refine ⟨rfl, rfl, rfl, ?_⟩
  show tree.left.val + 2 ≤ min right.val tree.right.val
  omega

/-- The place of the thumb on its travel. -/
lemma thumbTop_returns (h : Roomy tree viewport) {travel : I32} (htop : track.top = tree.top)
    (htravel : 0 ≤ travel.val) (hle : travel.val ≤ tree.bottom.val - tree.top.val) :
    Returns (sidebarThumbTop track viewport.offset viewport.maxOffset travel) fun thumbTop =>
      thumbTop.val =
        track.top.val + thumbDistance viewport.offset viewport.maxOffset travel.val := by
  have hoffset := @offset_le_max viewport
  have hmax := @max_le_rows viewport
  have hrows := h.fitsRows
  have hlow := tree.top.low
  have hend := tree.bottom.high
  have hheight := h.fitsHeight
  have hbounds := thumbDistance_bounds hoffset htravel
  unfold sidebarThumbTop
  rw [htop]
  unfold thumbDistance at hbounds ⊢
  by_cases hzero : viewport.maxOffset = 0
  · rw [if_pos hzero, if_pos hzero]
    exact Returns.pure (by omega)
  · rw [if_neg hzero, if_neg hzero, castI64_of_fits (by omega) (by omega),
      castI64_of_fits (by omega) (by omega)]
    rw [if_neg hzero] at hbounds
    obtain ⟨hlow', hhigh'⟩ := @Roomy.product_fits _ _ h viewport.offset travel.val (by omega)
      (by omega) htravel hle
    rw [Int.mul_comm] at hlow' hhigh'
    apply (checkedI64_returns ⟨by omega, hhigh'⟩).bind
    intro moved hmoved
    subst hmoved
    apply (divI64_returns hlow' ⟨by omega, hhigh'⟩ (by omega)).bind
    intro distance hdistance
    have hscaled : distance = scaledOffset viewport.offset viewport.maxOffset travel.val := hdistance
    have hcast : (castI32 distance).val = distance := castI32_of_fits (by omega)
    apply (I32.add_returns (by omega)).imp
    intro thumbTop hthumb
    rw [hthumb, hcast, hscaled]

/-- The scrollbar of a viewport is drawn, its thumb as far down as its offset says. -/
lemma geometry_returns (h : Roomy tree viewport) (htop : track.top = tree.top)
    (hbottom : track.bottom = tree.bottom) (hwide : track.left.val + 2 ≤ track.right.val) :
    Returns (sidebarScrollbarGeometry track viewport.offset viewport.maxOffset
        viewport.capacity.toNat viewport.rowCount.toNat) fun geometry =>
      geometry.track = track ∧ ∃ height, Rendered geometry
        (thumbDistance viewport.offset viewport.maxOffset
          (tree.bottom.val - tree.top.val - height)) height := by
  have hoffset := @offset_le_max viewport
  have hmax := @max_le_rows viewport
  have hhigh := h.high
  have hrows := h.fitsRows
  have hlow := track.left.low
  have hend := track.right.high
  have hfits := h.fitsHeight
  unfold sidebarScrollbarGeometry
  have hdiff : track.bottom.val - track.top.val = tree.bottom.val - tree.top.val := by
    rw [htop, hbottom]
  apply (I32.sub_returns (by omega)).bind
  intro height hheight
  have htrack : (max height 0).val = tree.bottom.val - tree.top.val := by
    rw [I32.val_max, I32.val_zero]
    omega
  generalize max height 0 = trackHeight at htrack
  simp only
  have htotal : 1 ≤ max viewport.rowCount.toNat 1 := Nat.le_max_right _ _
  have hvisible : max (min viewport.capacity.toNat (max viewport.rowCount.toNat 1)) 1 ≤
      max viewport.rowCount.toNat 1 := Nat.max_le.mpr ⟨Nat.min_le_right _ _, htotal⟩
  rw [h.cast_count (le_refl _), h.cast_count hvisible]
  have hcount : max viewport.rowCount.toNat 1 ≤ viewport.rowCount.toNat + 1 := by omega
  generalize max viewport.rowCount.toNat 1 = total at *
  generalize max (min viewport.capacity.toNat total) 1 = visible at *
  obtain ⟨hproduct, hproduct'⟩ := @Roomy.product_fits _ _ h visible trackHeight.val (by omega)
    (by omega) (by omega) (by omega)
  apply (checkedI64_returns ⟨by omega, hproduct'⟩).bind
  intro scaled hscaled
  apply (divI64_returns (by omega) (by omega) (by omega)).bind
  intro proportional _
  -- whatever the proportion is, the height is between nothing and that of the track
  generalize hthumb : (if viewport.maxOffset = 0 then trackHeight
    else min (max (castI32 proportional) (.lit 24)) trackHeight) = thumbHeight
  have hbounds : 0 ≤ thumbHeight.val ∧ thumbHeight.val ≤ trackHeight.val := by
    rw [← hthumb]
    split
    · omega
    · simp only [I32.val_min, I32.val_max, I32.val_lit]
      omega
  apply (I32.sub_returns (by omega)).bind
  intro travel htravel
  have htravel' : (max travel 0).val = tree.bottom.val - tree.top.val - thumbHeight.val := by
    rw [I32.val_max, I32.val_zero]
    omega
  have hdistance := @thumbDistance_bounds viewport.offset viewport.maxOffset
    (tree.bottom.val - tree.top.val - thumbHeight.val) hoffset (by omega)
  apply (thumbTop_returns h htop (by omega) (by omega)).bind
  intro thumbTop hthumbTop
  rw [htravel'] at hthumbTop
  have htoplow := tree.top.low
  have hbottomhigh := tree.bottom.high
  apply (I32.add_returns (by simp only [I32.val_lit]; omega)).bind
  intro left hleft
  apply (I32.sub_returns (by simp only [I32.val_lit]; omega)).bind
  intro right hright
  apply (I32.add_returns (by rw [hthumbTop, htop]; omega)).bind
  intro bottom hbottom'
  apply Returns.pure
  refine ⟨rfl, thumbHeight.val, ?_⟩
  exact {
    left := hleft
    right := by
      show max right.val left.val = _
      rw [hright, hleft]
      rfl
    top := hthumbTop
    bottom := hbottom'
    distance_nonneg := hdistance.1
    height_nonneg := hbounds.1
    fits := by
      show _ ≤ track.bottom.val - track.top.val
      omega }

/-- What a viewport shows. -/
lemma scrollbar_returns (h : Roomy tree viewport) :
    Returns (viewport.scrollbar tree) fun result =>
      result.2 = (viewport.offset, viewport.maxOffset) ∧
        result.1.track.top = tree.top ∧ result.1.track.bottom = tree.bottom ∧
          result.1.track.left.val + 2 ≤ result.1.track.right.val ∧
            ∃ height, Rendered result.1 (thumbDistance viewport.offset viewport.maxOffset
              (tree.bottom.val - tree.top.val - height)) height := by
  unfold SidebarViewport.scrollbar
  apply (track_returns h).bind
  intro track ⟨_, htop, hbottom, hwide⟩
  apply (geometry_returns h htop hbottom hwide).bind
  intro geometry ⟨htrack, hrendered⟩
  apply Returns.pure
  refine ⟨rfl, ?_, ?_, ?_, hrendered⟩
  · rw [htrack, htop]
  · rw [htrack, hbottom]
  · rw [htrack]
    exact hwide

/-! ## The way back -/

/-- The way that the thumb has. -/
def TerminalScrollbarGeometry.travel (geometry : TerminalScrollbarGeometry) : Int :=
  geometry.track.bottom.val - geometry.track.top.val -
    (geometry.thumb.bottom.val - geometry.thumb.top.val)

/-- The distance of a thumb that is kept on its track. -/
def clampedDistance (geometry : TerminalScrollbarGeometry) (thumbTop : I32) : Int :=
  max 0 (min (thumbTop.val - geometry.track.top.val) geometry.travel)

variable {maximum : Nat}

/-- A thumb that travels on its track leads to the nearest offset. -/
lemma offsetForThumbTop_returns {distance : Int} (h : Rendered geometry distance height)
    (hfits : geometry.track.bottom.val - geometry.track.top.val ≤ 2147483647)
    (hmax : (maximum : Int) ≤ 9223372036854775807)
    (hscaled : ((maximum : Int) + 1) * (geometry.track.bottom.val - geometry.track.top.val) ≤
      9223372036854775807) (thumbTop : I32) :
    Returns (sidebarScrollOffsetForThumbTop geometry thumbTop maximum) fun offset =>
      (offset : Int) =
        if maximum = 0 ∨ geometry.travel ≤ 0 then
          0
        else
          nearestOffset (clampedDistance geometry thumbTop) maximum geometry.travel := by
  have hnonneg := h.height_nonneg
  have hdistance := h.distance_nonneg
  have hroom := h.fits
  have hthumb : geometry.thumb.bottom.val - geometry.thumb.top.val = height := by
    rw [h.bottom]
    omega
  have hlow := geometry.track.top.low
  have hhigh := geometry.track.bottom.high
  unfold sidebarScrollOffsetForThumbTop
  apply (I32.sub_returns (by omega)).bind
  intro thumbHeight hthumbHeight
  apply (I32.sub_returns (by omega)).bind
  intro trackHeight htrackHeight
  apply (I32.sub_returns (by omega)).bind
  intro travel htravel
  have htravel' : travel.val = geometry.travel := by
    unfold TerminalScrollbarGeometry.travel
    omega
  have htravelHigh : geometry.travel ≤
      geometry.track.bottom.val - geometry.track.top.val := by
    unfold TerminalScrollbarGeometry.travel
    omega
  rw [htravel']
  by_cases hzero : maximum = 0 ∨ geometry.travel ≤ 0
  · rw [if_pos (by simpa using hzero), if_pos hzero]
    exact Returns.pure rfl
  · rw [if_neg (by simpa using hzero), if_neg hzero]
    have hpos : 0 < geometry.travel := by omega
    apply (I32.sub_returns (by omega)).bind
    intro lowest hlowest
    apply (I32.clamp_returns (by omega)).bind
    intro top htop
    apply (I32.sub_returns (by omega)).bind
    intro moved hmoved
    have hclamped : moved.val = clampedDistance geometry thumbTop := by
      unfold clampedDistance
      omega
    have hbounds : 0 ≤ moved.val ∧ moved.val ≤ geometry.travel := by omega
    have hproduct : 0 ≤ moved.val * maximum := Int.mul_nonneg hbounds.1 (by omega)
    have hrounded : moved.val * maximum + geometry.travel / 2 ≤ 9223372036854775807 := by
      have hle : moved.val * maximum ≤
          (geometry.track.bottom.val - geometry.track.top.val) * maximum :=
        Int.mul_le_mul_of_nonneg_right (by omega) (by omega)
      rw [Int.add_mul, Int.mul_comm (maximum : Int)] at hscaled
      omega
    rw [castI64_of_fits (by omega) hmax]
    apply (checkedI64_returns (by omega)).bind
    intro scaled hscaled'
    rw [Int.tdiv_eq_ediv_of_nonneg hpos.le]
    apply (checkedI64_returns (by omega)).bind
    intro rounded hrounded'
    apply (divI64_returns (by omega) (by omega) hpos).bind
    intro offset hoffset
    apply Returns.pure
    have hself : offset ≤ rounded := by
      rw [hoffset]
      exact Int.ediv_le_self _ (by omega)
    have hnat : 0 ≤ offset := by
      rw [hoffset]
      exact Int.ediv_nonneg (by omega) hpos.le
    rw [castUsize_of_fits hnat (by omega), hoffset, hrounded', hscaled', hclamped]
    rfl

/-- A rectangle in another one, and not inverted. -/
structure Within (inner outer : PixelRect) : Prop where
  left : outer.left.val ≤ inner.left.val
  across : inner.left.val ≤ inner.right.val
  right : inner.right.val ≤ outer.right.val
  top : outer.top.val ≤ inner.top.val
  down : inner.top.val ≤ inner.bottom.val
  bottom : inner.bottom.val ≤ outer.bottom.val

/-- What grabbing a thumb that was rendered from an offset may do. -/
structure Drags (geometry : TerminalScrollbarGeometry) (offset maximum : Nat) : Prop where
  bounded : ∀ thumbTop, Returns (sidebarScrollOffsetForThumbTop geometry thumbTop maximum)
    fun found => found ≤ maximum
  monotone : ∀ a b : I32, a.val ≤ b.val →
    Returns (sidebarScrollOffsetForThumbTop geometry a maximum) fun first =>
      Returns (sidebarScrollOffsetForThumbTop geometry b maximum) fun second => first ≤ second
  atTop : ∀ thumbTop : I32, thumbTop.val ≤ geometry.track.top.val →
    sidebarScrollOffsetForThumbTop geometry thumbTop maximum = some 0
  atBottom : ∀ thumbTop : I32, 0 < geometry.travel →
    geometry.track.top.val + geometry.travel ≤ thumbTop.val →
      sidebarScrollOffsetForThumbTop geometry thumbTop maximum = some maximum
  exactly : 0 < geometry.travel → 2 * (maximum : Int) ≤ geometry.travel →
    sidebarScrollOffsetForThumbTop geometry geometry.thumb.top maximum = some offset

/-- A rendered thumb is dragged within the offsets, in their order, and at rest keeps its own. -/
lemma drags_of_rendered {offset : Nat}
    (h : Rendered geometry (thumbDistance offset maximum geometry.travel) height)
    (hoffset : offset ≤ maximum)
    (hfits : geometry.track.bottom.val - geometry.track.top.val ≤ 2147483647)
    (hmax : (maximum : Int) ≤ 9223372036854775807)
    (hscaled : ((maximum : Int) + 1) * (geometry.track.bottom.val - geometry.track.top.val) ≤
      9223372036854775807) : Drags geometry offset maximum := by
  have hreturns := offsetForThumbTop_returns h hfits hmax hscaled
  have hmax' : (0 : Int) ≤ maximum := by omega
  constructor
  · intro thumbTop
    apply (hreturns thumbTop).imp
    intro found hfound
    split at hfound
    · omega
    · have hpos : 0 < geometry.travel := by omega
      have hle : clampedDistance geometry thumbTop ≤ geometry.travel := by
        unfold clampedDistance
        omega
      have hlast := nearestOffset_mono hle hmax' hpos
      rw [nearestOffset_travel hpos] at hlast
      omega
  · intro a b hab
    apply (hreturns a).imp
    intro first hfirst
    apply (hreturns b).imp
    intro second hsecond
    split at hfirst
    · omega
    · next hsome =>
      rw [if_neg hsome] at hsecond
      have hle : clampedDistance geometry a ≤ clampedDistance geometry b := by
        unfold clampedDistance
        omega
      have hmono := @nearestOffset_mono maximum geometry.travel _ _ hle hmax' (by omega)
      omega
  · intro thumbTop htop
    apply (hreturns thumbTop).eq_some
    intro found hfound
    split at hfound
    · omega
    · have hclamped : clampedDistance geometry thumbTop = 0 := by
        unfold clampedDistance
        omega
      rw [hclamped, nearestOffset_zero (by omega)] at hfound
      omega
  · intro thumbTop hpos hbottom
    apply (hreturns thumbTop).eq_some
    intro found hfound
    split at hfound
    · omega
    · have hclamped : clampedDistance geometry thumbTop = geometry.travel := by
        unfold clampedDistance
        omega
      rw [hclamped, nearestOffset_travel hpos] at hfound
      omega
  · intro hpos hroom
    apply (hreturns geometry.thumb.top).eq_some
    intro found hfound
    split at hfound
    · omega
    · have hnonzero : maximum ≠ 0 := by omega
      have hbounds := thumbDistance_bounds hoffset hpos.le
      have hclamped : clampedDistance geometry geometry.thumb.top =
          scaledOffset offset maximum geometry.travel := by
        have htop := h.top
        unfold clampedDistance
        unfold thumbDistance at htop hbounds
        rw [if_neg hnonzero] at htop hbounds
        omega
      rw [hclamped, nearest_scaled (by omega) hpos hroom] at hfound
      omega

/-- A rendered thumb stands on its track, and drags as it should. -/
theorem sidebar_scroll_consistent (h : Roomy tree viewport) :
    Returns (viewport.scrollbar tree) fun result => result.2 = (viewport.offset, viewport.maxOffset) ∧
      Within result.1.thumb result.1.track ∧ Drags result.1 viewport.offset viewport.maxOffset := by
  have hmax := @max_le_rows viewport
  have hrows := h.fitsRows
  have hscaled := h.fitsScaled
  have hfits := h.fitsHeight
  have hhigh := h.high
  apply (scrollbar_returns h).imp
  intro result ⟨hresult, htop, hbottom, hwide, height, hrendered⟩
  have hleft := hrendered.left
  have hright := hrendered.right
  have hthumbTop := hrendered.top
  have hthumbBottom := hrendered.bottom
  have hdistance := hrendered.distance_nonneg
  have hheight := hrendered.height_nonneg
  have hroom := hrendered.fits
  have htravel : tree.bottom.val - tree.top.val - height = result.1.travel := by
    unfold TerminalScrollbarGeometry.travel
    rw [htop, hbottom]
    omega
  refine ⟨hresult, by constructor <;> omega, ?_⟩
  rw [htravel] at hrendered
  rw [← htop, ← hbottom] at hscaled hfits
  apply drags_of_rendered hrendered offset_le_max hfits (by omega)
  have hle : ((viewport.maxOffset : Int) + 1) *
      (result.1.track.bottom.val - result.1.track.top.val) ≤
        ((viewport.rowCount.toNat : Int) + 1) *
          (result.1.track.bottom.val - result.1.track.top.val) :=
    Int.mul_le_mul_of_nonneg_right (by omega) (by omega)
  exact hle.trans hscaled

end

/-- Thirty rows in a column that shows ten. -/
theorem sidebar_scroll_consistent_column :
    Returns (SidebarViewport.scrollbar ⟨30, 10, 5⟩ (rect (.lit 0) (.lit 0) (.lit 200) (.lit 400)))
      fun result => result.2 = (5, 20) ∧ Within result.1.thumb result.1.track ∧
        Drags result.1 5 20 :=
  sidebar_scroll_consistent ⟨by decide, by decide, by decide, by decide, by decide, by decide⟩

/-- A track as high as the smallest thumb leaves no travel, and its one end is sent to 0; a tree
without columns has the thumb outside; and more rows than a signed integer holds put it there too. -/
theorem sidebar_scroll_degenerate :
    (do
      let result ← SidebarViewport.scrollbar ⟨100, 1, 0⟩
        (rect (.lit 0) (.lit 0) (.lit 200) (.lit 24))
      sidebarScrollOffsetForThumbTop result.1 result.1.track.top result.2.2) = some 0 ∧
    (SidebarViewport.scrollbar ⟨1, 1, 0⟩ (rect 0 0 0 (.lit 24))).map (fun result =>
      result.1.thumb.left.val) = some 2 ∧
    (SidebarViewport.scrollbar ⟨18446744073709551615, 1, 1000⟩
      (rect 0 0 (.lit 200) (.lit 100))).map (fun result => result.1.thumb.top.val) = some (-38000) := by
  decide

end Agenterm.UiGeometry
