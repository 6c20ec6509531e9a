import Agenterm.Lib.Buffers
import Mathlib.Tactic.Ring

/-!
# The surface of a VNC session

`Framebuffer` of `agenterm-vnc/src/framebuffer.rs`: RGBA bytes, row by row. A part of the pixels that
does not lie in them is an index out of range; it is `none` here.
-/

namespace Agenterm.Vnc

open Lib
open List hiding Vector

def bytesPerPixel : Nat := 4

structure Rect where
  x : UInt16
  y : UInt16
  width : UInt16
  height : UInt16
deriving DecidableEq

structure Framebuffer where
  width : UInt16
  height : UInt16
  pixels : Vector UInt8 (width.toNat * height.toNat * bytesPerPixel)

namespace Framebuffer

/-- Opaque black: the fourth byte of each pixel is saturated. -/
def new (width height : UInt16) : Framebuffer where
  width
  height
  pixels := Vector.ofFn fun i => if i.val % bytesPerPixel = 3 then 0xff else 0

/-- Where a pixel starts. -/
def offset (fb : Framebuffer) (x y : Nat) : Nat := (y * fb.width.toNat + x) * bytesPerPixel

def regionRgba (fb : Framebuffer) (rect : Rect) : Option (List UInt8) :=
  let right := min (rect.x.toNat + rect.width.toNat) fb.width.toNat
  let bottom := min (rect.y.toNat + rect.height.toNat) fb.height.toNat
  let visibleWidth := right - rect.x.toNat
  (range' rect.y.toNat (bottom - rect.y.toNat)).foldlM
    (fun out y => do
      let row ← readPart fb.pixels (fb.offset rect.x.toNat y) (visibleWidth * bytesPerPixel)
      return out ++ row.toList)
    []

/-- The bytes of a rectangle's own image, for `copy_rect`. -/
abbrev Scratch (rect : Rect) : Type :=
  Vector UInt8 (rect.width.toNat * rect.height.toNat * bytesPerPixel)

/-- The columns of a rectangle that are on the surface, when it is put at `x`. -/
def visible (fb : Framebuffer) (width x : UInt16) : Nat :=
  min width.toNat (fb.width.toNat - x.toNat)

/-- The body of the first loop of `copy_rect`. -/
def stageRow (fb : Framebuffer) (src : Rect) (row : Nat) (scratch : Scratch src) :
    Option (Scratch src) := do
  let visible := fb.visible src.width src.x
  let s := fb.offset src.x.toNat (src.y.toNat + row)
  let d := row * src.width.toNat * bytesPerPixel
  writePart scratch d (← readPart fb.pixels s (visible * bytesPerPixel))

/-- The body of the second loop. It passes over a row with nothing to write, as the first does not. -/
def placeRow (fb : Framebuffer) (dst src : Rect) (scratch : Scratch src) (row : Nat)
    (pixels : Vector UInt8 (fb.width.toNat * fb.height.toNat * bytesPerPixel)) :
    Option (Vector UInt8 (fb.width.toNat * fb.height.toNat * bytesPerPixel)) :=
  let visible := fb.visible src.width dst.x
  if visible = 0 then
    some pixels
  else do
    let s := row * src.width.toNat * bytesPerPixel
    let d := fb.offset dst.x.toNat (dst.y.toNat + row)
    writePart pixels d (← readPart scratch s (visible * bytesPerPixel))

def copyRect (fb : Framebuffer) (dst src : Rect) : Option Framebuffer := do
  let rows := range src.height.toNat
  let scratch ← untilPast (fun row => fb.height.toNat ≤ src.y.toNat + row) (fb.stageRow src) rows
    (Vector.replicate _ 0)
  let pixels ← untilPast (fun row => fb.height.toNat ≤ dst.y.toNat + row)
    (fb.placeRow dst src scratch) rows fb.pixels
  return { fb with pixels }

end Framebuffer

/-!
`region_rgba` and the first loop of `copy_rect` take the start of a row as it comes, so that a
rectangle to the right of the surface may leave the pixels (`InReach`). A move also writes where it
has read nothing, and the zeros it writes there are transparent. `clipped_iff` says exactly when
neither matters.
-/

/-- The rectangle holds the pixel. -/
def Rect.Contains (rect : Rect) (x y : Nat) : Prop :=
  (rect.x.toNat ≤ x ∧ x < rect.x.toNat + rect.width.toNat) ∧
    rect.y.toNat ≤ y ∧ y < rect.y.toNat + rect.height.toNat

instance (rect : Rect) (x y : Nat) : Decidable (rect.Contains x y) :=
  inferInstanceAs (Decidable (_ ∧ _))

variable {count k len n row : Nat} {dst src : Rect} {rows : List Nat} {start : Nat → Nat}

namespace Framebuffer

/-- The pixels in the rectangle, row by row. -/
def pixelsWithin (fb : Framebuffer) (rect : Rect) : List UInt8 :=
  (range fb.height.toNat).flatMap fun y =>
    (range fb.width.toNat).flatMap fun x =>
      if rect.Contains x y then partList fb.pixels (fb.offset x y) bytesPerPixel else []

/-- A pixel of the surface. -/
def pixelAt (fb : Framebuffer) (x y : Nat) : Option (Vector UInt8 bytesPerPixel) :=
  if x < fb.width.toNat ∧ y < fb.height.toNat then
    readPart fb.pixels (fb.offset x y) bytesPerPixel
  else
    none

/-- No row of the rectangle that is on the surface starts behind the last pixel. -/
def InReach (fb : Framebuffer) (rect : Rect) : Prop :=
  rect.x.toNat ≤ fb.width.toNat ∨ rect.height.toNat = 0 ∨ fb.height.toNat ≤ rect.y.toNat ∨
    (min (rect.y.toNat + rect.height.toNat) fb.height.toNat - 1) * fb.width.toNat + rect.x.toNat ≤
      fb.width.toNat * fb.height.toNat

section
variable {fb : Framebuffer} {rect : Rect} {x y : Nat}

/-! ## What a row reads -/

lemma offset_add (fb : Framebuffer) (x y i : Nat) :
    fb.offset (x + i) y = fb.offset x y + i * bytesPerPixel := by
  unfold offset
  ring

/-- The columns of a row that are on the surface are among the pixels. -/
lemma offset_fits (hy : y < fb.height.toNat) (hx : x + count ≤ fb.width.toNat) :
    fb.offset x y + count * bytesPerPixel ≤
      fb.width.toNat * fb.height.toNat * bytesPerPixel := by
  have hrow : (y + 1) * fb.width.toNat ≤ fb.height.toNat * fb.width.toNat :=
    Nat.mul_le_mul_right _ hy
  rw [Nat.add_mul, Nat.one_mul, Nat.mul_comm fb.height.toNat] at hrow
  rw [← offset_add]
  unfold offset
  exact Nat.mul_le_mul_right _ (by omega)

/-- The rows on the surface are read within the pixels exactly if the rectangle is in reach. -/
lemma inReach_iff :
    fb.InReach rect ↔ ∀ y, rect.y.toNat ≤ y → y < rect.y.toNat + rect.height.toNat →
      y < fb.height.toNat → fb.offset rect.x.toNat y + fb.visible rect.width rect.x * bytesPerPixel ≤
        fb.width.toNat * fb.height.toNat * bytesPerPixel := by
  unfold InReach visible
  constructor
  · intro h y hlow hhigh hy
    by_cases hx : rect.x.toNat ≤ fb.width.toNat
    · exact offset_fits hy (by omega)
    · rw [show fb.width.toNat - rect.x.toNat = 0 by omega, Nat.min_zero, Nat.zero_mul, Nat.add_zero]
      have hlast : (min (rect.y.toNat + rect.height.toNat) fb.height.toNat - 1) * fb.width.toNat +
          rect.x.toNat ≤ fb.width.toNat * fb.height.toNat := by
        rcases h with h | h | h | h <;> omega
      have hrow : y * fb.width.toNat ≤
          (min (rect.y.toNat + rect.height.toNat) fb.height.toNat - 1) * fb.width.toNat :=
        Nat.mul_le_mul_right _ (by omega)
      unfold offset
      exact Nat.mul_le_mul_right _ (by omega)
  · intro h
    by_cases hrow : rect.height.toNat = 0 ∨ fb.height.toNat ≤ rect.y.toNat
    · rcases hrow with hrow | hrow
      · exact .inr (.inl hrow)
      · exact .inr (.inr (.inl hrow))
    · have hlast := h (min (rect.y.toNat + rect.height.toNat) fb.height.toNat - 1) (by omega)
        (by omega) (by omega)
      unfold offset bytesPerPixel at hlast
      refine .inr (.inr (.inr ?_))
      omega

/-! ## Regions -/

lemma flatMap_interval {α : Type} (f : Nat → List α) (low high n : Nat) :
    ((range n).flatMap fun i => if low ≤ i ∧ i < high then f i else []) =
      (range' low (min high n - low)).flatMap f := by
  induction n with
  | zero => simp
  | succ n ih =>
    rw [range_succ, flatMap_append, ih, flatMap_singleton]
    by_cases hn : low ≤ n ∧ n < high
    · rw [if_pos hn, show min high (n + 1) - low = min high n - low + 1 by omega,
        range'_1_concat, flatMap_append, flatMap_singleton]
      congr 2
      omega
    · rw [if_neg hn, append_nil, show min high (n + 1) - low = min high n - low by omega]

/-- The pixels within a rectangle, from the rows and columns that are on the surface. -/
lemma pixelsWithin_eq (fb : Framebuffer) (rect : Rect) :
    fb.pixelsWithin rect =
      (range' rect.y.toNat
        (min (rect.y.toNat + rect.height.toNat) fb.height.toNat - rect.y.toNat)).flatMap fun y =>
          (range' rect.x.toNat
            (min (rect.x.toNat + rect.width.toNat) fb.width.toNat - rect.x.toNat)).flatMap fun x =>
              partList fb.pixels (fb.offset x y) bytesPerPixel := by
  unfold pixelsWithin
  rw [← flatMap_interval]
  congr 1
  funext y
  by_cases hy : rect.y.toNat ≤ y ∧ y < rect.y.toNat + rect.height.toNat
  · rw [if_pos hy, ← flatMap_interval]
    congr 1
    funext x
    simp only [Rect.Contains, hy, and_self, and_true]
  · rw [if_neg hy]
    simp only [Rect.Contains, hy, and_false, if_false]
    simp

/-- A row is the list of its pixels. -/
lemma partList_row (h : fb.offset x y + count * bytesPerPixel ≤
      fb.width.toNat * fb.height.toNat * bytesPerPixel) :
    partList fb.pixels (fb.offset x y) (count * bytesPerPixel) =
      (range' x count).flatMap fun x => partList fb.pixels (fb.offset x y) bytesPerPixel := by
  rw [partList_groups h, range'_eq_map_range, flatMap_map]
  simp only [offset_add]

/-- The loop over the rows of a region. -/
lemma foldlM_rows (pixels : Vector UInt8 n) (h : ∀ y ∈ rows, start y + len ≤ n) (out : List UInt8) :
    rows.foldlM (fun out y => do
        let row ← readPart pixels (start y) len
        return out ++ row.toList) out =
      some (out ++ rows.flatMap fun y => partList pixels (start y) len) := by
  induction rows generalizing out with
  | nil => simp
  | cons y rows ih =>
    obtain ⟨part, hpart, _⟩ := readPart_getElem? pixels (h y (mem_cons_self ..))
    rw [foldlM_cons, hpart, flatMap_cons, partList_of_readPart hpart, ← append_assoc]
    exact ih (fun y hy => h y (mem_cons_of_mem _ hy)) _

lemma foldlM_rows_none (pixels : Vector UInt8 n) {y : Nat} (hy : y ∈ rows)
    (h : ¬ start y + len ≤ n) (out : List UInt8) :
    rows.foldlM (fun out y => do
        let row ← readPart pixels (start y) len
        return out ++ row.toList) out = none := by
  induction rows generalizing out with
  | nil => nomatch hy
  | cons first rows ih =>
    rw [foldlM_cons]
    cases hpart : readPart pixels (start first) len with
    | none => rfl
    | some part =>
      rcases mem_cons.mp hy with rfl | hy
      · have hfits := readPart_isSome.mp (Option.isSome_iff_exists.mpr ⟨part, hpart⟩)
        exact absurd hfits h
      · exact ih hy _

/-- A region is returned exactly if it is in reach, and then it holds the pixels within. -/
lemma regionRgba_iff :
    fb.regionRgba rect = some (fb.pixelsWithin rect) ↔ fb.InReach rect := by
  have hvisible : fb.visible rect.width rect.x =
      min (rect.x.toNat + rect.width.toNat) fb.width.toNat - rect.x.toNat := by
    unfold visible
    omega
  unfold regionRgba
  rw [inReach_iff, hvisible]
  constructor
  · intro h y hlow hhigh hy
    by_contra hfits
    have hnone := foldlM_rows_none fb.pixels (mem_range'_1.mpr (by omega) : y ∈
      range' rect.y.toNat
        (min (rect.y.toNat + rect.height.toNat) fb.height.toNat - rect.y.toNat)) hfits []
    exact nomatch hnone.symm.trans h
  · intro h
    have hrows : ∀ y ∈ range' rect.y.toNat
        (min (rect.y.toNat + rect.height.toNat) fb.height.toNat - rect.y.toNat),
          fb.offset rect.x.toNat y +
            (min (rect.x.toNat + rect.width.toNat) fb.width.toNat - rect.x.toNat) * bytesPerPixel ≤
              fb.width.toNat * fb.height.toNat * bytesPerPixel := by
      intro y hy
      have hin := mem_range'_1.mp hy
      exact h y (by omega) (by omega) (by omega)
    have hread := foldlM_rows fb.pixels hrows []
    rw [nil_append] at hread
    apply hread.trans
    rw [pixelsWithin_eq]
    congr 1
    apply flatMap_congr
    intro y hy
    exact partList_row (hrows y hy)

/-! ## Moves -/

/-- A cell in the row of another, at some distance from its start. -/
lemma segment_iff {m j a row start len : Nat} (hj : j < m) (hlen : start + len ≤ m) :
    (row * m + start ≤ a * m + j ∧ a * m + j < row * m + start + len) ↔
      a = row ∧ start ≤ j ∧ j < start + len := by
  constructor
  · intro ⟨hlow, hhigh⟩
    rcases Nat.lt_trichotomy a row with hlt | rfl | hgt
    · have hrows : (a + 1) * m ≤ row * m := Nat.mul_le_mul_right _ hlt
      rw [Nat.succ_mul] at hrows
      omega
    · exact ⟨rfl, by omega, by omega⟩
    · have hrows : (row + 1) * m ≤ a * m := Nat.mul_le_mul_right _ hgt
      rw [Nat.succ_mul] at hrows
      omega
  · intro ⟨ha, hlow, hhigh⟩
    subst ha
    omega

lemma row_div {m j row : Nat} (hj : j < m) :
    (row * m + j) / m = row ∧ (row * m + j) % m = j := by
  constructor
  · rw [Nat.mul_comm, Nat.mul_add_div (by omega), Nat.div_eq_of_lt hj, Nat.add_zero]
  · rw [Nat.mul_comm, Nat.mul_add_mod, Nat.mod_eq_of_lt hj]

/-- A part of a row lies in the scratch. -/
lemma scratch_fits (hrow : row < src.height.toNat) (hcount : count ≤ src.width.toNat) :
    row * src.width.toNat * bytesPerPixel + count * bytesPerPixel ≤
      src.width.toNat * src.height.toNat * bytesPerPixel := by
  have hrows : (row + 1) * src.width.toNat ≤ src.height.toNat * src.width.toNat :=
    Nat.mul_le_mul_right _ hrow
  rw [Nat.succ_mul, Nat.mul_comm src.height.toNat] at hrows
  rw [← Nat.add_mul]
  exact Nat.mul_le_mul_right _ (by omega)

/-- What a cell of the scratch holds that some row has staged: the byte of the source. -/
def stagedByte (fb : Framebuffer) (src : Rect) (i : Nat) : Option UInt8 :=
  let rowBytes := src.width.toNat * bytesPerPixel
  fb.pixels[fb.offset src.x.toNat (src.y.toNat + i / rowBytes) + i % rowBytes]?

/-- The cells that a row stages. -/
def Stages (fb : Framebuffer) (src : Rect) (row i : Nat) : Prop :=
  row * src.width.toNat * bytesPerPixel ≤ i ∧
    i < row * src.width.toNat * bytesPerPixel + fb.visible src.width src.x * bytesPerPixel

lemma stageRow_writes (hrow : row < src.height.toNat)
    (hfits : fb.offset src.x.toNat (src.y.toNat + row) +
      fb.visible src.width src.x * bytesPerPixel ≤
        fb.width.toNat * fb.height.toNat * bytesPerPixel) :
    WritesRow (fb.stageRow src) (fb.Stages src) (fb.stagedByte src) row := by
  constructor
  intro scratch
  obtain ⟨part, hpart, hread⟩ := readPart_getElem? fb.pixels hfits
  have hwidth : fb.visible src.width src.x ≤ src.width.toNat := Nat.min_le_left _ _
  obtain ⟨scratch', hscratch, hcells⟩ :=
    writePart_getElem? scratch part (scratch_fits hrow hwidth)
  refine ⟨scratch', ?_, ?_⟩
  · unfold stageRow
    simp only [hpart]
    exact hscratch
  · intro i
    refine ⟨?_, (hcells i).2⟩
    intro howns
    rw [(hcells i).1 howns, hread _ (by unfold Stages at howns; omega)]
    have hin : i - row * src.width.toNat * bytesPerPixel < src.width.toNat * bytesPerPixel := by
      unfold Stages bytesPerPixel at *
      omega
    have hi := @row_div _ _ row hin
    rw [← Nat.mul_assoc, Nat.add_sub_cancel' howns.1] at hi
    unfold stagedByte
    simp only [hi]

lemma stages_iff {r c : Nat} (hc : c < src.width.toNat) (hk : k < bytesPerPixel) :
    fb.Stages src row ((r * src.width.toNat + c) * bytesPerPixel + k) ↔
      r = row ∧ c < fb.visible src.width src.x := by
  have hwidth : fb.visible src.width src.x ≤ src.width.toNat := Nat.min_le_left _ _
  have hcell : (r * src.width.toNat + c) * bytesPerPixel + k =
      r * (src.width.toNat * bytesPerPixel) + (c * bytesPerPixel + k) := by
    ring
  have hsegment := @segment_iff (src.width.toNat * bytesPerPixel) (c * bytesPerPixel + k) r row 0
    (fb.visible src.width src.x * bytesPerPixel)
    (by unfold bytesPerPixel at *; omega) (by unfold bytesPerPixel; omega)
  unfold Stages
  rw [hcell, Nat.mul_assoc]
  rw [Nat.add_zero] at hsegment
  rw [hsegment]
  unfold bytesPerPixel at *
  omega

/-- A row of the scratch that is on the surface holds the source, the others are zeros. -/
lemma stage_spec (hreach : fb.InReach src) :
    ∃ scratch, untilPast (fun row => fb.height.toNat ≤ src.y.toNat + row) (fb.stageRow src)
        (range src.height.toNat) (Vector.replicate _ 0) = some scratch ∧
      ∀ r c k, r < src.height.toNat → c < src.width.toNat → k < bytesPerPixel →
        scratch[(r * src.width.toNat + c) * bytesPerPixel + k]? =
          if src.x.toNat + c < fb.width.toNat ∧ src.y.toNat + r < fb.height.toNat then
            fb.pixels[fb.offset (src.x.toNat + c) (src.y.toNat + r) + k]?
          else
            some 0 := by
  have hrows := takeWhile_range (fun row => fb.height.toNat ≤ src.y.toNat + row)
    (fb.height.toNat - src.y.toNat) src.height.toNat (by intro row; simp; omega)
  have hwrites : ∀ row ∈ (range src.height.toNat).takeWhile fun row =>
      !decide (fb.height.toNat ≤ src.y.toNat + row),
        WritesRow (fb.stageRow src) (fb.Stages src) (fb.stagedByte src) row := by
    rw [hrows]
    intro row hrow
    have hlt := mem_range.mp hrow
    exact stageRow_writes (by omega) (inReach_iff.mp hreach _ (by omega) (by omega) (by omega))
  obtain ⟨scratch, hscratch, hcells⟩ := untilPast_writes _ hwrites (Vector.replicate _ 0)
  refine ⟨scratch, hscratch, ?_⟩
  intro r c k hr hc hk
  have hcell := hcells ((r * src.width.toNat + c) * bytesPerPixel + k)
  rw [hrows] at hcell
  by_cases hin : src.x.toNat + c < fb.width.toNat ∧ src.y.toNat + r < fb.height.toNat
  · have hmem : r ∈ range (min src.height.toNat (fb.height.toNat - src.y.toNat)) :=
      mem_range.mpr (by omega)
    have hvisible : c < fb.visible src.width src.x := by
      unfold visible
      omega
    rw [if_pos hin, hcell.1 ⟨r, hmem, (stages_iff hc hk).mpr ⟨rfl, hvisible⟩⟩]
    have hdiv := @row_div (src.width.toNat * bytesPerPixel) (c * bytesPerPixel + k) r
      (by unfold bytesPerPixel at *; omega)
    have hsum : (r * src.width.toNat + c) * bytesPerPixel + k =
        r * (src.width.toNat * bytesPerPixel) + (c * bytesPerPixel + k) := by
      ring
    unfold stagedByte
    simp only [hsum, hdiv, offset_add, Nat.add_assoc]
  · have hnone : ∀ row ∈ range (min src.height.toNat (fb.height.toNat - src.y.toNat)),
        ¬ fb.Stages src row ((r * src.width.toNat + c) * bytesPerPixel + k) := by
      intro row hrow howns
      obtain ⟨hrow', hvisible⟩ := (stages_iff hc hk).mp howns
      have hlt := mem_range.mp hrow
      unfold visible at hvisible
      omega
    have hsize : (r * src.width.toNat + c) * bytesPerPixel + k <
        src.width.toNat * src.height.toNat * bytesPerPixel := by
      have hlast : (r + 1) * src.width.toNat ≤ src.height.toNat * src.width.toNat :=
        Nat.mul_le_mul_right _ hr
      rw [Nat.succ_mul, Nat.mul_comm src.height.toNat] at hlast
      unfold bytesPerPixel at *
      omega
    rw [if_neg hin, hcell.2 hnone, Vector.getElem?_eq_getElem hsize, Vector.getElem_replicate]

/-- A move fails where the source is not in reach. -/
lemma copyRect_none (h : ¬ fb.InReach src) : fb.copyRect dst src = none := by
  rw [inReach_iff] at h
  push Not at h
  obtain ⟨y, hlow, hhigh, hy, hfits⟩ := h
  have hrows := takeWhile_range (fun row => fb.height.toNat ≤ src.y.toNat + row)
    (fb.height.toNat - src.y.toNat) src.height.toNat (by intro row; simp; omega)
  have hrow : y - src.y.toNat ∈ (range src.height.toNat).takeWhile fun row =>
      !decide (fb.height.toNat ≤ src.y.toNat + row) := by
    rw [hrows]
    exact mem_range.mpr (by omega)
  have hfail : ∀ scratch, fb.stageRow src (y - src.y.toNat) scratch = none := by
    intro scratch
    unfold stageRow readPart
    rw [Nat.add_sub_cancel' hlow]
    simp only
    rw [dif_neg (by omega)]
    rfl
  unfold copyRect
  simp only [untilPast_none hrow hfail]
  rfl

/-! ## The destination -/

/-- What a pixel byte holds that some row has placed. -/
def placedByte (fb : Framebuffer) (dst src : Rect) (scratch : Scratch src) (p : Nat) :
    Option UInt8 :=
  let rowBytes := fb.width.toNat * bytesPerPixel
  scratch[(p / rowBytes - dst.y.toNat) * src.width.toNat * bytesPerPixel +
    (p % rowBytes - dst.x.toNat * bytesPerPixel)]?

/-- The bytes that a row places. -/
def Places (fb : Framebuffer) (dst src : Rect) (row p : Nat) : Prop :=
  fb.offset dst.x.toNat (dst.y.toNat + row) ≤ p ∧
    p < fb.offset dst.x.toNat (dst.y.toNat + row) +
      fb.visible src.width dst.x * bytesPerPixel

lemma offset_eq (fb : Framebuffer) (x y : Nat) :
    fb.offset x y = y * (fb.width.toNat * bytesPerPixel) + x * bytesPerPixel := by
  unfold offset
  ring

lemma places_iff (hx : x < fb.width.toNat) (hk : k < bytesPerPixel)
    (hvisible : fb.visible src.width dst.x ≠ 0) :
    fb.Places dst src row (fb.offset x y + k) ↔
      y = dst.y.toNat + row ∧ dst.x.toNat ≤ x ∧ x < dst.x.toNat + fb.visible src.width dst.x := by
  have hroom : dst.x.toNat + fb.visible src.width dst.x ≤ fb.width.toNat := by
    unfold visible at *
    omega
  have hsegment := @segment_iff (fb.width.toNat * bytesPerPixel) (x * bytesPerPixel + k) y
    (dst.y.toNat + row) (dst.x.toNat * bytesPerPixel)
    (fb.visible src.width dst.x * bytesPerPixel)
    (by unfold bytesPerPixel at *; omega) (by unfold bytesPerPixel; omega)
  unfold Places
  rw [offset_eq, offset_eq, Nat.add_assoc (y * _), hsegment]
  unfold bytesPerPixel at *
  omega

/-- A row of the copy writes its own cells. -/
lemma placeRow_writes {scratch : Scratch src} (hrow : row < src.height.toNat)
    (hy : dst.y.toNat + row < fb.height.toNat) :
    WritesRow (fb.placeRow dst src scratch) (fb.Places dst src) (fb.placedByte dst src scratch)
      row := by
  constructor
  intro pixels
  unfold placeRow
  by_cases hvisible : fb.visible src.width dst.x = 0
  · refine ⟨pixels, by rw [if_pos hvisible], ?_⟩
    intro p
    refine ⟨?_, fun _ => rfl⟩
    intro howns
    unfold Places at howns
    rw [hvisible] at howns
    omega
  · have hwidth : fb.visible src.width dst.x ≤ src.width.toNat := Nat.min_le_left _ _
    have hroom : dst.x.toNat + fb.visible src.width dst.x ≤ fb.width.toNat := by
      unfold visible at *
      omega
    obtain ⟨part, hpart, hread⟩ := readPart_getElem? scratch (scratch_fits hrow hwidth)
    obtain ⟨pixels', hpixels, hcells⟩ := writePart_getElem? pixels part (offset_fits hy hroom)
    refine ⟨pixels', ?_, ?_⟩
    · rw [if_neg hvisible]
      simp only [hpart]
      exact hpixels
    · intro p
      refine ⟨?_, (hcells p).2⟩
      intro howns
      rw [(hcells p).1 howns, hread _ (by unfold Places at howns; omega)]
      have hin : p - (dst.y.toNat + row) * (fb.width.toNat * bytesPerPixel) <
          fb.width.toNat * bytesPerPixel := by
        unfold Places at howns
        rw [offset_eq] at howns
        unfold bytesPerPixel at *
        omega
      have hp := @row_div _ _ (dst.y.toNat + row) hin
      unfold Places at howns
      rw [offset_eq] at howns
      rw [Nat.add_sub_cancel' (by omega)] at hp
      unfold placedByte
      simp only [hp, offset_eq, Nat.add_sub_cancel_left, Nat.sub_sub]

/-- A pixel in the rectangle takes the bytes of the scratch, every other one is kept. -/
lemma place_spec (dst src : Rect) (scratch : Scratch src) :
    ∃ pixels, untilPast (fun row => fb.height.toNat ≤ dst.y.toNat + row)
        (fb.placeRow dst src scratch) (range src.height.toNat) fb.pixels = some pixels ∧
      ∀ x y k, x < fb.width.toNat → y < fb.height.toNat → k < bytesPerPixel →
        pixels[fb.offset x y + k]? =
          if { dst with width := src.width, height := src.height : Rect }.Contains x y then
            scratch[((y - dst.y.toNat) * src.width.toNat + (x - dst.x.toNat)) * bytesPerPixel + k]?
          else
            fb.pixels[fb.offset x y + k]? := by
  have hrows := takeWhile_range (fun row => fb.height.toNat ≤ dst.y.toNat + row)
    (fb.height.toNat - dst.y.toNat) src.height.toNat (by intro row; simp; omega)
  have hwrites : ∀ row ∈ (range src.height.toNat).takeWhile fun row =>
      !decide (fb.height.toNat ≤ dst.y.toNat + row),
        WritesRow (fb.placeRow dst src scratch) (fb.Places dst src) (fb.placedByte dst src scratch)
          row := by
    rw [hrows]
    intro row hrow
    have hlt := mem_range.mp hrow
    exact placeRow_writes (by omega) (by omega)
  obtain ⟨pixels, hpixels, hcells⟩ := untilPast_writes _ hwrites fb.pixels
  refine ⟨pixels, hpixels, ?_⟩
  intro x y k hx hy hk
  have hcell := hcells (fb.offset x y + k)
  rw [hrows] at hcell
  by_cases hin : { dst with width := src.width, height := src.height : Rect }.Contains x y
  · obtain ⟨⟨hx₁, hx₂⟩, hy₁, hy₂⟩ := hin
    simp only at hx₁ hx₂ hy₁ hy₂
    have hvisible : x < dst.x.toNat + fb.visible src.width dst.x := by
      unfold visible
      omega
    have hmem : y - dst.y.toNat ∈
        range (min src.height.toNat (fb.height.toNat - dst.y.toNat)) :=
      mem_range.mpr (by omega)
    have howns : fb.Places dst src (y - dst.y.toNat) (fb.offset x y + k) :=
      (places_iff hx hk (by omega)).mpr ⟨by omega, hx₁, hvisible⟩
    rw [if_pos ⟨⟨hx₁, hx₂⟩, hy₁, hy₂⟩, hcell.1 ⟨_, hmem, howns⟩]
    have hdiv := @row_div (fb.width.toNat * bytesPerPixel) (x * bytesPerPixel + k) y
      (by unfold bytesPerPixel at *; omega)
    unfold placedByte
    rw [offset_eq, Nat.add_assoc]
    simp only [hdiv]
    congr 1
    rw [Nat.add_mul, Nat.sub_mul x]
    unfold bytesPerPixel
    omega
  · rw [if_neg hin]
    apply hcell.2
    intro row hrow howns
    have hlt := mem_range.mp hrow
    have hvisible : fb.visible src.width dst.x ≠ 0 := by
      intro hzero
      unfold Places at howns
      rw [hzero] at howns
      omega
    obtain ⟨hy', hx₁, hx₂⟩ := (places_iff hx hk hvisible).mp howns
    apply hin
    unfold visible at hx₂
    exact ⟨⟨hx₁, by simp only; omega⟩, by simp only; omega, by simp only; omega⟩

/-! ## The surface after a move -/

def OnSurface (fb : Framebuffer) (x y : Nat) : Prop := x < fb.width.toNat ∧ y < fb.height.toNat

instance (fb : Framebuffer) (x y : Nat) : Decidable (fb.OnSurface x y) :=
  inferInstanceAs (Decidable (_ ∧ _))

/-- The column and the row that a move takes a pixel from. -/
def sourceOf (dst src : Rect) (x y : Nat) : Nat × Nat :=
  (src.x.toNat + (x - dst.x.toNat), src.y.toNat + (y - dst.y.toNat))

/-- What a move should leave at a pixel: the source where there is one on the surface. -/
def moved (fb : Framebuffer) (dst src : Rect) (x y : Nat) : Option (Vector UInt8 bytesPerPixel) :=
  if dst.Contains x y ∧ fb.OnSurface (sourceOf dst src x y).1 (sourceOf dst src x y).2 then
    fb.pixelAt (sourceOf dst src x y).1 (sourceOf dst src x y).2
  else
    fb.pixelAt x y

/-- Every pixel is saturated in its fourth byte. -/
def Opaque (fb : Framebuffer) : Prop :=
  ∀ x y, fb.OnSurface x y → ∃ pixel, fb.pixelAt x y = some pixel ∧ pixel[3]? = some 0xff

/-- Zeros, also in the fourth byte. -/
def transparent : Vector UInt8 bytesPerPixel := Vector.replicate _ 0

lemma pixelAt_eq (h : fb.OnSurface x y) :
    ∃ pixel, fb.pixelAt x y = some pixel ∧
      ∀ k, k < bytesPerPixel → pixel[k]? = fb.pixels[fb.offset x y + k]? := by
  have hfits : fb.offset x y + 1 * bytesPerPixel ≤
      fb.width.toNat * fb.height.toNat * bytesPerPixel := offset_fits h.2 h.1
  rw [Nat.one_mul] at hfits
  unfold pixelAt
  rw [if_pos ⟨h.1, h.2⟩]
  exact readPart_getElem? fb.pixels hfits

lemma pixel_ext {a b : Vector UInt8 bytesPerPixel}
    (h : ∀ k, k < bytesPerPixel → a[k]? = b[k]?) : a = b := by
  apply Vector.ext
  intro k hk
  have hcell := h k hk
  rw [Vector.getElem?_eq_getElem hk, Vector.getElem?_eq_getElem hk] at hcell
  exact Option.some.inj hcell

/-- A pixel of the destination whose source is not on the surface becomes transparent. -/
lemma copyRect_spec (hreach : fb.InReach src) (hwidth : dst.width = src.width)
    (hheight : dst.height = src.height) :
    ∃ fb', fb.copyRect dst src = some fb' ∧ fb'.width = fb.width ∧ fb'.height = fb.height ∧
      ∀ x y, fb.OnSurface x y → fb'.pixelAt x y =
        if dst.Contains x y ∧ ¬ fb.OnSurface (sourceOf dst src x y).1 (sourceOf dst src x y).2 then
          some transparent
        else
          fb.moved dst src x y := by
  obtain ⟨scratch, hscratch, hstaged⟩ := stage_spec hreach
  obtain ⟨pixels, hpixels, hplaced⟩ := @place_spec fb dst src scratch
  refine ⟨{ fb with pixels }, ?_, rfl, rfl, ?_⟩
  · unfold copyRect
    simp only [hscratch, Option.bind_eq_bind, Option.bind_some, hpixels]
    rfl
  · intro x y hon
    obtain ⟨pixel, hpixel, hbytes⟩ := @pixelAt_eq { fb with pixels } x y hon
    rw [hpixel]
    have hoffset : Framebuffer.offset { fb with pixels } x y = fb.offset x y := rfl
    rw [hoffset] at hbytes
    have hdst : { dst with width := src.width, height := src.height : Rect } = dst := by
      rw [← hwidth, ← hheight]
    rw [hdst] at hplaced
    by_cases hin : dst.Contains x y
    · have hbyte : ∀ k, k < bytesPerPixel → pixel[k]? =
          if fb.OnSurface (sourceOf dst src x y).1 (sourceOf dst src x y).2 then
            fb.pixels[fb.offset (sourceOf dst src x y).1 (sourceOf dst src x y).2 + k]?
          else
            some 0 := by
        intro k hk
        have hstage := hstaged (y - dst.y.toNat) (x - dst.x.toNat) k
          (by have := hin.2; rw [hheight] at this; omega)
          (by have := hin.1; rw [hwidth] at this; omega) hk
        rw [hbytes k hk, hplaced x y k hon.1 hon.2 hk, if_pos hin]
        exact hstage
      by_cases hsource : fb.OnSurface (sourceOf dst src x y).1 (sourceOf dst src x y).2
      · obtain ⟨source, hsource', hcopy⟩ := pixelAt_eq hsource
        rw [if_neg (fun h => h.2 hsource), moved, if_pos ⟨hin, hsource⟩, hsource']
        congr 1
        apply pixel_ext
        intro k hk
        rw [hbyte k hk, if_pos hsource, hcopy k hk]
      · rw [if_pos ⟨hin, hsource⟩]
        congr 1
        apply pixel_ext
        intro k hk
        rw [hbyte k hk, if_neg hsource]
        unfold transparent
        rw [Vector.getElem?_eq_getElem hk, Vector.getElem_replicate]
    · obtain ⟨old, hold, hkept⟩ := pixelAt_eq hon
      rw [if_neg (fun h => hin h.1), moved, if_neg (fun h => hin h.1), hold]
      congr 1
      apply pixel_ext
      intro k hk
      rw [hbytes k hk, hplaced x y k hon.1 hon.2 hk, if_neg hin, hkept k hk]

/-- What the surface promises of one read and one move. -/
structure Clipped (fb : Framebuffer) (rect dst src : Rect) : Prop where
  region : fb.regionRgba rect = some (fb.pixelsWithin rect)
  returns : ∃ fb', fb.copyRect dst src = some fb'
  moves : dst.width = src.width → dst.height = src.height → ∀ fb', fb.copyRect dst src = some fb' →
    fb'.width = fb.width ∧ fb'.height = fb.height ∧
      (∀ x y, fb.OnSurface x y → fb'.pixelAt x y = fb.moved dst src x y) ∧
        (fb.Opaque → fb'.Opaque)

/-- A pixel that is moved from outside the surface is transparent already. -/
def NothingToClear (fb : Framebuffer) (dst src : Rect) : Prop :=
  ∀ x y, fb.OnSurface x y → dst.Contains x y →
    ¬ fb.OnSurface (sourceOf dst src x y).1 (sourceOf dst src x y).2 →
      fb.pixelAt x y = some transparent

lemma copyRect_returns (hreach : fb.InReach src) (dst : Rect) :
    ∃ fb', fb.copyRect dst src = some fb' := by
  obtain ⟨scratch, hscratch, _⟩ := stage_spec hreach
  obtain ⟨pixels, hpixels, _⟩ := @place_spec fb dst src scratch
  refine ⟨{ fb with pixels }, ?_⟩
  unfold copyRect
  simp only [hscratch, Option.bind_eq_bind, Option.bind_some, hpixels]
  rfl

lemma moved_opaque (halpha : fb.Opaque) (hon : fb.OnSurface x y) :
    ∃ pixel, fb.moved dst src x y = some pixel ∧ pixel[3]? = some 0xff := by
  unfold moved
  split
  · next h => exact halpha _ _ h.2
  · exact halpha _ _ hon

/-- Reads and moves are clipped exactly where no row starts behind the last pixel, and where a move
has nothing to clear. -/
theorem clipped_iff (fb : Framebuffer) (rect dst src : Rect) :
    fb.Clipped rect dst src ↔ fb.InReach rect ∧ fb.InReach src ∧
      (dst.width = src.width → dst.height = src.height → fb.NothingToClear dst src) := by
  constructor
  · intro h
    have hreach : fb.InReach src := by
      by_contra hout
      obtain ⟨fb', hcopy⟩ := h.returns
      exact nomatch (copyRect_none hout).symm.trans hcopy
    refine ⟨regionRgba_iff.mp h.region, hreach, ?_⟩
    intro hwidth hheight x y hon hin hsource
    obtain ⟨fb', hcopy, _, _, hpixels⟩ := copyRect_spec hreach hwidth hheight
    obtain ⟨_, _, hmoved, _⟩ := h.moves hwidth hheight fb' hcopy
    have hold : fb.moved dst src x y = fb.pixelAt x y := if_neg fun h => hsource h.2
    calc fb.pixelAt x y = fb'.pixelAt x y := by rw [hmoved x y hon, hold]
      _ = some transparent := by rw [hpixels x y hon, if_pos ⟨hin, hsource⟩]
  · intro ⟨hrect, hsrc, hclear⟩
    refine ⟨regionRgba_iff.mpr hrect, copyRect_returns hsrc dst, ?_⟩
    intro hwidth hheight fb' hcopy
    obtain ⟨made, hmade, hw, hh, hpixels⟩ := copyRect_spec hsrc hwidth hheight
    obtain rfl : made = fb' := Option.some.inj (hmade.symm.trans hcopy)
    have hmoved : ∀ x y, fb.OnSurface x y → made.pixelAt x y = fb.moved dst src x y := by
      intro x y hon
      rw [hpixels x y hon]
      split
      · next h =>
        have hold : fb.moved dst src x y = fb.pixelAt x y := if_neg fun h' => h.2 h'.2
        rw [hold, hclear hwidth hheight x y hon h.1 h.2]
      · rfl
    refine ⟨hw, hh, hmoved, ?_⟩
    intro halpha x y hon
    have hon' : fb.OnSurface x y := by
      unfold OnSurface at *
      rwa [hw, hh] at hon
    rw [hmoved x y hon']
    exact moved_opaque halpha hon'

/-- A column to the right of a surface of one pixel is read behind its end, and a move from there
makes the pixel transparent. -/
theorem surface_not_clipped :
    (new 1 1).regionRgba ⟨2, 0, 1, 1⟩ = none ∧
      ¬ (new 1 1).Clipped ⟨2, 0, 1, 1⟩ ⟨0, 0, 1, 1⟩ ⟨0, 0, 1, 1⟩ ∧
        ((new 1 1).copyRect ⟨0, 0, 1, 1⟩ ⟨1, 0, 1, 1⟩).bind (pixelAt · 0 0) = some transparent := by
  have hnone : (new 1 1).regionRgba ⟨2, 0, 1, 1⟩ = none := by decide
  refine ⟨hnone, ?_, by decide⟩
  intro h
  exact nomatch hnone.symm.trans h.region

end

end Framebuffer

end Agenterm.Vnc
