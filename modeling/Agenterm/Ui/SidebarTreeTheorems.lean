import Agenterm.Ui.SidebarTree
import Mathlib.Algebra.Order.Ring.Int

/-!
# The layout of a row of the tree

The width that the indent reserves for the actions is the width that they get, so that between the
deepest anchor and the actions there is room for the text (`anchorOf_bounds`). A row is laid out from
the origin (`treeRowGeometryImpl_returns`).
-/

namespace Agenterm.UiGeometry

open Lib

/-! ## The budget of a row -/

/-- The width of the actions with the gap between them. -/
def reservedWidth (width : Int) (mode : TreeRowMode) : Int :=
  match mode with
  | .normal => if width < 300 then 50 else 88
  | .editing => if width < 300 then 76 else 92

lemma reservedWidth_bounds (width : Int) (mode : TreeRowMode) :
    50 ≤ reservedWidth width mode ∧ reservedWidth width mode ≤ 92 ∧
      (width < 300 → reservedWidth width mode ≤ 76) := by
  unfold reservedWidth
  cases mode with
  | normal => split <;> omega
  | editing => split <;> omega

lemma desiredTreeActionWidth_returns (width : I32) (mode : TreeRowMode) :
    Returns (desiredTreeActionWidth width mode) fun reserved =>
      reserved.val = reservedWidth width.val mode := by
  unfold desiredTreeActionWidth reservedWidth
  by_cases hcompact : width.val < 300
  · have hdecide : decide (width.val < treeCompactActionThreshold.val) = true :=
      decide_eq_true hcompact
    simp only [hdecide, hcompact, if_true]
    cases mode with
    | normal => exact ⟨.lit 50, by decide, rfl⟩
    | editing => exact ⟨.lit 76, by decide, rfl⟩
  · have hdecide : decide (width.val < treeCompactActionThreshold.val) = false :=
      decide_eq_false hcompact
    simp only [hdecide, hcompact, if_false]
    cases mode with
    | normal => exact ⟨.lit 88, by decide, rfl⟩
    | editing => exact ⟨.lit 92, by decide, rfl⟩

/-- The indent for one level. -/
def indentOf (width : Int) (mode : TreeRowMode) : Int :=
  max 3 (min ((width - 62 - reservedWidth width mode) / 10) 10)

variable {height : Int} {mode : TreeRowMode} {width : I32}

lemma responsiveTreeIndent_returns (h : 162 ≤ width.val) (mode : TreeRowMode) :
    Returns (responsiveTreeIndent width mode) fun indent =>
      indent.val = indentOf width.val mode := by
  obtain ⟨hlow, hhigh, hcompact⟩ := reservedWidth_bounds width.val mode
  have hmax := width.high
  unfold responsiveTreeIndent
  apply (desiredTreeActionWidth_returns width mode).bind
  intro reserved hreserved
  apply (I32.sub_lit_returns (by omega)).bind
  intro span₁ hspan₁
  apply (I32.sub_lit_returns (by omega)).bind
  intro span₂ hspan₂
  apply (I32.sub_returns (by omega)).bind
  intro span₃ hspan₃
  apply (I32.sub_lit_returns (by omega)).bind
  intro span₄ hspan₄
  apply (I32.sub_lit_returns (by omega)).bind
  intro span₅ hspan₅
  apply (I32.sub_lit_returns (by omega)).bind
  intro span₆ hspan₆
  apply (I32.sub_lit_returns (by omega)).bind
  intro span hspan
  have hdepth : (castI32 maxTreeDepth).val = 10 := rfl
  have havailable : (max span 0).val = max span.val 0 := rfl
  apply (I32.div_returns (by omega) (by omega)).bind
  intro level hlevel
  have hleast : treeMinResponsiveIndent.val = 3 := rfl
  have hmost : treeIndent.val = 10 := rfl
  apply (I32.clamp_returns (by omega)).imp
  intro indent hindent
  unfold indentOf
  rw [hindent, hlevel, hleast, hmost, hdepth, havailable]
  omega

/-- The anchor of a depth. -/
def anchorOf (depth : Nat) (width : Int) (mode : TreeRowMode) : Int :=
  8 + min depth 10 * indentOf width mode

lemma indentOf_bounds (width : Int) (mode : TreeRowMode) :
    3 ≤ indentOf width mode ∧ indentOf width mode ≤ 10 := by
  unfold indentOf
  omega

/-- Between the deepest anchor and the actions there is room for the text. -/
lemma anchorOf_bounds {width : Int} (h : 162 ≤ width) (depth : Nat) (mode : TreeRowMode) :
    8 ≤ anchorOf depth width mode ∧
      anchorOf depth width mode + 17 < width - 6 - reservedWidth width mode := by
  obtain ⟨hlow, hhigh, hcompact⟩ := reservedWidth_bounds width mode
  obtain ⟨hleast, hmost⟩ := indentOf_bounds width mode
  have hnonneg : 0 ≤ (min depth 10 : Nat) * indentOf width mode :=
    Int.mul_nonneg (by omega) (by omega)
  have hlevels : (min depth 10 : Nat) * indentOf width mode ≤ 10 * indentOf width mode :=
    Int.mul_le_mul_of_nonneg_right (by omega) (by omega)
  have hspan : 10 * indentOf width mode ≤ max 30 (width - 62 - reservedWidth width mode) := by
    unfold indentOf
    omega
  unfold anchorOf
  omega

/-- Distinct depths have distinct anchors. -/
lemma anchorOf_lt (width : Int) (mode : TreeRowMode) {depth deeper : Nat} (hlt : depth < deeper)
    (hle : deeper ≤ 10) : anchorOf depth width mode < anchorOf deeper width mode := by
  obtain ⟨hleast, _⟩ := indentOf_bounds width mode
  have hlevels : ((depth : Int) + 1) * indentOf width mode ≤ deeper * indentOf width mode :=
    Int.mul_le_mul_of_nonneg_right (by omega) (by omega)
  unfold anchorOf
  rw [Nat.min_eq_left (by omega : depth ≤ 10), Nat.min_eq_left hle]
  rw [Int.add_mul] at hlevels
  omega

lemma connectorX_returns (h : 162 ≤ width.val) (depth : Nat) (mode : TreeRowMode) :
    Returns (treeConnectorX depth width mode) fun nodeX =>
      nodeX.val = anchorOf depth width.val mode := by
  have hbounds := anchorOf_bounds h depth mode
  have hreserved := reservedWidth_bounds width.val mode
  have hhigh := width.high
  unfold anchorOf at hbounds
  unfold treeConnectorX
  apply (responsiveTreeIndent_returns h mode).bind
  intro indent hindent
  have hdepth : (castI32 (min depth maxTreeDepth : Nat)).val = (min depth 10 : Nat) :=
    castI32_of_fits (by unfold maxTreeDepth; omega)
  apply (I32.mul_returns (by rw [hdepth, hindent]; omega)).bind
  intro levels hlevels
  have hleft : treeAnchorLeft.val = 8 := rfl
  rw [hdepth, hindent] at hlevels
  apply (I32.add_returns (by omega)).imp
  intro nodeX hnodeX
  rw [hnodeX, hlevels, hleft]
  rfl

/-! ## The actions -/

namespace TreeRowActionGeometry

def buttons (actions : TreeRowActionGeometry) : List PixelRect :=
  actions.addChild.toList ++ [actions.primary, actions.secondary]

end TreeRowActionGeometry

/-- The width of the first of the two actions. -/
def firstActionWidth (width : Int) (mode : TreeRowMode) : Int :=
  match mode with
  | .normal => 24
  | .editing => if width < 300 then 34 else 42

/-- An action at some distance from the left end of the cluster. -/
structure ActionAt (cluster action : PixelRect) (left right : Int) : Prop where
  left : action.left.val = cluster.left.val + left
  right : action.right.val = cluster.left.val + right
  top : action.top = cluster.top
  bottom : action.bottom = cluster.bottom

/-- The two actions stand side by side with a gap of two pixels; in normal mode there is an empty one
between them. -/
def ActionsPlaced (width : Int) (mode : TreeRowMode) (actions : TreeRowActionGeometry) : Prop :=
  ActionAt actions.bounds actions.secondary (firstActionWidth width mode + 2)
      (reservedWidth width mode) ∧
    match mode with
    | .normal => (∃ first, actions.addChild = some first ∧
        ActionAt actions.bounds first 0 (firstActionWidth width mode)) ∧
          ActionAt actions.bounds actions.primary (firstActionWidth width mode)
            (firstActionWidth width mode)
    | .editing => actions.addChild = none ∧
        ActionAt actions.bounds actions.primary 0 (firstActionWidth width mode)

lemma firstActionWidth_bounds (width : Int) (mode : TreeRowMode) :
    24 ≤ firstActionWidth width mode ∧
      firstActionWidth width mode + 26 ≤ reservedWidth width mode := by
  unfold firstActionWidth reservedWidth
  cases mode with
  | normal => simp only; split <;> omega
  | editing => simp only; split <;> omega

/-- The widths that the actions want are those that are reserved for them. -/
lemma desiredWidths_val {width : Int} (mode : TreeRowMode) :
    (desiredWidths mode (if width < 300 then .compact else .full)).1.val =
        firstActionWidth width mode ∧
      (desiredWidths mode (if width < 300 then .compact else .full)).2.val =
        reservedWidth width mode - firstActionWidth width mode - 2 := by
  unfold firstActionWidth reservedWidth
  cases mode with
  | normal => split <;> exact ⟨rfl, rfl⟩
  | editing => split <;> exact ⟨rfl, rfl⟩

lemma actionWidth_returns {desired total budget : I32} (h : total.val ≤ budget.val) :
    Returns (actionWidth desired total budget) fun width => width = desired := by
  unfold actionWidth
  rw [if_pos h]
  exact Returns.pure rfl

/-- The buttons of a row stand side by side at its right edge, in a column as wide as is
reserved. -/
lemma treeRowActions_returns {width : Int} (h : 162 ≤ width) {row : PixelRect}
    (hleft : row.left.val = 2) (hright : row.right.val = width - 2)
    (hwidth : width ≤ 2147483647) (htop : 0 ≤ row.top.val)
    (hbottom : row.bottom.val = row.top.val + 35) (mode : TreeRowMode) :
    Returns (treeRowActions row mode) fun actions =>
      actions.bounds.left.val = width - 4 - reservedWidth width mode ∧
        actions.bounds.right.val = width - 4 ∧ actions.bounds.top.val = row.top.val + 3 ∧
          actions.bounds.bottom.val = row.top.val + 32 ∧ ActionsPlaced width mode actions := by
  obtain ⟨hlow, hhigh, hcompact⟩ := reservedWidth_bounds width mode
  obtain ⟨hfirst, hroom⟩ := firstActionWidth_bounds width mode
  have hlast := row.bottom.high
  unfold treeRowActions
  apply (I32.add_lit_returns (by omega)).bind
  intro outer houter
  have hdensity : (outer.val < treeCompactActionThreshold.val) = (width < 300) := by
    have hthreshold : treeCompactActionThreshold.val = 300 := rfl
    rw [hthreshold, houter]
    apply propext
    omega
  simp only [hdensity]
  obtain ⟨hwidth₁, hwidth₂⟩ := @desiredWidths_val width mode
  generalize desiredWidths mode (if width < 300 then .compact else .full) = desired at *
  apply (I32.sub_lit_returns (by omega)).bind
  intro right hright'
  have hmax : (max right row.left).val = width - 4 := by
    rw [I32.val_max]
    omega
  generalize max right row.left = right at *
  apply (I32.sub_returns (by omega)).bind
  intro available havailable
  have hroom' : (max available 0).val = width - 6 := by
    rw [I32.val_max, I32.val_zero]
    omega
  generalize max available 0 = available at *
  apply (I32.half_returns (by omega)).bind
  intro half hhalf
  have hgap : (min treeActionGap half).val = 2 := by
    have htwo : treeActionGap.val = 2 := rfl
    rw [I32.val_min, htwo]
    omega
  generalize min treeActionGap half = gap at *
  apply (I32.sub_returns (by omega)).bind
  intro budget hbudget
  have hbudget' : (max budget 0).val = width - 8 := by
    rw [I32.val_max, I32.val_zero]
    omega
  generalize max budget 0 = budget at *
  apply (I32.add_returns (by omega)).bind
  intro total htotal
  apply (actionWidth_returns (by omega)).bind
  intro firstWidth hfirstWidth
  subst hfirstWidth
  apply (actionWidth_returns (by omega)).bind
  intro secondWidth hsecondWidth
  subst hsecondWidth
  apply (I32.add_returns (by omega)).bind
  intro assigned hassigned
  apply (I32.sub_returns (by omega)).bind
  intro start hstart
  apply (I32.sub_returns (by omega)).bind
  intro firstLeft hfirstLeft
  apply (I32.add_lit_returns (by omega)).bind
  intro top htop'
  have htop'' : (min top row.bottom).val = row.top.val + 3 := by
    rw [I32.val_min]
    omega
  generalize min top row.bottom = top at *
  apply (I32.sub_lit_returns (by omega)).bind
  intro bottom hbottom'
  have hbottom'' : (max bottom top).val = row.top.val + 32 := by
    rw [I32.val_max]
    omega
  generalize max bottom top = bottom at *
  apply (I32.add_returns (by omega)).bind
  intro firstRight hfirstRight
  have hend : (rect firstLeft top firstRight bottom).right = firstRight := rfl
  rw [hend]
  apply (I32.add_returns (by omega)).bind
  intro secondLeft hsecondLeft
  apply (I32.add_returns (by omega)).bind
  intro secondRight hsecondRight
  have hclusterLeft : firstLeft.val = width - 4 - reservedWidth width mode := by omega
  have hclusterRight : secondRight.val = width - 4 := by omega
  cases mode with
  | normal =>
    apply Returns.pure
    refine ⟨hclusterLeft, hclusterRight, htop'', hbottom'', ⟨?_, ?_, rfl, rfl⟩,
      ⟨_, rfl, ⟨?_, ?_, rfl, rfl⟩⟩, ⟨?_, ?_, rfl, rfl⟩⟩ <;> simp only [rect] <;> omega
  | editing =>
    apply Returns.pure
    refine ⟨hclusterLeft, hclusterRight, htop'', hbottom'', ⟨?_, ?_, rfl, rfl⟩, rfl,
      ⟨?_, ?_, rfl, rfl⟩⟩ <;> simp only [rect] <;> omega

/-! ## The row -/

/-- A rectangle between the origin and some limits. -/
structure Inside (width height : Int) (r : PixelRect) : Prop where
  left : 0 ≤ r.left.val ∧ r.left.val ≤ width
  right : 0 ≤ r.right.val ∧ r.right.val ≤ width
  top : 0 ≤ r.top.val ∧ r.top.val ≤ height
  bottom : 0 ≤ r.bottom.val ∧ r.bottom.val ≤ height

/-- A row of the tree whose surface starts at `x` and `y`. -/
structure Laid (x y width anchor : Int) (position : Nat) (mode : TreeRowMode)
    (g : TreeRowGeometry) : Prop where
  nodeX : g.nodeX.val = x + anchor
  rowLeft : g.row.left.val = x + 2
  rowRight : g.row.right.val = x + width - 2
  rowTop : g.row.top.val = y + 3 + 36 * position
  rowBottom : g.row.bottom.val = y + 38 + 36 * position
  hitRight : g.disclosureHit.right.val = x + anchor + 12
  hitTop : g.disclosureHit.top.val = y + 3 + 36 * position
  hitBottom : g.disclosureHit.bottom.val = y + 39 + 36 * position
  textLeft : g.text.left.val = x + anchor + 17
  textRight : g.text.right.val = x + width - 6 - reservedWidth width mode
  textTop : g.text.top.val = y + 4 + 36 * position
  textBottom : g.text.bottom.val = y + 37 + 36 * position
  clusterLeft : g.actions.bounds.left.val = x + width - 4 - reservedWidth width mode
  clusterRight : g.actions.bounds.right.val = x + width - 4
  clusterTop : g.actions.bounds.top.val = y + 6 + 36 * position
  clusterBottom : g.actions.bounds.bottom.val = y + 35 + 36 * position
  actions : ActionsPlaced width mode g.actions

/-- All parts of a row lie between the origin and the limits. -/
structure RowInside (width height : Int) (g : TreeRowGeometry) : Prop where
  nodeX : 0 ≤ g.nodeX.val ∧ g.nodeX.val ≤ width
  nodeY : 0 ≤ g.nodeY.val ∧ g.nodeY.val ≤ height
  row : Inside width height g.row
  selection : Inside width height g.selection
  expander : Inside width height g.expander
  status : Inside width height g.status
  disclosureHit : Inside width height g.disclosureHit
  text : Inside width height g.text
  name : Inside width height g.name
  note : Inside width height g.note
  editors : ∀ e ∈ g.editors, Inside width height e.name ∧ Inside width height e.note
  bounds : Inside width height g.actions.bounds
  addChild : ∀ r ∈ g.actions.addChild, Inside width height r
  primary : Inside width height g.actions.primary
  secondary : Inside width height g.actions.secondary

lemma ActionAt.inside {cluster action : PixelRect} {left right width : Int}
    (h : ActionAt cluster action left right) (hcluster : Inside width height cluster)
    (hleft : 0 ≤ left) (hle : left ≤ right) (hright : cluster.left.val + right ≤ width) :
    Inside width height action := by
  have hstart := hcluster.left
  have hactionLeft := h.left
  have hactionRight := h.right
  refine ⟨by omega, by omega, ?_, ?_⟩
  · rw [h.top]
    exact hcluster.top
  · rw [h.bottom]
    exact hcluster.bottom

lemma ActionsPlaced.inside {width widest : Int} {actions : TreeRowActionGeometry}
    (h : ActionsPlaced width mode actions) (hcluster : Inside widest height actions.bounds)
    (hright : actions.bounds.left.val + reservedWidth width mode ≤ widest) :
    (∀ r ∈ actions.addChild, Inside widest height r) ∧ Inside widest height actions.primary ∧
      Inside widest height actions.secondary := by
  obtain ⟨hfirst, hroom⟩ := firstActionWidth_bounds width mode
  obtain ⟨hsecondary, hrest⟩ := h
  have hlast := hsecondary.inside hcluster (by omega) (by omega) hright
  cases mode with
  | normal =>
    obtain ⟨⟨first, hadd, hat⟩, hprimary⟩ := hrest
    refine ⟨?_, hprimary.inside hcluster (by omega) (by omega) (by omega), hlast⟩
    intro r hr
    obtain rfl : first = r := Option.some.inj (hadd.symm.trans hr)
    exact hat.inside hcluster (by omega) (by omega) (by omega)
  | editing =>
    obtain ⟨hadd, hprimary⟩ := hrest
    refine ⟨?_, hprimary.inside hcluster (by omega) (by omega) (by omega), hlast⟩
    intro r hr
    exact nomatch hadd.symm.trans hr

/-- A row at the origin is laid out in closed form and lies within its surface, without
overflow. -/
lemma treeRowGeometryImpl_returns {position : Nat} {nodeX : I32} (hwidth : 162 ≤ width.val)
    (hlow : 8 ≤ nodeX.val) (hroom : nodeX.val + 17 < width.val - 6 - reservedWidth width.val mode)
    (hfits : (39 : Int) + 36 * position ≤ 2147483647) :
    Returns (treeRowGeometryImpl position nodeX width mode) fun g =>
      Laid 0 0 width.val nodeX.val position mode g ∧
        RowInside width.val (39 + 36 * position) g := by
  obtain ⟨hleast, hmost, _⟩ := reservedWidth_bounds width.val mode
  have hmax := width.high
  have hposition : (castI32 position).val = position := castI32_of_fits (by omega)
  have hheight : tabHeight.val = 36 := rfl
  unfold treeRowGeometryImpl
  apply (I32.mul_returns (by rw [hposition, hheight]; omega)).bind
  intro below hbelow
  rw [hposition, hheight] at hbelow
  have htabTop : tabTop.val = 3 := rfl
  apply (I32.add_returns (by omega)).bind
  intro top htop
  apply (I32.add_lit_returns (by omega)).bind
  intro nodeY hnodeY
  apply (I32.sub_lit_returns (by omega)).bind
  intro selectionRight hselectionRight
  apply (I32.add_lit_returns (by omega)).bind
  intro bottom hbottom
  apply (I32.sub_lit_returns (by omega)).bind
  intro selectionBottom hselectionBottom
  have htabLeft : tabLeft.val = 2 := rfl
  have hselection : (max selectionRight tabLeft).val = width.val - 2 := by
    rw [I32.val_max, htabLeft]
    omega
  generalize max selectionRight tabLeft = selectionRight at *
  apply (@treeRowActions_returns _ hwidth (rect tabLeft top selectionRight selectionBottom)
    htabLeft hselection hmax (by simp only [rect]; omega) (by simp only [rect]; omega) mode).bind
  intro actions ⟨hclusterLeft, hclusterRight, hclusterTop, hclusterBottom, hplaced⟩
  simp only [rect] at hclusterTop hclusterBottom
  apply (I32.add_lit_returns (by omega)).bind
  intro textStart htextStart
  apply (I32.clamp_returns (by simp only [rect]; omega)).bind
  intro textLeft htextLeft
  simp only [rect] at htextLeft
  apply (I32.sub_lit_returns (by omega)).bind
  intro textEnd htextEnd
  apply (I32.clamp_returns (by simp only [rect]; omega)).bind
  intro textRight htextRight
  simp only [rect] at htextRight
  have htextLeft' : textLeft.val = nodeX.val + 17 := by omega
  have htextRight' : textRight.val = width.val - 6 - reservedWidth width.val mode := by omega
  clear htextLeft htextRight
  apply (I32.add_lit_returns (by omega)).bind
  intro textTop htextTop
  apply (I32.sub_lit_returns (by simp only [rect]; omega)).bind
  intro textBottom htextBottom
  simp only [rect] at htextBottom
  apply (I32.add_lit_returns (by omega)).bind
  intro middle hmiddle
  apply (I32.sub_lit_returns (by omega)).bind
  intro expanderLeft hexpanderLeft
  apply (I32.sub_lit_returns (by omega)).bind
  intro expanderTop hexpanderTop
  apply (I32.add_lit_returns (by omega)).bind
  intro expanderRight hexpanderRight
  apply (I32.add_lit_returns (by omega)).bind
  intro expanderBottom hexpanderBottom
  apply (I32.add_lit_returns (by omega)).bind
  intro statusLeft hstatusLeft
  apply (I32.sub_lit_returns (by omega)).bind
  intro statusTop hstatusTop
  apply (I32.add_lit_returns (by omega)).bind
  intro statusRight hstatusRight
  apply (I32.add_lit_returns (by omega)).bind
  intro statusBottom hstatusBottom
  apply (I32.sub_lit_returns (by omega)).bind
  intro hitLeft hhitLeft
  apply (I32.add_lit_returns (by omega)).bind
  intro hitRight hhitRight
  apply Returns.pure
  have hcut : (min middle textBottom).val = 21 + 36 * position := by
    rw [I32.val_min]
    omega
  have hcluster : Inside width.val (39 + 36 * position) actions.bounds := by
    constructor <;> omega
  obtain ⟨hadd, hprimary, hsecondary⟩ := hplaced.inside hcluster (by omega)
  have hselected : Inside width.val (39 + 36 * position)
      (rect tabLeft top selectionRight selectionBottom) := by
    constructor <;> simp only [rect] <;> omega
  have hname : Inside width.val (39 + 36 * position)
      (rect textLeft textTop textRight (min middle textBottom)) := by
    constructor <;> simp only [rect] <;> omega
  have hnote : Inside width.val (39 + 36 * position)
      (rect textLeft (min middle textBottom) textRight textBottom) := by
    constructor <;> simp only [rect] <;> omega
  constructor
  · constructor <;> simp only [rect] <;> first | exact hplaced | omega
  · refine ⟨by simp only; omega, by simp only; omega, hselected, hselected, ?_, ?_, ?_, ?_, hname,
      hnote, ?_, hcluster, hadd, hprimary, hsecondary⟩
    · constructor <;> simp only [rect] <;> omega
    · constructor <;> simp only [rect] <;> omega
    · constructor <;> simp only [rect] <;> omega
    · constructor <;> simp only [rect] <;> omega
    · intro e he
      simp only at he
      split at he
      · cases he
        exact ⟨hname, hnote⟩
      · nomatch he

end Agenterm.UiGeometry
