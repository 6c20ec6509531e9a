import Agenterm.Ui.SidebarScrollTheorems
import Agenterm.Ui.SidebarTreeTheorems
import Agenterm.Ui.WorkspaceLayoutTheorems

/-!
# The rows of the tree and their hit test

A row keeps its layout when it is shifted into the tree surface
(`translateTreeRowGeometry_returns`). It takes `TAB_HEIGHT` pixels from its top on, which is what the
hit test divides by (`treeRowAtY_eq`).
-/

namespace Agenterm.UiGeometry

open Lib List

/-! ## The shift into the surface -/

/-- A rectangle that has been shifted. -/
structure Shifted (x y : Int) (r r' : PixelRect) : Prop where
  left : r'.left.val = r.left.val + x
  right : r'.right.val = r.right.val + x
  top : r'.top.val = r.top.val + y
  bottom : r'.bottom.val = r.bottom.val + y

/-- An action keeps its place in the cluster. -/
lemma ActionAt.shift {cluster cluster' action action' : PixelRect} {x y : I32} {left right : Int}
    (h : ActionAt cluster action left right) (hcluster : Shifted x.val y.val cluster cluster')
    (haction : Shifted x.val y.val action action') : ActionAt cluster' action' left right := by
  obtain ⟨hl, hr, ht, hb⟩ := h
  obtain ⟨hl₁, hr₁, ht₁, hb₁⟩ := hcluster
  obtain ⟨hl₂, hr₂, ht₂, hb₂⟩ := haction
  refine ⟨by omega, by omega, ?_, ?_⟩
  · rw [I32.ext_iff, ht₂, ht₁, ht]
  · rw [I32.ext_iff, hb₂, hb₁, hb]

/-- A shift that keeps what lies within the limits among the machine's integers. -/
structure ShiftFits (x y : I32) (width height : Int) : Prop where
  across : x.val + width ≤ 2147483647
  down : y.val + height ≤ 2147483647

variable {actions : TreeRowActionGeometry} {g : TreeRowGeometry} {mode : TreeRowMode}
  {surface : Int}

section
variable {x y : I32} {width height : Int} (hshift : ShiftFits x y width height)
include hshift

lemma translate_returns {r : PixelRect} (h : Inside width height r) :
    Returns (r.translate x y) fun r' => Shifted x.val y.val r r' := by
  obtain ⟨hleft, hright, htop, hbottom⟩ := h
  obtain ⟨hacross, hdown⟩ := hshift
  have hxlow := x.low
  have hylow := y.low
  unfold PixelRect.translate
  apply (I32.add_returns (by omega)).bind
  intro left hleft'
  apply (I32.add_returns (by omega)).bind
  intro right hright'
  apply (I32.add_returns (by omega)).bind
  intro top htop'
  apply (I32.add_returns (by omega)).bind
  intro bottom hbottom'
  exact Returns.pure ⟨hleft', hright', htop', hbottom'⟩

/-- A rectangle that may be absent. -/
lemma translate_option_returns {r : Option PixelRect} (h : ∀ r' ∈ r, Inside width height r') :
    Returns (r.mapM fun bounds => bounds.translate x y) fun r' =>
      (r = none → r' = none) ∧
        ∀ bounds, r = some bounds → ∃ bounds', r' = some bounds' ∧
          Shifted x.val y.val bounds bounds' := by
  cases r with
  | none => exact Returns.pure ⟨fun _ => rfl, fun _ h => nomatch h⟩
  | some bounds =>
    obtain ⟨bounds', heq, hshifted⟩ := translate_returns hshift (h bounds rfl)
    refine ⟨some bounds', by simp [heq], fun h => (nomatch h), ?_⟩
    intro b hb
    cases hb
    exact ⟨bounds', rfl, hshifted⟩

lemma editors_returns {editors : Option TreeRowEditorGeometry}
    (h : ∀ e ∈ editors, Inside width height e.name ∧ Inside width height e.note) :
    Returns (editors.mapM fun editors => editors.translate x y) fun _ => True := by
  cases editors with
  | none => exact Returns.pure trivial
  | some e =>
    obtain ⟨hname, hnote⟩ := h e rfl
    have hpair : Returns (e.translate x y) fun _ => True := by
      unfold TreeRowEditorGeometry.translate
      apply (translate_returns hshift hname).bind
      intro name _
      apply (translate_returns hshift hnote).bind
      intro note _
      exact Returns.pure trivial
    obtain ⟨e', heq, _⟩ := hpair
    exact ⟨some e', by simp [heq], trivial⟩

lemma actions_returns (hplaced : ActionsPlaced surface mode actions)
    (hbounds : Inside width height actions.bounds)
    (hadd : ∀ r ∈ actions.addChild, Inside width height r)
    (hprimary : Inside width height actions.primary)
    (hsecondary : Inside width height actions.secondary) :
    Returns (actions.translate x y) fun actions' =>
      Shifted x.val y.val actions.bounds actions'.bounds ∧
        ActionsPlaced surface mode actions' := by
  unfold TreeRowActionGeometry.translate
  apply (translate_returns hshift hbounds).bind
  intro bounds hbounds'
  apply (translate_option_returns hshift hadd).bind
  intro addChild ⟨hnone, hsome⟩
  apply (translate_returns hshift hprimary).bind
  intro primary hprimary'
  apply (translate_returns hshift hsecondary).bind
  intro secondary hsecondary'
  apply Returns.pure
  obtain ⟨hlast, hrest⟩ := hplaced
  refine ⟨hbounds', hlast.shift hbounds' hsecondary', ?_⟩
  cases mode with
  | normal =>
    obtain ⟨⟨first, hfirst, hat⟩, hempty⟩ := hrest
    obtain ⟨first', hfirst', hshifted⟩ := hsome first hfirst
    exact ⟨⟨first', hfirst', hat.shift hbounds' hshifted⟩,
      hempty.shift hbounds' hprimary'⟩
  | editing =>
    obtain ⟨habsent, hat⟩ := hrest
    exact ⟨hnone habsent, hat.shift hbounds' hprimary'⟩

/-- A row is shifted as a whole. -/
lemma translateTreeRowGeometry_returns {anchor : Int} {position : Nat}
    (hlaid : Laid 0 0 surface anchor position mode g) (hinside : RowInside width height g) :
    Returns (translateTreeRowGeometry g x y) fun g' =>
      Laid x.val y.val surface anchor position mode g' := by
  have hnodeX := hinside.nodeX
  have hnodeY := hinside.nodeY
  have hacross := hshift.across
  have hdown := hshift.down
  have hxlow := x.low
  have hylow := y.low
  unfold translateTreeRowGeometry
  apply (translate_returns hshift hinside.row).bind
  intro row hrow
  apply (translate_returns hshift hinside.selection).bind
  intro selection _
  apply (I32.add_returns (by omega)).bind
  intro nodeX hnodeX'
  apply (I32.add_returns (by omega)).bind
  intro nodeY _
  apply (translate_returns hshift hinside.expander).bind
  intro expander _
  apply (translate_returns hshift hinside.status).bind
  intro status _
  apply (translate_returns hshift hinside.disclosureHit).bind
  intro disclosureHit hhit
  apply (translate_returns hshift hinside.text).bind
  intro text htext
  apply (translate_returns hshift hinside.name).bind
  intro name _
  apply (translate_returns hshift hinside.note).bind
  intro note _
  apply (editors_returns hshift hinside.editors).bind
  intro editors _
  apply (actions_returns hshift hlaid.actions hinside.bounds hinside.addChild hinside.primary
    hinside.secondary).bind
  intro actions ⟨hbounds, hplaced⟩
  apply Returns.pure
  clear hnodeX hnodeY hacross hdown hxlow hylow
  exact {
    nodeX := hnodeX'.trans (by rw [hlaid.nodeX]; omega)
    rowLeft := hrow.left.trans (by rw [hlaid.rowLeft]; omega)
    rowRight := hrow.right.trans (by rw [hlaid.rowRight]; omega)
    rowTop := hrow.top.trans (by rw [hlaid.rowTop]; omega)
    rowBottom := hrow.bottom.trans (by rw [hlaid.rowBottom]; omega)
    hitRight := hhit.right.trans (by rw [hlaid.hitRight]; omega)
    hitTop := hhit.top.trans (by rw [hlaid.hitTop]; omega)
    hitBottom := hhit.bottom.trans (by rw [hlaid.hitBottom]; omega)
    textLeft := htext.left.trans (by rw [hlaid.textLeft]; omega)
    textRight := htext.right.trans (by rw [hlaid.textRight]; omega)
    textTop := htext.top.trans (by rw [hlaid.textTop]; omega)
    textBottom := htext.bottom.trans (by rw [hlaid.textBottom]; omega)
    clusterLeft := hbounds.left.trans (by rw [hlaid.clusterLeft]; omega)
    clusterRight := hbounds.right.trans (by rw [hlaid.clusterRight]; omega)
    clusterTop := hbounds.top.trans (by rw [hlaid.clusterTop]; omega)
    clusterBottom := hbounds.bottom.trans (by rw [hlaid.clusterBottom]; omega)
    actions := hplaced }

end

/-! ## The rows of a surface -/

/-- A surface with room for the content, and a position whose row is laid out and shifted without
overflow. -/
structure RowFits (tree : PixelRect) (position : Nat) : Prop where
  wide : tree.left.val + 12 + 162 ≤ tree.right.val
  fitsWidth : tree.right.val - (tree.left.val + 12) ≤ 2147483647
  fitsLocal : (39 : Int) + 36 * position ≤ 2147483647
  fitsBottom : tree.top.val + 39 + 36 * position ≤ 2147483647

section
variable {tree : PixelRect} {position : Nat}

/-- A height within a row is divided to the position of the row. -/
lemma treeRowAtY_eq (h : RowFits tree position) {y : I32}
    (hlow : tree.top.val + 3 + 36 * position ≤ y.val)
    (hhigh : y.val < tree.top.val + 39 + 36 * position) :
    treeRowAtY y tree.top = some (some position) := by
  have hlocal := h.fitsLocal
  have hreturns : Returns (treeRowAtY y tree.top) fun row => row = some position := by
    unfold treeRowAtY
    apply (I32.sub_returns (by omega)).bind
    intro localY hlocalY
    apply (I32.sub_lit_returns (by omega)).bind
    intro inside hinside
    have hheight : tabHeight.val = 36 := rfl
    have htop : tabTop.val = 3 := rfl
    apply (I32.div_returns (by omega) (by omega)).bind
    intro row hrow
    apply Returns.pure
    rw [hheight] at hrow
    have hrow' : row.val = position := by omega
    have hcast := @castUsize_of_fits row.val (by omega) (by omega)
    rw [if_pos (by omega)]
    congr 1
    omega
  exact hreturns.eq_some fun _ h => h

lemma sidebarTreeRowGeometry_returns (h : RowFits tree position) (depth : Nat)
    (mode : TreeRowMode) :
    Returns (sidebarTreeRowGeometry tree position depth mode) fun g =>
      Laid (tree.left.val + 12) tree.top.val (tree.right.val - (tree.left.val + 12))
        (anchorOf depth (tree.right.val - (tree.left.val + 12)) mode) position mode g := by
  obtain ⟨hwide, hwidth, hlocal, hbottom⟩ := h
  have hlow := tree.left.low
  have hhigh := tree.right.high
  have hscrollbar : terminalScrollbarWidth.val = 12 := rfl
  unfold sidebarTreeRowGeometry
  apply (I32.add_returns (by omega)).bind
  intro left hleft
  have hcontentLeft : (min left tree.right).val = tree.left.val + 12 := by
    rw [I32.val_min]
    omega
  generalize min left tree.right = contentLeft at *
  apply (I32.sub_returns (by omega)).bind
  intro width hwidth'
  have hcontentWidth : (max width 0).val = tree.right.val - (tree.left.val + 12) := by
    rw [I32.val_max, I32.val_zero]
    omega
  generalize max width 0 = contentWidth at *
  have hcontent : 162 ≤ contentWidth.val := by omega
  have hanchor := anchorOf_bounds hcontent depth mode
  unfold treeRowGeometryForMode
  have hrow : Returns (treeConnectorX depth contentWidth mode >>= fun nodeX =>
      treeRowGeometryImpl position nodeX contentWidth mode) fun g =>
        Laid 0 0 contentWidth.val (anchorOf depth contentWidth.val mode) position mode g ∧
          RowInside contentWidth.val (39 + 36 * position) g := by
    apply (connectorX_returns hcontent depth mode).bind
    intro nodeX hnodeX
    rw [← hnodeX] at hanchor ⊢
    exact treeRowGeometryImpl_returns hcontent hanchor.1 hanchor.2 hlocal
  apply hrow.bind
  intro g ⟨hlaid, hinside⟩
  have hshift : ShiftFits contentLeft tree.top contentWidth.val (39 + 36 * position) :=
    ⟨by omega, by omega⟩
  have hmoved := translateTreeRowGeometry_returns hshift hlaid hinside
  rwa [hcontentLeft, hcontentWidth] at hmoved

/-- What the painting and the hit tests take from a row. -/
structure RowAgrees (tree : PixelRect) (position : Nat) (mode : TreeRowMode)
    (g : TreeRowGeometry) : Prop where
  hit : ∀ r ∈ [g.disclosureHit, g.row, g.text] ++ g.actions.buttons, ∀ y : I32,
    r.top.val ≤ y.val → y.val < r.bottom.val → treeRowAtY y tree.top = some (some position)
  disclosure : g.disclosureHit.right.val ≤ g.text.left.val
  textEnds : g.text.right.val ≤ g.actions.bounds.left.val
  textNonempty : g.text.left.val < g.text.right.val ∧ g.text.top.val < g.text.bottom.val
  buttonsWithin : ∀ r ∈ g.actions.buttons, Within r g.row ∧ Within r g.actions.bounds
  buttonsApart : g.actions.buttons.Pairwise PixelRect.Apart
  reserved : ∀ contentWidth : I32, contentWidth.val = tree.right.val - (tree.left.val + 12) →
    Returns (desiredTreeActionWidth contentWidth mode) fun reserved =>
      reserved.val = g.actions.bounds.right.val - g.actions.bounds.left.val

/-- The actions, from left to right, and what each of them takes of the cluster. -/
lemma ActionsPlaced.buttons {width : Int} (h : ActionsPlaced width mode actions) :
    (∀ r ∈ actions.buttons, ∃ left right, 0 ≤ left ∧ left ≤ right ∧
        right ≤ reservedWidth width mode ∧ ActionAt actions.bounds r left right) ∧
      actions.buttons.Pairwise PixelRect.Apart := by
  obtain ⟨hfirst, hroom⟩ := firstActionWidth_bounds width mode
  obtain ⟨hlast, hrest⟩ := h
  have hlastLeft := hlast.left
  unfold TreeRowActionGeometry.buttons
  cases mode with
  | normal =>
    obtain ⟨⟨first, hadd, hat⟩, hempty⟩ := hrest
    have hfirstRight := hat.right
    have hemptyLeft := hempty.left
    have hemptyRight := hempty.right
    rw [hadd]
    simp only [Option.toList_some, singleton_append]
    constructor
    · intro r hr
      simp only [mem_cons, not_mem_nil, or_false] at hr
      rcases hr with rfl | rfl | rfl
      · exact ⟨_, _, by omega, by omega, by omega, hat⟩
      · exact ⟨_, _, by omega, by omega, by omega, hempty⟩
      · exact ⟨_, _, by omega, by omega, by omega, hlast⟩
    · simp only [pairwise_cons, mem_cons, not_mem_nil, or_false, forall_eq_or_imp,
        forall_eq]
      refine ⟨⟨?_, ?_⟩, ?_, by simp⟩
      · exact PixelRect.apart_of_right (by omega)
      · exact PixelRect.apart_of_right (by omega)
      · exact PixelRect.apart_of_right (by omega)
  | editing =>
    obtain ⟨habsent, hat⟩ := hrest
    have hfirstRight := hat.right
    rw [habsent]
    simp only [Option.toList_none, nil_append]
    constructor
    · intro r hr
      simp only [mem_cons, not_mem_nil, or_false] at hr
      rcases hr with rfl | rfl
      · exact ⟨_, _, by omega, by omega, by omega, hat⟩
      · exact ⟨_, _, by omega, by omega, by omega, hlast⟩
    · simp only [pairwise_cons, mem_cons, not_mem_nil, or_false, forall_eq]
      exact ⟨PixelRect.apart_of_right (by omega), by simp⟩

/-- A row in closed form is painted where the hit test finds it. -/
lemma rowAgrees_of_laid (h : RowFits tree position) {depth : Nat}
    (hlaid : Laid (tree.left.val + 12) tree.top.val (tree.right.val - (tree.left.val + 12))
      (anchorOf depth (tree.right.val - (tree.left.val + 12)) mode) position mode g) :
    RowAgrees tree position mode g := by
  have hwide := h.wide
  have hanchor := @anchorOf_bounds (tree.right.val - (tree.left.val + 12)) (by omega) depth mode
  have hreserved := reservedWidth_bounds (tree.right.val - (tree.left.val + 12)) mode
  obtain ⟨hbuttons, hapart⟩ := hlaid.actions.buttons
  have hclusterLeft := hlaid.clusterLeft
  have hclusterRight := hlaid.clusterRight
  have hclusterTop := hlaid.clusterTop
  have hclusterBottom := hlaid.clusterBottom
  constructor
  · have hspan : ∀ r ∈ [g.disclosureHit, g.row, g.text] ++ g.actions.buttons,
        tree.top.val + 3 + 36 * position ≤ r.top.val ∧
          r.bottom.val ≤ tree.top.val + 39 + 36 * position := by
      intro r hr
      simp only [mem_append, mem_cons, not_mem_nil, or_false] at hr
      rcases hr with (rfl | rfl | rfl) | hr
      · exact ⟨hlaid.hitTop.ge, hlaid.hitBottom.le⟩
      · exact ⟨hlaid.rowTop.ge, by rw [hlaid.rowBottom]; omega⟩
      · exact ⟨by rw [hlaid.textTop]; omega, by rw [hlaid.textBottom]; omega⟩
      · obtain ⟨_, _, _, _, _, hat⟩ := hbuttons r hr
        rw [hat.top, hat.bottom]
        omega
    intro r hr y hlow hhigh
    have hin := hspan r hr
    exact treeRowAtY_eq h (by omega) (by omega)
  · rw [hlaid.hitRight, hlaid.textLeft]
    omega
  · rw [hlaid.textRight, hclusterLeft]
    omega
  · rw [hlaid.textLeft, hlaid.textRight, hlaid.textTop, hlaid.textBottom]
    omega
  · intro r hr
    obtain ⟨left, right, hnonneg, hle, hroom, hat⟩ := hbuttons r hr
    have hleft := hat.left
    have hright := hat.right
    have hrowLeft := hlaid.rowLeft
    have hrowRight := hlaid.rowRight
    have hrowTop := hlaid.rowTop
    have hrowBottom := hlaid.rowBottom
    have htop : r.top.val = g.actions.bounds.top.val := by rw [hat.top]
    have hbottom : r.bottom.val = g.actions.bounds.bottom.val := by rw [hat.bottom]
    constructor
    · constructor <;> omega
    · constructor <;> omega
  · exact hapart
  · intro contentWidth hcontent
    apply (desiredTreeActionWidth_returns contentWidth mode).imp
    intro reserved hreserved'
    rw [hreserved', hclusterLeft, hclusterRight, hcontent]
    omega

/-- The rows of a tree agree with their hit test, and deeper rows are anchored further to the
right. -/
theorem tree_rows_agree (h : RowFits tree position) (mode : TreeRowMode) :
    (∀ depth, Returns (sidebarTreeRowGeometry tree position depth mode) fun g =>
        RowAgrees tree position mode g) ∧
      ∀ depth deeper, depth < deeper → deeper ≤ 10 →
        Returns (sidebarTreeRowGeometry tree position depth mode) fun g =>
          Returns (sidebarTreeRowGeometry tree position deeper mode) fun g' =>
            g.nodeX.val < g'.nodeX.val := by
  constructor
  · intro depth
    exact (sidebarTreeRowGeometry_returns h depth mode).imp fun g hlaid => rowAgrees_of_laid h hlaid
  · intro depth deeper hlt hle
    apply (sidebarTreeRowGeometry_returns h depth mode).imp
    intro g hlaid
    apply (sidebarTreeRowGeometry_returns h deeper mode).imp
    intro g' hlaid'
    have hanchor := anchorOf_lt (tree.right.val - (tree.left.val + 12)) mode hlt hle
    rw [hlaid.nodeX, hlaid'.nodeX]
    omega

end

/-- The narrowest column of tabs, with its seventh row. -/
theorem tree_rows_agree_narrow :
    (∀ depth, Returns (sidebarTreeRowGeometry (rect 0 (.lit 40) (.lit 174) (.lit 500)) 6 depth
        .editing) fun g => RowAgrees (rect 0 (.lit 40) (.lit 174) (.lit 500)) 6 .editing g) ∧
      ∀ depth deeper, depth < deeper → deeper ≤ 10 →
        Returns (sidebarTreeRowGeometry (rect 0 (.lit 40) (.lit 174) (.lit 500)) 6 depth .editing)
          fun g => Returns (sidebarTreeRowGeometry (rect 0 (.lit 40) (.lit 174) (.lit 500)) 6 deeper
            .editing) fun g' => g.nodeX.val < g'.nodeX.val :=
  tree_rows_agree ⟨by decide, by decide, by decide, by decide⟩ .editing

end Agenterm.UiGeometry
