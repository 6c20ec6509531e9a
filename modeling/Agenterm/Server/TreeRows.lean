import Agenterm.Server.Tree
import Mathlib.Data.Finset.Basic
import Mathlib.Data.Finset.Insert

/-!
# The rows of the tab tree

`tree_rows` of `tab_tree.rs` lists the tabs as the rows of an indented tree, with what a row needs
to be drawn. It does not trust the parents: tabs that no root leads to come last, as roots of their
own. `tab_depth` of `control_dispatch.rs` computes the depth of one tab from the parents alone.
-/

namespace Agenterm

open List

structure TabTreeRow where
  id : Nat
  depth : Nat
  isLast : Bool
  ancestors : List Nat
  guides : List Bool
deriving DecidableEq

/-- The ids visited so far, and the rows. -/
structure TreeWalk where
  visited : Finset Nat
  rows : List TabTreeRow

def TreeWalk.empty : TreeWalk := { visited := ∅, rows := [] }

/-- `sort_by_key(|node| node.sort_key)`, a stable sort. -/
def sortBySortKey (nodes : List TabTreeNode) : List TabTreeNode :=
  nodes.insertionSort fun a b => a.sortKey ≤ b.sortKey

/-- The children of a tab, in the order of their rows. -/
def childNodes (nodes : List TabTreeNode) (id : Nat) : List TabTreeNode :=
  sortBySortKey (nodes.filter fun node => node.parentId = some id)

/-- The filter of the roots: tabs without a parent in the list, or with themselves as parent. -/
def isRoot (nodes : List TabTreeNode) (node : TabTreeNode) : Bool :=
  node.parentId.all fun parentId =>
    !(nodes.map TabTreeNode.id).contains parentId || parentId = node.id

def rootNodes (nodes : List TabTreeNode) : List TabTreeNode :=
  sortBySortKey (nodes.filter (isRoot nodes))

/-- The loops over sorted nodes. `visitOne` gets the id of a node, and whether it is the last. -/
def visitEach (visitOne : Nat → Bool → TreeWalk → Option TreeWalk) :
    List TabTreeNode → TreeWalk → Option TreeWalk
  | [], walk => some walk
  | node :: rest, walk => (visitOne node.id rest.isEmpty walk).bind (visitEach visitOne rest)

/-- `visit`; `none` when the calls are nested deeper than `fuel`. -/
def visit (nodes : List TabTreeNode) :
    Nat → List Nat → List Bool → Nat → Bool → TreeWalk → Option TreeWalk
  | 0, _, _, _, _, _ => none
  | fuel + 1, ancestors, guides, id, isLast, walk =>
    if id ∈ walk.visited then
      some walk
    else
      let depth := ancestors.length
      let childGuides := if depth > 0 then guides ++ [!isLast] else guides
      visitEach (visit nodes fuel (ancestors ++ [id]) childGuides) (childNodes nodes id)
        { visited := insert id walk.visited
          rows := walk.rows ++ [{ id, depth, isLast, ancestors, guides }] }

/-- `tree_rows`, with as much fuel as it needs (`treeRows_perm`). -/
def treeRows (nodes : List TabTreeNode) : Option (List TabTreeRow) :=
  let top := visit nodes (nodes.length + 1) [] []
  (visitEach top (rootNodes nodes) .empty).bind fun walk =>
    let remaining := sortBySortKey (nodes.filter fun node => node.id ∉ walk.visited)
    (visitEach (fun id _ => top id true) remaining walk).map TreeWalk.rows

/-! ## The depth of one tab -/

/-- The parent of the first tab with this id. -/
def tabParent (tabs : List TerminalTab) (id : Nat) : Option Nat :=
  (tabs.find? fun tab => tab.id = id).bind TerminalTab.parentId

/-- The loop of `tab_depth`, which stops after `rounds` parents. -/
def climbDepth (tabs : List TerminalTab) : Nat → Nat → Option Nat → Nat
  | 0, depth, _ => depth
  | _ + 1, depth, none => depth
  | rounds + 1, depth, some parentId =>
    climbDepth tabs rounds (depth + 1) (tabParent tabs parentId)

def tabDepth (tabs : List TerminalTab) (id : Nat) : Nat :=
  match tabs.find? fun tab => tab.id = id with
  | none => 0
  | some tab => climbDepth tabs (tabs.length + 1) 0 tab.parentId

/-!
Whatever the parents are, the walk ends and gives every tab exactly one row (`treeRows_perm`): each
call that does not return at once takes one tab off those not visited yet.
-/

variable {nodes : List TabTreeNode}

variable {id : Nat} {node : TabTreeNode} {walk : TreeWalk}

@[simp] lemma mem_sortBySortKey {l : List TabTreeNode} :
    node ∈ sortBySortKey l ↔ node ∈ l := mem_insertionSort _

lemma mem_childNodes : node ∈ childNodes nodes id ↔ node ∈ nodes ∧ node.parentId = some id := by
  simp [childNodes]

lemma mem_rootNodes : node ∈ rootNodes nodes ↔ node ∈ nodes ∧ isRoot nodes node = true := by
  simp [rootNodes]

/-- The visited tabs are those with a row, each has one, and they are in the list. -/
structure TreeWalk.Consistent (nodes : List TabTreeNode) (walk : TreeWalk) : Prop where
  nodup : (walk.rows.map TabTreeRow.id).Nodup
  mem_visited : ∀ x, x ∈ walk.visited ↔ x ∈ walk.rows.map TabTreeRow.id
  listed : ∀ x ∈ walk.visited, x ∈ nodes.map TabTreeNode.id

lemma TreeWalk.consistent_empty : TreeWalk.Consistent nodes .empty where
  nodup := nodup_nil
  mem_visited x := by simp [TreeWalk.empty]
  listed x hx := absurd hx (Finset.notMem_empty x)

lemma TreeWalk.Consistent.insert (h : walk.Consistent nodes) (row : TabTreeRow)
    (hnew : row.id ∉ walk.visited) (hlisted : row.id ∈ nodes.map TabTreeNode.id) :
    TreeWalk.Consistent nodes
      { visited := Insert.insert row.id walk.visited, rows := walk.rows ++ [row] } where
  nodup := by
    rw [map_append, map_singleton, nodup_append]
    refine ⟨h.nodup, nodup_singleton _, ?_⟩
    intro x hx y hy hxy
    rw [mem_singleton] at hy
    exact hnew ((h.mem_visited _).mpr (hy ▸ hxy ▸ hx))
  mem_visited x := by
    rw [Finset.mem_insert, h.mem_visited, map_append, mem_append, map_singleton,
      mem_singleton, or_comm]
  listed x hx := by
    rcases Finset.mem_insert.mp hx with rfl | hold
    · exact hlisted
    · exact h.listed x hold

/-- How many tabs are not visited yet. -/
def TreeWalk.unvisited (nodes : List TabTreeNode) (walk : TreeWalk) : Nat :=
  nodes.countP fun node => node.id ∉ walk.visited

lemma TreeWalk.unvisited_mono {walk' : TreeWalk} (h : walk.visited ⊆ walk'.visited) :
    walk'.unvisited nodes ≤ walk.unvisited nodes := by
  apply countP_mono_left
  intro node _ hnode
  rw [decide_eq_true_eq] at hnode ⊢
  exact fun hmem => hnode (h hmem)

lemma TreeWalk.unvisited_insert (rows : List TabTreeRow) (hnew : id ∉ walk.visited)
    (hlisted : id ∈ nodes.map TabTreeNode.id) :
    TreeWalk.unvisited nodes { visited := insert id walk.visited, rows } <
      walk.unvisited nodes := by
  obtain ⟨node, hnode, rfl⟩ := mem_map.mp hlisted
  obtain ⟨before, after, rfl⟩ := append_of_mem hnode
  have hbefore : before.countP (fun n => n.id ∉ insert node.id walk.visited) ≤
      before.countP fun n => n.id ∉ walk.visited :=
    countP_mono_left fun n _ hn => by
      rw [decide_eq_true_eq] at hn ⊢
      exact fun hmem => hn (Finset.mem_insert_of_mem hmem)
  have hafter : after.countP (fun n => n.id ∉ insert node.id walk.visited) ≤
      after.countP fun n => n.id ∉ walk.visited :=
    countP_mono_left fun n _ hn => by
      rw [decide_eq_true_eq] at hn ⊢
      exact fun hmem => hn (Finset.mem_insert_of_mem hmem)
  unfold TreeWalk.unvisited
  dsimp only
  rw [countP_append, countP_append, countP_cons_of_neg (by simp),
    countP_cons_of_pos (by simpa using hnew)]
  omega

/-- What a call for these ids comes to: it ends, and they are visited. -/
def Visits (nodes : List TabTreeNode) (ids : List Nat) (walk : TreeWalk)
    (result : Option TreeWalk) : Prop :=
  ∃ walk', result = some walk' ∧ walk'.Consistent nodes ∧ walk.visited ⊆ walk'.visited ∧
    ∀ id ∈ ids, id ∈ walk'.visited

lemma visitEach_visits (visitOne : Nat → Bool → TreeWalk → Option TreeWalk) (limit : Nat)
    {l : List TabTreeNode}
    (hone : ∀ node ∈ l, ∀ isLast (walk : TreeWalk), walk.Consistent nodes →
      walk.unvisited nodes ≤ limit → Visits nodes [node.id] walk (visitOne node.id isLast walk))
    (h : walk.Consistent nodes) (hlimit : walk.unvisited nodes ≤ limit) :
    Visits nodes (l.map TabTreeNode.id) walk (visitEach visitOne l walk) := by
  induction l generalizing walk with
  | nil => exact ⟨walk, rfl, h, Finset.Subset.refl _, by simp⟩
  | cons node rest ih =>
    obtain ⟨walk₁, hfirst, hwalk₁, hsub₁, hmem₁⟩ :=
      hone node mem_cons_self rest.isEmpty walk h hlimit
    have hlimit₁ : walk₁.unvisited nodes ≤ limit :=
      Nat.le_trans (TreeWalk.unvisited_mono hsub₁) hlimit
    obtain ⟨walk₂, hrest, hwalk₂, hsub₂, hmem₂⟩ :=
      ih (fun n hn => hone n (mem_cons_of_mem _ hn)) hwalk₁ hlimit₁
    refine ⟨walk₂, ?_, hwalk₂, hsub₁.trans hsub₂, ?_⟩
    · rw [visitEach, hfirst, Option.bind_some, hrest]
    · intro id hid
      rw [map_cons, mem_cons] at hid
      rcases hid with rfl | hid
      · exact hsub₂ (hmem₁ _ mem_cons_self)
      · exact hmem₂ id hid

/-- A call ends if its fuel exceeds the number of tabs that are not visited. -/
lemma visit_visits {fuel : Nat} {ancestors : List Nat} {guides : List Bool} {isLast : Bool}
    (h : walk.Consistent nodes) (hlisted : id ∈ nodes.map TabTreeNode.id)
    (hfuel : walk.unvisited nodes < fuel) :
    Visits nodes [id] walk (visit nodes fuel ancestors guides id isLast walk) := by
  induction fuel generalizing ancestors guides id isLast walk with
  | zero => omega
  | succ fuel ih =>
    rw [visit]
    split
    · rename_i hvisited
      refine ⟨walk, rfl, h, Finset.Subset.refl _, ?_⟩
      rintro x hx
      rw [mem_singleton.mp hx]
      exact hvisited
    · rename_i hnew
      have hinsert := h.insert ⟨id, ancestors.length, isLast, ancestors, guides⟩ hnew hlisted
      have hcount := TreeWalk.unvisited_insert
        (walk.rows ++ [⟨id, ancestors.length, isLast, ancestors, guides⟩]) hnew hlisted
      obtain ⟨walk', hwalk', hconsistent, hsub, -⟩ :=
        visitEach_visits (l := childNodes nodes id)
          (visit nodes fuel (ancestors ++ [id])
            (if ancestors.length > 0 then guides ++ [!isLast] else guides)) (fuel - 1)
          (fun node hnode last walk hwalk hlimit =>
            ih hwalk (mem_map_of_mem (mem_childNodes.mp hnode).1) (by omega))
          hinsert (by dsimp only; omega)
      refine ⟨walk', hwalk', hconsistent, ?_, ?_⟩
      · exact (Finset.subset_insert _ _).trans hsub
      · rintro x hx
        rw [mem_singleton.mp hx]
        exact hsub (Finset.mem_insert_self _ _)

/-- The two passes over roots and over the tabs that remain. -/
lemma treeRows_visits (nodes : List TabTreeNode) :
    ∃ roots walk : TreeWalk,
      visitEach (visit nodes (nodes.length + 1) [] []) (rootNodes nodes) .empty = some roots ∧
      visitEach (fun id _ => visit nodes (nodes.length + 1) [] [] id true)
        (sortBySortKey (nodes.filter fun node => node.id ∉ roots.visited)) roots = some walk ∧
      treeRows nodes = some walk.rows ∧ roots.Consistent nodes ∧ walk.Consistent nodes ∧
      ∀ x ∈ nodes.map TabTreeNode.id, x ∈ walk.visited := by
  have hlimit (walk : TreeWalk) : walk.unvisited nodes ≤ nodes.length := countP_le_length
  obtain ⟨roots, hroots, hconsistent, -, -⟩ :=
    visitEach_visits (l := rootNodes nodes) (visit nodes (nodes.length + 1) [] []) nodes.length
      (fun node hnode last walk hwalk hle =>
        visit_visits hwalk (mem_map_of_mem (mem_rootNodes.mp hnode).1) (by omega))
      TreeWalk.consistent_empty (hlimit _)
  obtain ⟨walk, hwalk, hconsistent', hsub, hall⟩ :=
    visitEach_visits (l := sortBySortKey (nodes.filter fun node => node.id ∉ roots.visited))
      (fun id _ => visit nodes (nodes.length + 1) [] [] id true) nodes.length
      (fun node hnode last walk hwalk hle => visit_visits hwalk
        (mem_map_of_mem (mem_filter.mp (mem_sortBySortKey.mp hnode)).1) (by omega))
      hconsistent (hlimit _)
  refine ⟨roots, walk, hroots, hwalk, ?_, hconsistent, hconsistent', ?_⟩
  · dsimp only [treeRows]
    rw [hroots, Option.bind_some, hwalk, Option.map_some]
  · intro x hx
    by_cases hvisited : x ∈ roots.visited
    · exact hsub hvisited
    · obtain ⟨node, hnode, rfl⟩ := mem_map.mp hx
      apply hall
      apply mem_map_of_mem
      rw [mem_sortBySortKey, mem_filter]
      exact ⟨hnode, by simpa using hvisited⟩

/-- **Every tab has exactly one row**, whatever the parents are. -/
theorem treeRows_perm (hids : (nodes.map TabTreeNode.id).Nodup) :
    ∃ rows, treeRows nodes = some rows ∧
      (rows.map TabTreeRow.id).Perm (nodes.map TabTreeNode.id) := by
  obtain ⟨-, walk, -, -, hrows, -, hconsistent, hall⟩ := treeRows_visits nodes
  refine ⟨walk.rows, hrows, ?_⟩
  rw [perm_ext_iff_of_nodup hconsistent.nodup hids]
  intro x
  rw [← hconsistent.mem_visited]
  exact ⟨hconsistent.listed x, hall x⟩

/-- Two tabs that are each other's parents, and one below them. -/
theorem treeRows_perm_looped :
    ∃ rows, treeRows [⟨1, some 2, 0⟩, ⟨2, some 1, 1⟩, ⟨3, some 2, 2⟩] = some rows ∧
      (rows.map TabTreeRow.id).Perm [1, 2, 3] :=
  @treeRows_perm [⟨1, some 2, 0⟩, ⟨2, some 1, 1⟩, ⟨3, some 2, 2⟩] (by decide)

end Agenterm
