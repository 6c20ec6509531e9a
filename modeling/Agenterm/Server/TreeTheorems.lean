import Agenterm.Lib.Forest
import Agenterm.Server.Tree

/-!
# The tab tree is a forest

`TabForest nodes` is what every reader of the tab list relies on: distinct ids, tabs in the
order of distinct indices, parents that exist, no cycles. The three changes of the server keep
it:

* `TabForest.insert`: a new node at a free index, below a node that exists;
* `TabForest.reparent`: a new parent that passes the cycle check;
* `TabForest.remove`: a node goes, and its children move up to its parent.

`not_path_of_wouldCreateCycle` and `leastFreeIndex_free` say that the cycle check and the search
for an index do what they are for.
-/

namespace Agenterm

open Relation List

section
variable (id : Nat) (parentId : Option Nat) (tab : TerminalTab)

@[simp] lemma TerminalTab.setParent_id : (tab.setParent parentId).id = tab.id := rfl

@[simp] lemma TerminalTab.promote_id : (tab.promote id parentId).id = tab.id := by
  unfold promote
  split <;> rfl

@[simp] lemma TerminalTab.promote_index : (tab.promote id parentId).index = tab.index := by
  unfold promote
  split <;> rfl

@[simp] lemma TerminalTab.promote_title : (tab.promote id parentId).title = tab.title := by
  unfold promote
  split <;> rfl

end

/-- The parent link of the tree. -/
def ParentLink (nodes : List TabTreeNode) (x y : Nat) : Prop :=
  ∃ node ∈ nodes, node.id = x ∧ node.parentId = some y

structure TabForest (nodes : List TabTreeNode) : Prop where
  ids_nodup : (nodes.map TabTreeNode.id).Nodup
  sorted : nodes.Pairwise fun a b => a.sortKey < b.sortKey
  parents : ∀ node ∈ nodes, ∀ p, node.parentId = some p → p ∈ nodes.map TabTreeNode.id
  acyclic : Lib.Acyclic (ParentLink nodes)

variable {nodes nodes' : List TabTreeNode}

theorem tabForest_nil : TabForest [] where
  ids_nodup := nodup_nil
  sorted := List.Pairwise.nil
  parents _ h := absurd h not_mem_nil
  acyclic x h := by
    obtain ⟨y, ⟨node, hnode, -⟩, -⟩ := TransGen.head'_iff.mp h
    exact absurd hnode not_mem_nil

lemma TabForest.link_live (h : TabForest nodes) {x y : Nat} (hlink : ParentLink nodes x y) :
    y ∈ nodes.map TabTreeNode.id := by
  obtain ⟨node, hnode, -, hparent⟩ := hlink
  exact h.parents node hnode y hparent

/-! ## The cycle check -/

lemma parentOf_eq_some (h : (nodes.map TabTreeNode.id).Nodup) {x y : Nat}
    (hlink : ParentLink nodes x y) : parentOf nodes x = some y := by
  obtain ⟨node, hnode, hid, hparent⟩ := hlink
  rw [parentOf, Lib.find?_key h hnode hid, Option.bind_some, hparent]

/-- A climb that ends without meeting the child shows that no path leads to it. -/
lemma not_path_of_climbMeets (h : (nodes.map TabTreeNode.id).Nodup) {childId rounds id : Nat}
    (hclimb : climbMeets nodes childId rounds (some id) = false) :
    ¬ ReflTransGen (ParentLink nodes) id childId := by
  induction rounds generalizing id with
  | zero => exact absurd hclimb (by simp [climbMeets])
  | succ rounds ih =>
    rw [climbMeets] at hclimb
    split at hclimb
    · exact absurd hclimb (by simp)
    · rename_i hne
      intro hpath
      rcases hpath.cases_head with heq | ⟨next, hlink, hrest⟩
      · exact hne heq
      · rw [parentOf_eq_some h hlink] at hclimb
        exact ih hclimb hrest

/-- The check passes only when the new parent does not lead to the child. -/
theorem not_path_of_wouldCreateCycle (h : (nodes.map TabTreeNode.id).Nodup)
    {childId parentId : Nat} (hcheck : wouldCreateCycle nodes childId parentId = false) :
    ¬ ReflTransGen (ParentLink nodes) parentId childId := by
  unfold wouldCreateCycle at hcheck
  split at hcheck
  · exact absurd hcheck (by simp)
  · exact not_path_of_climbMeets h hcheck

/-! ## Indices -/

/-- The index of a new tab is free. -/
theorem leastFreeIndex_free (tabs : List TerminalTab) :
    ∀ tab ∈ tabs, tab.index ≠ leastFreeIndex tabs := by
  unfold leastFreeIndex
  cases hfind : (List.range (tabs.length + 1)).find? fun candidate =>
      !tabs.any fun tab => tab.index = candidate with
  | some candidate =>
    have hfree := List.find?_some hfind
    simp only [Bool.not_eq_eq_eq_not, Bool.not_true, any_eq_false,
      decide_eq_true_eq] at hfree
    exact hfree
  | none =>
    -- one index more than tabs: they cannot all be taken
    have hsub : List.range (tabs.length + 1) ⊆ tabs.map TerminalTab.index := by
      intro candidate hmem
      have htaken := List.find?_eq_none.mp hfind candidate hmem
      simp only [Bool.not_eq_eq_eq_not, Bool.not_true, Bool.not_eq_false, any_eq_true,
        decide_eq_true_eq] at htaken
      obtain ⟨tab, htab, hindex⟩ := htaken
      exact mem_map.mpr ⟨tab, htab, hindex⟩
    have hlen := (nodup_range.subperm hsub).length_le
    rw [length_range, length_map] at hlen
    omega

lemma sortByIndex_perm (tabs : List TerminalTab) : (sortByIndex tabs).Perm tabs :=
  perm_insertionSort _ tabs

lemma sortByIndex_pairwise (tabs : List TerminalTab) :
    (sortByIndex tabs).Pairwise fun a b => a.index ≤ b.index :=
  Lib.pairwise_insertionSort_key TerminalTab.index tabs

/-- Sorting tabs with distinct indices puts them in strictly increasing order. -/
lemma sortByIndex_sorted {tabs : List TerminalTab}
    (h : (tabs.map TerminalTab.index).Nodup) :
    ((sortByIndex tabs).map TerminalTab.treeNode).Pairwise
      fun a b => a.sortKey < b.sortKey := by
  have hnodup : ((sortByIndex tabs).map TerminalTab.index).Nodup :=
    ((sortByIndex_perm tabs).map _).nodup_iff.mpr h
  rw [pairwise_map]
  rw [List.Nodup, pairwise_map] at hnodup
  exact ((sortByIndex_pairwise tabs).and hnodup).imp fun hab => by
    have := hab.1
    have := hab.2
    simp only [TerminalTab.treeNode]
    omega

/-! ## The three changes -/

/-- A new node below a node that exists, or at the top. -/
theorem TabForest.insert (h : TabForest nodes) {node : TabTreeNode}
    (hperm : nodes'.Perm (nodes ++ [node]))
    (hsorted : nodes'.Pairwise fun a b => a.sortKey < b.sortKey)
    (hfresh : node.id ∉ nodes.map TabTreeNode.id)
    (hparent : ∀ p, node.parentId = some p → p ∈ nodes.map TabTreeNode.id) :
    TabForest nodes' := by
  have hmem : ∀ n, n ∈ nodes' ↔ n ∈ nodes ∨ n = node := by
    intro n
    rw [hperm.mem_iff, mem_append, mem_singleton]
  have hids : ∀ x, x ∈ nodes.map TabTreeNode.id → x ∈ nodes'.map TabTreeNode.id := by
    intro x hx
    obtain ⟨n, hn, rfl⟩ := mem_map.mp hx
    exact mem_map_of_mem ((hmem n).mpr (.inl hn))
  refine ⟨?_, hsorted, ?_, ?_⟩
  · rw [(hperm.map _).nodup_iff, map_append, nodup_append]
    refine ⟨h.ids_nodup, by simp, ?_⟩
    intro x hx y hy hxy
    rw [map_singleton, mem_singleton] at hy
    exact hfresh (hy ▸ hxy ▸ hx)
  · intro n hn p hp
    rcases (hmem n).mp hn with hold | rfl
    · exact hids p (h.parents n hold p hp)
    · exact hids p (hparent p hp)
  -- a path to the new node would need a link to it, and nothing links to a fresh id
  have hunreached : ∀ x, x ≠ node.id → ¬ ReflTransGen (ParentLink nodes) x node.id := by
    intro x hx hpath
    rcases hpath.cases_tail with heq | ⟨y, -, hlink⟩
    · exact hx heq.symm
    · exact hfresh (h.link_live hlink)
  have hother : ∀ x y, x ≠ node.id → ParentLink nodes' x y → ParentLink nodes x y := by
    rintro x y hx ⟨n, hn, hid, hp⟩
    rcases (hmem n).mp hn with hold | rfl
    · exact ⟨n, hold, hid, hp⟩
    · exact absurd hid.symm hx
  have hself : ∀ y, ParentLink nodes' node.id y → node.parentId = some y := by
    rintro y ⟨n, hn, hid, hp⟩
    rcases (hmem n).mp hn with hold | rfl
    · exact absurd (hid ▸ mem_map_of_mem hold) hfresh
    · exact hp
  cases hp : node.parentId with
  | none =>
    refine h.acyclic.of_shortcuts fun x y hlink => .single (hother x y ?_ hlink)
    rintro rfl
    rw [hself y hlink] at hp
    exact absurd hp (by simp)
  | some p =>
    have hfree := hunreached p fun heq => hfresh (heq ▸ hparent p hp)
    refine h.acyclic.reattach ?_ hother hfree
    intro y hlink
    exact Option.some.inj ((hself y hlink).symm.trans hp)

/-- The node after `childId` got this parent. -/
def TabTreeNode.moved (childId : Nat) (parentId : Option Nat) (node : TabTreeNode) :
    TabTreeNode :=
  if node.id = childId then { node with parentId } else node

@[simp] lemma TabTreeNode.moved_id (childId : Nat) (parentId : Option Nat)
    (node : TabTreeNode) : (node.moved childId parentId).id = node.id := by
  unfold moved
  split <;> rfl

@[simp] lemma TabTreeNode.moved_sortKey (childId : Nat) (parentId : Option Nat)
    (node : TabTreeNode) : (node.moved childId parentId).sortKey = node.sortKey := by
  unfold moved
  split <;> rfl

/-- A new parent that does not lead to the child. -/
theorem TabForest.reparent (h : TabForest nodes) {childId : Nat} {parentId : Option Nat}
    (hparent : ∀ p, parentId = some p → p ∈ nodes.map TabTreeNode.id ∧
      ¬ ReflTransGen (ParentLink nodes) p childId) :
    TabForest (nodes.map (TabTreeNode.moved childId parentId)) := by
  have hids : (nodes.map (TabTreeNode.moved childId parentId)).map TabTreeNode.id
      = nodes.map TabTreeNode.id := by
    rw [List.map_map]
    exact List.map_congr_left fun node _ => node.moved_id childId parentId
  have hother : ∀ x y, x ≠ childId →
      ParentLink (nodes.map (TabTreeNode.moved childId parentId)) x y →
      ParentLink nodes x y := by
    rintro x y hx ⟨n, hn, hid, hp⟩
    obtain ⟨node, hnode, rfl⟩ := mem_map.mp hn
    rw [TabTreeNode.moved_id] at hid
    rw [TabTreeNode.moved, if_neg (by rw [hid]; exact hx)] at hp
    exact ⟨node, hnode, hid, hp⟩
  have hself : ∀ y, ParentLink (nodes.map (TabTreeNode.moved childId parentId)) childId y →
      parentId = some y := by
    rintro y ⟨n, hn, hid, hp⟩
    obtain ⟨node, hnode, rfl⟩ := mem_map.mp hn
    rw [TabTreeNode.moved_id] at hid
    rwa [TabTreeNode.moved, if_pos hid] at hp
  refine ⟨by rw [hids]; exact h.ids_nodup, ?_, ?_, ?_⟩
  · rw [pairwise_map]
    simpa using h.sorted
  · intro n hn p hp
    rw [hids]
    obtain ⟨node, hnode, rfl⟩ := mem_map.mp hn
    unfold TabTreeNode.moved at hp
    split at hp
    · exact (hparent p hp).1
    · exact h.parents node hnode p hp
  cases parentId with
  | none =>
    refine h.acyclic.of_shortcuts fun x y hlink => .single (hother x y ?_ hlink)
    rintro rfl
    exact absurd (hself y hlink) (by simp)
  | some p =>
    exact h.acyclic.reattach (fun y hlink => (Option.some.inj (hself y hlink)).symm) hother
      (hparent p rfl).2

/-- The node after `closing` went: its children get its parent. -/
def TabTreeNode.promoted (closing node : TabTreeNode) : TabTreeNode :=
  if node.parentId = some closing.id then { node with parentId := closing.parentId } else node

@[simp] lemma TabTreeNode.promoted_id (closing node : TabTreeNode) :
    (closing.promoted node).id = node.id := by
  unfold promoted
  split <;> rfl

@[simp] lemma TabTreeNode.promoted_sortKey (closing node : TabTreeNode) :
    (closing.promoted node).sortKey = node.sortKey := by
  unfold promoted
  split <;> rfl

/-- A node goes, and its children move up to its parent. -/
theorem TabForest.remove (h : TabForest nodes) {closing : TabTreeNode}
    (hclosing : closing ∈ nodes) :
    TabForest ((nodes.filter fun node => node.id ≠ closing.id).map closing.promoted) := by
  have hids : ((nodes.filter fun node => node.id ≠ closing.id).map closing.promoted).map
      TabTreeNode.id = (nodes.filter fun node => node.id ≠ closing.id).map TabTreeNode.id := by
    rw [List.map_map]
    exact List.map_congr_left fun node _ => closing.promoted_id node
  have hstays : ∀ x, x ∈ nodes.map TabTreeNode.id → x ≠ closing.id →
      x ∈ (nodes.filter fun node => node.id ≠ closing.id).map TabTreeNode.id := by
    intro x hx hne
    obtain ⟨node, hnode, rfl⟩ := mem_map.mp hx
    exact mem_map_of_mem (mem_filter.mpr ⟨hnode, by simpa using hne⟩)
  refine ⟨?_, ?_, ?_, ?_⟩
  · rw [hids]
    exact h.ids_nodup.sublist (filter_sublist.map _)
  · rw [pairwise_map]
    simpa using h.sorted.sublist filter_sublist
  · intro n hn p hp
    rw [hids]
    obtain ⟨node, hnode, rfl⟩ := mem_map.mp hn
    unfold TabTreeNode.promoted at hp
    split at hp
    · -- the grandparent exists and is not the closed node
      refine hstays p (h.parents closing hclosing p hp) ?_
      rintro rfl
      exact h.acyclic closing.id (.single ⟨closing, hclosing, rfl, hp⟩)
    · rename_i hne
      refine hstays p (h.parents node (mem_filter.mp hnode).1 p hp) ?_
      rintro rfl
      exact hne hp
  · refine h.acyclic.of_shortcuts ?_
    rintro x y ⟨n, hn, hid, hp⟩
    obtain ⟨node, hnode, rfl⟩ := mem_map.mp hn
    have hmem := (mem_filter.mp hnode).1
    rw [TabTreeNode.promoted_id] at hid
    unfold TabTreeNode.promoted at hp
    split at hp
    · rename_i hup
      exact .tail (.single ⟨node, hmem, hid, hup⟩) ⟨closing, hclosing, rfl, hp⟩
    · exact .single ⟨node, hmem, hid, hp⟩

end Agenterm
