import Agenterm.Server.TreeTheorems

/-!
# The cycle check is exact

In a forest the check refuses a new parent exactly when it is the child or descends from it
(`wouldCreateCycle_iff`): the climb from the new parent leaves every tab behind at most once, and
never the child, so it reaches the top within the rounds that the loop has.
-/

namespace Agenterm

open Relation List Lib

variable {nodes : List TabTreeNode}

lemma ParentLink.left_listed {x y : Nat} (h : ParentLink nodes x y) :
    x ∈ nodes.map TabTreeNode.id := by
  obtain ⟨node, hnode, rfl, -⟩ := h
  exact mem_map_of_mem hnode

/-- The lookup of a parent finds a link. -/
lemma link_of_parentOf {x y : Nat} (h : parentOf nodes x = some y) : ParentLink nodes x y := by
  obtain ⟨node, hnode, hparent⟩ := Option.bind_eq_some_iff.mp h
  have hid : node.id = x := by simpa using List.find?_some hnode
  exact ⟨node, mem_of_find?_eq_some hnode, hid, hparent⟩

/-- A climb that does not lead to the child ends without meeting it. -/
lemma climbMeets_eq_false (hacyclic : Acyclic (ParentLink nodes)) {childId id rounds : Nat}
    {left : List Nat} (hchild : childId ∈ nodes.map TabTreeNode.id)
    (htrail : Trail (ParentLink nodes) left id) (hleft : childId ∉ left)
    (hrounds : rounds + left.length = nodes.length + 1)
    (hfree : ¬ ReflTransGen (ParentLink nodes) id childId) :
    climbMeets nodes childId rounds (some id) = false := by
  -- the child and what the climb left behind are different tabs
  have hlength (left : List Nat) (id : Nat) (htrail : Trail (ParentLink nodes) left id)
      (hleft : childId ∉ left) : left.length + 1 ≤ nodes.length := by
    have hnodup : (childId :: left).Nodup := nodup_cons.mpr ⟨hleft, htrail.nodup⟩
    have hsub : childId :: left ⊆ nodes.map TabTreeNode.id :=
      cons_subset.mpr ⟨hchild, htrail.subset fun _ _ hlink => hlink.left_listed⟩
    simpa using (hnodup.subperm hsub).length_le
  induction rounds generalizing left id with
  | zero =>
    have := hlength left id htrail hleft
    omega
  | succ rounds ih =>
    have hne : id ≠ childId := by
      rintro rfl
      exact hfree .refl
    rw [climbMeets, if_neg hne]
    cases hparent : parentOf nodes id with
    | none =>
      have := hlength left id htrail hleft
      obtain ⟨rounds, rfl⟩ : ∃ k, rounds = k + 1 := Nat.exists_eq_succ_of_ne_zero (by omega)
      rfl
    | some next =>
      have hlink := link_of_parentOf hparent
      refine ih (htrail.step hacyclic hlink) ?_ ?_ fun hpath => hfree (.head hlink hpath)
      · rw [mem_cons, not_or]
        exact ⟨hne.symm, hleft⟩
      · rw [length_cons]
        omega

/-- Moving a tab below one that does not lead to it makes no cycle. -/
lemma acyclic_moved (hacyclic : Acyclic (ParentLink nodes)) {childId parentId : Nat}
    (hfree : ¬ ReflTransGen (ParentLink nodes) parentId childId) :
    Acyclic (ParentLink (nodes.map (TabTreeNode.moved childId (some parentId)))) := by
  apply hacyclic.reattach _ _ hfree
  · rintro y ⟨n, hn, hid, hp⟩
    obtain ⟨node, -, rfl⟩ := mem_map.mp hn
    rw [TabTreeNode.moved_id] at hid
    rw [TabTreeNode.moved, if_pos hid] at hp
    exact (Option.some.inj hp).symm
  · rintro x y hx ⟨n, hn, hid, hp⟩
    obtain ⟨node, hnode, rfl⟩ := mem_map.mp hn
    rw [TabTreeNode.moved_id] at hid
    rw [TabTreeNode.moved, if_neg (by rw [hid]; exact hx)] at hp
    exact ⟨node, hnode, hid, hp⟩

/-- **The cycle check** refuses a parent exactly when it is the child itself or descends from it,
and a parent that it lets pass makes no cycle. -/
theorem wouldCreateCycle_iff (hids : (nodes.map TabTreeNode.id).Nodup)
    (hacyclic : Acyclic (ParentLink nodes)) {childId : Nat}
    (hchild : childId ∈ nodes.map TabTreeNode.id) (parentId : Nat) :
    (wouldCreateCycle nodes childId parentId = true ↔
      parentId = childId ∨ TransGen (ParentLink nodes) parentId childId) ∧
    (wouldCreateCycle nodes childId parentId = false →
      Acyclic (ParentLink (nodes.map (TabTreeNode.moved childId (some parentId))))) := by
  have hexact : wouldCreateCycle nodes childId parentId = false ↔
      ¬ ReflTransGen (ParentLink nodes) parentId childId := by
    constructor
    · exact not_path_of_wouldCreateCycle hids
    · intro hfree
      have hne : childId ≠ parentId := by
        rintro rfl
        exact hfree .refl
      rw [wouldCreateCycle, if_neg hne]
      exact climbMeets_eq_false hacyclic hchild (.nil parentId) not_mem_nil (by simp) hfree
  constructor
  · rw [← Bool.not_eq_false, hexact, not_not, reflTransGen_iff_eq_or_transGen]
    exact or_congr_left eq_comm
  · intro hpasses
    exact acyclic_moved hacyclic (hexact.mp hpasses)

lemma acyclic_pair : Acyclic (ParentLink [⟨1, none, 0⟩, ⟨2, some 1, 1⟩]) := by
  have hlink : ∀ x y, ParentLink [⟨1, none, 0⟩, ⟨2, some 1, 1⟩] x y → x = 2 ∧ y = 1 := by
    rintro x y ⟨node, hnode, rfl, hparent⟩
    simp only [mem_cons, not_mem_nil, or_false] at hnode
    rcases hnode with rfl | rfl
    · cases hparent
    · exact ⟨rfl, (Option.some.inj hparent).symm⟩
  intro x hcycle
  obtain ⟨y, hfirst, -⟩ := TransGen.head'_iff.mp hcycle
  obtain ⟨z, -, hlast⟩ := TransGen.tail'_iff.mp hcycle
  have := hlink x y hfirst
  have := hlink z x hlast
  omega

theorem wouldCreateCycle_iff_pair :
    Acyclic (ParentLink
      ([⟨1, none, 0⟩, ⟨2, some 1, 1⟩].map (TabTreeNode.moved 2 (some 1)))) :=
  (wouldCreateCycle_iff (by decide) acyclic_pair (by decide) 1).2 (by decide)

end Agenterm
