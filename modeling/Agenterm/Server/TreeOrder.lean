import Agenterm.Lib.Trees
import Agenterm.Server.CycleCheck
import Agenterm.Server.TreeRows

/-!
# The rows are the preorder of the forest

For tabs without a cycle of parents, `tree_rows` is the preorder traversal of their forest, with
the siblings in the order of their sort keys, and every row has the depth, the ancestors and the
marks of its place (`treeRows_preorder`). The depth that `tab_depth` computes is the same if every
parent is in the list; a parent that is not counts as an ancestor there.
-/

namespace Agenterm

open Relation List Lib

variable {nodes : List TabTreeNode}

/-! ## Places -/

/-- The parent, if it is in the list. -/
def TabTreeNode.place (nodes : List TabTreeNode) (node : TabTreeNode) : Option Nat :=
  node.parentId.filter fun p => p ∈ nodes.map TabTreeNode.id

/-- All nodes at one place, in the order of their sort keys. -/
structure Siblings (nodes : List TabTreeNode) (place : Option Nat) (l : List TabTreeNode) :
    Prop where
  mem_iff : ∀ node, node ∈ l ↔ node ∈ nodes ∧ node.place nodes = place
  ordered : l.Pairwise (Comes TabTreeNode.sortKey nodes)

/-- The ids below a tab: those of its children. -/
def Brood (nodes : List TabTreeNode) (id : Nat) (ids : List Nat) : Prop :=
  ∃ l, Siblings nodes (some id) l ∧ ids = l.map TabTreeNode.id

/-- The ancestors of a tab from its parent up to a root. -/
inductive ParentChain (nodes : List TabTreeNode) : Nat → List Nat → Prop
  | root {node : TabTreeNode} (hnode : node ∈ nodes) (hplace : node.place nodes = none) :
    ParentChain nodes node.id []
  | child {id p : Nat} {up : List Nat} (hlink : ParentLink nodes id p)
    (hup : ParentChain nodes p up) : ParentChain nodes id (p :: up)

/-- No sibling comes after the tab. -/
def LastSibling (nodes : List TabTreeNode) (id : Nat) : Prop :=
  ∀ node ∈ nodes, node.id = id → ∀ other ∈ nodes, other.place nodes = node.place nodes →
    ¬ Comes TabTreeNode.sortKey nodes node other

/-- The row is that of its place. The guides are those of the ancestors below the root. -/
structure Placed (nodes : List TabTreeNode) (row : TabTreeRow) : Prop where
  depth : row.depth = row.ancestors.length
  chain : ParentChain nodes row.id row.ancestors.reverse
  last : row.isLast = true ↔ LastSibling nodes row.id
  guides_length : row.guides.length = row.depth - 1
  guides : ∀ (i : Nat) (guide : Bool) (ancestor : Nat), row.guides[i]? = some guide →
    row.ancestors[i + 1]? = some ancestor → (guide = true ↔ ¬ LastSibling nodes ancestor)

/-- The rows are the preorder traversal of a forest of the nodes. -/
structure PreorderRows (nodes : List TabTreeNode) (forest : List (Lib.Tree Nat))
    (rows : List TabTreeRow) : Prop where
  roots : ∃ l, Siblings nodes none l ∧ forest.map Lib.Tree.value = l.map TabTreeNode.id
  unfolds : ∀ t ∈ forest, t.Unfolds (Brood nodes)
  order : rows.map TabTreeRow.id = Lib.Tree.preorderAll forest
  placed : ∀ row ∈ rows, Placed nodes row

variable {id p x : Nat} {l : List TabTreeNode} {node : TabTreeNode} {up : List Nat}
  {walk : TreeWalk}

lemma place_eq_some :
    node.place nodes = some p ↔ node.parentId = some p ∧ p ∈ nodes.map TabTreeNode.id := by
  rw [TabTreeNode.place, Option.filter_eq_some_iff, decide_eq_true_eq]

lemma place_eq_none :
    node.place nodes = none ↔
      ∀ p, node.parentId = some p → p ∉ nodes.map TabTreeNode.id := by
  rw [TabTreeNode.place, Option.filter_eq_none_iff]
  simp only [decide_eq_true_eq]

lemma not_self_parent (hacyclic : Acyclic (ParentLink nodes)) (hnode : node ∈ nodes) :
    node.parentId ≠ some node.id :=
  fun hself => hacyclic node.id (.single ⟨node, hnode, rfl, hself⟩)

lemma isRoot_iff (hacyclic : Acyclic (ParentLink nodes)) (hnode : node ∈ nodes) :
    isRoot nodes node = true ↔ node.place nodes = none := by
  rw [place_eq_none, isRoot, Option.all_eq_true]
  apply forall₂_congr
  intro p hp
  have hne : p ≠ node.id := fun hself => not_self_parent hacyclic hnode (hself ▸ hp)
  simp [hne]

lemma rootNodes_siblings (hacyclic : Acyclic (ParentLink nodes)) :
    Siblings nodes none (rootNodes nodes) where
  mem_iff node := by
    rw [mem_rootNodes]
    exact and_congr_right fun hnode => isRoot_iff hacyclic hnode
  ordered := (pairwise_insertionSort_comes _ _).imp fun h => h.mono filter_sublist

lemma childNodes_siblings (hid : id ∈ nodes.map TabTreeNode.id) :
    Siblings nodes (some id) (childNodes nodes id) where
  mem_iff node := by
    rw [mem_childNodes, place_eq_some]
    simp only [hid, and_true]
  ordered := (pairwise_insertionSort_comes _ _).imp fun h => h.mono filter_sublist

variable {ids : List Nat} {isLast : Bool} {rest : List TabTreeNode} {row : TabTreeRow}
  {walk' : TreeWalk}

/-- A sibling is marked as the last exactly at the end of the list. -/
lemma Siblings.isEmpty_iff {place : Option Nat} (h : Siblings nodes place l)
    (hids : (nodes.map TabTreeNode.id).Nodup) (hl : (node :: rest) <:+ l) :
    rest.isEmpty = true ↔ LastSibling nodes node.id := by
  have hnodes : nodes.Nodup := hids.of_map _
  obtain ⟨before, rfl⟩ := hl
  have hnode := (h.mem_iff node).mp (by simp)
  have hpairs := List.pairwise_append.mp h.ordered
  rw [List.isEmpty_iff]
  constructor
  · rintro rfl n hn hid other hother hplace hcomes
    have hsame : n = node := inj_on_of_nodup_map hids hn hnode.1 hid
    rw [hsame] at hcomes hplace
    have hmem : other ∈ before ++ [node] :=
      (h.mem_iff other).mpr ⟨hother, hplace.trans hnode.2⟩
    rcases mem_append.mp hmem with hbefore | hself
    · exact hcomes.asymm hnodes (hpairs.2.2 other hbefore node mem_cons_self)
    · rw [mem_singleton.mp hself] at hcomes
      exact hcomes.asymm hnodes hcomes
  · intro hlast
    cases rest with
    | nil => rfl
    | cons next rest =>
      have hnext := (h.mem_iff next).mp (by simp)
      have hcomes := (pairwise_cons.mp hpairs.2.1).1 next mem_cons_self
      exact absurd hcomes
        (hlast node hnode.1 rfl next hnext.1 (hnext.2.trans hnode.2.symm))

/-! ## Links between listed tabs -/

/-- `y` is the parent of `x`, and in the list. -/
def ListedLink (nodes : List TabTreeNode) (x y : Nat) : Prop :=
  ParentLink nodes x y ∧ y ∈ nodes.map TabTreeNode.id

lemma listedLink_rightUnique (hids : (nodes.map TabTreeNode.id).Nodup) :
    Relator.RightUnique (ListedLink nodes) := by
  intro x y z hy hz
  have hparent := parentOf_eq_some hids hy.1
  rw [parentOf_eq_some hids hz.1] at hparent
  exact (Option.some.inj hparent).symm

lemma acyclic_listed (hacyclic : Acyclic (ParentLink nodes)) :
    Acyclic (ListedLink nodes) :=
  hacyclic.of_shortcuts fun _ _ hlink => .single hlink.1

lemma listedLink_iff (hids : (nodes.map TabTreeNode.id).Nodup) (hnode : node ∈ nodes) :
    ListedLink nodes node.id p ↔ node.place nodes = some p := by
  rw [place_eq_some]
  constructor
  · rintro ⟨⟨n, hn, hid, hparent⟩, hp⟩
    rw [inj_on_of_nodup_map hids hn hnode hid] at hparent
    exact ⟨hparent, hp⟩
  · rintro ⟨hparent, hp⟩
    exact ⟨⟨node, hnode, rfl, hparent⟩, hp⟩

lemma Brood.leads (hids : (nodes.map TabTreeNode.id).Nodup) (h : Brood nodes id ids) :
    ∀ b ∈ ids, ListedLink nodes b id := by
  obtain ⟨l, hl, rfl⟩ := h
  intro b hb
  obtain ⟨node, hnode, rfl⟩ := mem_map.mp hb
  obtain ⟨hmem, hplace⟩ := (hl.mem_iff node).mp hnode
  exact (listedLink_iff hids hmem).mpr hplace

lemma Brood.closed (hids : (nodes.map TabTreeNode.id).Nodup) {b : Nat} (h : Brood nodes id ids)
    (hlink : ListedLink nodes b id) : b ∈ ids := by
  obtain ⟨l, hl, rfl⟩ := h
  obtain ⟨node, hnode, rfl⟩ := mem_map.mp hlink.1.left_listed
  apply mem_map_of_mem
  exact (hl.mem_iff node).mpr ⟨hnode, (listedLink_iff hids hnode).mp hlink⟩

/-- A tree holds the tabs that lead to its root. -/
lemma mem_tree_iff (hids : (nodes.map TabTreeNode.id).Nodup) {t : Lib.Tree Nat}
    (h : t.Unfolds (Brood nodes)) : x ∈ t.preorder ↔ ReflTransGen (ListedLink nodes) x t.value :=
  h.mem_preorder_iff (fun _ _ hbelow => hbelow.leads hids) fun _ _ _ hbelow => hbelow.closed hids

/-- No tab leads to two siblings. -/
lemma siblings_disjoint (hids : (nodes.map TabTreeNode.id).Nodup)
    (hacyclic : Acyclic (ParentLink nodes)) {a b : TabTreeNode} (ha : a ∈ nodes)
    (hb : b ∈ nodes) (hplace : a.place nodes = b.place nodes) (hne : a.id ≠ b.id)
    (hxa : ReflTransGen (ListedLink nodes) x a.id) : ¬ ReflTransGen (ListedLink nodes) x b.id := by
  -- a path from one to the other would go through their common parent
  have hapart (a b : TabTreeNode) (ha : a ∈ nodes) (hb : b ∈ nodes)
      (hplace : a.place nodes = b.place nodes) (hne : a.id ≠ b.id) :
      ¬ ReflTransGen (ListedLink nodes) a.id b.id := by
    intro hpath
    rcases hpath.cases_head with heq | ⟨p, hlink, hrest⟩
    · exact hne heq
    · have hup : ListedLink nodes b.id p :=
        (listedLink_iff hids hb).mpr (hplace ▸ (listedLink_iff hids ha).mp hlink)
      exact acyclic_listed hacyclic p (.tail' hrest hup)
  intro hxb
  rcases hxa.total_of_right_unique (listedLink_rightUnique hids) hxb with hab | hba
  · exact hapart a b ha hb hplace hne hab
  · exact hapart b a hb ha hplace.symm hne.symm hba

/-! ## The walk -/

/-- The walk got rows for these ids, each as its place has it. -/
structure Adds (nodes : List TabTreeNode) (walk walk' : TreeWalk) (ids : List Nat) : Prop where
  rows : ∃ rows, walk'.rows = walk.rows ++ rows ∧ rows.map TabTreeRow.id = ids ∧
    ∀ row ∈ rows, Placed nodes row
  mem_visited : ∀ x, x ∈ walk'.visited ↔ x ∈ walk.visited ∨ x ∈ ids

lemma Adds.nil (walk : TreeWalk) : Adds nodes walk walk [] where
  rows := ⟨[], (append_nil _).symm, rfl, by simp⟩
  mem_visited x := by simp

lemma Adds.append {walk₁ walk₂ : TreeWalk} {ids₁ ids₂ : List Nat}
    (h₁ : Adds nodes walk walk₁ ids₁) (h₂ : Adds nodes walk₁ walk₂ ids₂) :
    Adds nodes walk walk₂ (ids₁ ++ ids₂) where
  rows := by
    obtain ⟨rows₁, hrows₁, hids₁, hplaced₁⟩ := h₁.rows
    obtain ⟨rows₂, hrows₂, hids₂, hplaced₂⟩ := h₂.rows
    refine ⟨rows₁ ++ rows₂, ?_, ?_, ?_⟩
    · rw [hrows₂, hrows₁, append_assoc]
    · rw [map_append, hids₁, hids₂]
    · intro row hrow
      exact (mem_append.mp hrow).elim (hplaced₁ row) (hplaced₂ row)
  mem_visited x := by
    rw [h₂.mem_visited, h₁.mem_visited, mem_append, or_assoc]

/-- The row of a tab of its own. -/
lemma Adds.push (h : Placed nodes row) :
    Adds nodes walk { visited := insert row.id walk.visited, rows := walk.rows ++ [row] }
      [row.id] where
  rows := ⟨[row], rfl, rfl, by simpa using h⟩
  mem_visited x := by
    rw [Finset.mem_insert, mem_singleton, or_comm]

/-- No tab that leads to one of these is visited. -/
def Fresh (nodes : List TabTreeNode) (walk : TreeWalk) (id : Nat) : Prop :=
  ∀ x, ReflTransGen (ListedLink nodes) x id → x ∉ walk.visited

/-- What a call for a tab comes to: a tree that unfolds from it. -/
def AddsTree (nodes : List TabTreeNode) (walk walk' : TreeWalk) (id : Nat) : Prop :=
  ∃ t : Lib.Tree Nat, t.value = id ∧ t.Unfolds (Brood nodes) ∧ Adds nodes walk walk' t.preorder

/-- A loop over siblings, from the call for each. -/
lemma visitEach_adds {visitOne : Nat → Bool → TreeWalk → Option TreeWalk}
    (hids : (nodes.map TabTreeNode.id).Nodup)
    (hone : ∀ node rest, (node :: rest) <:+ l → ∀ walk walk', Fresh nodes walk node.id →
      visitOne node.id rest.isEmpty walk = some walk' → AddsTree nodes walk walk' node.id)
    (hdisjoint : l.Pairwise fun a b => ∀ x, ReflTransGen (ListedLink nodes) x a.id →
      ¬ ReflTransGen (ListedLink nodes) x b.id) (hfresh : ∀ node ∈ l, Fresh nodes walk node.id)
    (h : visitEach visitOne l walk = some walk') :
    ∃ ts : List (Lib.Tree Nat), ts.map Lib.Tree.value = l.map TabTreeNode.id ∧
      (∀ t ∈ ts, t.Unfolds (Brood nodes)) ∧
      Adds nodes walk walk' (Lib.Tree.preorderAll ts) := by
  induction l generalizing walk with
  | nil =>
    rw [visitEach, Option.some.injEq] at h
    subst h
    exact ⟨[], rfl, by simp, .nil _⟩
  | cons node rest ih =>
    rw [pairwise_cons] at hdisjoint
    obtain ⟨walk₁, hfirst, hrest⟩ := Option.bind_eq_some_iff.mp h
    obtain ⟨t, hvalue, hunfolds, hadds⟩ :=
      hone node rest suffix_rfl walk walk₁ (hfresh node mem_cons_self) hfirst
    have hfresh₁ : ∀ n ∈ rest, Fresh nodes walk₁ n.id := by
      intro n hn x hx hvisited
      rcases (hadds.mem_visited x).mp hvisited with hold | hnew
      · exact hfresh n (mem_cons_of_mem _ hn) x hx hold
      · rw [mem_tree_iff hids hunfolds, hvalue] at hnew
        exact hdisjoint.1 n hn x hnew hx
    obtain ⟨ts, hvalues, hall, hadds₂⟩ :=
      ih (fun n r hsuffix => hone n r (hsuffix.trans (suffix_cons _ _))) hdisjoint.2 hfresh₁
        hrest
    refine ⟨t :: ts, ?_, ?_, ?_⟩
    · rw [map_cons, map_cons, hvalue, hvalues]
    · intro u hu
      rcases mem_cons.mp hu with rfl | hu
      · exact hunfolds
      · exact hall u hu
    · exact hadds.append hadds₂

/-- The place of a child, from that of its parent. -/
lemma Placed.child (h : Placed nodes row) (hlink : ParentLink nodes id row.id)
    (hlast : isLast = true ↔ LastSibling nodes id) :
    Placed nodes ⟨id, (row.ancestors ++ [row.id]).length, isLast, row.ancestors ++ [row.id],
      if row.depth > 0 then row.guides ++ [!row.isLast] else row.guides⟩ where
  depth := rfl
  chain := by
    rw [reverse_append, reverse_singleton, singleton_append]
    exact .child hlink h.chain
  last := hlast
  guides_length := by
    have hlength := h.guides_length
    dsimp only
    rw [length_append, length_singleton, ← h.depth]
    split
    · rw [length_append, length_singleton]
      omega
    · omega
  guides i guide ancestor hguide hancestor := by
    have hlength := h.guides_length
    have hdepth := h.depth
    dsimp only at hguide hancestor
    split at hguide
    · rename_i hpos
      by_cases hi : i < row.guides.length
      · rw [List.getElem?_append_left hi] at hguide
        rw [List.getElem?_append_left (by omega)] at hancestor
        exact h.guides i guide ancestor hguide hancestor
      · -- the new guide is that of the parent
        have hi' : i = row.guides.length := by
          have hlt := List.getElem?_eq_some_iff.mp hguide
          obtain ⟨hlt, -⟩ := hlt
          rw [length_append, length_singleton] at hlt
          omega
        subst hi'
        rw [List.getElem?_append_right (Nat.le_refl _), Nat.sub_self, List.getElem?_cons_zero,
          Option.some.injEq] at hguide
        have hindex : row.guides.length + 1 = row.ancestors.length := by omega
        rw [hindex, List.getElem?_append_right (Nat.le_refl _), Nat.sub_self,
          List.getElem?_cons_zero, Option.some.injEq] at hancestor
        rw [← hguide, ← hancestor, Bool.not_eq_true', ← Bool.not_eq_true, h.last]
    · have hi := (List.getElem?_eq_some_iff.mp hguide).1
      omega

lemma children_disjoint (hids : (nodes.map TabTreeNode.id).Nodup)
    (hacyclic : Acyclic (ParentLink nodes)) {place : Option Nat} (h : Siblings nodes place l) :
    l.Pairwise fun a b => ∀ x,
      ReflTransGen (ListedLink nodes) x a.id → ¬ ReflTransGen (ListedLink nodes) x b.id := by
  have hnodes : nodes.Nodup := hids.of_map _
  refine h.ordered.imp_of_mem fun {a b} ha hb hcomes x hxa => ?_
  obtain ⟨hamem, haplace⟩ := (h.mem_iff a).mp ha
  obtain ⟨hbmem, hbplace⟩ := (h.mem_iff b).mp hb
  refine siblings_disjoint hids hacyclic hamem hbmem (haplace.trans hbplace.symm) ?_ hxa
  intro hsame
  rw [inj_on_of_nodup_map hids hamem hbmem hsame] at hcomes
  exact hcomes.asymm hnodes hcomes

/-- A call for a tab in its place adds the tree that unfolds from it. -/
lemma visit_adds (hids : (nodes.map TabTreeNode.id).Nodup)
    (hacyclic : Acyclic (ParentLink nodes)) {fuel : Nat} {ancestors : List Nat}
    {guides : List Bool}
    (hplaced : Placed nodes ⟨id, ancestors.length, isLast, ancestors, guides⟩)
    (hlisted : id ∈ nodes.map TabTreeNode.id) (hfresh : Fresh nodes walk id)
    (h : visit nodes fuel ancestors guides id isLast walk = some walk') :
    AddsTree nodes walk walk' id := by
  induction fuel generalizing ancestors guides id isLast walk walk' with
  | zero => cases h
  | succ fuel ih =>
    have hsiblings := childNodes_siblings hlisted
    rw [visit, if_neg (hfresh id .refl)] at h
    have hpush : Adds nodes walk _ _ := Adds.push hplaced
    obtain ⟨ts, hvalues, hunfolds, hadds⟩ :=
      visitEach_adds hids (l := childNodes nodes id) (fun node rest hsuffix w w' hw hcall => by
        have hnode : node ∈ childNodes nodes id := hsuffix.subset mem_cons_self
        obtain ⟨hmem, hparent⟩ := mem_childNodes.mp hnode
        exact ih (hplaced.child ⟨node, hmem, rfl, hparent⟩ (hsiblings.isEmpty_iff hids hsuffix))
          (mem_map_of_mem hmem) hw hcall)
        (children_disjoint hids hacyclic hsiblings) (fun node hnode x hx hvisited => by
          obtain ⟨hmem, hparent⟩ := mem_childNodes.mp hnode
          have hlink : ListedLink nodes node.id id := ⟨⟨node, hmem, rfl, hparent⟩, hlisted⟩
          rcases (hpush.mem_visited x).mp hvisited with hold | hself
          · exact hfresh x (hx.tail hlink) hold
          · -- a tab that leads to its own child would be on a cycle
            rw [mem_singleton.mp hself] at hx
            exact acyclic_listed hacyclic id (.tail' hx hlink)) h
    refine ⟨.node id ts, rfl, ?_, ?_⟩
    · exact .node ⟨_, hsiblings, hvalues⟩ hunfolds
    · exact hpush.append hadds

/-- A tab without a listed parent starts a tree. -/
lemma placed_root (hids : (nodes.map TabTreeNode.id).Nodup) (h : Siblings nodes none l)
    (hl : (node :: rest) <:+ l) :
    Placed nodes ⟨node.id, ([] : List Nat).length, rest.isEmpty, [], []⟩ where
  depth := rfl
  chain := by
    obtain ⟨hnode, hplace⟩ := (h.mem_iff node).mp (hl.subset mem_cons_self)
    exact .root hnode hplace
  last := h.isEmpty_iff hids hl
  guides_length := rfl
  guides i guide ancestor hguide _ := by cases hguide

/-- Every tab leads to a root. -/
lemma exists_root (hacyclic : Acyclic (ParentLink nodes)) (h : Siblings nodes none l)
    (hx : x ∈ nodes.map TabTreeNode.id) :
    ∃ node ∈ l, ReflTransGen (ListedLink nodes) x node.id := by
  obtain ⟨y, hpath, htop⟩ := (acyclic_listed hacyclic).exists_top
    (fun y z (hlink : ListedLink nodes y z) => hlink.1.left_listed) x
  have hy : y ∈ nodes.map TabTreeNode.id := by
    rcases hpath.cases_tail with rfl | ⟨z, -, hlink⟩
    · exact hx
    · exact hlink.2
  obtain ⟨node, hnode, rfl⟩ := mem_map.mp hy
  refine ⟨node, (h.mem_iff node).mpr ⟨hnode, place_eq_none.mpr fun p hp hlisted => ?_⟩, hpath⟩
  exact htop p ⟨⟨node, hnode, rfl, hp⟩, hlisted⟩

lemma treeRows_forest (hids : (nodes.map TabTreeNode.id).Nodup)
    (hacyclic : Acyclic (ParentLink nodes)) :
    ∃ rows forest, treeRows nodes = some rows ∧ PreorderRows nodes forest rows := by
  have hsiblings := rootNodes_siblings hacyclic
  obtain ⟨roots, walk, hroots, hwalk, hrows, -⟩ := treeRows_visits nodes
  obtain ⟨forest, hvalues, hunfolds, hadds⟩ :=
    visitEach_adds hids (fun node rest hsuffix w w' hw hcall => by
      have hnode := (mem_rootNodes.mp (hsuffix.subset mem_cons_self)).1
      exact visit_adds hids hacyclic (placed_root hids hsiblings hsuffix)
        (mem_map_of_mem hnode) hw hcall)
      (children_disjoint hids hacyclic hsiblings)
      (fun _ _ x _ => Finset.notMem_empty x) hroots
  -- every tab is in a tree, so none remains
  have hall : ∀ x ∈ nodes.map TabTreeNode.id, x ∈ roots.visited := by
    intro x hx
    obtain ⟨node, hnode, hpath⟩ := exists_root hacyclic hsiblings hx
    have hmem : node.id ∈ forest.map Lib.Tree.value := by
      rw [hvalues]
      exact mem_map_of_mem hnode
    obtain ⟨t, ht, hvalue⟩ := mem_map.mp hmem
    rw [hadds.mem_visited]
    refine .inr (Lib.Tree.mem_preorderAll.mpr ⟨t, ht, ?_⟩)
    rw [mem_tree_iff hids (hunfolds t ht), hvalue]
    exact hpath
  have hremaining : nodes.filter (fun node => node.id ∉ roots.visited) = [] := by
    rw [filter_eq_nil_iff]
    intro node hnode
    simpa using hall node.id (mem_map_of_mem hnode)
  rw [hremaining] at hwalk
  obtain rfl : roots = walk := Option.some.inj hwalk
  obtain ⟨rows, happend, horder, hplaced⟩ := hadds.rows
  rw [TreeWalk.empty, nil_append] at happend
  rw [happend] at hrows
  exact ⟨rows, forest, hrows, ⟨_, hsiblings, hvalues⟩, hunfolds, horder, hplaced⟩

/-! ## The depth of one tab -/

section
variable {tabs : List TerminalTab}

lemma tabParent_eq (tabs : List TerminalTab) (id : Nat) :
    tabParent tabs id = parentOf (tabs.map TerminalTab.treeNode) id := by
  rw [tabParent, parentOf, List.find?_map, Option.bind_map]
  rfl

lemma tabDepth_eq (hid : id ∈ (tabs.map TerminalTab.treeNode).map TabTreeNode.id) :
    tabDepth tabs id = climbDepth tabs (tabs.length + 1) 0 (tabParent tabs id) := by
  unfold tabDepth tabParent
  cases hfind : tabs.find? fun tab => tab.id = id with
  | some tab => rfl
  | none =>
    obtain ⟨node, hnode, rfl⟩ := mem_map.mp hid
    obtain ⟨tab, htab, rfl⟩ := mem_map.mp hnode
    exact absurd (decide_eq_true rfl) (List.find?_eq_none.mp hfind tab htab)

lemma ParentChain.listed (h : ParentChain nodes id up) : id ∈ nodes.map TabTreeNode.id := by
  cases h with
  | root hnode => exact mem_map_of_mem hnode
  | child hlink => exact hlink.left_listed

lemma ParentChain.eq_nil (h : ParentChain nodes id up)
    (htop : ∀ p, ParentLink nodes id p → p ∉ nodes.map TabTreeNode.id) : up = [] := by
  cases h with
  | root => rfl
  | child hlink hup => exact absurd hup.listed (htop _ hlink)

/-- A chain of parents is not longer than the list. -/
lemma ParentChain.length_le (h : ParentChain nodes id up)
    (hacyclic : Acyclic (ParentLink nodes)) {left : List Nat}
    (htrail : Trail (ParentLink nodes) left id) : up.length + left.length ≤ nodes.length := by
  induction h generalizing left with
  | root =>
    have := htrail.length_le fun _ _ hlink => hlink.left_listed
    simpa using this
  | child hlink _ ih =>
    have := ih (htrail.step hacyclic hlink)
    rw [length_cons] at this ⊢
    omega

/-- The climb counts the ancestors, if no parent is missing. -/
lemma climbDepth_chain (htabs : tabs.map TerminalTab.treeNode = nodes)
    (hids : (nodes.map TabTreeNode.id).Nodup)
    (hparents : ∀ node ∈ nodes, ∀ p, node.parentId = some p → p ∈ nodes.map TabTreeNode.id)
    (h : ParentChain nodes id up) {rounds depth : Nat} (hrounds : up.length < rounds) :
    climbDepth tabs rounds depth (tabParent tabs id) = depth + up.length := by
  obtain ⟨rounds, rfl⟩ : ∃ k, rounds = k + 1 := Nat.exists_eq_succ_of_ne_zero (by omega)
  rw [tabParent_eq, htabs]
  induction h generalizing rounds depth with
  | root hnode hplace =>
    rename_i node
    have hnone : node.parentId = none := by
      cases hparent : node.parentId with
      | none => rfl
      | some p => exact absurd (hparents node hnode p hparent) (place_eq_none.mp hplace p hparent)
    rw [parentOf, find?_key hids hnode rfl, Option.bind_some, hnone]
    rfl
  | child hlink _ ih =>
    rename_i id p up
    rw [length_cons] at hrounds
    obtain ⟨rounds, rfl⟩ : ∃ k, rounds = k + 1 := Nat.exists_eq_succ_of_ne_zero (by omega)
    rw [parentOf_eq_some hids hlink, climbDepth, tabParent_eq, htabs,
      ih rounds (Nat.lt_of_succ_lt_succ hrounds), length_cons]
    omega

/-- A parent that is missing counts as an ancestor. -/
lemma tabDepth_missing (htabs : tabs.map TerminalTab.treeNode = nodes)
    (hids : (nodes.map TabTreeNode.id).Nodup) (hnode : node ∈ nodes)
    (hparent : node.parentId = some p) (hp : p ∉ nodes.map TabTreeNode.id) :
    tabDepth tabs node.id = 1 := by
  have hmissing : parentOf nodes p = none := by
    rw [Option.eq_none_iff_forall_ne_some]
    exact fun q hq => hp (link_of_parentOf hq).left_listed
  have hmem : node.id ∈ (tabs.map TerminalTab.treeNode).map TabTreeNode.id := by
    rw [htabs]
    exact mem_map_of_mem hnode
  have hlength : 0 < tabs.length := by
    have hsame : (tabs.map TerminalTab.treeNode).length = tabs.length := length_map _
    rw [← hsame, htabs]
    exact length_pos_of_mem hnode
  obtain ⟨k, hk⟩ : ∃ k, tabs.length = k + 1 := Nat.exists_eq_succ_of_ne_zero (by omega)
  rw [tabDepth_eq hmem, tabParent_eq, htabs, parentOf_eq_some hids ⟨node, hnode, rfl, hparent⟩,
    climbDepth, tabParent_eq, htabs, hmissing, hk]
  rfl

end

/-- **The rows** are the preorder of the forest, each with the marks of its place; and the depths
of `tab_depth` are those of the rows exactly when every parent is in the list. -/
theorem treeRows_preorder (hids : (nodes.map TabTreeNode.id).Nodup)
    (hacyclic : Acyclic (ParentLink nodes)) :
    ∃ rows forest, treeRows nodes = some rows ∧ PreorderRows nodes forest rows ∧
      ∀ tabs : List TerminalTab, tabs.map TerminalTab.treeNode = nodes →
        ((∀ row ∈ rows, tabDepth tabs row.id = row.depth) ↔
          ∀ node ∈ nodes, ∀ p, node.parentId = some p → p ∈ nodes.map TabTreeNode.id) := by
  obtain ⟨rows, forest, hrows, hpreorder⟩ := treeRows_forest hids hacyclic
  refine ⟨rows, forest, hrows, hpreorder, fun tabs htabs => ?_⟩
  constructor
  · intro hdepths node hnode p hparent
    by_contra hp
    -- the tab is a root, so its row has depth zero
    obtain ⟨row, hrow, hid⟩ : ∃ row ∈ rows, row.id = node.id := by
      obtain ⟨rows', hrows', hperm⟩ : ∃ rows', treeRows nodes = some rows' ∧
          ∀ x ∈ nodes.map TabTreeNode.id, x ∈ rows'.map TabTreeRow.id := by
        obtain ⟨-, walk, -, -, hwalk, -, hconsistent, hall⟩ := treeRows_visits nodes
        exact ⟨walk.rows, hwalk, fun x hx => (hconsistent.mem_visited x).mp (hall x hx)⟩
      rw [hrows] at hrows'
      cases hrows'
      exact mem_map.mp (hperm _ (mem_map_of_mem hnode))
    have hplaced := hpreorder.placed row hrow
    have hdepth := hdepths row hrow
    rw [hid, tabDepth_missing htabs hids hnode hparent hp, hplaced.depth] at hdepth
    have htop : row.ancestors.reverse = [] := by
      apply hplaced.chain.eq_nil
      intro q hlink
      have hparents := parentOf_eq_some hids hlink
      rw [hid, parentOf_eq_some hids ⟨node, hnode, rfl, hparent⟩, Option.some.injEq] at hparents
      exact hparents ▸ hp
    rw [reverse_eq_nil_iff.mp htop] at hdepth
    cases hdepth
  · intro hparents row hrow
    have hplaced := hpreorder.placed row hrow
    have hlength := hplaced.chain.length_le hacyclic (.nil _)
    have hmem : row.id ∈ (tabs.map TerminalTab.treeNode).map TabTreeNode.id := by
      rw [htabs]
      exact hplaced.chain.listed
    have htabsLength : tabs.length = nodes.length := by rw [← htabs, length_map]
    rw [tabDepth_eq hmem, climbDepth_chain htabs hids hparents hplaced.chain, Nat.zero_add,
      length_reverse, hplaced.depth]
    rw [length_nil, Nat.add_zero] at hlength
    omega

/-- A tab with this place in the tree. -/
def bareTab (id index : Nat) (parentId : Option Nat) : TerminalTab :=
  TerminalTab.spawn id index parentId none [] (1, 1)
    { program := "sh"
      commandName := "sh"
      processId := none
      shellKind := .bash
      cwd := { path := none, confirmedPath := none, source := .unknown, pending := false }
      proxy := { http := none, https := none, source := .off, applicationState := .off }
      proxyRedactionNeedles := []
      screen :=
        { title := "", rows := 1, columns := 1, cells := [], alternateScreen := false,
          applicationCursor := false, bracketedPaste := false, mouseProtocolMode := .none,
          mouseProtocolEncoding := .default, scrollback := 0, maxScrollback := 0, cursorRow := 0,
          cursorColumn := 0, hideCursor := false } }

theorem treeRows_preorder_pair :
    ∃ rows forest, treeRows [⟨1, none, 0⟩, ⟨2, some 1, 1⟩] = some rows ∧
      PreorderRows [⟨1, none, 0⟩, ⟨2, some 1, 1⟩] forest rows ∧
      ∀ row ∈ rows, tabDepth [bareTab 1 0 none, bareTab 2 1 (some 1)] row.id = row.depth := by
  obtain ⟨rows, forest, hrows, hpreorder, hdepths⟩ := treeRows_preorder (by decide) acyclic_pair
  exact ⟨rows, forest, hrows, hpreorder,
    (hdepths [bareTab 1 0 none, bareTab 2 1 (some 1)] rfl).mpr (by decide)⟩

/-- A tab whose parent is not in the list has a row at the top, and one ancestor for
`tab_depth`. -/
theorem missing_parent_counts :
    Acyclic (ParentLink ([bareTab 1 0 (some 9)].map TerminalTab.treeNode)) ∧
      treeRows ([bareTab 1 0 (some 9)].map TerminalTab.treeNode) =
        some [{ id := 1, depth := 0, isLast := true, ancestors := [], guides := [] }] ∧
      tabDepth [bareTab 1 0 (some 9)] 1 = 1 := by
  refine ⟨?_, rfl, rfl⟩
  have hlink : ∀ x y, ParentLink ([bareTab 1 0 (some 9)].map TerminalTab.treeNode) x y →
      x = 1 ∧ y = 9 := by
    rintro x y ⟨node, hnode, rfl, hparent⟩
    rw [mem_singleton.mp hnode] at hparent ⊢
    exact ⟨rfl, (Option.some.inj hparent).symm⟩
  intro x hcycle
  obtain ⟨y, hfirst, -⟩ := TransGen.head'_iff.mp hcycle
  obtain ⟨z, -, hlast⟩ := TransGen.tail'_iff.mp hcycle
  have := hlink x y hfirst
  have := hlink z x hlast
  omega

end Agenterm
