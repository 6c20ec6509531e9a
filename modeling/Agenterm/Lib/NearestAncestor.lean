import Mathlib.Order.Lattice

/-!
# The ancestors of a node in document order

Nodes have paths; an ancestor's path is a proper prefix. When the nodes come in the lexicographic
order of their paths, those that were kept and can still be an ancestor of a later node are a chain,
the innermost first: a stack, from which the nodes that are no ancestors of the next one are dropped
(`Tracks.skip`, `Tracks.push`). Its top is the nearest ancestor that was kept (`Tracks.nearest`).
-/

namespace Agenterm.Lib

open List

/-- One path leads to the other. -/
def ProperPrefix {β : Type} (a b : List β) : Prop := a <+: b ∧ a ≠ b

instance {β : Type} [DecidableEq β] (a b : List β) : Decidable (ProperPrefix a b) :=
  inferInstanceAs (Decidable (_ ∧ _))

namespace ProperPrefix

section
variable {β : Type} [LinearOrder β] {a b c : List β}

lemma lt (h : ProperPrefix a b) : a < b := by
  obtain ⟨⟨rest, rfl⟩, hne⟩ := h
  induction a with
  | nil =>
    cases rest with
    | nil => exact absurd rfl hne
    | cons x rest => exact nil_lt_cons x rest
  | cons x a ih =>
    rw [cons_append, cons_lt_cons_iff]
    refine .inr ⟨rfl, ih ?_⟩
    intro heq
    exact hne (by rw [cons_append, ← heq])

/-- What stands between a path and one that it leads to, it leads to as well. -/
lemma between (h : ProperPrefix a c) (hab : a < b) (hbc : b < c) : ProperPrefix a b := by
  refine ⟨?_, fun heq => ?_⟩
  · obtain ⟨⟨rest, rfl⟩, hne⟩ := h
    clear hne
    induction a generalizing b with
    | nil => exact nil_prefix
    | cons x a ih =>
      cases b with
      | nil => exact absurd hab (not_lt_nil _)
      | cons y b =>
        rw [cons_append] at hbc
        rw [cons_lt_cons_iff] at hab hbc
        obtain rfl : x = y := by
          rcases hab with hxy | ⟨heq, _⟩
          · rcases hbc with hyx | ⟨heq, _⟩
            · exact absurd hxy hyx.not_gt
            · exact heq.symm
          · exact heq
        have hab' := (hab.resolve_left (lt_irrefl x)).2
        have hbc' := (hbc.resolve_left (lt_irrefl x)).2
        exact prefix_cons_inj x |>.mpr (ih hab' hbc')
  · rw [heq] at hab
    exact List.lt_irrefl b hab

omit [LinearOrder β] in
lemma trans (hab : ProperPrefix a b) (hbc : ProperPrefix b c) : ProperPrefix a c := by
  refine ⟨hab.1.trans hbc.1, ?_⟩
  rintro rfl
  exact hbc.2 (hbc.1.eq_of_length_le hab.1.length_le)

end

end ProperPrefix

section
variable {α β : Type} [LinearOrder β] (path : α → List β)

/-- The stack of kept nodes, without those that are no ancestors of the next node. -/
def ancestors (stack : List α) (node : α) : List α :=
  stack.dropWhile fun kept => !decide (ProperPrefix (path kept) (path node))

/-- The kept node that is nearest above a node. -/
structure IsNearest (kept : List α) (node ancestor : α) : Prop where
  mem : ancestor ∈ kept
  above : ProperPrefix (path ancestor) (path node)
  nearest : ∀ other ∈ kept, ProperPrefix (path other) (path node) → path other <+: path ancestor

/-- A stack holds the kept nodes that can be ancestors of the nodes to come. -/
structure Tracks (visited kept stack : List α) : Prop where
  stack_kept : ∀ x ∈ stack, x ∈ kept
  kept_visited : ∀ x ∈ kept, x ∈ visited
  chain : stack.Pairwise fun x y => ProperPrefix (path y) (path x)
  complete : ∀ node, (∀ v ∈ visited, path v < path node) → ∀ x ∈ kept,
    ProperPrefix (path x) (path node) → x ∈ stack

variable {path} {visited kept stack : List α} {node : α}

lemma Tracks.nil : Tracks path [] [] [] where
  stack_kept := fun _ h => nomatch h
  kept_visited := fun _ h => nomatch h
  chain := List.Pairwise.nil
  complete := fun _ _ _ h => nomatch h

/-- Below an ancestor in the stack there are ancestors only. -/
lemma ancestors_spec (hchain : stack.Pairwise fun x y => ProperPrefix (path y) (path x)) {x : α} :
    x ∈ ancestors path stack node ↔ x ∈ stack ∧ ProperPrefix (path x) (path node) := by
  unfold ancestors
  induction stack with
  | nil => simp
  | cons top rest ih =>
    obtain ⟨htop, hrest⟩ := pairwise_cons.mp hchain
    by_cases h : ProperPrefix (path top) (path node)
    · rw [dropWhile_cons_of_neg (by simp [h])]
      constructor
      · intro hx
        refine ⟨hx, ?_⟩
        rcases mem_cons.mp hx with rfl | hx
        · exact h
        · exact (htop x hx).trans h
      · exact And.left
    · rw [dropWhile_cons_of_pos (by simp [h]), ih hrest]
      constructor
      · intro ⟨hx, habove⟩
        exact ⟨mem_cons_of_mem _ hx, habove⟩
      · intro ⟨hx, habove⟩
        refine ⟨?_, habove⟩
        rcases mem_cons.mp hx with rfl | hx
        · exact absurd habove h
        · exact hx

namespace Tracks

/-- What is left of the stack are the ancestors that were kept. -/
lemma mem_ancestors (h : Tracks path visited kept stack)
    (hlater : ∀ v ∈ visited, path v < path node) {x : α} :
    x ∈ ancestors path stack node ↔ x ∈ kept ∧ ProperPrefix (path x) (path node) := by
  rw [ancestors_spec h.chain]
  constructor
  · intro ⟨hx, habove⟩
    exact ⟨h.stack_kept x hx, habove⟩
  · intro ⟨hx, habove⟩
    exact ⟨h.complete node hlater x hx habove, habove⟩

lemma chain_ancestors (h : Tracks path visited kept stack) (node : α) :
    (ancestors path stack node).Pairwise fun x y => ProperPrefix (path y) (path x) :=
  h.chain.sublist (dropWhile_sublist _)

/-- The top of what is left is the nearest ancestor. -/
lemma nearest (h : Tracks path visited kept stack) (hlater : ∀ v ∈ visited, path v < path node)
    {x : α} (htop : (ancestors path stack node).head? = some x) : IsNearest path kept node x := by
  obtain ⟨rest, hstack⟩ := List.head?_eq_some_iff.mp htop
  have hx : x ∈ ancestors path stack node := by
    rw [hstack]
    exact mem_cons_self
  obtain ⟨hkept, habove⟩ := (h.mem_ancestors hlater).mp hx
  refine ⟨hkept, habove, ?_⟩
  intro other hother habove'
  have hmem := (h.mem_ancestors hlater).mpr ⟨hother, habove'⟩
  have hchain := h.chain_ancestors node
  rw [hstack] at hmem hchain
  rcases mem_cons.mp hmem with rfl | hmem
  · exact prefix_refl _
  · exact ((pairwise_cons.mp hchain).1 other hmem).1

/-- A kept ancestor of a later node is one of the node before it. -/
lemma complete_ancestors (h : Tracks path visited kept stack)
    (hlater : ∀ v ∈ visited, path v < path node) {later : α} (hnode : path node < path later) {x : α}
    (hx : x ∈ kept) (habove : ProperPrefix (path x) (path later)) :
    x ∈ ancestors path stack node :=
  (h.mem_ancestors hlater).mpr
    ⟨hx, habove.between (hlater x (h.kept_visited x hx)) hnode⟩

/-- The next node is passed over. -/
lemma skip (h : Tracks path visited kept stack) (hlater : ∀ v ∈ visited, path v < path node) :
    Tracks path (visited ++ [node]) kept (ancestors path stack node) where
  stack_kept := fun x hx => ((h.mem_ancestors hlater).mp hx).1
  kept_visited := fun x hx => mem_append_left _ (h.kept_visited x hx)
  chain := h.chain_ancestors node
  complete := by
    intro later hall x hx habove
    have hnode := hall node (mem_append_right _ (mem_singleton_self node))
    exact h.complete_ancestors hlater hnode hx habove

/-- The next node is kept. -/
lemma push (h : Tracks path visited kept stack) (hlater : ∀ v ∈ visited, path v < path node) :
    Tracks path (visited ++ [node]) (kept ++ [node]) (node :: ancestors path stack node) where
  stack_kept := by
    intro x hx
    rcases mem_cons.mp hx with rfl | hx
    · exact mem_append_right _ (mem_singleton_self x)
    · exact mem_append_left _ ((h.mem_ancestors hlater).mp hx).1
  kept_visited := by
    intro x hx
    rcases mem_append.mp hx with hx | hx
    · exact mem_append_left _ (h.kept_visited x hx)
    · exact mem_append_right _ hx
  chain := by
    apply pairwise_cons.mpr
    refine ⟨?_, h.chain_ancestors node⟩
    intro x hx
    exact ((h.mem_ancestors hlater).mp hx).2
  complete := by
    intro later hall x hx habove
    rcases mem_append.mp hx with hx | hx
    · have hnode := hall node (mem_append_right _ (mem_singleton_self node))
      exact mem_cons_of_mem _ (h.complete_ancestors hlater hnode hx habove)
    · rw [mem_singleton.mp hx]
      exact mem_cons_self

end Tracks

omit [LinearOrder β] in
/-- Two nearest ancestors have the same path. -/
lemma IsNearest.path_eq {a b : α} (ha : IsNearest path kept node a)
    (hb : IsNearest path kept node b) : path a = path b := by
  have hba := ha.nearest b hb.mem hb.above
  have hab := hb.nearest a ha.mem ha.above
  exact hab.eq_of_length_le hba.length_le

/-- A node that comes later does not change what is nearest. -/
lemma IsNearest.append {ancestor later : α} (h : IsNearest path kept node ancestor)
    (hlater : path node < path later) : IsNearest path (kept ++ [later]) node ancestor where
  mem := mem_append_left _ h.mem
  above := h.above
  nearest := by
    intro other hother habove
    rcases mem_append.mp hother with hother | hother
    · exact h.nearest other hother habove
    · rw [List.mem_singleton.mp hother] at habove
      exact absurd (List.lt_trans hlater habove.lt) (List.lt_irrefl _)

/-- The nearest ancestor among nodes with later ones is the nearest among the others. -/
lemma IsNearest.of_append {ancestor later : α} (h : IsNearest path (kept ++ [later]) node ancestor)
    (hlater : ¬ path later < path node) : IsNearest path kept node ancestor where
  mem := by
    rcases mem_append.mp h.mem with hmem | hmem
    · exact hmem
    · rw [← mem_singleton.mp hmem] at hlater
      exact absurd h.above.lt hlater
  above := h.above
  nearest := fun other hother => h.nearest other (mem_append_left _ hother)

end

end Agenterm.Lib
