import Mathlib.Data.List.Perm.Subperm
import Mathlib.Logic.Relation

/-!
# Forests of parent links

A forest is given by the relation "`y` is the parent of `x`". It is acyclic when no node is
its own ancestor. Three changes keep it so: links that only shorten paths
(`Acyclic.of_shortcuts`, which covers removing a node and handing its children to its parent),
and moving one node below a node it does not lead to (`Acyclic.reattach`, which covers adding a
node). A climb along the links is over after as many steps as there are nodes (`Trail.length_le`).
-/

namespace Agenterm.Lib

open Relation List

section
variable {ι : Type} {parent parent' : ι → ι → Prop}

/-- No node is its own ancestor. -/
def Acyclic (parent : ι → ι → Prop) : Prop := ∀ x, ¬ TransGen parent x x

/-- Links that stand for paths of an acyclic forest make an acyclic forest. -/
theorem Acyclic.of_shortcuts (h : Acyclic parent)
    (hsub : ∀ x y, parent' x y → TransGen parent x y) : Acyclic parent' := by
  intro x hcycle
  have hpath : ∀ y, TransGen parent' x y → TransGen parent x y := by
    intro y hy
    induction hy with
    | single hlink => exact hsub _ _ hlink
    | tail _ hlink ih => exact ih.trans (hsub _ _ hlink)
  exact h x (hpath x hcycle)

/-- When only `child` got a new parent, a path to `child` is a path of the old forest. -/
lemma path_to_reattached {child : ι}
    (hother : ∀ x y, x ≠ child → parent' x y → parent x y) {x : ι}
    (h : ReflTransGen parent' x child) : ReflTransGen parent x child := by
  induction h using ReflTransGen.head_induction_on with
  | refl => exact .refl
  | head hlink hrest ih =>
    rename_i a b
    by_cases ha : a = child
    · rw [ha]
    · exact .head (hother _ _ ha hlink) ih

/-- A path of the new forest is one of the old, or goes through the new link. -/
lemma path_through_reattached {child target : ι}
    (hchild : ∀ y, parent' child y → y = target)
    (hother : ∀ x y, x ≠ child → parent' x y → parent x y) {x y : ι}
    (h : TransGen parent' x y) :
    TransGen parent x y ∨ ReflTransGen parent' x child ∧ ReflTransGen parent' target y := by
  induction h with
  | single hlink =>
    by_cases hx : x = child
    · subst hx
      exact .inr ⟨.refl, hchild _ hlink ▸ .refl⟩
    · exact .inl (.single (hother _ _ hx hlink))
  | tail hpath hlink ih =>
    rename_i b c
    by_cases hb : b = child
    · subst hb
      exact .inr ⟨hpath.to_reflTransGen, hchild _ hlink ▸ .refl⟩
    · rcases ih with hold | ⟨hto, hfrom⟩
      · exact .inl (hold.tail (hother _ _ hb hlink))
      · exact .inr ⟨hto, hfrom.tail hlink⟩

/-- Moving `child` below `target` makes no cycle when `target` does not lead to `child`. -/
theorem Acyclic.reattach (h : Acyclic parent) {child target : ι}
    (hchild : ∀ y, parent' child y → y = target)
    (hother : ∀ x y, x ≠ child → parent' x y → parent x y)
    (hfree : ¬ ReflTransGen parent target child) : Acyclic parent' := by
  intro x hcycle
  rcases path_through_reattached hchild hother hcycle with hold | ⟨hto, hfrom⟩
  · exact h x hold
  · exact hfree (path_to_reattached hother (hfrom.trans hto))

/-! ## Climbing -/

/-- Distinct nodes that lead to `x`: those a climb has left behind. -/
structure Trail (parent : ι → ι → Prop) (left : List ι) (x : ι) : Prop where
  nodup : left.Nodup
  leads : ∀ y ∈ left, TransGen parent y x

lemma Trail.nil (x : ι) : Trail parent [] x where
  nodup := nodup_nil
  leads _ hy := absurd hy not_mem_nil

lemma Trail.step {left : List ι} {x y : ι} (h : Trail parent left x) (hacyclic : Acyclic parent)
    (hlink : parent x y) : Trail parent (x :: left) y where
  nodup := nodup_cons.mpr ⟨fun hx => hacyclic x (h.leads x hx), h.nodup⟩
  leads z hz := by
    rcases mem_cons.mp hz with rfl | hz
    · exact .single hlink
    · exact (h.leads z hz).tail hlink

/-- What a climb leaves behind has links. -/
lemma Trail.subset {left all : List ι} {x : ι} (h : Trail parent left x)
    (hall : ∀ y z, parent y z → y ∈ all) : left ⊆ all := by
  intro y hy
  obtain ⟨z, hlink, -⟩ := TransGen.head'_iff.mp (h.leads y hy)
  exact hall y z hlink

theorem Trail.length_le {left all : List ι} {x : ι} (h : Trail parent left x)
    (hall : ∀ y z, parent y z → y ∈ all) : left.length ≤ all.length :=
  (h.nodup.subperm (h.subset hall)).length_le

/-- Every climb ends at a node without a parent. -/
theorem Acyclic.exists_top (hacyclic : Acyclic parent) {all : List ι}
    (hall : ∀ y z, parent y z → y ∈ all) (x : ι) :
    ∃ y, ReflTransGen parent x y ∧ ∀ z, ¬ parent y z := by
  suffices h : ∀ n (left : List ι) (x : ι), Trail parent left x →
      all.length + 1 ≤ left.length + n → ∃ y, ReflTransGen parent x y ∧ ∀ z, ¬ parent y z from
    h (all.length + 1) [] x (.nil x) (by simp)
  intro n
  induction n with
  | zero =>
    intro left x htrail hlong
    have := htrail.length_le hall
    omega
  | succ n ih =>
    intro left x htrail hlong
    by_cases hparent : ∃ z, parent x z
    · obtain ⟨z, hlink⟩ := hparent
      obtain ⟨y, hpath, htop⟩ := ih (x :: left) z (htrail.step hacyclic hlink) (by
        rw [length_cons]
        omega)
      exact ⟨y, .head hlink hpath, htop⟩
    · exact ⟨x, .refl, fun z hz => hparent ⟨z, hz⟩⟩

end

end Agenterm.Lib
