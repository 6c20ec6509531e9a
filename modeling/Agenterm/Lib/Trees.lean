import Mathlib.Data.List.Basic
import Mathlib.Logic.Relation

/-!
# Ordered trees

Trees whose nodes have a list of children, and their preorder traversal. A tree unfolds a relation
between a value and the values below it (`Tree.Unfolds`); it then holds exactly what leads to its
root (`Tree.mem_preorder_iff`).
-/

namespace Agenterm.Lib

open Relation List

/-- A value and the trees below it. -/
inductive Tree (α : Type) where
  | node (value : α) (children : List (Tree α))

namespace Tree

variable {α : Type} {below : α → List α → Prop} {link : α → α → Prop}

def value : Tree α → α
  | .node a _ => a

mutual

/-- The value of a tree, and then those of the trees below it. -/
def preorder : Tree α → List α
  | .node a children => a :: preorderAll children

def preorderAll : List (Tree α) → List α
  | [] => []
  | t :: ts => preorder t ++ preorderAll ts

end

lemma mem_preorderAll {ts : List (Tree α)} {x : α} :
    x ∈ preorderAll ts ↔ ∃ t ∈ ts, x ∈ t.preorder := by
  induction ts with
  | nil => simp [preorderAll]
  | cons t ts ih => simp [preorderAll, ih]

lemma value_mem_preorder (t : Tree α) : t.value ∈ t.preorder := by
  cases t
  exact mem_cons_self

/-- Below every value of the tree are the values that belong there, in their order. -/
inductive Unfolds (below : α → List α → Prop) : Tree α → Prop
  | node {a : α} {children : List (Tree α)} (hbelow : below a (children.map value))
      (hchildren : ∀ t ∈ children, Unfolds below t) : Unfolds below (.node a children)

/-- What is in a tree leads to its root. -/
lemma Unfolds.leads {t : Tree α} (h : t.Unfolds below)
    (hlink : ∀ a l, below a l → ∀ b ∈ l, link b a) {x : α} (hx : x ∈ t.preorder) :
    ReflTransGen link x t.value := by
  induction h with
  | node hbelow _ ih =>
    rename_i a children _
    rw [preorder, mem_cons] at hx
    rcases hx with rfl | hx
    · exact .refl
    · obtain ⟨t, ht, hxt⟩ := mem_preorderAll.mp hx
      exact (ih t ht hxt).tail (hlink a _ hbelow t.value (mem_map_of_mem ht))

/-- A tree is closed under links from below. -/
lemma Unfolds.closed {t : Tree α} (h : t.Unfolds below)
    (hlink : ∀ a l b, below a l → link b a → b ∈ l) {x y : α} (hx : x ∈ t.preorder)
    (hy : link y x) : y ∈ t.preorder := by
  induction h with
  | node hbelow _ ih =>
    rename_i a children _
    rw [preorder, mem_cons] at hx ⊢
    rcases hx with rfl | hx
    · obtain ⟨t, ht, hvalue⟩ := mem_map.mp (hlink _ _ y hbelow hy)
      exact .inr (mem_preorderAll.mpr ⟨t, ht, hvalue ▸ value_mem_preorder t⟩)
    · obtain ⟨t, ht, hxt⟩ := mem_preorderAll.mp hx
      exact .inr (mem_preorderAll.mpr ⟨t, ht, ih t ht hxt⟩)

/-- A tree holds what leads to its root. -/
theorem Unfolds.mem_preorder_iff {t : Tree α} (h : t.Unfolds below)
    (hleads : ∀ a l, below a l → ∀ b ∈ l, link b a)
    (hclosed : ∀ a l b, below a l → link b a → b ∈ l) {x : α} :
    x ∈ t.preorder ↔ ReflTransGen link x t.value := by
  constructor
  · exact h.leads hleads
  · intro hpath
    induction hpath using ReflTransGen.head_induction_on with
    | refl => exact value_mem_preorder t
    | head hlink _ ih => exact h.closed hclosed ih hlink

end Tree

end Agenterm.Lib
