import Mathlib.Data.Finset.Card
import Mathlib.Data.Finset.Insert

/-!
# Walks, distances and closures

`Walk edge root n x`: `x` is reached from `root` along `n` edges. The distance of `x` is the length
of the shortest walk (`Distance`).

`grow` adds the ends of the edges that start in a set, edge after edge and pass after pass, until a
pass adds nothing. With one pass for each edge and one more it ends (`grow_eq_some`), and the set is
what can be reached (`mem_grow`).
-/

namespace Agenterm.Lib

open List

variable {n passes : Nat}

section
variable {α : Type} (edge : α → α → Prop) (root : α)

/-- There is a walk of `n` edges from the root. -/
def Walk : Nat → α → Prop
  | 0, x => x = root
  | n + 1, x => ∃ y, Walk n y ∧ edge y x

/-- The shortest walk has `n` edges. -/
structure Distance (x : α) (n : Nat) : Prop where
  walk : Walk edge root n x
  shortest : ∀ m, Walk edge root m x → n ≤ m

variable {edge root}

lemma Walk.zero : Walk edge root 0 root := rfl

lemma Walk.step {x y : α} (h : Walk edge root n y) (hedge : edge y x) :
    Walk edge root (n + 1) x := ⟨y, h, hedge⟩

/-- A set with the root that edges do not leave has everything that is reached. -/
theorem Walk.mem_of_closed {s : α → Prop} (hroot : s root) (hclosed : ∀ x y, s x → edge x y → s y)
    {x : α} (h : Walk edge root n x) : s x := by
  induction n generalizing x with
  | zero =>
    rw [show x = root from h]
    exact hroot
  | succ n ih =>
    obtain ⟨y, hy, hedge⟩ := h
    exact hclosed y x (ih hy) hedge

lemma Walk.congr {edge' : α → α → Prop} (h : ∀ x y, edge x y ↔ edge' x y) {x : α} :
    Walk edge root n x ↔ Walk edge' root n x := by
  have hedge : edge = edge' := funext fun x => funext fun y => propext (h x y)
  rw [hedge]

end

/-! ## Growing a set -/

section
variable {α ι : Type} [DecidableEq α] (src dst : ι → α) (rows : List ι)

/-- The edges that the rows stand for. -/
def RowEdge (x y : α) : Prop := ∃ r ∈ rows, src r = x ∧ dst r = y

/-- One pass: adds the end of every edge that starts in the set, as it is by then. -/
def growPass (owned : Finset α) : Finset α :=
  rows.foldl (fun owned r => if src r ∈ owned then insert (dst r) owned else owned) owned

/-- Passes until one adds nothing; `none` when there are not enough of them. -/
def grow : Nat → Finset α → Option (Finset α)
  | 0, _ => none
  | passes + 1, owned =>
    let next := growPass src dst rows owned
    if next.card = owned.card then some next else grow passes next

variable {src dst rows}

variable (src dst rows) in
lemma subset_growPass (owned : Finset α) : owned ⊆ growPass src dst rows owned := by
  unfold growPass
  induction rows generalizing owned with
  | nil => exact Finset.Subset.refl _
  | cons r rest ih =>
    rw [foldl_cons]
    refine Finset.Subset.trans ?_ (ih _)
    split
    · exact Finset.subset_insert _ _
    · exact Finset.Subset.refl _

/-- The ends of the edges that start in the set are there after a pass. -/
lemma growPass_covers {owned : Finset α} {r : ι} (hr : r ∈ rows) (hsrc : src r ∈ owned) :
    dst r ∈ growPass src dst rows owned := by
  unfold growPass
  induction rows generalizing owned with
  | nil => cases hr
  | cons head rest ih =>
    rw [foldl_cons]
    rcases mem_cons.mp hr with rfl | hr
    · rw [if_pos hsrc]
      exact subset_growPass src dst rest _ (Finset.mem_insert_self _ _)
    · refine ih hr ?_
      split
      · exact Finset.mem_insert_of_mem hsrc
      · exact hsrc

/-- What a pass adds is an end of an edge. -/
lemma growPass_sound {owned : Finset α} {s : α → Prop} (hs : ∀ x ∈ owned, s x)
    (hclosed : ∀ r ∈ rows, s (src r) → s (dst r)) :
    ∀ x ∈ growPass src dst rows owned, s x := by
  unfold growPass
  induction rows generalizing owned with
  | nil => exact hs
  | cons head rest ih =>
    rw [foldl_cons]
    refine ih (fun x hx => ?_) fun r hr => hclosed r (mem_cons_of_mem _ hr)
    split at hx
    · rename_i hsrc
      rcases Finset.mem_insert.mp hx with rfl | hx
      · exact hclosed head mem_cons_self (hs _ hsrc)
      · exact hs x hx
    · exact hs x hx

/-- A set that was grown is what can be reached from the root, and it has the set it began with. -/
lemma grow_spec {root : α} {owned s : Finset α} (hroot : root ∈ owned)
    (howned : ∀ x ∈ owned, ∃ n, Walk (RowEdge src dst rows) root n x)
    (h : grow src dst rows passes owned = some s) (x : α) :
    x ∈ s ↔ ∃ n, Walk (RowEdge src dst rows) root n x := by
  induction passes generalizing owned with
  | zero => cases h
  | succ passes ih =>
    have hsound : ∀ x ∈ growPass src dst rows owned, ∃ n, Walk (RowEdge src dst rows) root n x := by
      refine growPass_sound howned fun r hr hreach => ?_
      obtain ⟨n, hn⟩ := hreach
      exact ⟨n + 1, hn.step ⟨r, hr, rfl, rfl⟩⟩
    simp only [grow] at h
    split at h
    · rename_i hcard
      rw [Option.some.injEq] at h
      subst h
      refine ⟨hsound x, fun ⟨n, hn⟩ => ?_⟩
      -- the last pass added nothing, so the set is closed
      have hsame : owned = growPass src dst rows owned :=
        Finset.eq_of_subset_of_card_le (subset_growPass src dst rows owned) (by omega)
      refine Walk.mem_of_closed (s := (· ∈ growPass src dst rows owned))
        (subset_growPass src dst rows owned hroot) ?_ hn
      rintro y z hy ⟨r, hr, rfl, rfl⟩
      rw [← hsame] at hy
      exact growPass_covers hr hy
    · exact ih (subset_growPass src dst rows owned hroot) hsound h

theorem mem_grow {root : α} {s : Finset α} (h : grow src dst rows passes {root} = some s) (x : α) :
    x ∈ s ↔ ∃ n, Walk (RowEdge src dst rows) root n x := by
  refine grow_spec (Finset.mem_singleton_self root) (fun y hy => ⟨0, ?_⟩) h x
  exact Finset.mem_singleton.mp hy

/-- Every pass but the last adds something, and there are only the ends of the edges to add. -/
lemma exists_grow {owned : Finset α} (all : Finset α) (hall : owned ⊆ all)
    (hends : ∀ r ∈ rows, dst r ∈ all) (hpasses : all.card < owned.card + passes) :
    ∃ s, grow src dst rows passes owned = some s := by
  induction passes generalizing owned with
  | zero => exact absurd (Finset.card_le_card hall) (by omega)
  | succ passes ih =>
    simp only [grow]
    split
    · exact ⟨_, rfl⟩
    · rename_i hcard
      have hle := Finset.card_le_card (subset_growPass src dst rows owned)
      refine ih (growPass_sound (s := (· ∈ all)) (fun x hx => hall hx) fun r hr _ => hends r hr) ?_
      omega

variable (src dst rows) in
theorem grow_eq_some (root : α) (hpasses : rows.length < passes) :
    ∃ s, grow src dst rows passes {root} = some s := by
  refine exists_grow (insert root (rows.map dst).toFinset) (by simp)
    (fun r hr => by simp; exact .inr ⟨r, hr, rfl⟩) ?_
  have hcard := Finset.card_insert_le root (rows.map dst).toFinset
  have hlen := toFinset_card_le (rows.map dst)
  rw [length_map] at hlen
  rw [Finset.card_singleton]
  omega

end

end Agenterm.Lib
