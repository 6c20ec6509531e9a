import Mathlib.Data.List.Forall2

/-!
# Chains of checks

A check is a computation in `Except` that fails with an error or goes on. These rules say when a
chain of checks passes: `bind_eq_ok` and `bind_unit_eq_ok` for a check followed by another
(`bind_eq_error` for when it fails), `ite_error_eq_ok` for a guard, `forM_eq_ok` and `mapM_eq_ok`
for one check on every element of a list, and `mapM_zipIdx_eq_ok` for one that also depends on the
position of the element.
-/

namespace Agenterm.Lib

open List

section
variable {ε α β : Type}

theorem bind_eq_ok {x : Except ε α} {f : α → Except ε β} {b : β} :
    (x >>= f) = .ok b ↔ ∃ a, x = .ok a ∧ f a = .ok b := by
  cases x with
  | error e => simp [bind, Except.bind]
  | ok a => simp [bind, Except.bind]

theorem bind_eq_error {x : Except ε α} {f : α → Except ε β} {e : ε} :
    (x >>= f) = .error e ↔ x = .error e ∨ ∃ a, x = .ok a ∧ f a = .error e := by
  cases x with
  | error e' => simp [bind, Except.bind]
  | ok a => simp [bind, Except.bind]

theorem bind_unit_eq_ok {x : Except ε Unit} {y : Except ε β} {b : β} :
    (x >>= fun _ => y) = .ok b ↔ x = .ok () ∧ y = .ok b := by
  rw [bind_eq_ok]
  exact ⟨fun ⟨_, hx, hy⟩ => ⟨hx, hy⟩, fun ⟨hx, hy⟩ => ⟨(), hx, hy⟩⟩

theorem ite_error_eq_ok {p : Prop} [Decidable p] {e : ε} {x : Except ε α} {a : α} :
    (if p then Except.error e else x) = .ok a ↔ ¬ p ∧ x = .ok a := by
  split <;> simp [*]

theorem mapError_eq_ok {ε' : Type} {f : ε → ε'} {x : Except ε α} {a : α} :
    x.mapError f = .ok a ↔ x = .ok a := by
  cases x with
  | error e => exact ⟨nofun, nofun⟩
  | ok b => exact ⟨fun h => congrArg Except.ok (Except.ok.inj h),
      fun h => congrArg Except.ok (Except.ok.inj h)⟩

theorem forM_eq_ok {f : α → Except ε Unit} {l : List α} :
    l.forM f = .ok () ↔ ∀ a ∈ l, f a = .ok () := by
  induction l with
  | nil => exact ⟨fun _ _ h => absurd h not_mem_nil, fun _ => rfl⟩
  | cons a l ih =>
    rw [forall_mem_cons, ← ih]
    exact bind_unit_eq_ok

/-- A check on every element passes when it passes on each. -/
theorem mapM_eq_ok {f : α → Except ε β} {l : List α} {l' : List β} :
    l.mapM f = .ok l' ↔ List.Forall₂ (fun a b => f a = .ok b) l l' := by
  induction l generalizing l' with
  | nil =>
    rw [mapM_nil, forall₂_nil_left_iff]
    exact ⟨fun h => (Except.ok.inj h).symm, fun h => congrArg Except.ok h.symm⟩
  | cons a l ih =>
    rw [mapM_cons, bind_eq_ok]
    constructor
    · rintro ⟨b, hb, hrest⟩
      obtain ⟨bs, hbs, hl'⟩ := bind_eq_ok.mp hrest
      rw [← Except.ok.inj hl']
      exact .cons hb (ih.mp hbs)
    · intro h
      rcases h with _ | ⟨hb, hrest⟩
      exact ⟨_, hb, bind_eq_ok.mpr ⟨_, ih.mpr hrest, rfl⟩⟩

/-- A check on every element and its position. -/
theorem mapM_zipIdx_eq_ok {f : α × Nat → Except ε β} {l : List α} {l' : List β}
    (h : l.zipIdx.mapM f = .ok l') :
    l'.length = l.length ∧
      ∀ i a, l[i]? = some a → ∃ b, l'[i]? = some b ∧ f (a, i) = .ok b := by
  have hall := mapM_eq_ok.mp h
  have hlength : l'.length = l.length := by
    rw [← hall.length_eq, length_zipIdx]
  refine ⟨hlength, fun i a hi => ?_⟩
  have hlt : i < l.length := (List.getElem?_eq_some_iff.mp hi).1
  have hzip : l.zipIdx[i]? = some (a, i) := by
    rw [List.getElem?_zipIdx, hi]
    simp
  obtain ⟨b, hb, hf⟩ : ∃ b, l'[i]? = some b ∧ f (a, i) = .ok b := by
    have hlt' : i < l'.length := hlength ▸ hlt
    have hget := (forall₂_iff_get.mp hall).2 i (by rwa [length_zipIdx]) hlt'
    rw [List.getElem?_eq_some_iff] at hzip
    refine ⟨l'.get ⟨i, hlt'⟩, List.getElem?_eq_getElem hlt', ?_⟩
    rw [← hget, ← hzip.2]
    rfl
  exact ⟨b, hb, hf⟩

end

end Agenterm.Lib
