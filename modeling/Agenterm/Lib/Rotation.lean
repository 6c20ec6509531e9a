import Mathlib.Logic.Function.Iterate

/-!
# Steps that go round

A step that takes `a` to `b`, `b` to `c` and `c` to `a`, and everything else to one of them, is in
this round after one step and stays in it.
-/

namespace Agenterm.Lib

section
variable {α : Type} {step : α → α} {a b c : α}

/-- A step that goes round three values, from anywhere. -/
structure Rotates (step : α → α) (a b c : α) : Prop where
  first : step a = b
  second : step b = c
  third : step c = a
  enters : ∀ x, step x = a ∨ step x = b ∨ step x = c

namespace Rotates

lemma iterate_three (h : Rotates step a b c) (k : Nat) : step^[3 * k] a = a := by
  induction k with
  | zero => rfl
  | succ k ih =>
    rw [Nat.mul_succ, Function.iterate_add_apply]
    simp only [Function.iterate_succ_apply, Function.iterate_zero_apply, h.first, h.second, h.third]
    exact ih

/-- One value of the round is taken after at most three steps. -/
lemma reaches (h : Rotates step a b c) (x : α) : ∃ n, 1 ≤ n ∧ n ≤ 3 ∧ step^[n] x = a := by
  rcases h.enters x with hx | hx | hx
  · exact ⟨1, by omega, by omega, hx⟩
  · refine ⟨3, by omega, by omega, ?_⟩
    simp only [Function.iterate_succ_apply, Function.iterate_zero_apply, hx, h.second, h.third]
  · refine ⟨2, by omega, by omega, ?_⟩
    simp only [Function.iterate_succ_apply, Function.iterate_zero_apply, hx, h.third]

/-- From then on, the three follow each other. -/
theorem follows (h : Rotates step a b c) (x : α) :
    ∃ n, 1 ≤ n ∧ n ≤ 3 ∧ ∀ k, step^[n + 3 * k] x = a ∧ step^[n + 3 * k + 1] x = b ∧
      step^[n + 3 * k + 2] x = c := by
  obtain ⟨n, hpos, hle, hn⟩ := h.reaches x
  refine ⟨n, hpos, hle, fun k => ?_⟩
  have ha : step^[n + 3 * k] x = a := by
    rw [Nat.add_comm, Function.iterate_add_apply, hn, h.iterate_three]
  refine ⟨ha, ?_, ?_⟩
  · rw [Function.iterate_succ_apply', ha, h.first]
  · rw [Function.iterate_succ_apply', Function.iterate_succ_apply', ha, h.first, h.second]

/-- After the first step, only the three are met. -/
theorem stays (h : Rotates step a b c) (x : α) {n : Nat} (hn : 1 ≤ n) :
    step^[n] x = a ∨ step^[n] x = b ∨ step^[n] x = c := by
  obtain ⟨m, rfl⟩ := Nat.exists_eq_add_of_le' hn
  rw [Function.iterate_succ_apply']
  exact h.enters _

end Rotates

end

end Agenterm.Lib
