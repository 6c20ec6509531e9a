import Mathlib.Data.List.Basic

/-!
# Interpreters with a step budget

A machine whose step goes on or stops with a result (`Progress`), run for at most a given number
of steps (`runFor`). `Reaches` counts the steps between two states.

* `runFor_eq`: a run ends after at most its budget of steps, in a state in which the machine stops
  or in which the budget is used up;
* `runFor_of_reaches`: how a run is followed step by step to its end;
* `Reaches.invariant`: what one step preserves holds in every state that is reached;
* `runFor_map`: when one machine is the image of another, so are its results.
-/

namespace Agenterm.Lib

/-- One step of a machine: it goes on, or stops with a result. -/
inductive Progress (σ ρ : Type) where
  | next (s : σ)
  | stop (r : ρ)

section
variable {σ ρ : Type} {step : σ → Progress σ ρ} {exhausted : σ → ρ}

/-- The result of a machine that may take `budget` steps. -/
def runFor (step : σ → Progress σ ρ) (exhausted : σ → ρ) : Nat → σ → ρ
  | 0, s => exhausted s
  | budget + 1, s =>
    match step s with
    | .next s' => runFor step exhausted budget s'
    | .stop r => r

lemma runFor_next {s s' : σ} (h : step s = .next s') (budget : Nat) :
    runFor step exhausted (budget + 1) s = runFor step exhausted budget s' := by
  rw [runFor, h]

lemma runFor_stop {s : σ} {r : ρ} (h : step s = .stop r) (budget : Nat) :
    runFor step exhausted (budget + 1) s = r := by
  rw [runFor, h]

/-- `count` steps lead from one state to another. -/
inductive Reaches (step : σ → Progress σ ρ) : Nat → σ → σ → Prop where
  | refl (s : σ) : Reaches step 0 s s
  | head {s s' s'' : σ} {count : Nat} (hstep : step s = .next s')
      (hrest : Reaches step count s' s'') : Reaches step (count + 1) s s''

theorem Reaches.trans {count count' : Nat} {s s' s'' : σ} (h : Reaches step count s s')
    (h' : Reaches step count' s' s'') : Reaches step (count + count') s s'' := by
  induction h with
  | refl =>
    rw [Nat.zero_add]
    exact h'
  | @head s mid s' count hstep _ ih =>
    rw [show count + 1 + count' = count + count' + 1 by omega]
    exact .head hstep (ih h')

/-- What holds before the first step, and is preserved by each, holds in every state that is
reached; the invariant may mention the number of steps taken. -/
theorem Reaches.invariant {P : Nat → σ → Prop}
    (hpreserved : ∀ taken s s', P taken s → step s = .next s' → P (taken + 1) s')
    {count taken : Nat} {s s' : σ} (h : Reaches step count s s') (hs : P taken s) :
    P (taken + count) s' := by
  induction h generalizing taken with
  | refl => exact hs
  | @head s mid s' count hstep hrest ih =>
    have hmid := hpreserved taken s mid hs hstep
    have hend := ih hmid
    rwa [show taken + (count + 1) = taken + 1 + count by omega]

/-- How a run ends: after at most its budget of steps, by stopping or by exhaustion. -/
theorem runFor_eq (budget : Nat) (s : σ) :
    ∃ count s', count ≤ budget ∧ Reaches step count s s' ∧
      (count < budget ∧ step s' = .stop (runFor step exhausted budget s) ∨
        count = budget ∧ runFor step exhausted budget s = exhausted s') := by
  induction budget generalizing s with
  | zero => exact ⟨0, s, Nat.le_refl 0, .refl s, .inr ⟨rfl, rfl⟩⟩
  | succ budget ih =>
    cases hstep : step s with
    | stop r =>
      refine ⟨0, s, Nat.zero_le _, .refl s, .inl ⟨Nat.succ_pos _, ?_⟩⟩
      rw [runFor_stop hstep, hstep]
    | next mid =>
      obtain ⟨count, s', hle, hreaches, hend⟩ := ih mid
      refine ⟨count + 1, s', Nat.succ_le_succ hle, .head hstep hreaches, ?_⟩
      rw [runFor_next hstep]
      rcases hend with ⟨hlt, hstop⟩ | ⟨hcount, hexhausted⟩
      · exact .inl ⟨Nat.succ_lt_succ hlt, hstop⟩
      · exact .inr ⟨congrArg Nat.succ hcount, hexhausted⟩

/-- A machine that reaches a state in which it stops returns what it stops with. -/
theorem runFor_of_reaches {count budget : Nat} {s s' : σ} {r : ρ}
    (h : Reaches step count s s') (hstop : step s' = .stop r) (hbudget : count < budget) :
    runFor step exhausted budget s = r := by
  induction h generalizing budget with
  | refl =>
    obtain ⟨budget, rfl⟩ : ∃ rest, budget = rest + 1 := ⟨budget - 1, by omega⟩
    exact runFor_stop hstop budget
  | head hstep hrest ih =>
    obtain ⟨budget, rfl⟩ : ∃ rest, budget = rest + 1 := ⟨budget - 1, by omega⟩
    rw [runFor_next hstep]
    exact ih hstop (by omega)

/-- The image of a step. -/
def Progress.map {σ' ρ' : Type} (f : σ → σ') (g : ρ → ρ') : Progress σ ρ → Progress σ' ρ'
  | .next s => .next (f s)
  | .stop r => .stop (g r)

theorem runFor_map {σ' ρ' : Type} {step' : σ' → Progress σ' ρ'} {exhausted' : σ' → ρ'}
    {f : σ → σ'} {g : ρ → ρ'} (hstep : ∀ s, step' (f s) = (step s).map f g)
    (hexhausted : ∀ s, exhausted' (f s) = g (exhausted s)) (budget : Nat) (s : σ) :
    runFor step' exhausted' budget (f s) = g (runFor step exhausted budget s) := by
  induction budget generalizing s with
  | zero => exact hexhausted s
  | succ budget ih =>
    have hs := hstep s
    cases h : step s with
    | next s' =>
      rw [h] at hs
      rw [runFor_next h, runFor_next hs, ih]
    | stop r =>
      rw [h] at hs
      rw [runFor_stop h, runFor_stop hs]

end

end Agenterm.Lib
