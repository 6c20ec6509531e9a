import Agenterm.Lib.Run

/-!
# Runs whose steps all meet a condition

For a total machine, `Throughout` says that a condition holds of every operation of a run in the
state that it is taken in. `run_invariant_throughout` is the rule for what such runs preserve, and
`run_iff_throughout` says when a property holds at the end exactly of such runs, and
`throughout_congr` when two conditions come to the same along a run. For a machine that
may stop, `Along` can be decided.
-/

namespace Agenterm.Lib

section
variable {σ ι : Type} {step : σ → ι → σ} {ok : σ → ι → Prop} {P Q : σ → Prop}

/-- The condition holds of every operation, in the state it is taken in. -/
def Throughout (step : σ → ι → σ) (ok : σ → ι → Prop) : σ → List ι → Prop
  | _, [] => True
  | s, op :: ops => ok s op ∧ Throughout step ok (step s op) ops

/-- What the steps that meet the condition preserve, a run of them preserves. -/
theorem run_invariant_throughout (hstep : ∀ s op, P s → ok s op → P (step s op)) {s : σ}
    {ops : List ι} (hs : P s) (hok : Throughout step ok s ops) : P (run step s ops) := by
  induction ops generalizing s with
  | nil => exact hs
  | cons op ops ih => exact ih (hstep s op hs hok.1) hok.2

theorem throughout_append {s : σ} {xs ys : List ι} :
    Throughout step ok s (xs ++ ys) ↔
      Throughout step ok s xs ∧ Throughout step ok (run step s xs) ys := by
  induction xs generalizing s with
  | nil => exact ⟨fun h => ⟨trivial, h⟩, fun h => h.2⟩
  | cons op xs ih =>
    rw [List.cons_append, Throughout, Throughout, ih, run_cons, and_assoc]

/-- When a step keeps a property exactly if it had it and meets the condition, a run ends with the
property exactly if it had it and all its steps meet the condition. -/
theorem run_iff_throughout (hstep : ∀ s op, P s → P (step s op))
    (hiff : ∀ s op, P s → (Q (step s op) ↔ Q s ∧ ok s op)) {s : σ} {ops : List ι} (hs : P s) :
    Q (run step s ops) ↔ Q s ∧ Throughout step ok s ops := by
  induction ops generalizing s with
  | nil => exact ⟨fun h => ⟨h, trivial⟩, fun h => h.1⟩
  | cons op ops ih =>
    rw [run_cons, ih (hstep s op hs), hiff s op hs, and_assoc]
    exact Iff.rfl

/-- Two conditions that agree wherever the invariant holds agree along a run, when the steps that
meet them keep the invariant. -/
theorem throughout_congr {fresh ok' : σ → ι → Prop}
    (hiff : ∀ s op, P s → fresh s op → (ok s op ↔ ok' s op))
    (hstep : ∀ s op, P s → fresh s op → ok' s op → P (step s op)) {s : σ} {ops : List ι}
    (hs : P s) (hfresh : Throughout step fresh s ops) :
    Throughout step ok s ops ↔ Throughout step ok' s ops := by
  induction ops generalizing s with
  | nil => exact Iff.rfl
  | cons op ops ih =>
    rw [Throughout, Throughout, hiff s op hs hfresh.1]
    exact and_congr_right fun hop => ih (hstep s op hs hfresh.1 hop) hfresh.2

/-- A condition that can be decided for each operation can be decided along a run. -/
instance decidableThroughout [∀ s op, Decidable (ok s op)] (s : σ) (ops : List ι) :
    Decidable (Throughout step ok s ops) :=
  match ops with
  | [] => isTrue trivial
  | op :: ops =>
    have : Decidable (Throughout step ok (step s op) ops) := decidableThroughout (step s op) ops
    inferInstanceAs (Decidable (ok s op ∧ Throughout step ok (step s op) ops))

/-- Two conditions along a run are one. -/
theorem along_and {step : σ → ι → Option σ} {ok ok' : σ → ι → Prop} {s : σ} {ops : List ι}
    (h : Along step ok s ops) (h' : Along step ok' s ops) :
    Along step (fun s op => ok s op ∧ ok' s op) s ops := by
  induction ops generalizing s with
  | nil => trivial
  | cons op ops ih =>
    exact ⟨⟨h.1, h'.1⟩, fun s' hs' => ih (h.2 s' hs') (h'.2 s' hs')⟩

/-- A condition that can be decided for each operation can be decided along a run. -/
instance decidableAlong {step : σ → ι → Option σ} {ok : σ → ι → Prop}
    [∀ s op, Decidable (ok s op)] (s : σ) (ops : List ι) : Decidable (Along step ok s ops) :=
  match ops with
  | [] => isTrue trivial
  | op :: ops =>
    match h : step s op with
    | none => decidable_of_iff (ok s op)
      ⟨fun hok => ⟨hok, fun _ hs => by rw [h] at hs; injection hs⟩, fun hok => hok.1⟩
    | some s' =>
      have : Decidable (Along step ok s' ops) := decidableAlong s' ops
      decidable_of_iff (ok s op ∧ Along step ok s' ops)
        ⟨fun hok => ⟨hok.1, fun _ hs => by rw [h] at hs; injection hs with hs; exact hs ▸ hok.2⟩,
          fun hok => ⟨hok.1, hok.2 s' h⟩⟩

end

end Agenterm.Lib
