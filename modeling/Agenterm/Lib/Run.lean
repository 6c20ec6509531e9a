import Mathlib.Data.List.Basic

/-!
# Runs of a state machine

A state machine is a step function on a type of states. Two shapes occur: a total step
(`run`) and a step that may stop the machine (`exec`, where `none` is an abort). The rules
below are the only way the rest of the development argues about whole runs:

* `run_invariant` / `exec_invariant`: what one step preserves, a run preserves
  (`run_invariant_mem`: what the steps of this run preserve);
* `exec_invariant_along`: the same when the steps of the run all meet a side condition
  (`Along`) in the state in which they are taken;
* `along_congr`: when two side conditions agree along a run;
* `exists_breaking_step`: a property that holds at the start of a run and fails at its end
  was broken by one step of it.
-/

namespace Agenterm.Lib

section
variable {σ ι : Type}

/-! ## Total machines -/

/-- The state after a list of operations. -/
def run (step : σ → ι → σ) (s : σ) (ops : List ι) : σ := ops.foldl step s

@[simp] theorem run_nil (step : σ → ι → σ) (s : σ) : run step s [] = s := rfl

@[simp] theorem run_cons (step : σ → ι → σ) (s : σ) (op : ι) (ops : List ι) :
    run step s (op :: ops) = run step (step s op) ops := rfl

theorem run_append (step : σ → ι → σ) (s : σ) (xs ys : List ι) :
    run step s (xs ++ ys) = run step (run step s xs) ys := List.foldl_append

/-- What the steps of a run preserve, the run preserves. -/
theorem run_invariant_mem {step : σ → ι → σ} {P : σ → Prop} {ops : List ι}
    (hstep : ∀ s, ∀ op ∈ ops, P s → P (step s op)) {s : σ} (hs : P s) : P (run step s ops) := by
  induction ops generalizing s with
  | nil => exact hs
  | cons op ops ih =>
    have hnext := hstep s op List.mem_cons_self hs
    exact ih (fun s' op' hop' => hstep s' op' (List.mem_cons_of_mem _ hop')) hnext

/-- What every step preserves, every run preserves. -/
theorem run_invariant {step : σ → ι → σ} {P : σ → Prop}
    (hstep : ∀ s op, P s → P (step s op)) {s : σ} (hs : P s) (ops : List ι) :
    P (run step s ops) :=
  run_invariant_mem (fun s op _ => hstep s op) hs

/-- A property that holds before a run and not after it is lost in one of its steps. -/
theorem exists_breaking_step {step : σ → ι → σ} {P : σ → Prop} {s : σ} {ops : List ι}
    (hs : P s) (hend : ¬ P (run step s ops)) :
    ∃ pre op post, ops = pre ++ op :: post ∧ P (run step s pre) ∧
      ¬ P (step (run step s pre) op) := by
  induction ops generalizing s with
  | nil => exact absurd hs hend
  | cons op ops ih =>
    by_cases hop : P (step s op)
    · obtain ⟨pre, op', post, rfl, hpre, hbreak⟩ := ih hop hend
      exact ⟨op :: pre, op', post, rfl, hpre, hbreak⟩
    · exact ⟨[], op, ops, rfl, hs, hop⟩

/-! ## Machines that may stop -/

/-- The state after a list of operations, or `none` once one of them stops the machine. -/
def exec (step : σ → ι → Option σ) : σ → List ι → Option σ
  | s, [] => some s
  | s, op :: ops => (step s op).bind fun s' => exec step s' ops

@[simp] theorem exec_nil (step : σ → ι → Option σ) (s : σ) : exec step s [] = some s := rfl

theorem exec_cons (step : σ → ι → Option σ) (s : σ) (op : ι) (ops : List ι) :
    exec step s (op :: ops) = (step s op).bind fun s' => exec step s' ops := rfl

theorem exec_append (step : σ → ι → Option σ) (s : σ) (xs ys : List ι) :
    exec step s (xs ++ ys) = (exec step s xs).bind fun s' => exec step s' ys := by
  induction xs generalizing s with
  | nil => rfl
  | cons op xs ih =>
    rw [List.cons_append, exec_cons, exec_cons, Option.bind_assoc]
    exact congrArg _ (funext fun s' => ih s')

/-- The condition `ok` holds of every operation of a run, in the state it is taken in. -/
def Along (step : σ → ι → Option σ) (ok : σ → ι → Prop) : σ → List ι → Prop
  | _, [] => True
  | s, op :: ops => ok s op ∧ ∀ s', step s op = some s' → Along step ok s' ops

/-- What every step that meets `ok` preserves, a run of such steps preserves. -/
theorem exec_invariant_along {step : σ → ι → Option σ} {ok : σ → ι → Prop} {P : σ → Prop}
    (hstep : ∀ s op s', P s → ok s op → step s op = some s' → P s') {s s' : σ} {ops : List ι}
    (hs : P s) (hok : Along step ok s ops) (hrun : exec step s ops = some s') : P s' := by
  induction ops generalizing s with
  | nil =>
    obtain rfl : s = s' := by simpa using hrun
    exact hs
  | cons op ops ih =>
    rw [exec_cons, Option.bind_eq_some_iff] at hrun
    obtain ⟨mid, hmid, hrest⟩ := hrun
    exact ih (hstep s op mid hs hok.1 hmid) (hok.2 mid hmid) hrest

/-- Two conditions that agree wherever the invariant holds agree along a run, when the steps that
meet them keep the invariant. -/
theorem along_congr {step : σ → ι → Option σ} {fresh ok ok' : σ → ι → Prop} {P : σ → Prop}
    (hiff : ∀ s op, P s → fresh s op → (ok s op ↔ ok' s op))
    (hstep : ∀ s op s', P s → fresh s op → ok s op → step s op = some s' → P s')
    {s : σ} {ops : List ι} (hs : P s) (hfresh : Along step fresh s ops) :
    Along step ok s ops ↔ Along step ok' s ops := by
  induction ops generalizing s with
  | nil => exact Iff.rfl
  | cons op ops ih =>
    have hhead := hiff s op hs hfresh.1
    constructor
    · intro h
      exact ⟨hhead.mp h.1, fun s' hs' =>
        (ih (hstep s op s' hs hfresh.1 h.1 hs') (hfresh.2 s' hs')).mp (h.2 s' hs')⟩
    · intro h
      exact ⟨hhead.mpr h.1, fun s' hs' =>
        (ih (hstep s op s' hs hfresh.1 (hhead.mpr h.1) hs') (hfresh.2 s' hs')).mpr (h.2 s' hs')⟩

/-- What every step preserves, every run preserves. -/
theorem exec_invariant {step : σ → ι → Option σ} {P : σ → Prop}
    (hstep : ∀ s op s', P s → step s op = some s' → P s') {s s' : σ} {ops : List ι}
    (hs : P s) (hrun : exec step s ops = some s') : P s' := by
  have hok : ∀ (ops : List ι) (s : σ), Along step (fun _ _ => True) s ops := by
    intro ops
    induction ops with
    | nil => intro _; trivial
    | cons op ops ih => intro _; exact ⟨trivial, fun s' _ => ih s'⟩
  exact exec_invariant_along (fun s op s' h _ => hstep s op s' h) hs (hok ops s) hrun

end

end Agenterm.Lib
