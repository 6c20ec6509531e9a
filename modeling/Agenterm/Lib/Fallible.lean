import Mathlib.Logic.Basic

/-!
# Computations that may fail and keep the state

A `Fallible` computation changes a state and returns a value or an error; the state survives the
error. `Leads R m` says that `m` takes every state to one that the relation `R` allows,
whether it fails or not: `Leads.bind` composes it for a reflexive and transitive relation.
-/

namespace Agenterm.Lib

/-- A computation over the state `σ` that may fail with an `ε`. -/
def Fallible (σ ε α : Type) : Type := σ → Except ε α × σ

namespace Fallible

variable {σ τ ε ε' α β : Type}

/-- The second computation does not run when the first fails. -/
instance : Monad (Fallible σ ε) where
  pure x := fun s => (.ok x, s)
  bind m f := fun s =>
    match m s with
    | (.ok x, s') => f x s'
    | (.error e, s') => (.error e, s')

/-- Fail and leave the state as it is. -/
def fail (e : ε) : Fallible σ ε α := fun s => (.error e, s)

/-- A result that is known, with the state as it is. -/
def answer (r : Except ε α) : Fallible σ ε α := fun s => (r, s)

/-- Change the state. -/
def update (f : σ → σ) : Fallible σ ε Unit := fun s => (.ok (), f s)

/-- A computation on a part of the state, with its errors translated. -/
def onPart (part : σ → τ) (put : σ → τ → σ) (report : ε' → ε) (m : Fallible τ ε' α) :
    Fallible σ ε α := fun s =>
  match m (part s) with
  | (.ok x, t) => (.ok x, put s t)
  | (.error e, t) => (.error (report e), put s t)

theorem bind_ok {m : Fallible σ ε α} {f : α → Fallible σ ε β} {s s' : σ} {x : α}
    (h : m s = (.ok x, s')) : (m >>= f) s = f x s' := by
  simp only [Bind.bind, h]

theorem bind_error {m : Fallible σ ε α} {s s' : σ} {e : ε} (h : m s = (.error e, s'))
    (f : α → Fallible σ ε β) : (m >>= f) s = (.error e, s') := by
  simp only [Bind.bind, h]

/-- The computation fails in the state. -/
def FailsOn (m : Fallible σ ε α) (s : σ) : Prop := ∃ e s', m s = (.error e, s')

theorem FailsOn.bind {m : Fallible σ ε α} {s : σ} (h : m.FailsOn s) (f : α → Fallible σ ε β) :
    (m >>= f).FailsOn s := by
  obtain ⟨e, s', he⟩ := h
  exact ⟨e, s', bind_error he f⟩

/-- Where the computation may take a state. -/
def Leads (R : σ → σ → Prop) (m : Fallible σ ε α) : Prop := ∀ s, R s (m s).2

section
variable (R : σ → σ → Prop)

theorem leads_pure (hrefl : ∀ s, R s s) (x : α) : Leads R (pure x : Fallible σ ε α) :=
  fun s => hrefl s

theorem leads_fail (hrefl : ∀ s, R s s) (e : ε) : Leads R (fail e : Fallible σ ε α) :=
  fun s => hrefl s

theorem Leads.bind (htrans : ∀ s₁ s₂ s₃, R s₁ s₂ → R s₂ s₃ → R s₁ s₃) {m : Fallible σ ε α}
    {f : α → Fallible σ ε β} (hm : m.Leads R) (hf : ∀ x, (f x).Leads R) : (m >>= f).Leads R := by
  intro s
  have hfirst := hm s
  simp only [Bind.bind]
  rcases hrun : m s with ⟨e | x, s'⟩ <;> rw [hrun] at hfirst
  · exact hfirst
  · exact htrans s s' _ hfirst (hf x s')

end

end Fallible

end Agenterm.Lib
