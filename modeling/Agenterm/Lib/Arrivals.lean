import Agenterm.Lib.Fallible
import Mathlib.Data.List.Basic

/-!
# Readers over an arrival schedule

A stream is read in order while its bytes arrive, and a read may meet a fault (a timeout, a
reset) instead of a byte. A reader that is built from `readExact` loses what it had read
before the fault.

The library follows such readers on the encoding `w` of a value: `Spells r w x` says that `r`
reads `x` when all of `w` arrives, and fails when a fault cuts `w` short; `Rejects r w` says
that it fails in both cases. `Spells.bind` and `Spells.bind_rejects` put readers in sequence,
and `arrived_append_cases` finds out which of the two cases a schedule is.
-/

namespace Agenterm.Lib

open List

/-- What a read sees next: a byte, or a fault in place of one. A schedule is a list of these,
and its end is the end of the stream. -/
inductive Arrival (φ : Type) where
  | byte (b : UInt8)
  | fault (why : φ)
deriving DecidableEq

variable {n : Nat} {q w₁ w₂ : List UInt8}

section
variable {φ : Type}

/-- The bytes of a schedule. -/
def arrived : List (Arrival φ) → List UInt8
  | [] => []
  | .byte b :: rest => b :: arrived rest
  | .fault _ :: rest => arrived rest

/-- Bytes that arrive without a fault. -/
def smooth (w : List UInt8) : List (Arrival φ) := w.map .byte

@[simp] theorem smooth_nil : (smooth [] : List (Arrival φ)) = [] := rfl

@[simp] theorem smooth_cons (b : UInt8) (w : List UInt8) :
    (smooth (b :: w) : List (Arrival φ)) = .byte b :: smooth w := rfl

theorem smooth_append (w w' : List UInt8) :
    (smooth (w ++ w') : List (Arrival φ)) = smooth w ++ smooth w' := map_append

theorem arrived_append (events events' : List (Arrival φ)) :
    arrived (events ++ events') = arrived events ++ arrived events' := by
  induction events with
  | nil => rfl
  | cons event events ih =>
    cases event with
    | byte b => exact congrArg (b :: ·) ih
    | fault why => exact ih

@[simp] theorem arrived_smooth (w : List UInt8) : arrived (smooth w : List (Arrival φ)) = w := by
  induction w with
  | nil => rfl
  | cons b w ih => exact congrArg (b :: ·) ih

/-- A schedule that brings `w` first either brings all of it without a fault, or a fault cuts
it short. -/
theorem arrived_append_cases {w w' : List UInt8} {events : List (Arrival φ)}
    (h : arrived events = w ++ w') :
    (∃ rest, events = smooth w ++ rest ∧ arrived rest = w') ∨
      ∃ q t why rest, w = q ++ t ∧ t ≠ [] ∧ events = smooth q ++ .fault why :: rest := by
  induction w generalizing events with
  | nil => exact .inl ⟨events, rfl, h⟩
  | cons b w ih =>
    cases events with
    | nil => cases h
    | cons event events =>
      cases event with
      | fault why => exact .inr ⟨[], b :: w, why, events, rfl, nofun, rfl⟩
      | byte b' =>
        have hcons : b' = b ∧ arrived events = w ++ w' := List.cons.inj h
        rw [hcons.1]
        rcases ih hcons.2 with ⟨rest, hrest, harrived⟩ | ⟨q, t, why, rest, hq, ht, hrest⟩
        · refine .inl ⟨rest, ?_, harrived⟩
          rw [hrest, smooth_cons, cons_append]
        · refine .inr ⟨b :: q, t, why, rest, ?_, ht, ?_⟩
          · rw [hq, cons_append]
          · rw [hrest, smooth_cons, cons_append]

/-! ## Readers -/

/-- `Read::read_exact`: the next `n` bytes. What was read before a fault is lost; `none` is
the end of the stream. -/
def readExact : Nat → List (Arrival φ) → Except (Option φ) (List UInt8) × List (Arrival φ)
  | 0, events => (.ok [], events)
  | _ + 1, [] => (.error none, [])
  | _ + 1, .fault why :: rest => (.error (some why), rest)
  | n + 1, .byte b :: rest =>
    match readExact n rest with
    | (.ok bs, left) => (.ok (b :: bs), left)
    | (.error why, left) => (.error why, left)

/-- All `n` bytes are there. -/
theorem readExact_smooth (w : List UInt8) (rest : List (Arrival φ)) :
    readExact w.length (smooth w ++ rest) = (.ok w, rest) := by
  induction w with
  | nil => rfl
  | cons b w ih => rw [length_cons, smooth_cons, cons_append, readExact, ih]

/-- A fault before the last of the `n` bytes. -/
theorem readExact_fault (h : q.length < n) (why : φ) (rest : List (Arrival φ)) :
    readExact n (smooth q ++ .fault why :: rest) = (.error (some why), rest) := by
  induction q generalizing n with
  | nil =>
    obtain ⟨n, rfl⟩ : ∃ m, n = m + 1 := ⟨n - 1, by simp only [length_nil] at h; omega⟩
    rfl
  | cons b q ih =>
    obtain ⟨n, rfl⟩ : ∃ m, n = m + 1 := ⟨n - 1, by omega⟩
    rw [length_cons] at h
    rw [smooth_cons, cons_append, readExact, ih (by omega)]

/-- Reading takes arrivals from the front. -/
theorem length_readExact (n : Nat) (events : List (Arrival φ)) :
    (readExact n events).2.length ≤ events.length ∧
      ∀ bs, (readExact n events).1 = .ok bs →
        (readExact n events).2.length + n = events.length := by
  induction n generalizing events with
  | zero => exact ⟨Nat.le_refl _, fun _ _ => rfl⟩
  | succ n ih =>
    cases events with
    | nil => exact ⟨Nat.le_refl _, fun _ => nofun⟩
    | cons event events =>
      cases event with
      | fault why => exact ⟨Nat.le_succ _, fun _ => nofun⟩
      | byte b =>
        have hle := (ih events).1
        have hok := (ih events).2
        unfold readExact
        rcases hread : readExact n events with ⟨bs | bs, left⟩ <;> rw [hread] at hle hok
        · exact ⟨Nat.le_succ_of_le hle, fun _ => nofun⟩
        · have hlen : left.length + n = events.length := hok bs rfl
          refine ⟨Nat.le_succ_of_le hle, fun _ _ => ?_⟩
          show left.length + (n + 1) = events.length + 1
          omega

/-- A fault is taken from the schedule too. -/
theorem length_readExact_fault {events rest : List (Arrival φ)} {why : φ}
    (h : readExact n events = (.error (some why), rest)) : rest.length < events.length := by
  induction n generalizing events rest with
  | zero => exact absurd (congrArg Prod.fst h) nofun
  | succ n ih =>
    cases events with
    | nil => exact absurd (congrArg Prod.fst h) nofun
    | cons event events =>
      cases event with
      | fault why' =>
        have hrest : events = rest := congrArg Prod.snd h
        rw [hrest]
        exact Nat.lt_succ_self _
      | byte b =>
        unfold readExact at h
        rcases hread : readExact n events with ⟨e | bs, left⟩ <;> rw [hread] at h
        · have he : e = some why := Except.error.inj (congrArg Prod.fst h)
          have hleft : left = rest := congrArg Prod.snd h
          rw [he, hleft] at hread
          exact Nat.lt_succ_of_lt (ih hread)
        · exact absurd (congrArg Prod.fst h) nofun

/-- A computation that reads a stream. -/
abbrev Reader (φ ε α : Type) : Type := Fallible (List (Arrival φ)) ε α

namespace Reader

open Fallible

variable {ε α β : Type}

/-- `readExact` with the error that the program makes of a fault. -/
def exactly (n : Nat) (describe : Option φ → ε) : Reader φ ε (List UInt8) := fun events =>
  match readExact n events with
  | (.ok bs, rest) => (.ok bs, rest)
  | (.error why, rest) => (.error (describe why), rest)

/-- Nothing is given back to the stream. -/
def Onward (events rest : List (Arrival φ)) : Prop := rest.length ≤ events.length

/-- A reader gives nothing back to the stream. -/
abbrev Forward (r : Reader φ ε α) : Prop := Leads Onward r

theorem forward_pure (x : α) : Forward (pure x : Reader φ ε α) :=
  leads_pure Onward (fun _ => Nat.le_refl _) x

theorem forward_fail (e : ε) : Forward (.fail e : Reader φ ε α) :=
  leads_fail Onward (fun _ => Nat.le_refl _) e

theorem forward_exactly (n : Nat) (describe : Option φ → ε) :
    Forward (exactly n describe) := by
  intro events
  have hle := (length_readExact n events).1
  unfold exactly
  rcases hread : readExact n events with ⟨bs | bs, left⟩ <;> rw [hread] at hle <;> exact hle

theorem Forward.bind {r : Reader φ ε α} {f : α → Reader φ ε β} (hr : Forward r)
    (hf : ∀ x, Forward (f x)) : Forward (r >>= f) :=
  Leads.bind Onward (fun _ _ _ h₁ h₂ => Nat.le_trans h₂ h₁) hr hf

/-- `w` is what the reader reads as `x`: all of it is needed, and no more. -/
structure Spells (r : Reader φ ε α) (w : List UInt8) (x : α) : Prop where
  whole : ∀ rest, r (smooth w ++ rest) = (.ok x, rest)
  cut : ∀ q t why rest, w = q ++ t → t ≠ [] → FailsOn r (smooth q ++ .fault why :: rest)

/-- The reader refuses `w`, whether it arrives whole or is cut short. -/
structure Rejects (r : Reader φ ε α) (w : List UInt8) : Prop where
  whole : ∀ rest, FailsOn r (smooth w ++ rest)
  cut : ∀ q t why rest, w = q ++ t → t ≠ [] → FailsOn r (smooth q ++ .fault why :: rest)

theorem spells_pure (x : α) : Spells (pure x : Reader φ ε α) [] x where
  whole _ := rfl
  cut _ _ _ _ h ht := absurd (append_eq_nil_iff.mp h.symm).2 ht

theorem rejects_fail (e : ε) (w : List UInt8) : Rejects (.fail e : Reader φ ε α) w where
  whole _ := ⟨e, _, rfl⟩
  cut _ _ _ _ _ _ := ⟨e, _, rfl⟩

theorem spells_exactly (w : List UInt8) (describe : Option φ → ε) :
    Spells (exactly w.length describe) w w where
  whole rest := by
    unfold exactly
    rw [readExact_smooth]
  cut q t why rest h ht := by
    have hlen : q.length < w.length := by
      rw [h, length_append]
      have := length_pos_of_ne_nil ht
      omega
    refine ⟨describe (some why), rest, ?_⟩
    unfold exactly
    rw [readExact_fault hlen]

/-- A cut of two encodings in a row is a cut of the first, or of the second behind the
first. -/
theorem append_eq_append_cases {t : List UInt8} (h : w₁ ++ w₂ = q ++ t) :
    (∃ t', w₁ = q ++ t' ∧ t' ≠ []) ∨ ∃ q', q = w₁ ++ q' ∧ w₂ = q' ++ t := by
  rcases append_eq_append_iff.mp h with ⟨q', hq, hw⟩ | ⟨t', hw, htt⟩
  · exact .inr ⟨q', hq, hw⟩
  · by_cases ht' : t' = []
    · refine .inr ⟨[], ?_, ?_⟩
      · rw [append_nil, hw, ht', append_nil]
      · rw [htt, ht', nil_append, nil_append]
    · exact .inl ⟨t', hw, ht'⟩

/-- The faults of two readers in a row. -/
theorem cut_bind {r : Reader φ ε α} {f : α → Reader φ ε β} {x : α} (h₁ : r.Spells w₁ x)
    (h₂ : ∀ q t why rest, w₂ = q ++ t → t ≠ [] → (f x).FailsOn (smooth q ++ .fault why :: rest))
    (q t : List UInt8) (why : φ) (rest : List (Arrival φ)) (h : w₁ ++ w₂ = q ++ t) (ht : t ≠ []) :
    (r >>= f).FailsOn (smooth q ++ .fault why :: rest) := by
  rcases append_eq_append_cases h with ⟨t', hw, ht'⟩ | ⟨q', hq, hw⟩
  · exact (h₁.cut q t' why rest hw ht').bind f
  · obtain ⟨e, left, he⟩ := h₂ q' t why rest hw ht
    refine ⟨e, left, ?_⟩
    rw [hq, smooth_append, append_assoc, bind_ok (h₁.whole _), he]

theorem Spells.bind {r : Reader φ ε α} {f : α → Reader φ ε β} {x : α} {y : β} (h₁ : r.Spells w₁ x)
    (h₂ : (f x).Spells w₂ y) : (r >>= f).Spells (w₁ ++ w₂) y where
  whole rest := by
    rw [smooth_append, append_assoc, bind_ok (h₁.whole _)]
    exact h₂.whole rest
  cut := cut_bind h₁ h₂.cut

theorem Spells.bind_rejects {r : Reader φ ε α} {f : α → Reader φ ε β} {x : α} (h₁ : r.Spells w₁ x)
    (h₂ : (f x).Rejects w₂) : (r >>= f).Rejects (w₁ ++ w₂) where
  whole rest := by
    obtain ⟨e, left, he⟩ := h₂.whole rest
    refine ⟨e, left, ?_⟩
    rw [smooth_append, append_assoc, bind_ok (h₁.whole _), he]
  cut := cut_bind h₁ h₂.cut

/-- What the first of two readers refuses, both refuse. -/
theorem Rejects.bind {r : Reader φ ε α} (h : r.Rejects w₁) (f : α → Reader φ ε β)
    (w₂ : List UInt8) : (r >>= f).Rejects (w₁ ++ w₂) where
  whole rest := by
    rw [smooth_append, append_assoc]
    exact (h.whole _).bind f
  cut q t why rest hw ht := by
    rcases append_eq_append_cases hw with ⟨t', hw', ht'⟩ | ⟨q', hq, -⟩
    · exact (h.cut q t' why rest hw' ht').bind f
    · rw [hq, smooth_append, append_assoc]
      exact (h.whole _).bind f

end Reader

end

end Agenterm.Lib
