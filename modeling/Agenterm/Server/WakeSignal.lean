import Agenterm.Lib.Run
import Mathlib.Logic.Function.Basic

/-!
# Waking the consumer of a queue

`WakeSignal` of `wake_signal.rs`, and the parties around it. A producer enqueues an item, requests
a wake, and posts it if the request says so. The consumer takes a posted wake, begins a drain,
takes at most its budget of items, and rearms the signal when it used up the budget; when rearming
says so it posts a wake itself. Every operation on the flag or the queue is one atomic step, and a
run is any interleaving of the steps of the parties.
-/

namespace Agenterm

open Lib

/-- The flag of `WakeSignal`. -/
structure WakeSignal where
  pending : Bool
deriving DecidableEq

namespace WakeSignal

def new : WakeSignal := { pending := false }

/-- Sets the flag; the answer is true only for the caller that found it clear. -/
def request (w : WakeSignal) : Bool × WakeSignal := (!w.pending, { pending := true })

def beginDrain (_ : WakeSignal) : WakeSignal := { pending := false }

def rearmIf (w : WakeSignal) (moreWorkMayRemain : Bool) : Bool × WakeSignal :=
  if moreWorkMayRemain then w.request else (false, w)

end WakeSignal

/-- Where a producer stands. -/
inductive ProducerPhase where
  | idle
  /-- Its item is in the queue, and the wake not yet requested. -/
  | enqueued
  /-- Its request was answered with true, and the wake is not yet posted. -/
  | posting
deriving DecidableEq

/-- Where the consumer stands. -/
inductive ConsumerPhase where
  /-- It waits for a wake. -/
  | waiting
  /-- It took a wake, and has not begun the drain. -/
  | woken
  | draining (drained : Nat)
  /-- The drain is over; the argument is what `rearm_if` will be told. -/
  | rearming (moreWorkMayRemain : Bool)
  /-- Rearming was answered with true, and the wake is not yet posted. -/
  | posting
deriving DecidableEq

section
variable {P α : Type}

structure WakeState (P α : Type) where
  signal : WakeSignal
  queue : List α
  /-- Wakes that were posted and not taken. -/
  posted : Nat
  producers : P → ProducerPhase
  consumer : ConsumerPhase

namespace WakeState

def init : WakeState P α where
  signal := .new
  queue := []
  posted := 0
  producers := fun _ => .idle
  consumer := .waiting

/-- No party is in the middle of its steps. -/
structure Quiet (s : WakeState P α) : Prop where
  producers_idle : ∀ p, s.producers p = .idle
  consumer_waiting : s.consumer = .waiting

/-- The next step of the producer `p`; it enqueues `item` if it is idle. -/
def producerStep [DecidableEq P] (s : WakeState P α) (p : P) (item : α) : WakeState P α :=
  match s.producers p with
  | .idle =>
    { s with queue := s.queue ++ [item], producers := Function.update s.producers p .enqueued }
  | .enqueued =>
    let (first, signal) := s.signal.request
    { s with signal, producers := Function.update s.producers p (if first then .posting else .idle) }
  | .posting =>
    { s with posted := s.posted + 1, producers := Function.update s.producers p .idle }

/-- The next step of the consumer; `none` while it waits and no wake is posted. -/
def consumerStep (budget : Nat) (s : WakeState P α) : Option (WakeState P α) :=
  match s.consumer with
  | .waiting => if s.posted = 0 then none else
    some { s with posted := s.posted - 1, consumer := .woken }
  | .woken => some { s with signal := s.signal.beginDrain, consumer := .draining 0 }
  | .draining drained =>
    if drained < budget then
      match s.queue with
      | [] => some { s with consumer := .rearming (drained == budget) }
      | _ :: rest => some { s with queue := rest, consumer := .draining (drained + 1) }
    else
      some { s with consumer := .rearming (drained == budget) }
  | .rearming more =>
    let (again, signal) := s.signal.rearmIf more
    some { s with signal, consumer := if again then .posting else .waiting }
  | .posting => some { s with posted := s.posted + 1, consumer := .waiting }

end WakeState

/-- Whose step is next. -/
inductive WakeMove (P α : Type) where
  | producer (p : P) (item : α)
  | consumer

def wakeStep [DecidableEq P] (budget : Nat) (s : WakeState P α) :
    WakeMove P α → Option (WakeState P α)
  | .producer p item => some (s.producerStep p item)
  | .consumer => s.consumerStep budget

end

/-!
The wake is a token. While the flag is clear there is none; while it is set there is exactly one,
which lies in the mailbox or is on its way to or from it (`HasToken`). Items in the queue are
covered (`Covered`): by the flag, by a producer that will set it, or by the consumer, which will
come back to the queue. Both are kept by every step, and together they say that a queue that is
not empty is never left without a wake (`no_lost_wake`).
-/

section
variable {P α : Type}

/-- Who has the wake. -/
inductive WakeHolder (P : Type) where
  | mailbox
  | producer (p : P)
  | consumer

namespace WakeState

/-- The consumer took a wake and has not cleared the flag, or is about to post one. -/
def ConsumerHolds : ConsumerPhase → Prop
  | .woken | .posting => True
  | .waiting | .draining _ | .rearming _ => False

def inMailbox : Option (WakeHolder P) → Nat
  | some .mailbox => 1
  | _ => 0

/-- The wake is where `token` says, and nowhere else. -/
structure HasToken (s : WakeState P α) (token : Option (WakeHolder P)) : Prop where
  pending_iff : s.signal.pending = token.isSome
  posted_eq : s.posted = inMailbox token
  posting_iff : ∀ p, s.producers p = .posting ↔ token = some (.producer p)
  consumer_iff : ConsumerHolds s.consumer ↔ token = some .consumer

/-- The consumer will look at the queue again before it waits. -/
def ConsumerReturns : ConsumerPhase → Prop
  | .draining _ | .rearming true => True
  | .waiting | .woken | .rearming false | .posting => False

/-- Items in the queue are covered by the flag or by a party that will set it. -/
def Covered (s : WakeState P α) : Prop :=
  s.queue ≠ [] →
    s.signal.pending = true ∨ (∃ p, s.producers p = .enqueued) ∨ ConsumerReturns s.consumer

lemma hasToken_init : (init : WakeState P α).HasToken none where
  pending_iff := rfl
  posted_eq := rfl
  posting_iff := fun _ => ⟨nofun, nofun⟩
  consumer_iff := ⟨nofun, nofun⟩

lemma covered_init : (init : WakeState P α).Covered := fun h => absurd rfl h

/-! ## Producers -/

section
variable [DecidableEq P] {s : WakeState P α} {token : Option (WakeHolder P)}

/-- The other producers stand where they stood. -/
lemma update_posting_iff {p : P} {phase : ProducerPhase} {token' : Option (WakeHolder P)}
    (hself : phase = .posting ↔ token' = some (.producer p))
    (hothers : ∀ q, q ≠ p → (s.producers q = .posting ↔ token' = some (.producer q))) (q : P) :
    Function.update s.producers p phase q = .posting ↔ token' = some (.producer q) := by
  by_cases hq : q = p
  · rw [hq, Function.update_self]
    exact hself
  · rw [Function.update_of_ne hq]
    exact hothers q hq

/-- A step of a producer moves the wake or leaves it. -/
lemma HasToken.producerStep (h : s.HasToken token) (p : P) (item : α) :
    ∃ token', (s.producerStep p item).HasToken token' := by
  unfold WakeState.producerStep
  cases hp : s.producers p with
  | idle =>
    -- nothing but the queue and the phase changes
    refine ⟨token, h.pending_iff, h.posted_eq, ?_, h.consumer_iff⟩
    have hnot : token ≠ some (.producer p) := fun htoken => by
      rw [(h.posting_iff p).mpr htoken] at hp
      cases hp
    exact update_posting_iff ⟨nofun, fun htoken => absurd htoken hnot⟩ fun q _ => h.posting_iff q
  | enqueued =>
    cases token with
    | none =>
      -- the flag was clear: this producer gets the wake
      have hclear : s.signal.pending = false := h.pending_iff
      have hothers : ∀ q, s.producers q ≠ .posting := fun q hq =>
        absurd ((h.posting_iff q).mp hq) nofun
      have hconsumer : ¬ ConsumerHolds s.consumer := fun hc => absurd (h.consumer_iff.mp hc) nofun
      refine ⟨some (.producer p), ?_⟩
      simp only [WakeSignal.request, hclear, Bool.not_false, if_true]
      refine ⟨rfl, h.posted_eq, update_posting_iff ⟨fun _ => rfl, fun _ => rfl⟩ fun q hq => ?_,
        ⟨fun hc => absurd hc hconsumer, nofun⟩⟩
      refine ⟨fun hposting => absurd hposting (hothers q), fun htoken => ?_⟩
      exact absurd (WakeHolder.producer.inj (Option.some.inj htoken)).symm hq
    | some holder =>
      -- the flag was set: the wake stays where it is
      have hset : s.signal.pending = true := h.pending_iff
      have hnot : some holder ≠ some (WakeHolder.producer p) := fun htoken => by
        rw [(h.posting_iff p).mpr htoken] at hp
        cases hp
      refine ⟨some holder, ?_⟩
      simp only [WakeSignal.request, hset, Bool.not_true, Bool.false_eq_true, if_false]
      exact ⟨rfl, h.posted_eq,
        update_posting_iff ⟨nofun, fun htoken => absurd htoken hnot⟩ fun q _ => h.posting_iff q,
        h.consumer_iff⟩
  | posting =>
    -- the wake goes from the producer to the mailbox
    obtain rfl : token = some (.producer p) := (h.posting_iff p).mp hp
    have hconsumer : ¬ ConsumerHolds s.consumer := fun hc => absurd (h.consumer_iff.mp hc) nofun
    have hposted : s.posted = 0 := h.posted_eq
    refine ⟨some .mailbox, h.pending_iff, ?_, update_posting_iff ⟨nofun, nofun⟩ fun q hq => ?_,
      ⟨fun hc => absurd hc hconsumer, nofun⟩⟩
    · exact congrArg Nat.succ hposted
    · refine ⟨fun hposting => ?_, nofun⟩
      have hsame := (h.posting_iff q).mp hposting
      exact absurd (WakeHolder.producer.inj (Option.some.inj hsame)).symm hq

lemma Covered.producerStep (h : s.Covered) (p : P) (item : α) :
    (s.producerStep p item).Covered := by
  unfold WakeState.producerStep
  cases hp : s.producers p with
  | idle => exact fun _ => .inr (.inl ⟨p, Function.update_self ..⟩)
  | enqueued => exact fun _ => .inl rfl
  | posting =>
    intro hqueue
    rcases h hqueue with hpending | ⟨q, hq⟩ | hconsumer
    · exact .inl hpending
    · have hne : q ≠ p := fun hqp => by
        rw [hqp, hp] at hq
        cases hq
      exact .inr (.inl ⟨q, (Function.update_of_ne hne ..).trans hq⟩)
    · exact .inr (.inr hconsumer)

end

/-! ## The consumer -/

section
variable {budget : Nat} {s s' : WakeState P α} {token : Option (WakeHolder P)}

/-- The drain is within its budget. -/
def WithinBudget (budget : Nat) (s : WakeState P α) : Prop :=
  ∀ drained, s.consumer = .draining drained → drained ≤ budget

/-- What a step of the consumer does, by the phase it is in. A drain that ends without the promise
to come back has found the queue empty. -/
lemma consumerStep_cases (hwithin : s.WithinBudget budget) (h : s.consumerStep budget = some s') :
    s.consumer = .waiting ∧ 0 < s.posted ∧
        s' = { s with posted := s.posted - 1, consumer := .woken } ∨
      s.consumer = .woken ∧
        s' = { s with signal := s.signal.beginDrain, consumer := .draining 0 } ∨
      (∃ drained item, s.consumer = .draining drained ∧ s.queue = item :: s'.queue ∧
        s' = { s with queue := s'.queue, consumer := .draining (drained + 1) }) ∨
      (∃ drained more, s.consumer = .draining drained ∧ (more = true ∨ s.queue = []) ∧
        s' = { s with consumer := .rearming more }) ∨
      (∃ more, s.consumer = .rearming more ∧
        s' = { s with
          signal := (s.signal.rearmIf more).2
          consumer := if (s.signal.rearmIf more).1 then .posting else .waiting }) ∨
      s.consumer = .posting ∧ s' = { s with posted := s.posted + 1, consumer := .waiting } := by
  unfold consumerStep at h
  split at h
  · rename_i hphase
    split at h
    · exact absurd h (by simp)
    · exact .inl ⟨hphase, by omega, (Option.some.inj h).symm⟩
  · rename_i hphase
    exact .inr (.inl ⟨hphase, (Option.some.inj h).symm⟩)
  · rename_i drained hphase
    split at h
    · split at h
      · rename_i hqueue
        exact .inr (.inr (.inr (.inl
          ⟨drained, _, hphase, .inr hqueue, (Option.some.inj h).symm⟩)))
      · rename_i item rest hqueue
        cases h
        exact .inr (.inr (.inl ⟨drained, item, hphase, hqueue, rfl⟩))
    · -- the budget is used up: items may remain
      rename_i hbudget
      have hle := hwithin drained hphase
      have hused : (drained == budget) = true := by
        rw [beq_iff_eq]
        omega
      exact .inr (.inr (.inr (.inl
        ⟨drained, _, hphase, .inl hused, (Option.some.inj h).symm⟩)))
  · rename_i more hphase
    exact .inr (.inr (.inr (.inr (.inl ⟨more, hphase, (Option.some.inj h).symm⟩))))
  · rename_i hphase
    exact .inr (.inr (.inr (.inr (.inr ⟨hphase, (Option.some.inj h).symm⟩))))

lemma HasToken.not_consumer (h : s.HasToken token) (hphase : ¬ ConsumerHolds s.consumer) :
    token ≠ some .consumer :=
  fun htoken => hphase (h.consumer_iff.mpr htoken)

/-- A producer has the wake only while it posts it. -/
lemma HasToken.not_posting (h : s.HasToken token) (htoken : ∀ p, token ≠ some (.producer p))
    {token' : Option (WakeHolder P)} (htoken' : ∀ p, token' ≠ some (.producer p)) (p : P) :
    s.producers p = .posting ↔ token' = some (.producer p) :=
  ⟨fun hp => absurd ((h.posting_iff p).mp hp) (htoken p), fun ht => absurd ht (htoken' p)⟩

/-- The moves of the consumer: it takes the wake from the mailbox, uses it up with the flag, and when
it rearms it gets and posts a new one. -/
lemma HasToken.consumerStep (h : s.HasToken token) (hwithin : s.WithinBudget budget)
    (hstep : s.consumerStep budget = some s') : ∃ token', s'.HasToken token' := by
  obtain ⟨hphase, hposted, rfl⟩ | ⟨hphase, rfl⟩ | ⟨drained, item, hphase, -, hs'⟩ |
    ⟨drained, more, hphase, -, rfl⟩ | ⟨more, hphase, rfl⟩ | ⟨hphase, rfl⟩ :=
    consumerStep_cases hwithin hstep
  · -- the wake goes from the mailbox to the consumer
    have htoken : token = some .mailbox := by
      have hposted' := h.posted_eq
      cases token with
      | none => exact absurd hposted' (by simp only [inMailbox]; omega)
      | some holder =>
        cases holder with
        | mailbox => rfl
        | producer p => exact absurd hposted' (by simp only [inMailbox]; omega)
        | consumer => exact absurd hposted' (by simp only [inMailbox]; omega)
    subst htoken
    have hone : s.posted = 1 := h.posted_eq
    refine ⟨some .consumer, h.pending_iff, ?_, h.not_posting nofun nofun,
      ⟨fun _ => rfl, fun _ => trivial⟩⟩
    show s.posted - 1 = 0
    omega
  · -- the flag is cleared, and the wake is used up
    have hholds : ConsumerHolds s.consumer := by rw [hphase]; trivial
    obtain rfl := h.consumer_iff.mp hholds
    exact ⟨none, rfl, h.posted_eq, h.not_posting nofun nofun, ⟨nofun, nofun⟩⟩
  · have hnot := h.not_consumer (hphase ▸ id)
    rw [hs']
    exact ⟨token, h.pending_iff, h.posted_eq, h.posting_iff,
      ⟨nofun, fun htoken => absurd htoken hnot⟩⟩
  · have hnot := h.not_consumer (hphase ▸ id)
    exact ⟨token, h.pending_iff, h.posted_eq, h.posting_iff,
      ⟨nofun, fun htoken => absurd htoken hnot⟩⟩
  · have hnot := h.not_consumer (hphase ▸ id)
    by_cases hagain : (s.signal.rearmIf more).1 = true
    · -- the flag was clear and is set: the consumer gets the wake
      have hmore : more = true ∧ s.signal.pending = false := by
        unfold WakeSignal.rearmIf at hagain
        split at hagain
        · rename_i hmore
          exact ⟨hmore, by simpa [WakeSignal.request] using hagain⟩
        · cases hagain
      have hnone : token = none := by
        have hpending := h.pending_iff
        rw [hmore.2] at hpending
        exact Option.not_isSome_iff_eq_none.mp (by rw [← hpending]; exact Bool.false_ne_true)
      subst hnone
      refine ⟨some .consumer, ?_, h.posted_eq, h.not_posting nofun nofun, ?_⟩
      · rw [hmore.1]
        rfl
      · rw [if_pos hagain]
        exact ⟨fun _ => rfl, fun _ => trivial⟩
    · -- nothing was to be done, or the flag was set already
      have hsame : (s.signal.rearmIf more).2.pending = s.signal.pending := by
        unfold WakeSignal.rearmIf at hagain ⊢
        split
        · rename_i hmore
          rw [if_pos hmore] at hagain
          simp only [WakeSignal.request, Bool.not_eq_true', Bool.not_eq_false] at hagain ⊢
          exact hagain.symm
        · rfl
      refine ⟨token, hsame.trans h.pending_iff, h.posted_eq, h.posting_iff, ?_⟩
      rw [if_neg hagain]
      exact ⟨nofun, fun htoken => absurd htoken hnot⟩
  · -- the wake goes from the consumer to the mailbox
    have hholds : ConsumerHolds s.consumer := by rw [hphase]; trivial
    obtain rfl := h.consumer_iff.mp hholds
    exact ⟨some .mailbox, h.pending_iff, congrArg Nat.succ h.posted_eq, h.not_posting nofun nofun,
      ⟨nofun, nofun⟩⟩

/-- While the consumer will not come back, the queue is covered by others. -/
lemma Covered.of_others (h : s.Covered) (hphase : ¬ ConsumerReturns s.consumer)
    (hqueue : s.queue ≠ []) : s.signal.pending = true ∨ ∃ p, s.producers p = .enqueued := by
  rcases h hqueue with hpending | hproducer | hreturns
  · exact .inl hpending
  · exact .inr hproducer
  · exact absurd hreturns hphase

lemma Covered.consumerStep (h : s.Covered) (hwithin : s.WithinBudget budget)
    (hstep : s.consumerStep budget = some s') : s'.Covered := by
  obtain ⟨hphase, -, rfl⟩ | ⟨hphase, rfl⟩ | ⟨drained, item, hphase, -, hs'⟩ |
    ⟨drained, more, hphase, hend, rfl⟩ | ⟨more, hphase, rfl⟩ | ⟨hphase, rfl⟩ :=
    consumerStep_cases hwithin hstep
  · intro hqueue
    rcases h.of_others (hphase ▸ id) hqueue with hpending | hproducer
    · exact .inl hpending
    · exact .inr (.inl hproducer)
  · exact fun _ => .inr (.inr trivial)
  · rw [hs']
    exact fun _ => .inr (.inr trivial)
  · intro hqueue
    rcases hend with rfl | hempty
    · exact .inr (.inr trivial)
    · exact absurd hempty hqueue
  · intro hqueue
    cases more with
    | true => exact .inl rfl
    | false =>
      -- the drain found the queue empty: what is in it now came later
      rcases h.of_others (hphase ▸ id) hqueue with hpending | hproducer
      · exact .inl hpending
      · exact .inr (.inl hproducer)
  · intro hqueue
    rcases h.of_others (hphase ▸ id) hqueue with hpending | hproducer
    · exact .inl hpending
    · exact .inr (.inl hproducer)

lemma withinBudget_consumerStep (hstep : s.consumerStep budget = some s') : s'.WithinBudget budget := by
  unfold WakeState.consumerStep at hstep
  split at hstep
  · split at hstep
    · exact absurd hstep (by simp)
    · cases hstep
      intro _ hphase
      cases hphase
  · cases hstep
    intro drained hdrained
    obtain rfl := ConsumerPhase.draining.inj hdrained
    exact Nat.zero_le budget
  · split at hstep
    · rename_i hlt
      split at hstep
      · cases hstep
        intro _ hphase
        cases hphase
      · cases hstep
        intro drained hdrained
        obtain rfl := ConsumerPhase.draining.inj hdrained
        exact hlt
    · cases hstep
      intro _ hphase
      cases hphase
  · cases hstep
    intro drained hdrained
    dsimp only at hdrained
    split at hdrained <;> cases hdrained
  · cases hstep
    intro _ hphase
    cases hphase

end

/-! ## Whole runs -/

/-- What holds in every state of every run. -/
structure Sound (budget : Nat) (s : WakeState P α) : Prop where
  token : ∃ token, s.HasToken token
  covered : s.Covered
  within : s.WithinBudget budget

lemma producerStep_consumer [DecidableEq P] (s : WakeState P α) (p : P) (item : α) :
    (s.producerStep p item).consumer = s.consumer := by
  unfold WakeState.producerStep
  split <;> rfl

lemma Sound.step [DecidableEq P] {budget : Nat} {s s' : WakeState P α} {move : WakeMove P α}
    (h : s.Sound budget) (hstep : wakeStep budget s move = some s') : s'.Sound budget := by
  obtain ⟨token, htoken⟩ := h.token
  cases move with
  | producer p item =>
    cases hstep
    refine ⟨htoken.producerStep p item, h.covered.producerStep p item, ?_⟩
    unfold WithinBudget
    rw [producerStep_consumer]
    exact h.within
  | consumer =>
    exact ⟨htoken.consumerStep h.within hstep, h.covered.consumerStep h.within hstep,
      withinBudget_consumerStep hstep⟩

lemma sound_of_exec [DecidableEq P] {budget : Nat} {moves : List (WakeMove P α)}
    {s : WakeState P α} (h : exec (wakeStep budget) .init moves = some s) : s.Sound budget :=
  exec_invariant (fun _ _ _ hs hstep => hs.step hstep)
    ⟨⟨none, hasToken_init⟩, covered_init, nofun⟩ h

end WakeState

/-- In every state that an interleaving of producers and the consumer leads to: when the queue is
not empty and every party rests, a wake is posted, and the consumer can take it; and at most one
wake is posted and not taken, and only while the flag is set. -/
theorem no_lost_wake [DecidableEq P] (budget : Nat) (moves : List (WakeMove P α))
    (s : WakeState P α) (h : exec (wakeStep budget) .init moves = some s) :
    (s.queue ≠ [] → s.Quiet → s.posted = 1 ∧ (s.consumerStep budget).isSome) ∧
      s.posted ≤ if s.signal.pending then 1 else 0 := by
  have hsound := WakeState.sound_of_exec h
  obtain ⟨token, htoken⟩ := hsound.token
  constructor
  · intro hqueue hquiet
    -- at rest only the flag can cover the queue
    have hpending : s.signal.pending = true := by
      rcases hsound.covered hqueue with hpending | ⟨p, hp⟩ | hreturns
      · exact hpending
      · rw [hquiet.producers_idle p] at hp
        cases hp
      · rw [hquiet.consumer_waiting] at hreturns
        exact absurd hreturns id
    -- and no party has the wake, so it lies in the mailbox
    have hmailbox : token = some .mailbox := by
      have hsome := htoken.pending_iff
      rw [hpending] at hsome
      obtain ⟨holder, rfl⟩ := Option.isSome_iff_exists.mp hsome.symm
      cases holder with
      | mailbox => rfl
      | producer p =>
        have hp := (htoken.posting_iff p).mpr rfl
        rw [hquiet.producers_idle p] at hp
        cases hp
      | consumer =>
        have hholds := htoken.consumer_iff.mpr rfl
        rw [hquiet.consumer_waiting] at hholds
        exact absurd hholds id
    have hposted : s.posted = 1 := by
      rw [htoken.posted_eq, hmailbox]
      rfl
    refine ⟨hposted, ?_⟩
    unfold WakeState.consumerStep
    rw [hquiet.consumer_waiting]
    simp only [hposted, Nat.one_ne_zero, if_false, Option.isSome_some]
  · rw [htoken.posted_eq, htoken.pending_iff]
    cases token with
    | none => exact Nat.le_refl 0
    | some holder =>
      cases holder with
      | mailbox => exact Nat.le_refl 1
      | producer p => exact Nat.zero_le _
      | consumer => exact Nat.zero_le _

end

/-- Two producers and a consumer that takes one item at a time: the second producer enqueues during
the drain and posts after it. -/
def busyMoves : List (WakeMove Bool Nat) :=
  [ .producer false 1, .producer false 1, .producer false 1, .producer true 2, .producer true 2,
    .consumer, .consumer, .producer true 3, .consumer, .consumer, .producer true 3, .consumer,
    .producer true 3 ]

theorem no_lost_wake_busy :
    ∃ s : WakeState Bool Nat,
      exec (wakeStep 1) .init busyMoves = some s ∧ s.queue = [2, 3] ∧ s.Quiet ∧
        (s.queue ≠ [] → s.Quiet → s.posted = 1 ∧ (s.consumerStep 1).isSome) ∧
        s.posted ≤ if s.signal.pending then 1 else 0 := by
  obtain ⟨s, hs, hqueue, hquiet⟩ : ∃ s : WakeState Bool Nat,
      exec (wakeStep 1) .init busyMoves = some s ∧ s.queue = [2, 3] ∧ s.Quiet :=
    ⟨_, rfl, rfl, fun p => by cases p <;> rfl, rfl⟩
  exact ⟨s, hs, hqueue, hquiet, no_lost_wake 1 busyMoves s hs⟩

end Agenterm
