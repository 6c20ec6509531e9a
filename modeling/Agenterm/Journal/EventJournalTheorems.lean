import Agenterm.Lib.Run
import Agenterm.Journal.EventJournal

/-!
# The journal delivers exactly

`Records j committed` relates a journal to everything ever committed to it: events are
numbered from one, and the journal retains the last `capacity` of them. From that one
relation follow the reading rule (`readAfter_of_records`), and by induction over any
interleaving of commits and reads what a reader has been given (`Follows`).
-/

namespace Agenterm

open List Option EventEnvelope

variable {committed : List EventEnvelope} {e : EventEnvelope} {first : Nat} {j j' : EventJournal}
  {kind : EventKind} {operationId requestId : Option String} {payload : Value} {r : ReaderRun}
  {tabId : Option Nat}

namespace EventJournal

/-! ## What a journal has recorded -/

/-- `committed` is the list of all events the journal ever committed, oldest first. -/
structure Records (j : EventJournal) (committed : List EventEnvelope) : Prop where
  sequence_eq : j.sequence = committed.length
  sequence_le : j.sequence ≤ u64Max
  numbered : committed.map EventEnvelope.sequence = List.range' 1 committed.length
  capacity_pos : 1 ≤ j.capacity
  retained : j.events = committed.drop (committed.length - j.capacity)

theorem records_withEpoch (epoch : String) (capacity : Nat) :
    (withEpoch epoch capacity).Records [] where
  sequence_eq := rfl
  sequence_le := Nat.zero_le _
  numbered := rfl
  capacity_pos := Nat.le_max_right _ _
  retained := drop_nil.symm

theorem Records.length_events (h : j.Records committed) :
    j.events.length = min j.capacity committed.length := by
  rw [h.retained, length_drop]
  omega

/-- Events numbered consecutively from `s`: those numbered above `a` are a suffix. -/
lemma filter_numbered (events : List EventEnvelope) (s a : Nat)
    (h : events.map EventEnvelope.sequence = List.range' s events.length) :
    (events.filter fun event => event.sequence > a) = events.drop (a + 1 - s) := by
  induction events generalizing s with
  | nil => simp
  | cons e es ih =>
    rw [map_cons, length_cons, List.range'_succ, List.cons.injEq] at h
    obtain ⟨hhead, htail⟩ := h
    have hrest := ih (s + 1) htail
    by_cases hlt : a < s
    · -- every event is above `a`
      rw [filter_cons_of_pos (by simpa [hhead] using hlt), hrest]
      rw [show a + 1 - (s + 1) = 0 by omega, show a + 1 - s = 0 by omega]
      rfl
    · rw [filter_cons_of_neg (by simp only [hhead, decide_eq_true_eq]; omega), hrest]
      rw [show a + 1 - s = (a + 1 - (s + 1)) + 1 by omega, drop_succ_cons]

/-- The committed events after position `after` are those numbered above it. -/
theorem Records.filter_committed (h : j.Records committed) (after : Nat) :
    (committed.filter fun event => event.sequence > after) = committed.drop after := by
  rw [filter_numbered committed 1 after h.numbered, Nat.add_sub_cancel]

theorem Records.numbered_drop (h : j.Records committed) (d : Nat) :
    (committed.drop d).map EventEnvelope.sequence
      = List.range' (d + 1) (committed.drop d).length := by
  rw [map_drop, h.numbered, drop_range', length_drop, Nat.mul_one, Nat.add_comm]

/-- An event sits among the committed ones at the place its number says. -/
theorem Records.getElem?_of_mem (h : j.Records committed) (he : e ∈ committed) :
    1 ≤ e.sequence ∧ committed[e.sequence - 1]? = some e := by
  obtain ⟨i, hi, hget⟩ := mem_iff_getElem.mp he
  have hnum : (committed.map EventEnvelope.sequence)[i]? = some e.sequence := by
    rw [List.getElem?_map, List.getElem?_eq_getElem hi, hget]
    rfl
  rw [h.numbered, List.getElem?_range' hi, some.injEq] at hnum
  have hidx : e.sequence - 1 = i := by omega
  exact ⟨by omega, by rw [hidx, List.getElem?_eq_getElem hi, hget]⟩

/-- The committed events numbered above `after` are those from place `after` on. -/
theorem Records.mem_drop_iff (h : j.Records committed) (after : Nat) :
    e ∈ committed.drop after ↔ e ∈ committed ∧ after < e.sequence := by
  rw [← h.filter_committed after, mem_filter]
  simp

/-! ## Committing -/

/-- A commit numbers the event with the next sequence number and records it. -/
theorem Records.commitCorrelated (h : j.Records committed)
    (hcommit : j.commitCorrelated kind tabId requestId operationId payload = some (e, j')) :
    j'.Records (committed ++ [e]) := by
  unfold EventJournal.commitCorrelated at hcommit
  split at hcommit
  · rename_i hbound
    simp only [some.injEq, Prod.mk.injEq] at hcommit
    obtain ⟨rfl, rfl⟩ := hcommit
    refine ⟨?_, hbound, ?_, h.capacity_pos, ?_⟩
    · simp only [length_append, length_singleton, h.sequence_eq]
    · simp only [map_append, h.numbered, length_append, length_singleton,
        List.range'_1_concat, h.sequence_eq, map_cons, map_nil]
      rw [Nat.add_comm]
    · have hlen := h.length_events
      have hcap := h.capacity_pos
      simp only [length_append, length_singleton]
      split
      · -- the journal is full: its oldest event goes
        rename_i hfull
        rw [h.retained, drop_drop, drop_append_of_le_length (by omega)]
        congr 2
        omega
      · rename_i hroom
        have hall : committed.length - j.capacity = 0 := by omega
        have hnone : committed.length + 1 - j.capacity = 0 := by omega
        rw [h.retained, hall, hnone, drop_zero, drop_zero]
  · exact absurd hcommit (by simp)

/-- What a commit returns and leaves alone. -/
theorem commitCorrelated_eq_some
    (hcommit : j.commitCorrelated kind tabId requestId operationId payload = some (e, j')) :
    e.sequence = j.sequence + 1 ∧ e.tabId = tabId ∧ e.kind = kind.asStr ∧ e.epoch = j.epoch ∧
      j'.sequence = j.sequence + 1 ∧ j'.epoch = j.epoch ∧ j'.capacity = j.capacity := by
  unfold EventJournal.commitCorrelated at hcommit
  split at hcommit
  · simp only [some.injEq, Prod.mk.injEq] at hcommit
    obtain ⟨rfl, rfl⟩ := hcommit
    exact ⟨rfl, rfl, rfl, rfl, rfl, rfl, rfl⟩
  · exact absurd hcommit (by simp)

/-- `j'` is `j` after committing events that name the tabs `named`, in this order. -/
structure Appends (j j' : EventJournal) (named : List (Option Nat)) : Prop where
  epoch_eq : j'.epoch = j.epoch
  records : ∀ committed, j.Records committed →
    ∃ events, events.map EventEnvelope.tabId = named ∧ j'.Records (committed ++ events)

theorem Appends.refl (j : EventJournal) : j.Appends j [] where
  epoch_eq := rfl
  records committed h := ⟨[], rfl, by rwa [append_nil]⟩

theorem Appends.trans {j₁ j₂ j₃ : EventJournal} {named named' : List (Option Nat)}
    (h : j₁.Appends j₂ named) (h' : j₂.Appends j₃ named') :
    j₁.Appends j₃ (named ++ named') where
  epoch_eq := h'.epoch_eq.trans h.epoch_eq
  records committed hrec := by
    obtain ⟨events, hnamed, hmid⟩ := h.records committed hrec
    obtain ⟨events', hnamed', hend⟩ := h'.records _ hmid
    refine ⟨events ++ events', ?_, ?_⟩
    · rw [map_append, hnamed, hnamed']
    · rwa [← append_assoc]

theorem appends_commitCorrelated
    (hcommit : j.commitCorrelated kind tabId requestId operationId payload = some (e, j')) :
    j.Appends j' [tabId] where
  epoch_eq := (commitCorrelated_eq_some hcommit).2.2.2.2.2.1
  records committed h :=
    ⟨[e], by rw [map_singleton, (commitCorrelated_eq_some hcommit).2.1],
      h.commitCorrelated hcommit⟩

/-! ## Reading -/

/-- The oldest retained event is the one just after the evicted ones. -/
theorem Records.head?_events (h : j.Records committed) :
    j.events.head?.map EventEnvelope.sequence
      = if committed.length = 0 then none else some (committed.length - j.capacity + 1) := by
  have hcap := h.capacity_pos
  rw [← List.head?_map, h.retained, h.numbered_drop, List.head?_range', length_drop]
  by_cases hempty : committed.length = 0
  · rw [if_pos (by omega), if_pos hempty]
  · rw [if_neg (by omega), if_neg hempty]

/-- **The reading rule.** From a position in the past a reader gets the next events, unless
the event it needs next has been evicted. -/
theorem readAfter_of_records (h : j.Records committed) (after limit : Nat) :
    j.readAfter j.epoch after limit =
      if after > j.sequence then .error (.futureSequence after j.position)
      else if after < committed.length - j.capacity then
        .error (.gap after (committed.length - j.capacity + 1) j.position)
      else .ok ((committed.drop after).take (max limit 1)) := by
  have hseq := h.sequence_eq
  have hle := h.sequence_le
  have hcap := h.capacity_pos
  unfold EventJournal.readAfter
  simp only [ne_eq, not_true_eq_false, if_false]
  by_cases hfuture : after > j.sequence
  · rw [if_pos hfuture, if_pos hfuture]
  rw [if_neg hfuture, if_neg hfuture, h.head?_events]
  -- both matches keep the events numbered above `after`
  have hkeep : ¬ after < committed.length - j.capacity →
      (j.events.filter fun event => event.sequence > after) = committed.drop after := by
    intro hd
    rw [h.retained, filter_numbered _ _ after (h.numbered_drop _), drop_drop]
    congr 1
    omega
  by_cases hempty : committed.length = 0
  · have hd : ¬ after < committed.length - j.capacity := by omega
    rw [if_pos hempty, if_neg hd]
    simp only [hkeep hd]
  · rw [if_neg hempty]
    have hsat : saturatingAdd after 1 < committed.length - j.capacity + 1
        ↔ after < committed.length - j.capacity := by
      unfold saturatingAdd
      omega
    simp only [hsat]
    by_cases hd : after < committed.length - j.capacity
    · rw [if_pos hd, if_pos hd]
    · rw [if_neg hd, if_neg hd, hkeep hd]

end EventJournal

/-! ## A reader that follows the journal -/

inductive JournalOp where
  | commit (kind : EventKind) (tabId : Option Nat) (requestId operationId : Option String)
      (payload : Value)
  | read (limit : Nat)

/-- A journal and one reader of it, with the history of what was committed and of what the
reader has been given. -/
structure ReaderRun where
  journal : EventJournal
  committed : List EventEnvelope
  lastSeen : Nat
  delivered : List EventEnvelope

namespace ReaderRun

def start (epoch : String) (capacity lastSeen : Nat) : ReaderRun :=
  { journal := .withEpoch epoch capacity, committed := [], lastSeen, delivered := [] }

/-- Commits go to the journal; a read continues at `lastSeen` and, when it succeeds, moves
`lastSeen` to the last event returned. -/
def step (r : ReaderRun) : JournalOp → Option ReaderRun
  | .commit kind tabId requestId operationId payload =>
    (r.journal.commitCorrelated kind tabId requestId operationId payload).map fun (e, j) =>
      { r with journal := j, committed := r.committed ++ [e] }
  | .read limit =>
    match r.journal.readAfter r.journal.epoch r.lastSeen limit with
    | .ok events =>
      some { r with
        lastSeen := (events.getLast?.map sequence).getD r.lastSeen
        delivered := r.delivered ++ events }
    | .error _ => some r

/-- The reader that started at `first` has been given exactly the committed events after
`first`, up to `lastSeen`. -/
structure Follows (first : Nat) (r : ReaderRun) : Prop where
  records : r.journal.Records r.committed
  first_le : first ≤ r.lastSeen
  lastSeen_le : r.lastSeen = first ∨ r.lastSeen ≤ r.committed.length
  delivered_eq : r.delivered = (r.committed.drop first).take (r.lastSeen - first)

theorem follows_start (epoch : String) (capacity first : Nat) :
    Follows first (start epoch capacity first) where
  records := EventJournal.records_withEpoch epoch capacity
  first_le := Nat.le_refl _
  lastSeen_le := .inl rfl
  delivered_eq := by simp [start]

lemma Follows.commit (h : Follows first r) (hj : j.Records (r.committed ++ [e])) :
    Follows first { r with journal := j, committed := r.committed ++ [e] } := by
  refine ⟨hj, h.first_le, ?_, ?_⟩
  · rcases h.lastSeen_le with heq | hle
    · exact .inl heq
    · exact .inr (by simp only [length_append]; omega)
  · -- the new event lies beyond what the reader has taken
    rw [h.delivered_eq]
    rcases h.lastSeen_le with heq | hle
    · simp only [heq, Nat.sub_self, take_zero]
    · have hfirst := h.first_le
      rw [drop_append_of_le_length (by omega), take_append_of_le_length]
      simp only [length_drop]
      omega

/-- The last event of a successful read is numbered by its place. -/
lemma getLast?_taken (h : j.Records committed) (after k : Nat) :
    ((((committed.drop after).take k).getLast?).map sequence).getD after
      = after + min k (committed.length - after) := by
  rw [← List.getLast?_map, map_take, h.numbered_drop, length_drop]
  by_cases hk : k ≤ committed.length - after
  · rw [take_range'_of_length_ge hk, List.getLast?_range', Nat.min_eq_left hk]
    split
    · simp only [getD_none]
      omega
    · simp only [getD_some]
      omega
  · rw [take_range'_of_length_le (by omega), List.getLast?_range',
      Nat.min_eq_right (by omega)]
    split
    · simp only [getD_none]
      omega
    · simp only [getD_some]
      omega

lemma Follows.read (h : Follows first r) (k : Nat) :
    Follows first { r with
      lastSeen := ((((r.committed.drop r.lastSeen).take k).getLast?).map
        sequence).getD r.lastSeen
      delivered := r.delivered ++ (r.committed.drop r.lastSeen).take k } := by
  have hfirst := h.first_le
  rw [getLast?_taken h.records]
  refine ⟨h.records, ?_, ?_, ?_⟩
  · simp only
    omega
  · rcases h.lastSeen_le with heq | hle
    · by_cases hn : r.lastSeen ≤ r.committed.length
      · exact .inr (by simp only; omega)
      · exact .inl (by simp only; omega)
    · exact .inr (by simp only; omega)
  · -- the read continues the list where the delivered part ends
    have hsplit : r.committed.drop r.lastSeen
        = (r.committed.drop first).drop (r.lastSeen - first) := by
      rw [drop_drop, Nat.add_sub_cancel' hfirst]
    have hmin : (r.committed.drop r.lastSeen).take k
        = (r.committed.drop r.lastSeen).take (min k (r.committed.length - r.lastSeen)) := by
      rw [← length_drop, ← take_eq_take_min]
    simp only [h.delivered_eq]
    rw [hmin, hsplit, ← take_add]
    congr 1
    omega

/-- One commit or read keeps the reader's account exact. -/
theorem step_follows {r' : ReaderRun} {op : JournalOp} (h : Follows first r)
    (hstep : r.step op = some r') : Follows first r' := by
  cases op with
  | commit kind tabId requestId operationId payload =>
    simp only [step, map_eq_some_iff, Prod.exists] at hstep
    obtain ⟨e, j, hcommit, rfl⟩ := hstep
    exact h.commit (h.records.commitCorrelated hcommit)
  | read limit =>
    simp only [step, EventJournal.readAfter_of_records h.records] at hstep
    by_cases hfuture : r.lastSeen > r.journal.sequence
    · simp only [if_pos hfuture, some.injEq] at hstep
      exact hstep ▸ h
    · by_cases hgap : r.lastSeen < r.committed.length - r.journal.capacity
      · simp only [if_neg hfuture, if_pos hgap, some.injEq] at hstep
        exact hstep ▸ h
      · simp only [if_neg hfuture, if_neg hgap, some.injEq] at hstep
        exact hstep ▸ h.read (max limit 1)

/-- What a read from position `after` reports, in terms of what was committed. -/
theorem readAfter_outcomes (h : j.Records committed) (after limit : Nat) :
    ((∃ earliest, j.readAfter j.epoch after limit = .error (.gap after earliest j.position)) ↔
        ∃ e ∈ committed, e.sequence = after + 1 ∧ e ∉ j.events) ∧
      (j.readAfter j.epoch after limit = .error (.futureSequence after j.position) ↔
        after > j.sequence) ∧
      (after ≤ j.sequence → (∀ e ∈ committed, e.sequence = after + 1 → e ∈ j.events) →
        j.readAfter j.epoch after limit = .ok ((committed.drop after).take (max limit 1))) := by
  have hseq := h.sequence_eq
  have hevicted : (∃ e ∈ committed, e.sequence = after + 1 ∧ e ∉ j.events)
      ↔ after < committed.length - j.capacity := by
    constructor
    · rintro ⟨e, he, hnum, hout⟩
      rw [h.retained, h.mem_drop_iff, not_and] at hout
      have := hout he
      omega
    · intro hlt
      have hidx : after < committed.length := by omega
      have hmem := getElem_mem hidx
      have hplace := h.getElem?_of_mem hmem
      have hnum : (committed[after]).sequence = after + 1 := by
        have hnd := h.numbered
        have hget := congrArg (fun l => l[after]?) hnd
        simp only [List.getElem?_map, List.getElem?_eq_getElem hidx,
          List.getElem?_range' hidx, map_some, some.injEq] at hget
        omega
      refine ⟨committed[after], hmem, hnum, ?_⟩
      rw [h.retained, h.mem_drop_iff, hnum]
      omega
  rw [EventJournal.readAfter_of_records h]
  refine ⟨?_, ?_, ?_⟩
  · rw [hevicted]
    split
    · simp only [Except.error.injEq, reduceCtorEq, exists_false, false_iff]
      omega
    · split
      · rename_i hgap
        simp [hgap]
      · rename_i hgap
        simp [hgap]
  · split
    · rename_i hfuture
      simp [hfuture]
    · rename_i hfuture
      split <;> simp [hfuture]
  · intro hpast hkept
    have hgap : ¬ after < committed.length - j.capacity := by
      rw [← hevicted]
      rintro ⟨e, he, hnum, hout⟩
      exact hout (hkept e he hnum)
    rw [if_neg (by omega), if_neg hgap]

/-- **Exact delivery.** In every interleaving of commits and reads, the journal holds the last
`min capacity committed` events, and a reader that started at `first` has been given exactly
the committed events after `first`, in order, up to the last one it saw. A read reports a gap
exactly when the next event was committed and evicted, a future sequence exactly when the
reader is ahead of the journal, and the next events otherwise. -/
theorem follows_exact_delivery (epoch : String) (capacity first : Nat) (ops : List JournalOp)
    (r : ReaderRun)
    (hrun : Lib.exec step (start epoch capacity first) ops = some r) :
    r.delivered = (r.committed.drop first).take (r.lastSeen - first) ∧
      first ≤ r.lastSeen ∧ (r.lastSeen = first ∨ r.lastSeen ≤ r.committed.length) ∧
      r.committed.map sequence = List.range' 1 r.committed.length ∧
      r.journal.events = r.committed.drop (r.committed.length - r.journal.capacity) ∧
      r.journal.events.length = min r.journal.capacity r.committed.length ∧
      ∀ after limit : Nat,
        ((∃ earliest, r.journal.readAfter r.journal.epoch after limit
            = .error (.gap after earliest r.journal.position)) ↔
          ∃ e ∈ r.committed, e.sequence = after + 1 ∧ e ∉ r.journal.events) ∧
        (r.journal.readAfter r.journal.epoch after limit
            = .error (.futureSequence after r.journal.position) ↔
          after > r.journal.sequence) ∧
        (after ≤ r.journal.sequence →
          (∀ e ∈ r.committed, e.sequence = after + 1 → e ∈ r.journal.events) →
          r.journal.readAfter r.journal.epoch after limit
            = .ok ((r.committed.drop after).take (max limit 1))) := by
  have h : Follows first r :=
    Lib.exec_invariant (fun _ _ _ => step_follows) (follows_start epoch capacity first) hrun
  exact ⟨h.delivered_eq, h.first_le, h.lastSeen_le, h.records.numbered, h.records.retained,
    h.records.length_events, fun after limit => readAfter_outcomes h.records after limit⟩

/-- A capacity-two journal, three commits and a reader that took one event before the last of
them. -/
theorem follows_exact_delivery_small :
    ∃ r : ReaderRun,
      Lib.exec step (start "epoch-a" 2 0)
          [.commit .tabCreated (some 7) none none .null, .read 1,
            .commit .tabSelected (some 7) none none .null,
            .commit .tabClosed (some 7) none none .null] = some r ∧
        r.delivered = (r.committed.drop 0).take (r.lastSeen - 0) ∧
        r.delivered.length = 1 ∧ r.journal.events.length = 2 := by
  refine ⟨_, rfl, ?_, rfl, rfl⟩
  exact (follows_exact_delivery "epoch-a" 2 0
    [.commit .tabCreated (some 7) none none .null, .read 1,
      .commit .tabSelected (some 7) none none .null,
      .commit .tabClosed (some 7) none none .null] _ rfl).1

end ReaderRun

end Agenterm
