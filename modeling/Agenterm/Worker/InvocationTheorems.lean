import Agenterm.Worker.BrokerSlotTheorems

/-!
# Invocations, cancels and responses

What the reading loop and the threads say to each other reaches the one it names: `Heeded` is about
cancel frames, `Addressed` about broker responses. The main result is
`invocations_answered_once`.
-/

namespace Agenterm.Worker

open Lib List Option

variable {events : List WorkerEvent} {frameId invocationId requestId : String} {i j : Nat}
  {response : BrokerResponse} {thread thread' : Thread} {writes : Bool}

namespace FramedWorker

variable {fits : ScriptFrame → Bool} {worker worker' : FramedWorker} {event : WorkerEvent}

/-! ## Events of threads -/

/-- A thread that has not ended goes on under the same id, with the same flag. -/
structure Continues (thread thread' : Thread) : Prop where
  alive : thread.point ≠ .done
  invocationId : thread'.invocationId = thread.invocationId
  cancelled : thread'.cancelled = thread.cancelled

/-- The worker after an event of a thread. A request that is put into the slot is under its id. -/
structure Goes (worker worker' : FramedWorker) (i : Nat) (thread thread' : Thread) : Prop where
  before : worker.threads[i]? = some thread
  after : worker'.threads = worker.threads.set i thread'
  continues : Continues thread thread'
  reader : worker'.reader = worker.reader
  cancels : worker'.cancels = worker.cancels
  delivered : worker'.delivered = worker.delivered
  pending (pending : PendingBroker) : worker'.pendingBroker = some pending →
    worker.pendingBroker = some pending ∨
      pending.requestId = brokerRequestId pending.sender.sequence

lemma goes_withThread (hthread : worker.threads[i]? = some thread) (h : Continues thread thread') :
    worker.Goes (worker.withThread i thread') i thread thread' :=
  ⟨hthread, rfl, h, rfl, rfl, rfl, fun _ hpending => .inl hpending⟩

lemma alive_of_point {point : ThreadPoint} (hpoint : thread.point = point)
    (halive : point ≠ .done) : thread.point ≠ .done := hpoint ▸ halive

lemma continues_call {request : BrokerRequest} (h : call thread request = some thread') :
    Continues thread thread' := by
  unfold call at h
  split at h
  · injection h
  rename_i hengine
  have hpoint : thread.point = .engine := not_not.mp fun hne => hengine (.inl hne)
  have halive := alive_of_point hpoint (by intro hdone; injection hdone)
  split at h
  all_goals
    rw [← some.inj h]
    exact ⟨halive, rfl, rfl⟩

lemma continues_finish {exitClass : ExitClass} {failure : Option ScriptFailure} {body : String}
    (h : finish thread exitClass failure body = some thread') : Continues thread thread' := by
  unfold finish at h
  split at h
  · injection h
  rename_i hengine
  rw [← some.inj h]
  exact ⟨alive_of_point (not_not.mp hengine) (by intro hdone; injection hdone), rfl, rfl⟩

lemma continues_receive (h : receive thread = some thread') : Continues thread thread' := by
  unfold receive at h
  split at h
  · rename_i hpoint _
    rw [← some.inj h]
    exact ⟨alive_of_point hpoint (by intro hdone; injection hdone), rfl, rfl⟩
  · injection h

lemma continues_timeout {expired : Bool} (h : timeout thread expired = some thread') :
    Continues thread thread' := by
  unfold timeout at h
  split at h
  · rename_i hpoint _
    have halive := alive_of_point hpoint (by intro hdone; injection hdone)
    split at h
    · rw [← some.inj h]
      exact ⟨halive, rfl, rfl⟩
    split at h
    · rw [← some.inj h]
      exact ⟨halive, rfl, rfl⟩
    · rw [← some.inj h]
      exact ⟨halive, rfl, rfl⟩
  · injection h

lemma continues_disconnected (h : worker.disconnected i thread = some thread') :
    Continues thread thread' := by
  unfold disconnected at h
  split at h
  · rename_i hpoint _
    split at h
    · injection h
    · rw [← some.inj h]
      exact ⟨alive_of_point hpoint (by intro hdone; injection hdone), rfl, rfl⟩
  · injection h

lemma goes_onThread {change : Thread → Option Thread}
    (hcontinues : ∀ thread thread', change thread = some thread' → Continues thread thread')
    (h : worker.onThread i change = some worker') :
    ∃ i thread thread', worker.Goes worker' i thread thread' := by
  obtain ⟨thread, thread', hthread, hchange, rfl⟩ := onThread_eq_some h
  exact ⟨i, thread, thread', goes_withThread hthread (hcontinues thread thread' hchange)⟩

/-- An event of a thread changes that thread; the reader and what was delivered stay. -/
lemma goes_advance (hthread : worker.threads[i]? = some thread)
    (h : worker.advanceThread fits i thread writes = some worker') :
    ∃ i thread thread', worker.Goes worker' i thread thread' := by
  unfold advanceThread at h
  split at h
  · rename_i request hpoint
    have halive := alive_of_point hpoint (by intro hdone; injection hdone)
    rw [← some.inj h]
    unfold register
    split
    · exact ⟨i, thread, _, goes_withThread hthread ⟨halive, rfl, rfl⟩⟩
    · refine ⟨i, thread, _, hthread, rfl, ⟨halive, rfl, rfl⟩, rfl, rfl, rfl, ?_⟩
      intro pending hpending
      rw [← some.inj hpending]
      exact .inr rfl
  · rename_i request hpoint
    have halive := alive_of_point hpoint (by intro hdone; injection hdone)
    rw [← some.inj h]
    unfold send
    split
    · rename_i after hwrite
      obtain ⟨-, written, -, rfl⟩ := write_eq_some hwrite
      exact ⟨i, thread, _, hthread, rfl, ⟨halive, rfl, rfl⟩, rfl, rfl, rfl,
        fun _ hpending => .inl hpending⟩
    · exact ⟨i, thread, _, goes_withThread hthread ⟨halive, rfl, rfl⟩⟩
  · rename_i error hpoint
    have halive := alive_of_point hpoint (by intro hdone; injection hdone)
    rw [← some.inj h]
    exact ⟨i, thread, _, hthread, rfl, ⟨halive, rfl, rfl⟩, rfl, rfl, rfl,
      fun _ hpending => by injection hpending⟩
  · rename_i result hpoint
    have halive := alive_of_point hpoint (by intro hdone; injection hdone)
    split at h
    · injection h
    rw [← some.inj h]
    exact ⟨i, thread, _, hthread, rfl, ⟨halive, rfl, rfl⟩, rfl, rfl, rfl,
      fun _ hpending => .inl hpending⟩
  · rename_i result hpoint
    have halive := alive_of_point hpoint (by intro hdone; injection hdone)
    rw [← some.inj h]
    cases hwrite : worker.write fits (.result thread.number) (resultFrame thread.frameId result)
        writes with
    | some after =>
      obtain ⟨-, written, -, rfl⟩ := write_eq_some hwrite
      exact ⟨i, thread, _, hthread, rfl, ⟨halive, rfl, rfl⟩, rfl, rfl, rfl,
        fun _ hpending => .inl hpending⟩
    | none => exact ⟨i, thread, _, goes_withThread hthread ⟨halive, rfl, rfl⟩⟩
  · rename_i hpoint
    have halive := alive_of_point hpoint (by intro hdone; injection hdone)
    rw [← some.inj h]
    exact ⟨i, thread, _, hthread, rfl, ⟨halive, rfl, rfl⟩, rfl, rfl, rfl,
      fun _ hpending => .inl hpending⟩
  · rename_i hpoint
    have halive := alive_of_point hpoint (by intro hdone; injection hdone)
    rw [← some.inj h]
    exact ⟨i, thread, _, hthread, rfl, ⟨halive, rfl, rfl⟩, rfl, rfl, rfl,
      fun _ hpending => .inl hpending⟩
  all_goals injection h

/-- An event is one of the reading loop or of a thread. -/
lemma step_cases (h : worker.step fits event = some worker') :
    (∃ input, worker.read input = some worker') ∨
      (∃ writes, worker.advanceReader fits writes = some worker') ∨
        ∃ i thread thread', worker.Goes worker' i thread thread' := by
  cases event with
  | read input => exact .inl ⟨input, h⟩
  | reader writes => exact .inr (.inl ⟨writes, h⟩)
  | call i request => exact .inr (.inr (goes_onThread (fun _ _ => continues_call) h))
  | finish i exitClass failure body =>
    exact .inr (.inr (goes_onThread (fun _ _ => continues_finish) h))
  | receive i => exact .inr (.inr (goes_onThread (fun _ _ => continues_receive) h))
  | timeout i expired => exact .inr (.inr (goes_onThread (fun _ _ => continues_timeout) h))
  | disconnected i => exact .inr (.inr (goes_onThread (fun _ _ => continues_disconnected) h))
  | advance i writes =>
    obtain ⟨thread, hthread, hadvance⟩ := bind_eq_some_iff.mp h
    exact .inr (.inr (goes_advance hthread hadvance))

/-- A thread after an event of a thread: the one that went on, or one that did not. -/
lemma Goes.thread_cases {other : Thread} (h : worker.Goes worker' i thread thread')
    (hother : worker'.threads[j]? = some other) :
    ∃ old, worker.threads[j]? = some old ∧ other.invocationId = old.invocationId ∧
      other.cancelled = old.cancelled ∧ (other.point ≠ .done → old.point ≠ .done) := by
  rw [h.after] at hother
  rcases getElem?_set_cases hother with ⟨rfl, rfl⟩ | ⟨-, hother⟩
  · exact ⟨thread, h.before, h.continues.invocationId, h.continues.cancelled,
      fun _ => h.continues.alive⟩
  · exact ⟨other, hother, rfl, rfl, fun halive => halive⟩

/-- Every thread is still there. -/
lemma Goes.thread_kept {old : Thread} (h : worker.Goes worker' i thread thread')
    (hold : worker.threads[j]? = some old) :
    ∃ other, worker'.threads[j]? = some other ∧ other.invocationId = old.invocationId ∧
      other.cancelled = old.cancelled := by
  rw [h.after]
  by_cases hj : j = i
  · subst hj
    obtain rfl := some.inj (h.before.symm.trans hold)
    exact ⟨thread', getElem?_set_of_some hold _, h.continues.invocationId, h.continues.cancelled⟩
  · exact ⟨old, (List.getElem?_set_ne (Ne.symm hj)).trans hold, rfl, rfl⟩

/-! ## Cancels -/

/-- The loop is about to set the flag of this thread. -/
def heeds (reader : ReaderPoint) (i : Nat) : Prop :=
  (∃ frameId invocationId, reader = .classifying frameId invocationId (some (invocationId, i))) ∨
    reader = .raising i

/-- Every cancel frame that named the active invocation sets the flag of its thread, and no other
flag is set until the owner is lost. -/
structure Heeded (worker : FramedWorker) : Prop where
  named (invocationId : String) (i : Nat) : (invocationId, some i) ∈ worker.cancels →
    ∃ thread, worker.threads[i]? = some thread ∧ thread.invocationId = invocationId ∧
      (thread.cancelled = true ∨ heeds worker.reader i)
  raised (i : Nat) (thread : Thread) : worker.threads[i]? = some thread →
    thread.cancelled = true →
      worker.reader = .joining true ∨ (thread.invocationId, some i) ∈ worker.cancels
  heeding (i : Nat) : heeds worker.reader i →
    ∃ invocationId, (invocationId, some i) ∈ worker.cancels

lemma heeded_start : start.Heeded where
  named _ _ hmem := absurd hmem not_mem_nil
  raised _ _ hthread := by injection hthread
  heeding i hheeds := by
    rcases hheeds with ⟨_, _, hreader⟩ | hreader
    · injection hreader
    · injection hreader

lemma activeThread_eq_some :
    worker.activeThread invocationId = some i ↔ worker.active = some (invocationId, i) := by
  unfold activeThread
  split
  · rename_i activeId j hactive
    rw [hactive]
    split
    · rename_i hid
      rw [some.injEq, some.injEq, Prod.mk.injEq]
      exact ⟨fun hj => ⟨hid, hj⟩, fun h => h.2⟩
    · rename_i hid
      rw [some.injEq, Prod.mk.injEq]
      exact ⟨fun hnone => by injection hnone, fun h => absurd h.1 hid⟩
  · rename_i hactive
    rw [hactive]
    exact ⟨fun hnone => by injection hnone, fun hnone => by injection hnone⟩

/-- The loop goes on with something else than cancels, or is done with the input. -/
lemma Heeded.quiet (h : worker.Heeded) (hthreads : worker'.threads = worker.threads)
    (hcancels : worker'.cancels = worker.cancels) (hbefore : ∀ i, ¬ heeds worker.reader i)
    (hafter : ∀ i, ¬ heeds worker'.reader i) (hjoining : worker.reader ≠ .joining true) :
    worker'.Heeded where
  named invocationId i hmem := by
    rw [hcancels] at hmem
    obtain ⟨thread, hthread, hid, hraised | hheeds⟩ := h.named invocationId i hmem
    · rw [hthreads]
      exact ⟨thread, hthread, hid, .inl hraised⟩
    · exact absurd hheeds (hbefore i)
  raised i thread hthread hcancelled := by
    rw [hthreads] at hthread
    rw [hcancels]
    rcases h.raised i thread hthread hcancelled with hreader | hmem
    · exact absurd hreader hjoining
    · exact .inr hmem
  heeding i hheeds := absurd hheeds (hafter i)

/-- Places of the loop that are not about cancels. -/
def ReaderPoint.aside : ReaderPoint → Bool
  | .classifying .. | .raising _ | .joining true => false
  | _ => true

lemma not_heeds_of_aside {reader : ReaderPoint} (h : ReaderPoint.aside reader = true) (i : Nat) :
    ¬ heeds reader i := by
  rintro (⟨_, _, rfl⟩ | rfl)
  · injection h
  · injection h

/-- The loop goes from one such place to another. -/
lemma Heeded.aside (h : worker.Heeded) {before : ReaderPoint} (hreader : worker.reader = before)
    (hthreads : worker'.threads = worker.threads) (hcancels : worker'.cancels = worker.cancels)
    (hbefore : ReaderPoint.aside before = true)
    (hafter : ReaderPoint.aside worker'.reader = true) : worker'.Heeded := by
  refine h.quiet hthreads hcancels ?_ (not_heeds_of_aside hafter) ?_
  · rw [hreader]
    exact not_heeds_of_aside hbefore
  · rw [hreader]
    rintro rfl
    injection hbefore

lemma Goes.heeded (hgoes : worker.Goes worker' i thread thread') (h : worker.Heeded) :
    worker'.Heeded where
  named invocationId j hmem := by
    rw [hgoes.cancels] at hmem
    obtain ⟨old, hold, hid, hraised⟩ := h.named invocationId j hmem
    obtain ⟨other, hother, hsame, hflag⟩ := hgoes.thread_kept hold
    rw [hgoes.reader]
    exact ⟨other, hother, hsame.trans hid, by rwa [hflag]⟩
  raised j other hother hcancelled := by
    obtain ⟨old, hold, hid, hflag, -⟩ := hgoes.thread_cases hother
    rw [hgoes.reader, hgoes.cancels, hid]
    exact h.raised j old hold (hflag ▸ hcancelled)
  heeding j hheeds := by
    rw [hgoes.cancels]
    exact h.heeding j (hgoes.reader ▸ hheeds)

/-- The threads after a flag was set. -/
lemma raise_cases (hthread : (worker.raise i).threads[j]? = some thread) : ∃ old,
      worker.threads[j]? = some old ∧ thread.invocationId = old.invocationId ∧
        (thread.point = old.point) ∧
          (thread.cancelled = true → old.cancelled = true ∨ j = i) := by
  unfold raise at hthread
  split at hthread
  · rename_i old hold
    rcases getElem?_set_cases hthread with ⟨rfl, rfl⟩ | ⟨-, hthread⟩
    · exact ⟨old, hold, rfl, rfl, fun _ => .inr rfl⟩
    · exact ⟨thread, hthread, rfl, rfl, .inl⟩
  · exact ⟨thread, hthread, rfl, rfl, .inl⟩

lemma raise_kept {old : Thread} (hold : worker.threads[j]? = some old) :
    ∃ thread, (worker.raise i).threads[j]? = some thread ∧
      thread.invocationId = old.invocationId ∧ (old.cancelled = true ∨ j = i →
        thread.cancelled = true) := by
  unfold raise
  by_cases hj : j = i
  · subst hj
    rw [hold]
    exact ⟨_, getElem?_set_of_some hold _, rfl, fun _ => rfl⟩
  · have hcancelled (h : old.cancelled = true ∨ j = i) : old.cancelled = true :=
      h.resolve_right hj
    split
    · exact ⟨old, (List.getElem?_set_ne (Ne.symm hj)).trans hold, rfl, hcancelled⟩
    · exact ⟨old, hold, rfl, hcancelled⟩

lemma raise_cancels (worker : FramedWorker) (i : Nat) : (worker.raise i).cancels = worker.cancels := by
  unfold raise
  split
  · rfl
  · rfl

/-- The flag is set, and the loop is idle. -/
lemma heeded_raised (h : worker.Heeded) (hreader : worker.reader = .raising i) :
    ({ worker.raise i with reader := .idle } : FramedWorker).Heeded := by
  have hothers : ∀ j, heeds worker.reader j → j = i := by
    rintro j (⟨_, _, hnot⟩ | hsame)
    · rw [hreader] at hnot
      injection hnot
    · rw [hreader] at hsame
      injection hsame with hsame
      exact hsame.symm
  refine ⟨?_, ?_, ?_⟩
  · intro invocationId j hmem
    have hold : (invocationId, some j) ∈ worker.cancels := raise_cancels worker i ▸ hmem
    obtain ⟨old, hthread, hid, hraised⟩ := h.named invocationId j hold
    obtain ⟨thread, hthread', hid', hflag⟩ := raise_kept (i := i) hthread
    exact ⟨thread, hthread', hid'.trans hid, .inl (hflag (hraised.imp_right (hothers j)))⟩
  · intro j thread hthread hcancelled
    obtain ⟨old, hold, hid, -, hflag⟩ := raise_cases hthread
    refine .inr ?_
    show _ ∈ (worker.raise i).cancels
    rw [raise_cancels, hid]
    rcases hflag hcancelled with hcancelled | rfl
    · rcases h.raised j old hold hcancelled with hnot | hmem
      · rw [hreader] at hnot
        injection hnot
      · exact hmem
    · obtain ⟨invocationId, hmem⟩ := h.heeding j (.inr hreader)
      obtain ⟨named, hnamed, hid', -⟩ := h.named invocationId j hmem
      obtain rfl := some.inj (hold.symm.trans hnamed)
      rw [hid']
      exact hmem
  · rintro j (⟨_, _, hnot⟩ | hnot)
    · injection hnot
    · injection hnot

/-- The owner is lost. -/
lemma heeded_eof (h : worker.Heeded) (hidle : worker.reader = .idle) : worker.eof.Heeded := by
  have hnothing : ∀ i, ¬ heeds (.joining true) i := by
    rintro i (⟨_, _, hnot⟩ | hnot)
    · injection hnot
    · injection hnot
  have hidle' (i : Nat) : ¬ heeds worker.reader i := by
    rw [hidle]
    exact not_heeds_of_aside rfl i
  unfold eof
  split
  · rename_i i hactive
    refine ⟨?_, fun _ _ _ _ => .inl rfl, fun j hheeds => absurd hheeds (hnothing j)⟩
    intro invocationId j hmem
    have hold : (invocationId, some j) ∈ worker.cancels := raise_cancels worker i ▸ hmem
    obtain ⟨old, hthread, hid, hraised⟩ := h.named invocationId j hold
    obtain ⟨thread, hthread', hid', hflag⟩ := raise_kept (i := i) hthread
    have hcancelled := hraised.resolve_right (hidle' j)
    exact ⟨thread, hthread', hid'.trans hid, .inl (hflag (.inl hcancelled))⟩
  · refine ⟨?_, fun _ _ _ _ => .inl rfl, fun j hheeds => absurd hheeds (hnothing j)⟩
    intro invocationId j hmem
    obtain ⟨old, hthread, hid, hraised⟩ := h.named invocationId j hmem
    exact ⟨old, hthread, hid, .inl (hraised.resolve_right (hidle' j))⟩

/-- What is active is looked up for a cancel frame. -/
lemma heeded_cancelling (h : worker.Heeded) (horderly : worker.roster.Orderly)
    (hreader : worker.reader = .cancelling frameId invocationId) :
    ({ worker with
      reader := .classifying frameId invocationId worker.active
      cancels := worker.cancels ++ [(invocationId, worker.activeThread invocationId)] } :
        FramedWorker).Heeded := by
  have hnothing (i : Nat) : ¬ heeds worker.reader i := by
    rw [hreader]
    exact not_heeds_of_aside rfl i
  refine ⟨?_, ?_, ?_⟩
  · intro id i hmem
    rcases mem_append.mp hmem with hold | hnew
    · obtain ⟨old, hthread, hid, hraised⟩ := h.named id i hold
      exact ⟨old, hthread, hid, .inl (hraised.resolve_right (hnothing i))⟩
    · obtain ⟨rfl, hthread⟩ := Prod.mk.inj (mem_singleton.mp hnew)
      have hactive : worker.active = some (id, i) := activeThread_eq_some.mp hthread.symm
      obtain ⟨entry, hentry, hlive⟩ := horderly.active id i hactive
      have halone := horderly.alone i entry hentry hlive
      obtain ⟨thread, hthread, rfl⟩ : ∃ thread, worker.threads[i]? = some thread ∧
          thread.entry = entry := by
        have hmap : (worker.threads.map Thread.entry)[i]? = some entry := hentry
        rw [List.getElem?_map] at hmap
        exact map_eq_some_iff.mp hmap
      refine ⟨thread, hthread, ?_, .inr (.inl ⟨frameId, id, ?_⟩)⟩
      · have hsame : worker.active = some (thread.invocationId, i) := halone
        rw [hactive] at hsame
        exact (Prod.mk.inj (some.inj hsame)).1.symm
      · rw [hactive]
  · intro i thread hthread hcancelled
    rcases h.raised i thread hthread hcancelled with hnot | hmem
    · rw [hreader] at hnot
      injection hnot
    · exact .inr (mem_append_left _ hmem)
  · rintro i (⟨f, id, hclassifying⟩ | hnot)
    · injection hclassifying with hframe hid hactive
      refine ⟨invocationId, mem_append_right _ ?_⟩
      rw [activeThread_eq_some.mpr (hid ▸ hactive)]
      exact mem_singleton_self _
    · injection hnot

/-- A cancel frame for what was active sets a flag; any other one is answered. -/
lemma classify_cases (worker : FramedWorker) (frameId invocationId : String)
    (active : Option (String × Nat)) :
    (∃ i, active = some (invocationId, i) ∧ worker.classify frameId invocationId active =
      { worker with reader := .raising i }) ∨
    ((∀ i, active ≠ some (invocationId, i)) ∧ ∃ frame,
      worker.classify frameId invocationId active =
        { worker with reader := .writing frame false }) := by
  have hrejected (hnot : active.map Prod.fst ≠ some invocationId) : ∃ frame,
      worker.classify frameId invocationId active =
        { worker with reader := .writing frame false } := by
    unfold classify CancelDisposition.classify
    dsimp only
    rw [if_neg hnot]
    cases decide (invocationId ∈ worker.completed) with
    | true => exact ⟨_, rfl⟩
    | false => exact ⟨_, rfl⟩
  rcases active with _ | ⟨activeId, i⟩
  · exact .inr ⟨fun i hnot => by injection hnot, hrejected (by intro hnot; injection hnot)⟩
  · by_cases hid : activeId = invocationId
    · subst hid
      refine .inl ⟨i, rfl, ?_⟩
      unfold classify CancelDisposition.classify
      rw [map_some, if_pos rfl]
      rfl
    · refine .inr ⟨fun j hj => hid (Prod.mk.inj (some.inj hj)).1, hrejected ?_⟩
      intro hsame
      exact hid (some.inj hsame)

/-- A cancel frame is classified by what was active. -/
lemma heeded_classify (h : worker.Heeded) {active : Option (String × Nat)}
    (hreader : worker.reader = .classifying frameId invocationId active) :
    (worker.classify frameId invocationId active).Heeded := by
  -- a flag that is to be set is that of the thread that is raised next
  have hraising (next : ReaderPoint) (hnext : ∀ i, active = some (invocationId, i) →
      heeds next i) (hback : ∀ i, heeds next i → active = some (invocationId, i)) :
      ({ worker with reader := next } : FramedWorker).Heeded := by
    have hactive (i : Nat) (hheeds : heeds worker.reader i) : active = some (invocationId, i) := by
      rcases hheeds with ⟨f, id, hclassifying⟩ | hnot
      · rw [hreader] at hclassifying
        injection hclassifying with hframe hid hactive
        rw [hactive, hid]
      · rw [hreader] at hnot
        injection hnot
    refine ⟨?_, ?_, ?_⟩
    · intro id i hmem
      obtain ⟨thread, hthread, hid, hraised⟩ := h.named id i hmem
      exact ⟨thread, hthread, hid, hraised.imp_right fun hheeds => hnext i (hactive i hheeds)⟩
    · intro i thread hthread hcancelled
      rcases h.raised i thread hthread hcancelled with hnot | hmem
      · rw [hreader] at hnot
        injection hnot
      · exact .inr hmem
    · intro i hheeds
      refine h.heeding i (.inl ⟨frameId, invocationId, ?_⟩)
      rw [hreader, hback i hheeds]
  rcases classify_cases worker frameId invocationId active with
    ⟨i, hactive, hclassify⟩ | ⟨hnot, frame, hclassify⟩
  · rw [hclassify]
    refine hraising (.raising i) ?_ ?_
    · intro j hj
      rw [hactive] at hj
      obtain rfl := (Prod.mk.inj (some.inj hj)).2
      exact .inr rfl
    · rintro j (⟨_, _, hnot⟩ | hsame)
      · injection hnot
      · injection hsame with hsame
        rw [hactive, hsame]
  · rw [hclassify]
    refine hraising (.writing frame false) (fun i hactive => absurd hactive (hnot i)) ?_
    rintro j (⟨_, _, hnot⟩ | hnot)
    · injection hnot
    · injection hnot

lemma Heeded.writeOr (h : worker.Heeded) {before next : ReaderPoint} {cause : Cause}
    {frame : ScriptFrame} (hreader : worker.reader = before)
    (hbefore : ReaderPoint.aside before = true) (hnext : ReaderPoint.aside next = true) :
    (worker.writeOr fits cause frame writes next).Heeded := by
  unfold FramedWorker.writeOr
  split
  · rename_i after hwrite
    obtain ⟨-, written, -, rfl⟩ := write_eq_some hwrite
    exact h.aside hreader rfl rfl hbefore hnext
  · exact h.aside hreader rfl rfl hbefore rfl

/-- A thread is started, without a flag. -/
lemma Heeded.spawn (h : worker.Heeded) {number : Nat} {invocation : ScriptInvocation}
    (hreader : worker.reader = .invoking number frameId invocation) :
    (worker.spawn number frameId invocation).Heeded := by
  refine ⟨?_, ?_, ?_⟩
  · intro invocationId i hmem
    obtain ⟨thread, hthread, hid, hraised⟩ := h.named invocationId i hmem
    have hnot : ¬ heeds worker.reader i := by
      rw [hreader]
      exact not_heeds_of_aside rfl i
    exact ⟨thread, getElem?_concat_of_some hthread _, hid, .inl (hraised.resolve_right hnot)⟩
  · intro i thread hthread hcancelled
    rcases getElem?_concat_cases hthread with hold | ⟨-, rfl⟩
    · rcases h.raised i thread hold hcancelled with hnot | hmem
      · rw [hreader] at hnot
        injection hnot
      · exact .inr hmem
    · injection hcancelled
  · intro i hheeds
    exact absurd hheeds (not_heeds_of_aside rfl i)

/-- The reader keeps the flags to what the cancel frames name. -/
lemma heeded_reader (h : worker.Heeded) (horderly : worker.roster.Orderly)
    (hstep : worker.advanceReader fits writes = some worker') : worker'.Heeded := by
  unfold advanceReader at hstep
  split at hstep
  · rename_i frame stop hreader
    rw [← some.inj hstep]
    cases stop with
    | true => exact h.writeOr hreader rfl rfl
    | false => exact h.writeOr hreader rfl rfl
  · rename_i number frameId invocation hreader
    split at hstep
    · injection hstep
    split at hstep
    · rw [← some.inj hstep]
      exact h.aside hreader rfl rfl rfl rfl
    · rw [← some.inj hstep]
      exact h.spawn hreader
  · rename_i number frameId invocationId hreader
    rw [← some.inj hstep]
    have hwritten : (worker.writeOr fits (.busy number) (busyFrame frameId invocationId) writes
      .idle).Heeded := h.writeOr hreader rfl rfl
    exact ⟨hwritten.named, hwritten.raised, hwritten.heeding⟩
  · rename_i frameId invocationId hreader
    split at hstep
    · injection hstep
    · rw [← some.inj hstep]
      exact heeded_cancelling h horderly hreader
  · rename_i frameId invocationId active hreader
    rw [← some.inj hstep]
    exact heeded_classify h hreader
  · rename_i i hreader
    rw [← some.inj hstep]
    exact heeded_raised h hreader
  · rename_i frameId invocationId requestId response hreader
    split at hstep
    · injection hstep
    · rw [← some.inj hstep]
      exact h.aside hreader rfl rfl rfl rfl
  · rename_i frameId invocationId requestId response activeMatches hreader
    rw [← some.inj hstep]
    unfold take
    split
    · split
      · exact h.aside hreader rfl rfl rfl rfl
      · exact h.aside hreader rfl rfl rfl rfl
    · exact h.aside hreader rfl rfl rfl rfl
  · rename_i invocationId requestId response sender hreader
    rw [← some.inj hstep]
    have hidle : ({ worker with reader := .idle } : FramedWorker).Heeded :=
      h.aside hreader rfl rfl rfl rfl
    unfold deliver
    split
    · rename_i thread hthread
      split
      · -- of the thread, only what it hears changes
        refine ⟨?_, ?_, hidle.heeding⟩
        · intro id i hmem
          obtain ⟨old, hold, hid, hraised⟩ := hidle.named id i hmem
          by_cases hi : i = sender.thread
          · subst hi
            obtain rfl := some.inj (hthread.symm.trans hold)
            exact ⟨_, getElem?_set_of_some hold _, hid, hraised⟩
          · exact ⟨old, (List.getElem?_set_ne (Ne.symm hi)).trans hold, hid, hraised⟩
        · intro i other hother hcancelled
          rcases getElem?_set_cases hother with ⟨rfl, rfl⟩ | ⟨-, hother⟩
          · exact hidle.raised sender.thread thread hthread hcancelled
          · exact hidle.raised i other hother hcancelled
      · exact hidle
    · exact hidle
  · rename_i frameId invocationId pending hreader
    rw [← some.inj hstep]
    exact h.aside hreader rfl rfl rfl rfl
  all_goals injection hstep

lemma heeded_dispatch (h : worker.Heeded) (hidle : worker.reader = .idle) (frame : ScriptFrame) :
    (worker.dispatch frame).Heeded := by
  unfold dispatch
  split
  all_goals exact h.aside hidle rfl rfl rfl rfl

lemma heeded_read (h : worker.Heeded) {input : FrameRead}
    (hread : worker.read input = some worker') : worker'.Heeded := by
  unfold read at hread
  split at hread
  · injection hread
  rename_i hidle
  have hidle : worker.reader = .idle := not_not.mp hidle
  split at hread
  · split at hread
    · injection hread
    · rw [← some.inj hread]
      exact heeded_eof h hidle
  · rw [← some.inj hread]
    exact h.aside hidle rfl rfl rfl rfl
  · split at hread
    · rw [← some.inj hread]
      exact heeded_dispatch h hidle _
    · split at hread
      · rename_i tracker hadmission
        rw [← some.inj hread]
        have htracked : ({ worker with tracker := tracker } : FramedWorker).Heeded :=
          ⟨h.named, h.raised, h.heeding⟩
        exact heeded_dispatch htracked hidle _
      · rw [← some.inj hread]
        exact h.aside hidle rfl rfl rfl rfl

lemma heeded_step (h : worker.Heeded) (horderly : worker.roster.Orderly)
    (hstep : worker.step fits event = some worker') : worker'.Heeded := by
  rcases step_cases hstep with ⟨input, hread⟩ | ⟨writes, hreader⟩ | ⟨i, thread, thread', hgoes⟩
  · exact heeded_read h hread
  · exact heeded_reader h horderly hreader
  · exact hgoes.heeded h

/-! ## Responses -/

/-- What is in the slot is under its id; a response that is about to be delivered names the active
invocation and the request; and so did those that were. -/
structure Addressed (worker : FramedWorker) : Prop where
  pending (pending : PendingBroker) : worker.pendingBroker = some pending →
    pending.requestId = brokerRequestId pending.sender.sequence
  puttingBack (frameId invocationId : String) (pending : PendingBroker) :
    worker.reader = .puttingBack frameId invocationId pending →
      pending.requestId = brokerRequestId pending.sender.sequence
  taking (frameId invocationId requestId : String) (response : BrokerResponse) :
    worker.reader = .taking frameId invocationId requestId response true →
      ∀ thread ∈ worker.threads, thread.point ≠ .done → thread.invocationId = invocationId
  delivering (invocationId requestId : String) (response : BrokerResponse) (sender : Sender) :
    worker.reader = .delivering invocationId requestId response sender →
      requestId = brokerRequestId sender.sequence ∧
        ∀ thread ∈ worker.threads, thread.point ≠ .done → thread.invocationId = invocationId
  delivered (delivery : Delivery) : delivery ∈ worker.delivered →
    delivery.active = some (delivery.invocationId, delivery.sender.thread) ∧
      delivery.outstanding = some delivery.sender ∧
        delivery.requestId = brokerRequestId delivery.sender.sequence

lemma addressed_start : start.Addressed where
  pending _ hpending := by injection hpending
  puttingBack _ _ _ hreader := by injection hreader
  taking _ _ _ _ hreader := by injection hreader
  delivering _ _ _ _ hreader := by injection hreader
  delivered _ hmem := absurd hmem not_mem_nil

/-- Places of the loop that are not about responses. -/
def ReaderPoint.elsewhere : ReaderPoint → Bool
  | .puttingBack .. | .taking .. | .delivering .. => false
  | _ => true

/-- The loop goes to a place that is not about responses. -/
lemma Addressed.elsewhere (h : worker.Addressed)
    (hpending : ∀ pending, worker'.pendingBroker = some pending →
      pending.requestId = brokerRequestId pending.sender.sequence)
    (hdelivered : worker'.delivered = worker.delivered)
    (hreader : ReaderPoint.elsewhere worker'.reader = true) : worker'.Addressed where
  pending := hpending
  puttingBack _ _ _ hnot := by
    rw [hnot] at hreader
    injection hreader
  taking _ _ _ _ hnot := by
    rw [hnot] at hreader
    injection hreader
  delivering _ _ _ _ hnot := by
    rw [hnot] at hreader
    injection hreader
  delivered delivery hmem := h.delivered delivery (hdelivered ▸ hmem)

lemma Goes.addressed (hgoes : worker.Goes worker' i thread thread') (h : worker.Addressed) :
    worker'.Addressed := by
  have hlive (invocationId : String)
      (hold : ∀ thread ∈ worker.threads, thread.point ≠ .done →
        thread.invocationId = invocationId) :
      ∀ thread ∈ worker'.threads, thread.point ≠ .done → thread.invocationId = invocationId := by
    intro other hother halive
    obtain ⟨j, hj⟩ := mem_iff_getElem?.mp hother
    obtain ⟨old, hget, hid, -, halive'⟩ := hgoes.thread_cases hj
    rw [hid]
    exact hold old (mem_of_getElem? hget) (halive' halive)
  refine ⟨?_, ?_, ?_, ?_, ?_⟩
  · intro pending hpending
    rcases hgoes.pending pending hpending with hold | hnamed
    · exact h.pending pending hold
    · exact hnamed
  · rw [hgoes.reader]
    exact h.puttingBack
  · rw [hgoes.reader]
    exact fun frameId invocationId requestId response hreader =>
      hlive invocationId (h.taking frameId invocationId requestId response hreader)
  · rw [hgoes.reader]
    intro invocationId requestId response sender hreader
    obtain ⟨hid, hold⟩ := h.delivering invocationId requestId response sender hreader
    exact ⟨hid, hlive invocationId hold⟩
  · rw [hgoes.delivered]
    exact h.delivered

lemma Addressed.writeOr (h : worker.Addressed) {cause : Cause} {frame : ScriptFrame}
    {next : ReaderPoint} (hnext : ReaderPoint.elsewhere next = true) :
    (worker.writeOr fits cause frame writes next).Addressed := by
  unfold FramedWorker.writeOr
  split
  · rename_i after hwrite
    obtain ⟨-, written, -, rfl⟩ := write_eq_some hwrite
    exact h.elsewhere h.pending rfl hnext
  · exact h.elsewhere h.pending rfl rfl

/-- Whoever is alive when a response names the active invocation is the one that it names. -/
lemma addressed_responding (h : worker.Addressed) (horderly : worker.roster.Orderly) :
    ({ worker with
      reader := .taking frameId invocationId requestId response
        (worker.activeThread invocationId).isSome } : FramedWorker).Addressed := by
  refine ⟨h.pending, fun _ _ _ hnot => by injection hnot, ?_, fun _ _ _ _ hnot => by injection hnot,
    h.delivered⟩
  intro f id rid resp htaking thread hthread halive
  injection htaking with _ hid _ _ hmatches
  obtain ⟨i, hactive⟩ := isSome_iff_exists.mp hmatches
  have hactive := activeThread_eq_some.mp hactive
  obtain ⟨j, hj⟩ := mem_iff_getElem?.mp hthread
  rw [active_of_live horderly hj halive] at hactive
  rw [← hid]
  exact (Prod.mk.inj (some.inj hactive)).1

lemma addressed_take (h : worker.Addressed) {activeMatches : Bool}
    (hreader : worker.reader = .taking frameId invocationId requestId response activeMatches) :
    (worker.take frameId invocationId requestId response activeMatches).Addressed := by
  unfold take
  split
  · rename_i pending hpending
    have hnamed := h.pending pending hpending
    split
    · rename_i hmatches
      refine ⟨fun _ hnot => by injection hnot, fun _ _ _ hnot => by injection hnot,
        fun _ _ _ _ hnot => by injection hnot, ?_, h.delivered⟩
      intro id rid resp sender hdelivering
      injection hdelivering with hid hrid hresp hsender
      refine ⟨?_, ?_⟩
      · rw [← hrid, ← hmatches.2, hnamed, hsender]
      · rw [← hid]
        rw [hmatches.1] at hreader
        exact h.taking frameId invocationId requestId response hreader
    · refine ⟨fun _ hnot => by injection hnot, ?_, fun _ _ _ _ hnot => by injection hnot,
        fun _ _ _ _ hnot => by injection hnot, h.delivered⟩
      intro f id other hback
      injection hback with hframe hid hsame
      rw [← hsame]
      exact hnamed
  · exact h.elsewhere h.pending rfl rfl

lemma addressed_deliver (h : worker.Addressed) (horderly : worker.roster.Orderly)
    {sender : Sender}
    (hreader : worker.reader = .delivering invocationId requestId response sender) :
    (worker.deliver invocationId requestId response sender).Addressed := by
  obtain ⟨hrequest, hlive⟩ := h.delivering invocationId requestId response sender hreader
  unfold deliver
  split
  · rename_i thread hthread
    split
    · rename_i hhears
      obtain ⟨hout, hsequence⟩ := hears_iff.mp hhears
      have halive := live_of_outstanding hout
      have hactive := active_of_live horderly hthread halive
      rw [hlive thread (mem_of_getElem? hthread) halive] at hactive
      have houtstanding : worker.outstandingCall = some sender := by
        unfold outstandingCall
        rw [hactive]
        dsimp only
        rw [hthread]
        dsimp only
        rw [hout, if_pos rfl, hsequence]
      refine ⟨h.pending, fun _ _ _ hnot => by injection hnot,
        fun _ _ _ _ hnot => by injection hnot, fun _ _ _ _ hnot => by injection hnot, ?_⟩
      intro delivery hmem
      rcases mem_append.mp hmem with hold | hnew
      · exact h.delivered delivery hold
      · rw [mem_singleton.mp hnew]
        exact ⟨hactive, houtstanding, hrequest⟩
    · exact h.elsewhere h.pending rfl rfl
  · exact h.elsewhere h.pending rfl rfl

/-- The reader delivers a response to the request and the invocation that it names. -/
lemma addressed_reader (h : worker.Addressed) (horderly : worker.roster.Orderly)
    (hstep : worker.advanceReader fits writes = some worker') : worker'.Addressed := by
  unfold advanceReader at hstep
  split at hstep
  · rename_i frame stop hreader
    rw [← some.inj hstep]
    cases stop with
    | true => exact h.writeOr rfl
    | false => exact h.writeOr rfl
  · rename_i number frameId invocation hreader
    split at hstep
    · injection hstep
    split at hstep
    · rw [← some.inj hstep]
      exact h.elsewhere h.pending rfl rfl
    · rw [← some.inj hstep]
      exact h.elsewhere h.pending rfl rfl
  · rename_i number frameId invocationId hreader
    rw [← some.inj hstep]
    have hwritten : (worker.writeOr fits (.busy number) (busyFrame frameId invocationId) writes
      .idle).Addressed := h.writeOr rfl
    exact ⟨hwritten.pending, hwritten.puttingBack, hwritten.taking, hwritten.delivering,
      hwritten.delivered⟩
  · rename_i frameId invocationId hreader
    split at hstep
    · injection hstep
    · rw [← some.inj hstep]
      exact h.elsewhere h.pending rfl rfl
  · rename_i frameId invocationId active hreader
    rw [← some.inj hstep]
    rcases classify_cases worker frameId invocationId active with
      ⟨i, -, hclassify⟩ | ⟨-, frame, hclassify⟩
    · rw [hclassify]
      exact h.elsewhere h.pending rfl rfl
    · rw [hclassify]
      exact h.elsewhere h.pending rfl rfl
  · rename_i i hreader
    rw [← some.inj hstep]
    refine h.elsewhere ?_ ?_ rfl
    · unfold raise
      split
      · exact h.pending
      · exact h.pending
    · unfold raise
      split
      · rfl
      · rfl
  · rename_i frameId invocationId requestId response hreader
    split at hstep
    · injection hstep
    · rw [← some.inj hstep]
      exact addressed_responding h horderly
  · rename_i frameId invocationId requestId response activeMatches hreader
    rw [← some.inj hstep]
    exact addressed_take h hreader
  · rename_i invocationId requestId response sender hreader
    rw [← some.inj hstep]
    exact addressed_deliver h horderly hreader
  · rename_i frameId invocationId pending hreader
    rw [← some.inj hstep]
    refine h.elsewhere ?_ rfl rfl
    intro other hother
    rw [← some.inj hother]
    exact h.puttingBack frameId invocationId pending hreader
  all_goals injection hstep

lemma addressed_dispatch (h : worker.Addressed) (frame : ScriptFrame) :
    (worker.dispatch frame).Addressed := by
  unfold dispatch
  split
  all_goals exact h.elsewhere h.pending rfl rfl

lemma addressed_read (h : worker.Addressed) {input : FrameRead}
    (hread : worker.read input = some worker') : worker'.Addressed := by
  unfold read at hread
  split at hread
  · injection hread
  split at hread
  · split at hread
    · injection hread
    · rw [← some.inj hread]
      unfold eof raise
      split
      · split
        · exact h.elsewhere h.pending rfl rfl
        · exact h.elsewhere h.pending rfl rfl
      · exact h.elsewhere h.pending rfl rfl
  · rw [← some.inj hread]
    exact h.elsewhere h.pending rfl rfl
  · split at hread
    · rw [← some.inj hread]
      exact addressed_dispatch h _
    · split at hread
      · rename_i tracker hadmission
        rw [← some.inj hread]
        have htracked : ({ worker with tracker := tracker } : FramedWorker).Addressed :=
          ⟨h.pending, h.puttingBack, h.taking, h.delivering, h.delivered⟩
        exact addressed_dispatch htracked _
      · rw [← some.inj hread]
        exact h.elsewhere h.pending rfl rfl

lemma addressed_step (h : worker.Addressed) (horderly : worker.roster.Orderly)
    (hstep : worker.step fits event = some worker') : worker'.Addressed := by
  rcases step_cases hstep with ⟨input, hread⟩ | ⟨writes, hreader⟩ | ⟨i, thread, thread', hgoes⟩
  · exact addressed_read h hread
  · exact addressed_reader h horderly hreader
  · exact hgoes.addressed h

/-! ## Runs -/

/-- What holds of the worker whatever happens. -/
structure Sound (worker : FramedWorker) : Prop where
  kept : worker.Kept
  heeded : worker.Heeded
  addressed : worker.Addressed

lemma sound_run (hrun : exec (step fits) start events = some worker) : worker.Sound :=
  exec_invariant (fun _ _ _ h hstep => ⟨kept_step h.kept hstep,
    heeded_step h.heeded h.kept.1 hstep, addressed_step h.addressed h.kept.1 hstep⟩)
    (show start.Sound from ⟨kept_start, heeded_start, addressed_start⟩) hrun

/-- What holds of the roster as long as every write succeeds. -/
structure Serves (worker : FramedWorker) : Prop where
  orderly : worker.roster.Orderly
  answered : worker.roster.Answered

lemma serves_start : start.Serves := ⟨Roster.orderly_empty, Roster.answered_empty⟩

lemma serves_step (h : worker.Serves) (hsucceeds : worker.Succeeds fits event)
    (hstep : worker.step fits event = some worker') : worker'.Serves :=
  ⟨orderly_step h.orderly hstep, answered_step h.orderly h.answered hsucceeds hstep⟩

lemma serves_run (hsucceeds : Along (step fits) (Succeeds fits) start events)
    (hrun : exec (step fits) start events = some worker) : worker.Serves :=
  exec_invariant_along (fun _ _ _ h hok hstep => serves_step h hok hstep) serves_start hsucceeds
    hrun

/-- What was written for an invocation. -/
def answersTo (worker : FramedWorker) (number : Nat) : List Written :=
  worker.output.filter fun written => written.cause = .result number || written.cause = .busy number

/-- What was written for an invocation is an answer to it. -/
lemma answer_number {written : Written} {number : Nat} :
    (written.cause = .result number || written.cause = .busy number) = true ↔
      ∃ refused, written.answer = some ⟨number, refused, written.frame⟩ := by
  obtain ⟨cause, frame⟩ := written
  unfold Written.answer
  cases cause with
  | result n =>
    rw [Bool.or_eq_true, decide_eq_true_iff, decide_eq_true_iff]
    constructor
    · rintro (hsame | hnot)
      · exact ⟨false, by injection hsame with hsame; rw [hsame]⟩
      · injection hnot
    · rintro ⟨refused, hanswer⟩
      injection hanswer with hanswer
      injection hanswer with hnumber
      exact .inl (by rw [hnumber])
  | busy n =>
    rw [Bool.or_eq_true, decide_eq_true_iff, decide_eq_true_iff]
    constructor
    · rintro (hnot | hsame)
      · injection hnot
      · exact ⟨true, by injection hsame with hsame; rw [hsame]⟩
    · rintro ⟨refused, hanswer⟩
      injection hanswer with hanswer
      injection hanswer with hnumber
      exact .inr (by rw [hnumber])
  | request sender => exact ⟨fun h => by simp at h, fun ⟨_, h⟩ => by injection h⟩
  | protocol => exact ⟨fun h => by simp at h, fun ⟨_, h⟩ => by injection h⟩

lemma length_answersTo (worker : FramedWorker) (number : Nat) :
    (worker.answersTo number).length =
      (worker.roster.answers.map Roster.Answer.number).count number := by
  have hlist (output : List Written) :
      (output.filter fun written =>
        written.cause = .result number || written.cause = .busy number).length =
        ((output.filterMap Written.answer).map Roster.Answer.number).count number := by
    induction output with
    | nil => rfl
    | cons written output ih =>
      rw [filter_cons]
      by_cases hanswer : (written.cause = .result number || written.cause = .busy number) = true
      · obtain ⟨refused, hsome⟩ := answer_number.mp hanswer
        rw [if_pos hanswer, filterMap_cons_some hsome, map_cons, count_cons_self,
          length_cons, ih]
      · rw [if_neg hanswer, ih]
        cases hsome : written.answer with
        | none => rw [filterMap_cons_none hsome]
        | some answer =>
          rw [filterMap_cons_some hsome, map_cons, count_cons_of_ne]
          rintro rfl
          refine hanswer (answer_number.mpr ⟨answer.refused, ?_⟩)
          have hframe : answer.frame = written.frame := by
            unfold Written.answer at hsome
            split at hsome
            · rw [← some.inj hsome]
            · rw [← some.inj hsome]
            · injection hsome
          rw [hsome, ← hframe]
  exact hlist worker.output

/-- Each admitted invocation has one answer, under its ids, unless it is still pending. -/
def AnsweredOnce (worker : FramedWorker) : Prop :=
  ∀ number frameId invocationId, worker.admitted[number]? = some (frameId, invocationId) →
    (worker.answersTo number).length = (if number ∈ worker.roster.pending then 0 else 1) ∧
      ∀ written ∈ worker.answersTo number, Names written.frame frameId invocationId

/-- Of the threads that have not ended there is one, and it runs the active invocation. -/
def OneActive (worker : FramedWorker) : Prop :=
  ∀ i j thread other, worker.threads[i]? = some thread → thread.point ≠ .done →
    worker.threads[j]? = some other → other.point ≠ .done →
      i = j ∧ worker.active = some (thread.invocationId, i)

/-- A call hears what was delivered to it, and nothing is delivered to a call twice; what was
delivered named the invocation that was active and the call that was outstanding. -/
structure HeardOnce (worker : FramedWorker) : Prop where
  named (delivery : Delivery) : delivery ∈ worker.delivered →
    delivery.active = some (delivery.invocationId, delivery.sender.thread) ∧
      delivery.outstanding = some delivery.sender ∧
        delivery.requestId = brokerRequestId delivery.sender.sequence
  once : (worker.delivered.map Delivery.sender).Nodup
  heard (i : Nat) (thread : Thread) (response : BrokerResponse) :
    worker.threads[i]? = some thread → thread.inbox = some response →
      ∃ delivery ∈ worker.delivered, delivery.sender = ⟨i, thread.calls⟩ ∧
        delivery.response = response

/-- The host sends an invocation when it has the results of the others. -/
def SentInTurn (worker : FramedWorker) (event : WorkerEvent) : Prop :=
  event.invokes = true → ∀ number < worker.admitted.length, worker.answersTo number ≠ []

lemma oneActive_of_orderly (horderly : worker.roster.Orderly) : worker.OneActive := by
  intro i j thread other hthread hlive hother hlive'
  have hactive := active_of_live horderly hthread hlive
  refine ⟨?_, hactive⟩
  rw [active_of_live horderly hother hlive'] at hactive
  exact (Prod.mk.inj (some.inj hactive)).2.symm

lemma answeredOnce_of_answered (horderly : worker.roster.Orderly)
    (hanswered : worker.roster.Answered) : worker.AnsweredOnce := by
  intro number frameId invocationId hadmitted
  have hlt : number < worker.roster.admitted.length :=
    (List.getElem?_eq_some_iff.mp hadmitted).1
  refine ⟨?_, ?_⟩
  · rw [length_answersTo]
    split
    · rename_i hpending
      exact hanswered.count_eq_zero hpending
    · rename_i hpending
      exact hanswered.count_eq_one hlt hpending
  · intro written hmem
    obtain ⟨hwritten, hcause⟩ := mem_filter.mp hmem
    obtain ⟨refused, hanswer⟩ := answer_number.mp hcause
    have hroster : ⟨number, refused, written.frame⟩ ∈ worker.roster.answers :=
      mem_filterMap.mpr ⟨written, hwritten, hanswer⟩
    obtain ⟨f, id, hsame, hnames⟩ := horderly.answers _ hroster
    have hpair : some (f, id) = some (frameId, invocationId) := hsame.symm.trans hadmitted
    cases hpair
    exact hnames

/-- When everything that was admitted has an answer, the active invocation has one. -/
lemma unanswered_eq_none (horderly : worker.roster.Orderly) (hanswered : worker.roster.Answered)
    (hall : ∀ number < worker.admitted.length, worker.answersTo number ≠ []) :
    worker.roster.unanswered = none := by
  cases hunanswered : worker.roster.unanswered with
  | none => rfl
  | some entry =>
    have hpending : entry.number ∈ worker.roster.pending := by
      unfold Roster.pending
      rw [hunanswered]
      exact mem_append_right _ mem_cons_self
    have hzero := hanswered.count_eq_zero hpending
    rw [← length_answersTo] at hzero
    obtain ⟨i, hentry⟩ : ∃ i : Nat, worker.roster.entries[i]? = some entry := by
      unfold Roster.unanswered at hunanswered
      obtain ⟨active, -, hget⟩ :=
        bind_eq_some_iff.mp (filter_eq_some_iff.mp hunanswered).1
      exact ⟨active.2, hget⟩
    have hlt := (List.getElem?_eq_some_iff.mp (horderly.entered i entry hentry)).1
    exact absurd (length_eq_zero_iff.mp hzero) (hall entry.number hlt)

/-- The same, when nothing was refused either. -/
structure ServesPromptly (worker : FramedWorker) : Prop where
  serves : worker.Serves
  prompt : worker.roster.Prompt

lemma servesPromptly_step (h : worker.ServesPromptly) (hsucceeds : worker.Succeeds fits event)
    (hturn : worker.SentInTurn event)
    (hstep : worker.step fits event = some worker') : worker'.ServesPromptly := by
  refine ⟨serves_step h.serves hsucceeds hstep, ?_⟩
  obtain ⟨⟨written, -, hsame | hroster⟩, hadmitted⟩ := roster_step hstep
  · rw [hsame]
    exact h.prompt
  · refine h.prompt.step h.serves.orderly hroster fun hchanged => ?_
    exact unanswered_eq_none h.serves.orderly h.serves.answered
      (hturn (hadmitted.resolve_left hchanged))

/-- In a run in which every invocation is sent in turn, none is refused. -/
lemma servesPromptly_run (hsucceeds : Along (step fits) (Succeeds fits) start events)
    (hturn : Along (step fits) SentInTurn start events)
    (hrun : exec (step fits) start events = some worker) : worker.ServesPromptly :=
  exec_invariant_along (fun _ _ _ h hok hstep => servesPromptly_step h hok.1 hok.2 hstep)
    ⟨serves_start, Roster.prompt_empty⟩ (along_and hsucceeds hturn) hrun

lemma ServesPromptly.not_busy (h : worker.ServesPromptly) {written : Written}
    (hmem : written ∈ worker.output) (number : Nat) : written.cause ≠ .busy number := by
  intro hbusy
  have hanswer : written.answer = some ⟨number, true, written.frame⟩ := by
    unfold Written.answer
    rw [hbusy]
  have hnot := h.prompt.answers _ (mem_filterMap.mpr ⟨written, hmem, hanswer⟩)
  injection hnot

/-- When the worker has returned, nothing is pending. -/
lemma pending_of_returned (horderly : worker.roster.Orderly) (hreturned : worker.returned) :
    worker.roster.pending = [] := by
  obtain ⟨⟨ownerLost, hreader⟩, hdone⟩ := hreturned
  have hasking : worker.roster.asking = none := by
    show worker.reader.asking = none
    rw [hreader]
    rfl
  have hactive : worker.roster.active = none := by
    cases hactive : worker.roster.active with
    | none => rfl
    | some active =>
      obtain ⟨entry, hentry, hlive⟩ := horderly.active active.1 active.2 hactive
      have hmap : (worker.threads.map Thread.entry)[active.2]? = some entry := hentry
      rw [List.getElem?_map] at hmap
      obtain ⟨thread, hthread, rfl⟩ := map_eq_some_iff.mp hmap
      refine absurd ?_ hlive
      show thread.point.stage = .done
      rw [hdone thread (mem_of_getElem? hthread)]
      rfl
  unfold Roster.pending Roster.unanswered
  rw [hasking, hactive]
  rfl

/-- Over any input and in any order of events, while no write fails and results fit a frame: each
admitted invocation gets one answer, also once the worker has returned; one invocation is active at
a time; a cancel frame sets the flag of the invocation that it names, and no other; a call hears one
response, to its own request; and no invocation that is sent in turn is refused. -/
theorem invocations_answered_once (fits : ScriptFrame → Bool) (events : List WorkerEvent)
    (hsucceeds : Along (step fits) (Succeeds fits) start events)
    (hrun : exec (step fits) start events = some worker) :
    worker.AnsweredOnce ∧ (worker.returned → worker.roster.pending = []) ∧ worker.OneActive ∧
      worker.Heeded ∧ worker.HeardOnce ∧
        (Along (step fits) SentInTurn start events →
          ∀ written ∈ worker.output, ∀ number, written.cause ≠ .busy number) := by
  have hsound := sound_run hrun
  have hserves := serves_run hsucceeds hrun
  obtain ⟨-, r, hmirrors, htickets⟩ := hsound.kept
  refine ⟨answeredOnce_of_answered hserves.orderly hserves.answered,
    pending_of_returned hserves.orderly, oneActive_of_orderly hserves.orderly, hsound.heeded,
    ⟨hsound.addressed.delivered, ?_, ?_⟩, ?_⟩
  · have hnodup := htickets.delivered_nodup
    rwa [hmirrors.delivered] at hnodup
  · intro i thread response hthread hinbox
    exact (hmirrors.inbox i thread response hthread hinbox).2
  · intro hturn written hmem number
    exact (servesPromptly_run hsucceeds hturn hrun).not_busy hmem number

/-- A script is answered and ends, and the input too. -/
def finishing : List WorkerEvent :=
  [.read (.frame (frame "response" (.brokerResponse "script" "broker-1" ⟨true, none, none⟩))),
    .reader true, .reader true, .reader true, .receive 0, .finish 0 .success none "done",
    .advance 0 true, .advance 0 true, .advance 0 true, .advance 0 true, .read .eof]

/-- The worker returns, with one result. -/
theorem invocations_answered_once_returned :
    ∃ worker, exec (step fun _ => true) start (asking ++ finishing) = some worker ∧
      worker.returned ∧ worker.roster.pending = [] ∧ worker.AnsweredOnce := by
  have h (worker : FramedWorker)
      (hrun : exec (step fun _ => true) start (asking ++ finishing) = some worker) :=
    invocations_answered_once (fun _ => true) (asking ++ finishing) (by decide) hrun
  refine ⟨_, rfl, ⟨⟨true, rfl⟩, ?_⟩, (h _ rfl).2.1 ⟨⟨true, rfl⟩, ?_⟩, (h _ rfl).1⟩
  all_goals
    intro thread hmem
    rw [mem_singleton.mp hmem]

end FramedWorker

end Agenterm.Worker
