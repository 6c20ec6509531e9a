import Agenterm.Lib.Throughout
import Agenterm.Worker.FramedWorkerTheorems

/-!
# The pending slot

The reading loop and a broker call meet in a slot, as in `Lib.Rendezvous` (`mirrors_step`). The main
result is `slot_never_stale`: when no call gives up while the loop is about to put a request back,
the slot is empty whenever no call is outstanding.
-/

namespace Agenterm.Worker

open Lib Option List

/-- The request that the loop has taken out, and whether it is to be put back. -/
def ReaderPoint.hand : ReaderPoint → Option (Sender × Bool)
  | .delivering _ _ _ sender => some (sender, false)
  | .puttingBack _ _ pending => some (pending.sender, true)
  | _ => none

/-- The loop is about to put a request back. -/
def ReaderPoint.putsBack : ReaderPoint → Bool
  | .puttingBack .. => true
  | _ => false

/-- The thread is about to give its call up. -/
def Thread.forgetting (thread : Thread) : Bool :=
  match thread.point with
  | .forgetting _ => true
  | _ => false

/-- A call with this number has been made, and had its turn at the slot. -/
def Thread.Issued (thread : Thread) (sequence : Nat) : Prop :=
  sequence ≤ thread.calls ∧
    (sequence = thread.calls → ∀ request, thread.point ≠ .counted request)

namespace FramedWorker

variable {fits : ScriptFrame → Bool} {worker worker' : FramedWorker} {event : WorkerEvent}

def Issued (worker : FramedWorker) (sender : Sender) : Prop :=
  ∃ thread, worker.threads[sender.thread]? = some thread ∧ thread.Issued sender.sequence

/-- The slot of the worker as a rendezvous of its senders. -/
structure Mirrors (worker : FramedWorker) (r : Rendezvous Sender) : Prop where
  slot : r.slot = worker.pendingBroker.map PendingBroker.sender
  hand : r.hand = worker.reader.hand
  delivered : r.delivered = worker.delivered.map Delivery.sender
  waiting (sender : Sender) : r.waiting = some sender ↔
    ∃ thread, worker.threads[sender.thread]? = some thread ∧ hears sender thread = true
  used (sender : Sender) : sender ∈ r.used → worker.Issued sender
  inbox (i : Nat) (thread : Thread) (response : BrokerResponse) :
    worker.threads[i]? = some thread → thread.inbox = some response → thread.outstanding = true ∧
      ∃ delivery ∈ worker.delivered, delivery.sender = ⟨i, thread.calls⟩ ∧
        delivery.response = response

lemma mirrors_start : start.Mirrors .empty where
  slot := rfl
  hand := rfl
  delivered := rfl
  waiting sender := by
    constructor
    · intro hnone
      injection hnone
    · rintro ⟨thread, hthread, -⟩
      injection hthread
  used _ hused := absurd hused not_mem_nil
  inbox _ _ _ hthread := by injection hthread

variable {r : Rendezvous Sender}

lemma hears_iff {i sequence : Nat} {thread : Thread} :
    hears ⟨i, sequence⟩ thread = true ↔ thread.outstanding = true ∧ thread.calls = sequence := by
  unfold hears
  rw [Bool.and_eq_true, decide_eq_true_iff]

/-- A place of the loop without a request in hand is as good as another. -/
lemma Mirrors.reader (h : worker.Mirrors r) {before after : ReaderPoint}
    (hbefore : worker.reader = before) (hhand : before.hand = none ∧ after.hand = none) :
    ({ worker with reader := after } : FramedWorker).Mirrors r :=
  ⟨h.slot, by rw [h.hand, hbefore, hhand.1, hhand.2], h.delivered, h.waiting, h.used, h.inbox⟩

/-- What is not about the slot may change. -/
lemma Mirrors.quiet (h : worker.Mirrors r) (hpending : worker'.pendingBroker = worker.pendingBroker)
    (hthreads : worker'.threads = worker.threads) (hdelivered : worker'.delivered = worker.delivered)
    (hhand : worker.reader.hand = none ∧ worker'.reader.hand = none) : worker'.Mirrors r where
  slot := by rw [h.slot, hpending]
  hand := by rw [h.hand, hhand.1, hhand.2]
  delivered := by rw [h.delivered, hdelivered]
  waiting sender := by rw [h.waiting, hthreads]
  used sender hused := by
    unfold Issued
    rw [hthreads]
    exact h.used sender hused
  inbox i thread response hthread := by
    rw [hthreads] at hthread
    rw [hdelivered]
    exact h.inbox i thread response hthread

lemma waiting_withThread (h : worker.Mirrors r) {i : Nat} {thread thread' : Thread}
    (hthread : worker.threads[i]? = some thread)
    (hhears : ∀ sequence, hears ⟨i, sequence⟩ thread' = hears ⟨i, sequence⟩ thread)
    (sender : Sender) : r.waiting = some sender ↔
      ∃ other, (worker.withThread i thread').threads[sender.thread]? = some other ∧
        hears sender other = true := by
  obtain ⟨j, sequence⟩ := sender
  rw [h.waiting]
  by_cases hj : j = i
  · subst hj
    have hnew : (worker.withThread j thread').threads[j]? = some thread' :=
      getElem?_set_of_some hthread _
    constructor
    · rintro ⟨other, hother, hheard⟩
      obtain rfl := some.inj (hthread.symm.trans hother)
      exact ⟨thread', hnew, by rw [hhears]; exact hheard⟩
    · rintro ⟨other, hother, hheard⟩
      obtain rfl := some.inj (hnew.symm.trans hother)
      exact ⟨thread, hthread, by rw [← hhears]; exact hheard⟩
  · have hsame : (worker.withThread i thread').threads[j]? = worker.threads[j]? :=
      List.getElem?_set_ne (Ne.symm hj)
    rw [hsame]

lemma Issued.withThread {sender : Sender} (h : worker.Issued sender) {i : Nat}
    {thread thread' : Thread} (hthread : worker.threads[i]? = some thread)
    (hissued : ∀ sequence, thread.Issued sequence → thread'.Issued sequence) :
    (worker.withThread i thread').Issued sender := by
  obtain ⟨other, hother, hold⟩ := h
  by_cases hj : sender.thread = i
  · subst hj
    obtain rfl := some.inj (hthread.symm.trans hother)
    exact ⟨thread', getElem?_set_of_some hthread _, hissued _ hold⟩
  · exact ⟨other, (List.getElem?_set_ne (Ne.symm hj)).trans hother, hold⟩

/-- A thread changes, and is outstanding in the same call as before. -/
lemma Mirrors.withThread (h : worker.Mirrors r) {i : Nat} {thread thread' : Thread}
    (hthread : worker.threads[i]? = some thread)
    (hhears : ∀ sequence, hears ⟨i, sequence⟩ thread' = hears ⟨i, sequence⟩ thread)
    (hissued : ∀ sequence, thread.Issued sequence → thread'.Issued sequence)
    (hinbox : ∀ response, thread'.inbox = some response → thread'.outstanding = true ∧
      ∃ delivery ∈ worker.delivered, delivery.sender = ⟨i, thread'.calls⟩ ∧
        delivery.response = response) :
    (worker.withThread i thread').Mirrors r where
  slot := h.slot
  hand := h.hand
  delivered := h.delivered
  waiting := waiting_withThread h hthread hhears
  used sender hused := (h.used sender hused).withThread hthread hissued
  inbox j other response hother hsome := by
    rcases getElem?_set_cases hother with ⟨rfl, rfl⟩ | ⟨-, hother⟩
    · exact hinbox response hsome
    · exact h.inbox j other response hother hsome

/-- The same for a thread that stays in its call or outside of any. -/
lemma Mirrors.withThread_same (h : worker.Mirrors r) {i : Nat} {thread thread' : Thread}
    (hthread : worker.threads[i]? = some thread) (hcalls : thread'.calls = thread.calls)
    (houtstanding : thread'.outstanding = thread.outstanding)
    (hinbox : thread'.inbox = thread.inbox)
    (hcounted : ∀ request, thread'.point ≠ .counted request) :
    (worker.withThread i thread').Mirrors r := by
  refine h.withThread hthread ?_ ?_ ?_
  · intro sequence
    unfold hears
    rw [hcalls, houtstanding]
  · rintro sequence ⟨hle, -⟩
    exact ⟨hcalls ▸ hle, fun _ => hcounted⟩
  · intro response hsome
    rw [hinbox] at hsome
    rw [hcalls, houtstanding]
    exact h.inbox i thread response hthread hsome

/-- A thread outside its calls has nothing in its channel. -/
lemma Mirrors.inbox_eq_none (h : worker.Mirrors r) {i : Nat} {thread : Thread}
    (hthread : worker.threads[i]? = some thread) (houtstanding : thread.outstanding = false) :
    thread.inbox = none := by
  cases hinbox : thread.inbox with
  | none => rfl
  | some response =>
    have hsome := (h.inbox i thread response hthread hinbox).1
    rw [houtstanding] at hsome
    injection hsome

/-! ## One thread waits -/

lemma live_of_outstanding {thread : Thread} (h : thread.outstanding = true) :
    thread.point ≠ .done := by
  intro hdone
  unfold Thread.outstanding at h
  rw [hdone] at h
  injection h

/-- When a thread is alive, no other one is outstanding. -/
lemma not_outstanding (horderly : worker.roster.Orderly) {i j : Nat} {thread other : Thread}
    (hthread : worker.threads[i]? = some thread) (hlive : thread.point ≠ .done)
    (hother : worker.threads[j]? = some other) (hne : j ≠ i) : other.outstanding = false := by
  cases houtstanding : other.outstanding with
  | false => rfl
  | true =>
    have hactive := active_of_live horderly hthread hlive
    rw [active_of_live horderly hother (live_of_outstanding houtstanding)] at hactive
    exact absurd (Prod.mk.inj (some.inj hactive)).2 hne

/-- Nobody waits while the only thread that is alive is not outstanding. -/
lemma Mirrors.waiting_eq_none (h : worker.Mirrors r) (horderly : worker.roster.Orderly) {i : Nat}
    {thread : Thread} (hthread : worker.threads[i]? = some thread) (hlive : thread.point ≠ .done)
    (houtstanding : thread.outstanding = false) : r.waiting = none := by
  cases hwaiting : r.waiting with
  | none => rfl
  | some sender =>
    obtain ⟨other, hother, hhears⟩ := (h.waiting sender).mp hwaiting
    have hout := (hears_iff.mp hhears).1
    by_cases hj : sender.thread = i
    · subst hj
      obtain rfl := some.inj (hthread.symm.trans hother)
      rw [houtstanding] at hout
      injection hout
    · rw [not_outstanding horderly hthread hlive hother hj] at hout
      injection hout

/-- The thread that was outstanding no longer is: now nobody waits. -/
lemma nobody_hears (horderly : worker.roster.Orderly) {i : Nat} {thread thread' : Thread}
    (hthread : worker.threads[i]? = some thread) (hlive : thread.point ≠ .done)
    (hafter : thread'.outstanding = false) (sender : Sender) :
    (none : Option Sender) = some sender ↔
      ∃ other, (worker.withThread i thread').threads[sender.thread]? = some other ∧
        hears sender other = true := by
  constructor
  · intro hnone
    injection hnone
  · rintro ⟨other, hother, hhears⟩
    have hout := (hears_iff.mp hhears).1
    rcases getElem?_set_cases hother with ⟨-, rfl⟩ | ⟨hne, hother⟩
    · rw [hafter] at hout
      injection hout
    · rw [not_outstanding horderly hthread hlive hother hne] at hout
      injection hout

/-! ## Steps of the rendezvous -/

/-- A call gives up: it clears the slot and returns an error. -/
def givesUp (worker : FramedWorker) : WorkerEvent → Bool
  | .advance i _ => (worker.threads[i]?).any fun thread => thread.forgetting
  | _ => false

/-- No call gives up while the loop is about to put a request back. -/
def PutBackUndisturbed (worker : FramedWorker) (event : WorkerEvent) : Prop :=
  worker.givesUp event = true → worker.reader.putsBack = false

instance : Decidable (worker.PutBackUndisturbed event) :=
  inferInstanceAs (Decidable (_ = true → _ = false))

/-- The rendezvous goes on, or stays as it is. -/
def Meets (settled : Bool) (r : Rendezvous Sender) (worker' : FramedWorker) : Prop :=
  ∃ r', worker'.Mirrors r' ∧ (r' = r ∨ Rendezvous.Step settled r r')

variable {settled : Bool}

lemma Meets.same (h : worker'.Mirrors r) : Meets settled r worker' := ⟨r, h, .inl rfl⟩

lemma Meets.of_step {r' : Rendezvous Sender} (hstep : Rendezvous.Step settled r r')
    (h : worker'.Mirrors r') : Meets settled r worker' := ⟨r', h, .inr hstep⟩

lemma Mirrors.eq_none_of_hand (h : worker.Mirrors r) (hhand : worker.reader.hand = none) :
    r.hand = none := h.hand.trans hhand

lemma meets_take (h : worker.Mirrors r) {frameId invocationId requestId : String}
    {response : BrokerResponse} {activeMatches : Bool}
    (hreader : worker.reader = .taking frameId invocationId requestId response activeMatches) :
    Meets settled r (worker.take frameId invocationId requestId response activeMatches) := by
  have hhand : r.hand = none := h.eq_none_of_hand (by rw [hreader]; rfl)
  unfold take
  split
  · rename_i pending hpending
    have hslot : r.slot = some pending.sender := by rw [h.slot, hpending]; rfl
    split
    · exact .of_step (.take pending.sender false hslot hhand)
        ⟨rfl, rfl, h.delivered, h.waiting, h.used, h.inbox⟩
    · exact .of_step (.take pending.sender true hslot hhand)
        ⟨rfl, rfl, h.delivered, h.waiting, h.used, h.inbox⟩
  · exact .same (h.reader hreader ⟨rfl, rfl⟩)

/-- A response that is delivered takes the offer to its party, or drops it. -/
lemma meets_deliver (h : worker.Mirrors r) {invocationId requestId : String}
    {response : BrokerResponse} {sender : Sender}
    (hreader : worker.reader = .delivering invocationId requestId response sender) :
    Meets settled r (worker.deliver invocationId requestId response sender) := by
  have hhand : r.hand = some (sender, false) := by rw [h.hand, hreader]; rfl
  have hunheard (hnot : ¬ ∃ thread, worker.threads[sender.thread]? = some thread ∧
      hears sender thread = true) :
      Meets settled r { worker with reader := .idle } := by
    have hwaiting : r.waiting ≠ some sender := fun hsome => hnot ((h.waiting sender).mp hsome)
    exact .of_step (.drop sender hhand hwaiting)
      ⟨h.slot, rfl, h.delivered, h.waiting, h.used, h.inbox⟩
  unfold deliver
  split
  · rename_i thread hthread
    split
    · rename_i hhears
      have hwaiting : r.waiting = some sender := (h.waiting sender).mpr ⟨thread, hthread, hhears⟩
      obtain ⟨hout, hsequence⟩ := hears_iff.mp hhears
      have hissued (sequence : Nat) (hold : thread.Issued sequence) :
          ({ thread with inbox := some response } : Thread).Issued sequence := hold
      refine .of_step (.deliver sender hhand hwaiting) ⟨h.slot, rfl, ?_, ?_, ?_, ?_⟩
      · show r.delivered ++ [sender] = (worker.delivered ++ [_]).map Delivery.sender
        rw [map_append, h.delivered]
        rfl
      · exact waiting_withThread h hthread fun _ => rfl
      · intro other hused
        exact (h.used other hused).withThread hthread hissued
      · intro j other heard hother hsome
        rcases getElem?_set_cases hother with ⟨rfl, rfl⟩ | ⟨-, hother⟩
        · refine ⟨hout, _, mem_append_right _ (mem_singleton_self _), ?_,
            some.inj hsome⟩
          show sender = ⟨sender.thread, thread.calls⟩
          rw [hsequence]
        · obtain ⟨hout', delivery, hmem, hdelivery⟩ := h.inbox j other heard hother hsome
          exact ⟨hout', delivery, mem_append_left _ hmem, hdelivery⟩
    · rename_i hhears
      refine hunheard ?_
      rintro ⟨other, hother, hheard⟩
      obtain rfl := some.inj (hthread.symm.trans hother)
      exact hhears hheard
  · rename_i hnone
    refine hunheard ?_
    rintro ⟨other, hother, -⟩
    rw [hnone] at hother
    injection hother

/-- The loop sets a flag, or notes something that is not about the slot. -/
lemma Mirrors.raise (h : worker.Mirrors r) (i : Nat) : (worker.raise i).Mirrors r := by
  unfold FramedWorker.raise
  split
  · rename_i thread hthread
    refine h.withThread hthread (fun _ => rfl) (fun _ hold => hold) ?_
    intro response hsome
    exact h.inbox i thread response hthread hsome
  · exact h

lemma Mirrors.spawn (h : worker.Mirrors r) {number : Nat} {frameId : String}
    {invocation : ScriptInvocation} (hhand : worker.reader.hand = none) :
    (worker.spawn number frameId invocation).Mirrors r := by
  refine ⟨h.slot, h.hand.trans hhand, h.delivered, ?_, ?_, ?_⟩
  · intro sender
    rw [h.waiting]
    constructor
    · rintro ⟨thread, hthread, hhears⟩
      exact ⟨thread, getElem?_concat_of_some hthread _, hhears⟩
    · rintro ⟨thread, hthread, hhears⟩
      rcases getElem?_concat_cases hthread with hold | ⟨-, rfl⟩
      · exact ⟨thread, hold, hhears⟩
      · have hout := (hears_iff.mp hhears).1
        injection hout
  · intro sender hused
    obtain ⟨thread, hthread, hissued⟩ := h.used sender hused
    exact ⟨thread, getElem?_concat_of_some hthread _, hissued⟩
  · intro i thread response hthread hsome
    rcases getElem?_concat_cases hthread with hold | ⟨-, rfl⟩
    · exact h.inbox i thread response hold hsome
    · injection hsome

lemma mirrors_writeOr (h : worker.Mirrors r) {cause : Cause} {frame : ScriptFrame} {writes : Bool}
    {next : ReaderPoint} (hhand : worker.reader.hand = none) (hnext : next.hand = none) :
    (worker.writeOr fits cause frame writes next).Mirrors r := by
  unfold writeOr
  split
  · rename_i after hwrite
    obtain ⟨-, written, -, rfl⟩ := write_eq_some hwrite
    exact ⟨h.slot, (h.hand.trans hhand).trans hnext.symm, h.delivered, h.waiting, h.used, h.inbox⟩
  · exact h.reader rfl ⟨hhand, rfl⟩

/-- An event of the reader is a step of the rendezvous, or none. -/
lemma meets_reader (h : worker.Mirrors r) {writes : Bool}
    (hstep : worker.advanceReader fits writes = some worker') : Meets settled r worker' := by
  unfold advanceReader at hstep
  split at hstep
  · rename_i frame stop hreader
    rw [← some.inj hstep]
    refine .same (mirrors_writeOr h (by rw [hreader]; rfl) ?_)
    cases stop with
    | true => rfl
    | false => rfl
  · rename_i number frameId invocation hreader
    split at hstep
    · injection hstep
    split at hstep
    · rw [← some.inj hstep]
      exact .same (h.quiet rfl rfl rfl ⟨by rw [hreader]; rfl, rfl⟩)
    · rw [← some.inj hstep]
      exact .same (h.spawn (by rw [hreader]; rfl))
  · rename_i number frameId invocationId hreader
    rw [← some.inj hstep]
    have hwritten : (worker.writeOr fits (.busy number) (busyFrame frameId invocationId) writes
      .idle).Mirrors r := mirrors_writeOr h (by rw [hreader]; rfl) rfl
    exact .same ⟨hwritten.slot, hwritten.hand, hwritten.delivered, hwritten.waiting, hwritten.used,
      hwritten.inbox⟩
  · rename_i frameId invocationId hreader
    split at hstep
    · injection hstep
    · rw [← some.inj hstep]
      exact .same (h.quiet rfl rfl rfl ⟨by rw [hreader]; rfl, rfl⟩)
  · rename_i frameId invocationId active hreader
    rw [← some.inj hstep]
    unfold classify
    dsimp only
    split
    all_goals exact .same (h.reader hreader ⟨rfl, rfl⟩)
  · rename_i i hreader
    rw [← some.inj hstep]
    have hraised := h.raise i
    have hhand : r.hand = none := h.eq_none_of_hand (by rw [hreader]; rfl)
    exact .same ⟨hraised.slot, hhand, hraised.delivered, hraised.waiting, hraised.used,
      hraised.inbox⟩
  · rename_i frameId invocationId requestId response hreader
    split at hstep
    · injection hstep
    · rw [← some.inj hstep]
      exact .same (h.reader hreader ⟨rfl, rfl⟩)
  · rename_i frameId invocationId requestId response activeMatches hreader
    rw [← some.inj hstep]
    exact meets_take h hreader
  · rename_i invocationId requestId response sender hreader
    rw [← some.inj hstep]
    exact meets_deliver h hreader
  · rename_i frameId invocationId pending hreader
    rw [← some.inj hstep]
    have hhand : r.hand = some (pending.sender, true) := by rw [h.hand, hreader]; rfl
    exact .of_step (.putBack pending.sender hhand)
      ⟨rfl, rfl, h.delivered, h.waiting, h.used, h.inbox⟩
  all_goals injection hstep

lemma mirrors_dispatch (h : worker.Mirrors r) (hidle : worker.reader = .idle)
    (frame : ScriptFrame) : (worker.dispatch frame).Mirrors r := by
  have hhand : worker.reader.hand = none := by rw [hidle]; rfl
  unfold dispatch
  split
  all_goals exact h.quiet rfl rfl rfl ⟨hhand, rfl⟩

lemma mirrors_read (h : worker.Mirrors r) {input : FrameRead}
    (hread : worker.read input = some worker') : worker'.Mirrors r := by
  unfold read at hread
  split at hread
  · injection hread
  rename_i hidle
  have hidle : worker.reader = .idle := not_not.mp hidle
  have hhand : r.hand = none := h.eq_none_of_hand (by rw [hidle]; rfl)
  have htracked (tracker : FrameTracker) :
      ({ worker with tracker := tracker } : FramedWorker).Mirrors r :=
    ⟨h.slot, h.hand, h.delivered, h.waiting, h.used, h.inbox⟩
  split at hread
  · split at hread
    · injection hread
    · rw [← some.inj hread]
      unfold eof
      split
      · rename_i i hactive
        have hraised := h.raise i
        exact ⟨hraised.slot, hhand, hraised.delivered, hraised.waiting, hraised.used,
          hraised.inbox⟩
      · exact h.reader hidle ⟨rfl, rfl⟩
  · rw [← some.inj hread]
    exact h.reader hidle ⟨rfl, rfl⟩
  · split at hread
    · rw [← some.inj hread]
      exact mirrors_dispatch h hidle _
    · split at hread
      · rename_i tracker hadmission
        rw [← some.inj hread]
        exact mirrors_dispatch (htracked tracker) hidle _
      · rename_i tracker rejection hadmission
        rw [← some.inj hread]
        exact (htracked tracker).reader hidle ⟨rfl, rfl⟩

/-! ### Threads -/

/-- A thread outside its calls goes on, and is still outside. -/
lemma Mirrors.withThread_outside (h : worker.Mirrors r) {i : Nat} {thread thread' : Thread}
    (hthread : worker.threads[i]? = some thread) (hbefore : thread.outstanding = false)
    (hafter : thread'.outstanding = false) (hinbox : thread'.inbox = none)
    (hissued : ∀ sequence, thread.Issued sequence → thread'.Issued sequence) :
    (worker.withThread i thread').Mirrors r := by
  refine h.withThread hthread ?_ hissued ?_
  · intro sequence
    unfold hears
    rw [hbefore, hafter, Bool.false_and, Bool.false_and]
  · intro response hsome
    rw [hinbox] at hsome
    injection hsome

lemma outstanding_of_point {thread : Thread} {point : ThreadPoint} (hpoint : thread.point = point) :
    thread.outstanding = ({ thread with point := point } : Thread).outstanding := by
  rw [← hpoint]

lemma mirrors_call (h : worker.Mirrors r) {i : Nat} {request : BrokerRequest}
    (hstep : worker.onThread i (FramedWorker.call · request) = some worker') :
    worker'.Mirrors r := by
  obtain ⟨thread, thread', hthread, hcall, rfl⟩ := onThread_eq_some hstep
  unfold call at hcall
  split at hcall
  · injection hcall
  rename_i hengine
  have hengine : thread.point = .engine := not_not.mp fun hne => hengine (.inl hne)
  have hout : thread.outstanding = false := outstanding_of_point hengine
  split at hcall
  · rw [← some.inj hcall]
    refine h.withThread_outside hthread hout rfl rfl fun sequence hold => ?_
    exact ⟨hold.1, fun _ request hcounted => by injection hcounted⟩
  · rw [← some.inj hcall]
    have hinbox : thread.inbox = none := h.inbox_eq_none hthread hout
    refine h.withThread_outside hthread hout rfl hinbox ?_
    rintro sequence ⟨hle, -⟩
    refine ⟨Nat.le_succ_of_le hle, fun heq => ?_⟩
    have hnext : sequence = thread.calls + 1 := heq
    omega

/-- A thread goes on without a change to its call. -/
lemma mirrors_point (h : worker.Mirrors r) {i : Nat} {thread : Thread}
    {before after : ThreadPoint} (hthread : worker.threads[i]? = some thread)
    (hpoint : thread.point = before)
    (hout : ({ thread with point := before } : Thread).outstanding =
      ({ thread with point := after } : Thread).outstanding)
    (hcounted : ∀ request, after ≠ .counted request) :
    (worker.withThread i { thread with point := after }).Mirrors r :=
  h.withThread_same hthread rfl ((outstanding_of_point hpoint).trans hout).symm rfl hcounted

lemma mirrors_finish (h : worker.Mirrors r) {i : Nat} {exitClass : ExitClass}
    {failure : Option ScriptFailure} {body : String}
    (hstep : worker.onThread i (FramedWorker.finish · exitClass failure body) = some worker') :
    worker'.Mirrors r := by
  obtain ⟨thread, thread', hthread, hfinish, rfl⟩ := onThread_eq_some hstep
  unfold finish at hfinish
  split at hfinish
  · injection hfinish
  rename_i hengine
  rw [← some.inj hfinish]
  refine mirrors_point h hthread (not_not.mp hengine) rfl ?_
  intro request hcounted
  injection hcounted

/-- Of the waits that end without a response. -/
lemma mirrors_timeout (h : worker.Mirrors r) {i : Nat} {expired : Bool}
    (hstep : worker.onThread i (FramedWorker.timeout · expired) = some worker') :
    worker'.Mirrors r := by
  obtain ⟨thread, thread', hthread, htimeout, rfl⟩ := onThread_eq_some hstep
  have hforget (error : String) (hpoint : thread.point = .waiting) :
      (worker.withThread i { thread with point := .forgetting error }).Mirrors r := by
    refine mirrors_point h hthread hpoint rfl ?_
    intro request hcounted
    injection hcounted
  unfold timeout at htimeout
  split at htimeout
  · rename_i hpoint hinbox
    split at htimeout
    · rw [← some.inj htimeout]
      exact hforget _ hpoint
    split at htimeout
    · rw [← some.inj htimeout]
      exact hforget _ hpoint
    · rw [← some.inj htimeout]
      refine h.withThread hthread (fun _ => rfl) (fun _ hold => hold) fun response => ?_
      exact h.inbox i thread response hthread
  · injection htimeout

lemma mirrors_disconnected (h : worker.Mirrors r) {i : Nat}
    (hstep : worker.onThread i (worker.disconnected i) = some worker') : worker'.Mirrors r := by
  obtain ⟨thread, thread', hthread, hdisconnected, rfl⟩ := onThread_eq_some hstep
  unfold disconnected at hdisconnected
  split at hdisconnected
  · rename_i hpoint hinbox
    split at hdisconnected
    · injection hdisconnected
    · rw [← some.inj hdisconnected]
      refine mirrors_point h hthread hpoint rfl ?_
      intro request hcounted
      injection hcounted
  · injection hdisconnected

lemma meets_receive (h : worker.Mirrors r) (horderly : worker.roster.Orderly) {i : Nat}
    (hstep : worker.onThread i FramedWorker.receive = some worker') :
    Meets settled r worker' := by
  obtain ⟨thread, thread', hthread, hreceive, rfl⟩ := onThread_eq_some hstep
  unfold receive at hreceive
  split at hreceive
  · rename_i response hpoint hinbox
    have hout : thread.outstanding = true := outstanding_of_point hpoint
    obtain ⟨-, delivery, hmem, hsender, -⟩ := h.inbox i thread response hthread hinbox
    have hdelivered : ⟨i, thread.calls⟩ ∈ r.delivered := by
      rw [h.delivered, ← hsender]
      exact mem_map_of_mem hmem
    have hwaiting : r.waiting = some ⟨i, thread.calls⟩ :=
      (h.waiting _).mpr ⟨thread, hthread, hears_iff.mpr ⟨hout, rfl⟩⟩
    rw [← some.inj hreceive]
    refine .of_step (.served _ hwaiting hdelivered) ⟨h.slot, h.hand, h.delivered, ?_, ?_, ?_⟩
    · exact nobody_hears horderly hthread (live_of_outstanding hout) rfl
    · intro sender hused
      refine (h.used sender hused).withThread hthread fun sequence hold => ?_
      exact ⟨hold.1, fun _ request hcounted => by injection hcounted⟩
    · intro j other heard hother hsome
      rcases getElem?_set_cases hother with ⟨rfl, rfl⟩ | ⟨-, hother⟩
      · injection hsome
      · exact h.inbox j other heard hother hsome
  · injection hreceive

/-- A request that finds the slot empty is an offer. -/
lemma meets_register (h : worker.Mirrors r) (horderly : worker.roster.Orderly) {i : Nat}
    {thread : Thread} {request : BrokerRequest} (hthread : worker.threads[i]? = some thread)
    (hpoint : thread.point = .counted request) :
    Meets settled r (worker.register i thread request) := by
  have hout : thread.outstanding = false := outstanding_of_point hpoint
  have hissued (thread' : Thread) (hcalls : thread'.calls = thread.calls)
      (hcounted : ∀ request, thread'.point ≠ .counted request) (sequence : Nat)
      (hold : thread.Issued sequence) : thread'.Issued sequence :=
    ⟨hcalls ▸ hold.1, fun _ => hcounted⟩
  unfold register
  split
  · refine .same (h.withThread_outside hthread hout rfl rfl (hissued _ rfl ?_))
    intro request hcounted
    injection hcounted
  · rename_i hpending
    have hslot : r.slot = none := by rw [h.slot, hpending]; rfl
    have hlive : thread.point ≠ .done := by
      rw [hpoint]
      intro hdone
      injection hdone
    have hwaiting : r.waiting = none := h.waiting_eq_none horderly hthread hlive hout
    have hfresh : ⟨i, thread.calls⟩ ∉ r.used := by
      intro hused
      obtain ⟨other, hother, -, hnot⟩ := h.used _ hused
      obtain rfl := some.inj (hthread.symm.trans hother)
      exact hnot rfl request hpoint
    have hnew : (worker.withThread i { thread with point := .registered request }).threads[i]? =
        some { thread with point := .registered request } := getElem?_set_of_some hthread _
    have hnot : ∀ request', ThreadPoint.registered request ≠ .counted request' := by
      intro request' hcounted
      injection hcounted
    refine .of_step (.offer ⟨i, thread.calls⟩ hslot hwaiting hfresh)
      ⟨rfl, h.hand, h.delivered, ?_, ?_, ?_⟩
    · intro sender
      constructor
      · intro hsame
        rw [← some.inj hsame]
        exact ⟨_, hnew, hears_iff.mpr ⟨rfl, rfl⟩⟩
      · rintro ⟨other, hother, hheard⟩
        obtain ⟨hother', hsequence⟩ := hears_iff.mp hheard
        rcases getElem?_set_cases hother with ⟨hsame, rfl⟩ | ⟨hne, hother⟩
        · rw [← hsame, show thread.calls = sender.sequence from hsequence]
        · rw [not_outstanding horderly hthread hlive hother hne] at hother'
          injection hother'
    · intro sender hused
      rcases mem_cons.mp hused with rfl | hused
      · exact ⟨_, hnew, le_refl _, fun _ => hnot⟩
      · exact (h.used sender hused).withThread hthread (hissued _ rfl hnot)
    · intro j other heard hother hsome
      rcases getElem?_set_cases hother with ⟨rfl, rfl⟩ | ⟨-, hother⟩
      · have hsome' : thread.inbox = some heard := hsome
        rw [h.inbox_eq_none hthread hout] at hsome'
        injection hsome'
      · exact h.inbox j other heard hother hsome

lemma meets_forget (h : worker.Mirrors r) (horderly : worker.roster.Orderly) {i : Nat}
    {thread : Thread} {error : String} (hthread : worker.threads[i]? = some thread)
    (hpoint : thread.point = .forgetting error)
    (hsettled : settled = true → worker.reader.putsBack = false) :
    Meets settled r { worker.withThread i (thread.returned (.error error)) with
      pendingBroker := none } := by
  have hout : thread.outstanding = true := outstanding_of_point hpoint
  have hback : settled = true → ∀ sender, r.hand ≠ some (sender, true) := by
    intro htrue sender hhand
    rw [h.hand] at hhand
    unfold ReaderPoint.hand at hhand
    split at hhand
    · injection hhand with hpair
      injection (Prod.mk.inj hpair).2
    · rename_i frameId invocationId pending hreader
      have hback := hsettled htrue
      rw [hreader] at hback
      injection hback
    · injection hhand
  refine .of_step (.giveUp hback) ⟨rfl, h.hand, h.delivered, ?_, ?_, ?_⟩
  · exact nobody_hears horderly hthread (live_of_outstanding hout) rfl
  · intro sender hused
    refine (h.used sender hused).withThread hthread fun sequence hold => ?_
    exact ⟨hold.1, fun _ request hcounted => by injection hcounted⟩
  · intro j other heard hother hsome
    rcases getElem?_set_cases hother with ⟨rfl, rfl⟩ | ⟨-, hother⟩
    · injection hsome
    · exact h.inbox j other heard hother hsome

lemma mirrors_send (h : worker.Mirrors r) {i : Nat} {thread : Thread} {request : BrokerRequest}
    {writes : Bool} (hthread : worker.threads[i]? = some thread)
    (hpoint : thread.point = .registered request) :
    (worker.send fits i thread request writes).Mirrors r := by
  unfold send
  split
  · rename_i after hwrite
    obtain ⟨-, written, -, rfl⟩ := write_eq_some hwrite
    have hsame : ({ worker with output := worker.output ++
        [⟨.request ⟨i, thread.calls⟩, written⟩] } : FramedWorker).Mirrors r :=
      ⟨h.slot, h.hand, h.delivered, h.waiting, h.used, h.inbox⟩
    exact mirrors_point hsame hthread hpoint rfl fun _ hcounted => by injection hcounted
  · exact mirrors_point h hthread hpoint rfl fun _ hcounted => by injection hcounted

/-- An event of a thread is a step of the rendezvous, or none. -/
lemma meets_advance (h : worker.Mirrors r) (horderly : worker.roster.Orderly) {i : Nat}
    {thread : Thread} {writes : Bool} (hthread : worker.threads[i]? = some thread)
    (hstep : worker.advanceThread fits i thread writes = some worker')
    (hsettled : settled = true → worker.PutBackUndisturbed (.advance i writes)) :
    Meets settled r worker' := by
  unfold advanceThread at hstep
  split at hstep
  · rename_i request hpoint
    rw [← some.inj hstep]
    exact meets_register h horderly hthread hpoint
  · rename_i request hpoint
    rw [← some.inj hstep]
    exact .same (mirrors_send h hthread hpoint)
  · rename_i error hpoint
    rw [← some.inj hstep]
    refine meets_forget h horderly hthread hpoint fun htrue => hsettled htrue ?_
    show (worker.threads[i]?).any (fun thread => thread.forgetting) = true
    rw [hthread]
    show thread.forgetting = true
    unfold Thread.forgetting
    rw [hpoint]
  · rename_i result hpoint
    split at hstep
    · injection hstep
    rw [← some.inj hstep]
    have hlocked : (worker.withThread i { thread with point := .locked result }).Mirrors r :=
      mirrors_point h hthread hpoint rfl fun _ hnot => by injection hnot
    exact .same ⟨hlocked.slot, hlocked.hand, hlocked.delivered, hlocked.waiting, hlocked.used,
      hlocked.inbox⟩
  · rename_i result hpoint
    rw [← some.inj hstep]
    have hwritten : (worker.withThread i { thread with point := .written }).Mirrors r :=
      mirrors_point h hthread hpoint rfl fun _ hnot => by injection hnot
    cases hwrite : worker.write fits (.result thread.number) (resultFrame thread.frameId result)
        writes with
    | some after =>
      obtain ⟨-, written, -, rfl⟩ := write_eq_some hwrite
      exact .same ⟨hwritten.slot, hwritten.hand, hwritten.delivered, hwritten.waiting,
        hwritten.used, hwritten.inbox⟩
    | none => exact .same hwritten
  · rename_i hpoint
    rw [← some.inj hstep]
    have hcompleted : (worker.withThread i { thread with point := .completed }).Mirrors r :=
      mirrors_point h hthread hpoint rfl fun _ hnot => by injection hnot
    exact .same ⟨hcompleted.slot, hcompleted.hand, hcompleted.delivered, hcompleted.waiting,
      hcompleted.used, hcompleted.inbox⟩
  · rename_i hpoint
    rw [← some.inj hstep]
    have hdone : (worker.withThread i { thread with point := .done }).Mirrors r :=
      mirrors_point h hthread hpoint rfl fun _ hnot => by injection hnot
    exact .same ⟨hdone.slot, hdone.hand, hdone.delivered, hdone.waiting, hdone.used, hdone.inbox⟩
  all_goals injection hstep

/-- An event of the worker is a step of the rendezvous, or does not concern it. -/
theorem meets_step (h : worker.Mirrors r) (horderly : worker.roster.Orderly)
    (hsettled : settled = true → worker.PutBackUndisturbed event)
    (hstep : worker.step fits event = some worker') : Meets settled r worker' := by
  cases event with
  | read input => exact .same (mirrors_read h hstep)
  | reader writes => exact meets_reader h hstep
  | call i request => exact .same (mirrors_call h hstep)
  | finish i exitClass failure body => exact .same (mirrors_finish h hstep)
  | receive i => exact meets_receive h horderly hstep
  | timeout i expired => exact .same (mirrors_timeout h hstep)
  | disconnected i => exact .same (mirrors_disconnected h hstep)
  | advance i writes =>
    obtain ⟨thread, hthread, hadvance⟩ := bind_eq_some_iff.mp hstep
    exact meets_advance h horderly hthread hadvance hsettled

/-! ## Runs -/

/-- The roster is in order and the slot is a rendezvous. -/
def Kept (worker : FramedWorker) : Prop :=
  worker.roster.Orderly ∧ ∃ r, worker.Mirrors r ∧ r.Tickets

/-- The same, and nothing stale is in the slot. -/
def KeptFresh (worker : FramedWorker) : Prop :=
  worker.roster.Orderly ∧ ∃ r, worker.Mirrors r ∧ r.Tickets ∧ r.Fresh

lemma keptFresh_start : start.KeptFresh :=
  ⟨Roster.orderly_empty, .empty, mirrors_start, Rendezvous.tickets_empty, Rendezvous.fresh_empty⟩

lemma kept_start : start.Kept :=
  ⟨Roster.orderly_empty, .empty, mirrors_start, Rendezvous.tickets_empty⟩

lemma kept_step (h : worker.Kept) (hstep : worker.step fits event = some worker') :
    worker'.Kept := by
  obtain ⟨horderly, r, hmirrors, htickets⟩ := h
  have hmeets : Meets false r worker' :=
    meets_step hmirrors horderly (fun hnot => by injection hnot) hstep
  obtain ⟨r', hmirrors', rfl | hmoved⟩ := hmeets
  · exact ⟨orderly_step horderly hstep, r', hmirrors', htickets⟩
  · exact ⟨orderly_step horderly hstep, r', hmirrors', htickets.step hmoved⟩

lemma keptFresh_step (h : worker.KeptFresh) (hok : worker.PutBackUndisturbed event)
    (hstep : worker.step fits event = some worker') : worker'.KeptFresh := by
  obtain ⟨horderly, r, hmirrors, htickets, hfresh⟩ := h
  have hmeets : Meets true r worker' := meets_step hmirrors horderly (fun _ => hok) hstep
  obtain ⟨r', hmirrors', rfl | hmoved⟩ := hmeets
  · exact ⟨orderly_step horderly hstep, r', hmirrors', htickets, hfresh⟩
  · exact ⟨orderly_step horderly hstep, r', hmirrors', htickets.step hmoved,
      hfresh.step htickets hmoved⟩

lemma keptFresh_run {events : List WorkerEvent}
    (hok : Along (step fits) PutBackUndisturbed start events)
    (hrun : exec (step fits) start events = some worker) : worker.KeptFresh :=
  exec_invariant_along (fun _ _ _ h hok hstep => keptFresh_step h hok hstep) keptFresh_start hok
    hrun

/-- A call between `registered` and its return. -/
def Outstanding (worker : FramedWorker) (i : Nat) : Prop :=
  ∃ thread, worker.threads[i]? = some thread ∧ thread.outstanding = true

/-- A call that finds the slot taken, and is refused. -/
def Refuses (worker : FramedWorker) (i : Nat) : Prop :=
  ∃ thread request, worker.threads[i]? = some thread ∧ thread.point = .counted request ∧
    worker.pendingBroker.isSome

lemma KeptFresh.slot_eq_none (h : worker.KeptFresh) (hnobody : ∀ i, ¬ worker.Outstanding i) :
    worker.pendingBroker = none := by
  obtain ⟨-, r, hmirrors, -, hfresh⟩ := h
  have hwaiting : r.waiting = none := by
    cases hwaiting : r.waiting with
    | none => rfl
    | some sender =>
      obtain ⟨thread, hthread, hhears⟩ := (hmirrors.waiting sender).mp hwaiting
      exact absurd ⟨thread, hthread, (hears_iff.mp hhears).1⟩ (hnobody sender.thread)
  have hslot := hfresh.slot_eq_none hwaiting
  rw [hmirrors.slot] at hslot
  exact map_eq_none_iff.mp hslot

/-- In a run in which no call gives up while the loop is about to put a request back, the slot is
empty whenever no call is outstanding, and a call is refused only while another one is. -/
theorem slot_never_stale (fits : ScriptFrame → Bool) (events : List WorkerEvent)
    (hok : Along (step fits) PutBackUndisturbed start events)
    (hrun : exec (step fits) start events = some worker) :
    ((∀ i, ¬ worker.Outstanding i) → worker.pendingBroker = none) ∧
      ∀ i, worker.Refuses i → ∃ j, j ≠ i ∧ worker.Outstanding j := by
  have hkept := keptFresh_run hok hrun
  refine ⟨hkept.slot_eq_none, ?_⟩
  rintro i ⟨thread, request, hthread, hpoint, hsome⟩
  have hexists : ∃ j, worker.Outstanding j := by
    by_contra hnobody
    rw [hkept.slot_eq_none (not_exists.mp hnobody)] at hsome
    injection hsome
  obtain ⟨j, other, hother, hout⟩ := hexists
  refine ⟨j, ?_, other, hother, hout⟩
  rintro rfl
  obtain rfl := some.inj (hthread.symm.trans hother)
  have hnot : thread.outstanding = false := outstanding_of_point hpoint
  rw [hnot] at hout
  injection hout

/-- A script that asks its broker for an operation. -/
def asking : List WorkerEvent :=
  [.read (.frame (frame "invoke" (.invoke ⟨"script", .run, ⟨2, 64, 1000⟩⟩))), .reader true,
    .call 0 ⟨"fleet.call", some "list"⟩, .advance 0 true, .advance 0 true]

/-- A response to another request comes, and the loop takes the pending one out. -/
def mismatched : List WorkerEvent :=
  [.read (.frame (frame "response" (.brokerResponse "script" "broker-9" ⟨true, none, none⟩))),
    .reader true, .reader true]

/-- The pending request is put back while its call waits. -/
theorem slot_never_stale_mismatch :
    ∃ worker, exec (step fun _ => true) start (asking ++ mismatched ++ [.reader true]) =
      some worker ∧ ((∀ i, ¬ worker.Outstanding i) → worker.pendingBroker = none) :=
  ⟨_, rfl, (slot_never_stale (fun _ => true) (asking ++ mismatched ++ [.reader true])
    (by decide) rfl).1⟩

/-- The call times out and clears the slot before the pending request is put back: it stays in the
slot, and the next call is refused while none is outstanding. -/
theorem stale_after_timeout :
    ∃ worker, exec (step fun _ => true) start (asking ++ mismatched ++ [.timeout 0 true,
      .advance 0 true, .reader true, .reader true, .call 0 ⟨"fleet.call", some "list"⟩]) =
        some worker ∧ (∀ i, ¬ worker.Outstanding i) ∧ worker.pendingBroker ≠ none ∧
          worker.Refuses 0 := by
  refine ⟨_, rfl, ?_, by decide, _, _, rfl, rfl, rfl⟩
  rintro (_ | i) ⟨thread, hthread, hout⟩
  · rw [← some.inj hthread] at hout
    injection hout
  · injection hthread

end FramedWorker

end Agenterm.Worker
