import Agenterm.Lib.Throughout
import Agenterm.Worker.Supervisor
import Mathlib.Data.List.Nodup

/-!
# Calls of the broker

What the two supervisors call and send, over all inputs. `Dialogue` is the order of calls and
answers and `Guarded` the limits on the calls; `Recorded` is what both loops preserve. The main
result is `broker_calls`: one loop keeps the limits always, the other one exactly when no request
reaches it after its time.
-/

namespace Agenterm.Worker

open Lib List Persistent
open PersistentWorkerClient hiding finishEof

/-! ## Calls and answers -/

/-- Calls and frames in order, each call with its answer or without one, and the operations that
were answered. -/
inductive Dialogue (assignment : Assignment) (responseId : String → String) :
    List Act → List String → Prop where
  | nil : Dialogue assignment responseId [] []
  | cancel {acts : List Act} {operations : List String} (frame : ScriptFrame)
      (h : Dialogue assignment responseId acts operations) :
      Dialogue assignment responseId (acts ++ [.cancel frame]) operations
  | unanswered {acts : List Act} {operations : List String} (call : BrokerCall)
      (h : Dialogue assignment responseId acts operations) :
      Dialogue assignment responseId (acts ++ [.call call]) operations
  | answered {acts : List Act} {operations : List String} (call : BrokerCall)
      (h : Dialogue assignment responseId acts operations) :
      Dialogue assignment responseId
        (acts ++ [.call call, .respond (answerFrame assignment responseId call)])
        (operations ++ [operationName call.request])

def Act.requestId : Act → Option String
  | .call made => some made.requestId
  | _ => none

def Act.isCancel : Act → Bool
  | .cancel _ => true
  | _ => false

/-- The ids of the requests that the closure was called for. -/
def calledIds (acts : List Act) : List String := acts.filterMap Act.requestId

/-- No call is made at the deadline or later, or after a cancel frame. -/
structure Prompt (deadline : Nat) (acts : List Act) : Prop where
  early : ∀ call, .call call ∈ acts → call.calledAt < deadline
  uncancelled : ∀ before call after, acts = before ++ .call call :: after →
    before.any Act.isCancel = false

/-- The calls are for this invocation, once for each request and within the budget. -/
structure WithinBudget (assignment : Assignment) (acts : List Act) : Prop where
  own : ∀ call, .call call ∈ acts → call.invocationId = assignment.invocation.invocationId
  once : (calledIds acts).Nodup
  budget : (calledIds acts).length ≤ assignment.invocation.budgets.brokerRequests

section
variable {deadline : Nat} {acts more : List Act}

lemma prompt_nil : Prompt deadline [] where
  early _ hmem := absurd hmem not_mem_nil
  uncancelled _ _ _ heq := absurd (append_eq_nil_iff.mp heq.symm).2 nofun

lemma Prompt.of_append (h : Prompt deadline (acts ++ more)) : Prompt deadline acts where
  early call hmem := h.early call (mem_append_left _ hmem)
  uncancelled before call after heq := by
    refine h.uncancelled before call (after ++ more) ?_
    rw [heq, append_assoc]
    rfl

/-- One act more, which may be a call only in time. -/
lemma Prompt.concat (h : Prompt deadline acts) (act : Act)
    (hact : ∀ call, act = .call call →
      call.calledAt < deadline ∧ acts.any Act.isCancel = false) :
    Prompt deadline (acts ++ [act]) where
  early call hmem := by
    rcases mem_append.mp hmem with hold | hlast
    · exact h.early call hold
    · exact (hact call (mem_singleton.mp hlast).symm).1
  uncancelled before call after heq := by
    rcases eq_nil_or_concat after with rfl | ⟨after, last, rfl⟩
    · obtain ⟨rfl, hlast⟩ := append_inj' heq rfl
      exact (hact call (List.cons.inj hlast).1).2
    · rw [concat_eq_append, ← cons_append, ← append_assoc] at heq
      exact h.uncancelled before call after (append_inj' heq rfl).1

lemma Prompt.respond (h : Prompt deadline acts) (frame : ScriptFrame) :
    Prompt deadline (acts ++ [.respond frame]) :=
  h.concat _ fun _ heq => by injection heq

lemma Prompt.cancel (h : Prompt deadline acts) (frame : ScriptFrame) :
    Prompt deadline (acts ++ [.cancel frame]) :=
  h.concat _ fun _ heq => by injection heq

/-- The last call of a prompt record was in time. -/
lemma Prompt.last {call : BrokerCall} (h : Prompt deadline (acts ++ .call call :: more)) :
    call.calledAt < deadline ∧ acts.any Act.isCancel = false :=
  ⟨h.early call (mem_append_right _ mem_cons_self), h.uncancelled acts call more rfl⟩

lemma calledIds_append (acts more : List Act) :
    calledIds (acts ++ more) = calledIds acts ++ calledIds more :=
  filterMap_append

end

/-! ## What both loops preserve -/

/-- What the record of a loop says about its calls. -/
structure Recorded (assignment : Assignment) (responseId : String → String) (ledger : Ledger) :
    Prop where
  dialogue : Dialogue assignment responseId ledger.acts ledger.brokerOperationIds
  own : ∀ call, .call call ∈ ledger.acts →
    call.invocationId = assignment.invocation.invocationId
  once : (calledIds ledger.acts).Nodup
  noted : ∀ id ∈ calledIds ledger.acts, id ∈ ledger.brokerRequestIds
  counted : (calledIds ledger.acts).length ≤ ledger.brokerRequests
  budget : ledger.brokerRequests ≤ assignment.invocation.budgets.brokerRequests

section
variable {assignment : Assignment} {responseId : String → String} {ledger : Ledger}

lemma recorded_new : Recorded assignment responseId .new where
  dialogue := .nil
  own _ hmem := absurd hmem not_mem_nil
  once := nodup_nil
  noted _ hmem := absurd hmem not_mem_nil
  counted := Nat.le_refl 0
  budget := Nat.zero_le _

lemma Recorded.withinBudget (h : Recorded assignment responseId ledger) :
    WithinBudget assignment ledger.acts :=
  ⟨h.own, h.once, h.counted.trans h.budget⟩

/-- A request that is only noted. -/
lemma Recorded.note (h : Recorded assignment responseId ledger) {requestId : String}
    (hbudget : ledger.brokerRequests < assignment.invocation.budgets.brokerRequests) :
    Recorded assignment responseId (ledger.note requestId) where
  dialogue := h.dialogue
  own := h.own
  once := h.once
  noted id hmem := mem_cons_of_mem _ (h.noted id hmem)
  counted := h.counted.trans (Nat.le_succ _)
  budget := hbudget

lemma Recorded.cancel (h : Recorded assignment responseId ledger) (frame : ScriptFrame) :
    Recorded assignment responseId (ledger.act (.cancel frame)) := by
  have hids : calledIds (ledger.act (.cancel frame)).acts = calledIds ledger.acts := by
    show calledIds (ledger.acts ++ [.cancel frame]) = _
    rw [calledIds_append]
    exact append_nil _
  refine ⟨.cancel frame h.dialogue, ?_, ?_, ?_, ?_, h.budget⟩
  · intro call hmem
    rcases mem_append.mp hmem with hold | hlast
    · exact h.own call hold
    · injection mem_singleton.mp hlast
  · rw [hids]
    exact h.once
  · rw [hids]
    exact h.noted
  · rw [hids]
    exact h.counted

/-- A call that the checks on a request allow. -/
structure Allowed (assignment : Assignment) (ledger : Ledger) (call : BrokerCall) : Prop where
  own : call.invocationId = assignment.invocation.invocationId
  budget : ledger.brokerRequests < assignment.invocation.budgets.brokerRequests
  fresh : call.requestId ∉ ledger.brokerRequestIds

/-- A request that is noted and passed on. -/
lemma Recorded.call (h : Recorded assignment responseId ledger) {call : BrokerCall}
    (hcall : Allowed assignment ledger call) :
    Recorded assignment responseId ((ledger.note call.requestId).act (.call call)) := by
  have hids : calledIds (ledger.acts ++ [.call call]) =
      calledIds ledger.acts ++ [call.requestId] := calledIds_append _ _
  refine ⟨.unanswered call h.dialogue, ?_, ?_, ?_, ?_, hcall.budget⟩
  · intro other hmem
    rcases mem_append.mp hmem with hold | hlast
    · exact h.own other hold
    · obtain rfl := Act.call.inj (mem_singleton.mp hlast)
      exact hcall.own
  · show (calledIds (ledger.acts ++ [.call call])).Nodup
    rw [hids, ← concat_eq_append]
    exact h.once.concat fun hmem => hcall.fresh (h.noted _ hmem)
  · intro id hmem
    change id ∈ calledIds (ledger.acts ++ [.call call]) at hmem
    rw [hids] at hmem
    rcases mem_append.mp hmem with hold | hlast
    · exact mem_cons_of_mem _ (h.noted id hold)
    · rw [mem_singleton.mp hlast]
      exact mem_cons_self
  · show (calledIds (ledger.acts ++ [.call call])).length ≤ ledger.brokerRequests + 1
    rw [hids, length_append]
    exact Nat.add_le_add_right h.counted 1

/-- A request that is noted, passed on and answered. -/
lemma Recorded.answer (h : Recorded assignment responseId ledger) {call : BrokerCall}
    (hcall : Allowed assignment ledger call) :
    Recorded assignment responseId
      ((((ledger.note call.requestId).act (.call call)).answered call.request).act
        (.respond (answerFrame assignment responseId call))) := by
  have hcalled := h.call hcall
  have hacts : (ledger.acts ++ [Act.call call]) ++
      [Act.respond (answerFrame assignment responseId call)] = ledger.acts ++
        [Act.call call, Act.respond (answerFrame assignment responseId call)] :=
    append_assoc ..
  have hids : calledIds ((ledger.acts ++ [Act.call call]) ++
      [Act.respond (answerFrame assignment responseId call)]) =
        calledIds (ledger.acts ++ [Act.call call]) := by
    rw [calledIds_append]
    exact append_nil _
  refine ⟨?_, ?_, ?_, ?_, ?_, hcalled.budget⟩
  · show Dialogue assignment responseId ((ledger.acts ++ [Act.call call]) ++ [_]) _
    rw [hacts]
    exact .answered call h.dialogue
  · intro other hmem
    rcases mem_append.mp hmem with hold | hlast
    · exact hcalled.own other hold
    · injection mem_singleton.mp hlast
  · show (calledIds ((ledger.acts ++ [Act.call call]) ++ [_])).Nodup
    rw [hids]
    exact hcalled.once
  · show ∀ id ∈ calledIds ((ledger.acts ++ [Act.call call]) ++ [_]), id ∈ _
    rw [hids]
    exact hcalled.noted
  · show (calledIds ((ledger.acts ++ [Act.call call]) ++ [_])).length ≤ _
    rw [hids]
    exact hcalled.counted

end

/-! ## One invocation -/

variable {client : PersistentWorkerClient} {handling : Handling}

variable {request : BrokerRequest} {requestInvocationId : String}
  {waited : Except String ExitStatus}

section
variable {assignment : Assignment} {loop : OneShot}

/-- What holds of the loop after any input: a loop that goes on has not cancelled. -/
structure OneShot.Inv (assignment : Assignment) (loop : OneShot) : Prop where
  recorded : Recorded assignment oneShotResponseId loop.ledger
  prompt : Prompt assignment.deadline loop.ledger.acts
  uncancelled : loop.ended = none → loop.ledger.acts.any Act.isCancel = false

lemma OneShot.inv_start : OneShot.start.Inv assignment where
  recorded := recorded_new
  prompt := prompt_nil
  uncancelled _ := rfl

/-- An end that leaves the record as it is. -/
lemma OneShot.Inv.ended (h : loop.Inv assignment) (finish : LoopEnd) :
    OneShot.Inv assignment { loop with ended := some finish } where
  recorded := h.recorded
  prompt := h.prompt
  uncancelled hnone := absurd hnone nofun

lemma OneShot.passOn_inv (h : loop.Inv assignment) (hgoes : loop.ended = none)
    {call : BrokerCall} (hallowed : Allowed assignment loop.ledger call)
    (hearly : call.calledAt < assignment.deadline) (handling : Handling) :
    (loop.passOn assignment call handling).Inv assignment := by
  have hquiet := h.uncancelled hgoes
  have hprompt : Prompt assignment.deadline (loop.ledger.acts ++ [.call call]) := by
    refine h.prompt.concat _ fun other heq => ?_
    obtain rfl := Act.call.inj heq
    exact ⟨hearly, hquiet⟩
  have hquiet' : (loop.ledger.acts ++ [Act.call call]).any Act.isCancel = false := by
    rw [any_append, hquiet]
    rfl
  have hanswered := h.recorded.answer hallowed
  unfold OneShot.passOn
  dsimp only
  split
  · -- the answer came too late to be sent
    exact ⟨h.recorded.call hallowed, hprompt, fun _ => hquiet'⟩
  split
  · refine ⟨hanswered, hprompt.respond _, fun _ => ?_⟩
    show (_ ++ [Act.respond _]).any Act.isCancel = false
    rw [any_append]
    exact Bool.or_eq_false_iff.mpr ⟨hquiet', rfl⟩
  · exact ⟨hanswered, hprompt.respond _, nofun⟩

lemma OneShot.handleRequest_inv (h : loop.Inv assignment) (hgoes : loop.ended = none)
    {requestId : String} :
    (loop.handleRequest assignment requestInvocationId requestId request handling).Inv
      assignment := by
  unfold OneShot.handleRequest
  split
  · exact h.ended _
  rename_i hown
  split
  · exact h.ended _
  rename_i hbudget
  split
  · exact h.ended _
  rename_i hfresh
  have hbudget' := Nat.lt_of_succ_le (Nat.le_of_not_lt hbudget)
  dsimp only
  split
  · exact ⟨h.recorded.note hbudget', h.prompt, h.uncancelled⟩
  · rename_i hremaining
    refine OneShot.passOn_inv h hgoes ⟨not_not.mp hown, hbudget', hfresh⟩ ?_ handling
    show handling.elapsed < assignment.deadline
    omega

theorem OneShot.step_inv (h : loop.Inv assignment) (input : OneShotInput) :
    (loop.step assignment input).Inv assignment := by
  unfold OneShot.step
  split
  · exact h
  rename_i hgoes
  split
  · exact h.ended _
  · rename_i grace
    have hcancelled (frame : ScriptFrame) (finish : Option LoopEnd) (hfinish : finish ≠ none) :
        OneShot.Inv assignment
          ⟨loop.ledger.act (.cancel frame), true, finish⟩ :=
      ⟨h.recorded.cancel frame, h.prompt.cancel frame,
        fun hnone => absurd hnone hfinish⟩
    dsimp only
    split
    · exact hcancelled _ _ nofun
    · exact hcancelled _ _ nofun
  · exact h.ended _
  · split
    · exact OneShot.handleRequest_inv h hgoes
    · exact h.ended _
    · exact h.ended _

theorem OneShot.run_inv (assignment : Assignment) (inputs : List OneShotInput) :
    (Lib.run (OneShot.step assignment) .start inputs).Inv assignment :=
  run_invariant (P := fun loop => OneShot.Inv assignment loop)
    (fun _ input h => OneShot.step_inv h input) OneShot.inv_start inputs

end

/-! ## The persistent client -/

section
variable {assignment : Assignment} {loop : Persistent}

/-- The request among an input that the loop passes on to the closure. -/
def Persistent.passesOn (assignment : Assignment) (loop : Persistent) :
    PersistentInput → Option Handling
  | .received (.frame received) handling _ =>
    match received.payload with
    | .brokerRequest requestInvocationId requestId _ =>
      if loop.ended.isNone ∧ requestInvocationId = assignment.invocation.invocationId ∧
          loop.ledger.brokerRequests < assignment.invocation.budgets.brokerRequests ∧
          requestId ∉ loop.ledger.brokerRequestIds then some handling
      else none
    | _ => none
  | _ => none

/-- A request is passed on only before the deadline and before a cancel frame is sent. -/
def Persistent.InTime (assignment : Assignment) (loop : Persistent) (input : PersistentInput) :
    Prop :=
  ∀ handling, loop.passesOn assignment input = some handling →
    handling.elapsed < assignment.deadline ∧ loop.cancelRequested = false

structure Persistent.Inv (assignment : Assignment) (count : Nat) (loop : Persistent) : Prop where
  recorded : Recorded assignment (persistentResponseId count) loop.ledger
  count_eq : loop.client.invocationCount = count
  cancelled : loop.ended = none → loop.cancelRequested = loop.ledger.acts.any Act.isCancel
  reported : ∀ result, loop.ended = some (.ok (.ok result)) →
    result.brokerOperationIds = loop.ledger.brokerOperationIds

/-- What a round adds to the record: a call with or without an answer for a request that is passed
on, otherwise at most a cancel frame. -/
inductive Persistent.Adds (passed : Option Handling) (acts : List Act) : List Act → Prop where
  | nothing (hnone : passed = none) : Adds passed acts acts
  | cancel (hnone : passed = none) (frame : ScriptFrame) :
      Adds passed acts (acts ++ [.cancel frame])
  | call {handling : Handling} (hsome : passed = some handling) (call : BrokerCall)
      (hat : call.calledAt = handling.elapsed) (frame : ScriptFrame) :
      Adds passed acts (acts ++ [.call call, .respond frame])

variable {count : Nat}

lemma Persistent.inv_start (client : PersistentWorkerClient) :
    (start client).Inv assignment client.invocationCount where
  recorded := recorded_new
  count_eq := rfl
  cancelled _ := rfl
  reported _ hended := absurd hended nofun

lemma ne_result_of_error (error : PersistentWorkerError) (result : SupervisedResult) :
    (.ok (.error error) : Except Panic InvokeResult) ≠ .ok (.ok result) := by
  intro heq
  injection heq with heq
  injection heq

lemma ne_result_of_panic (panic : Panic) (result : SupervisedResult) :
    (.error panic : Except Panic InvokeResult) ≠ .ok (.ok result) := by
  intro heq
  injection heq

/-- A loop that ends with its record as it was. -/
lemma Persistent.Inv.ended (h : loop.Inv assignment count) (client : PersistentWorkerClient)
    (hcount : client.invocationCount = loop.client.invocationCount)
    (finish : Except Panic InvokeResult) (hreport : ∀ result, finish = .ok (.ok result) →
      result.brokerOperationIds = loop.ledger.brokerOperationIds) :
    Persistent.Inv assignment count
      { loop with client := client, ended := some finish } where
  recorded := h.recorded
  count_eq := hcount.trans h.count_eq
  cancelled hnone := absurd hnone nofun
  reported result hended := hreport result (Option.some.inj hended)

/-- The wait for a worker that is there. -/
lemma PersistentWorkerClient.waitAndReap_of_child (hchild : client.child = true)
    (waited : Except String ExitStatus) :
    ∃ result, client.waitAndReap waited = .ok (client.letGo, result) := by
  unfold waitAndReap
  rw [hchild]
  cases waited with
  | ok status => exact ⟨_, rfl⟩
  | error error => exact ⟨_, rfl⟩

/-- The end of a worker that is there. -/
lemma PersistentWorkerClient.finishEof_of_child (hchild : client.child = true)
    (waited : Except String ExitStatus) :
    ∃ error, client.finishEof waited = .ok ({ client with unavailable := true }.letGo, error) := by
  unfold PersistentWorkerClient.finishEof
  have hchild' : ({ client with unavailable := true } : PersistentWorkerClient).child = true :=
    hchild
  obtain ⟨result, hresult⟩ := waitAndReap_of_child hchild' waited
  rw [hresult]
  cases result with
  | error error => exact ⟨_, rfl⟩
  | ok status =>
    cases hstatus : status.success with
    | true => exact ⟨_, if_pos hstatus⟩
    | false => exact ⟨_, if_neg (by rw [hstatus]; exact Bool.false_ne_true)⟩

lemma PersistentWorkerClient.finishEof_of_absent (hchild : client.child = false)
    (waited : Except String ExitStatus) :
    client.finishEof waited = .error ⟨"persistent worker wait requires a child"⟩ := by
  unfold PersistentWorkerClient.finishEof PersistentWorkerClient.waitAndReap
  rw [show ({ client with unavailable := true } : PersistentWorkerClient).child = false from hchild]
  rfl

lemma Persistent.finishEof_inv (h : loop.Inv assignment count) (waited : Except String ExitStatus) :
    (loop.finishEof waited).Inv assignment count ∧
      (loop.finishEof waited).ledger = loop.ledger := by
  unfold finishEof
  cases hchild : loop.client.child with
  | true =>
    obtain ⟨error, herror⟩ := finishEof_of_child hchild waited
    rw [herror]
    exact ⟨h.ended { loop.client with unavailable := true }.letGo rfl _
      fun result heq => absurd heq (ne_result_of_error error result), rfl⟩
  | false =>
    rw [finishEof_of_absent hchild]
    exact ⟨h.ended loop.client rfl _
      fun result heq => absurd heq (ne_result_of_panic _ result), rfl⟩

lemma Persistent.Inv.terminate (h : loop.Inv assignment count) (error : SupervisorError) :
    (loop.terminate error).Inv assignment count :=
  h.ended loop.client.forceTerminate rfl _
    fun result heq => absurd heq (ne_result_of_error _ result)

variable (loop) in
/-- A frame is sent: the loop goes on, or the worker is terminated. -/
lemma Persistent.send_inv {act : Act} (written : Except SupervisorError Unit)
    (hrecorded : Recorded assignment (persistentResponseId count) (loop.ledger.act act))
    (hcount : loop.client.invocationCount = count)
    (hcancelled : loop.cancelRequested = (loop.ledger.acts ++ [act]).any Act.isCancel)
    (hgoes : loop.ended = none) :
    (loop.send act written).Inv assignment count ∧
      (loop.send act written).ledger.acts = loop.ledger.acts ++ [act] := by
  unfold send
  dsimp only
  split
  · refine ⟨⟨hrecorded, hcount, fun _ => hcancelled, fun result hended => ?_⟩, rfl⟩
    rw [hgoes] at hended
    cases hended
  · refine ⟨⟨hrecorded, hcount, fun hnone => absurd hnone nofun, fun result hended => ?_⟩, rfl⟩
    exact absurd (Option.some.inj hended) (ne_result_of_error _ result)

lemma Persistent.passOn_inv (h : loop.Inv assignment count) (hgoes : loop.ended = none)
    {call : BrokerCall} (hallowed : Allowed assignment loop.ledger call)
    (written : Except SupervisorError Unit) :
    (loop.passOn assignment call written).Inv assignment count ∧
      ∃ frame, (loop.passOn assignment call written).ledger.acts =
        loop.ledger.acts ++ [.call call, .respond frame] := by
  have hanswered := h.recorded.answer hallowed
  have hcount := h.count_eq
  subst hcount
  have hcancelled : loop.cancelRequested = ((loop.ledger.acts ++ [Act.call call]) ++
      [Act.respond (answerFrame assignment (persistentResponseId loop.client.invocationCount)
        call)]).any Act.isCancel := by
    rw [any_append, any_append, h.cancelled hgoes]
    simp [Act.isCancel]
  obtain ⟨hinv, hacts⟩ := send_inv
    { loop with
      ledger := ((loop.ledger.note call.requestId).act (.call call)).answered call.request }
    written hanswered rfl hcancelled hgoes
  refine ⟨hinv, answerFrame assignment (persistentResponseId loop.client.invocationCount) call, ?_⟩
  exact hacts.trans (append_assoc ..)

lemma Persistent.handleRequest_spec (h : loop.Inv assignment count) (hgoes : loop.ended = none)
    {received : ScriptFrame} {requestId : String}
    (hpayload : received.payload = .brokerRequest requestInvocationId requestId request) :
    let loop' := loop.handleRequest assignment requestInvocationId requestId request handling
    loop'.Inv assignment count ∧
      Persistent.Adds (loop.passesOn assignment (.received (.frame received) handling waited))
        loop.ledger.acts loop'.ledger.acts := by
  have hpasses : loop.passesOn assignment (.received (.frame received) handling waited) =
      if requestInvocationId = assignment.invocation.invocationId ∧
          loop.ledger.brokerRequests < assignment.invocation.budgets.brokerRequests ∧
          requestId ∉ loop.ledger.brokerRequestIds then some handling
      else none := by
    unfold passesOn
    simp only [hpayload, hgoes, Option.isNone_none, true_and]
  rw [hpasses]
  unfold handleRequest
  split
  · rename_i hown
    refine ⟨h.terminate _, .nothing (if_neg fun hall => hown hall.1)⟩
  rename_i hown
  rw [not_not] at hown
  split
  · rename_i hrefused
    refine ⟨h.terminate _, .nothing (if_neg fun hall => ?_)⟩
    rcases hrefused with hbudget | hseen
    · have hlt := hall.2.1
      omega
    · exact hall.2.2 hseen
  rename_i hpassed
  obtain ⟨hbudget, hfresh⟩ := not_or.mp hpassed
  have hbudget' := Nat.lt_of_succ_le (Nat.le_of_not_lt hbudget)
  have hallowed : Allowed assignment loop.ledger ⟨requestInvocationId, requestId, request,
      assignment.deadline - handling.elapsed, handling.elapsed, handling.answer⟩ :=
    ⟨hown, hbudget', hfresh⟩
  obtain ⟨hinv, frame, hacts⟩ := passOn_inv h hgoes hallowed handling.written
  refine ⟨hinv, ?_⟩
  dsimp only at hacts ⊢
  rw [hacts]
  exact .call (if_pos ⟨hown, hbudget', hfresh⟩) _ rfl frame

lemma Persistent.handleResult_inv (h : loop.Inv assignment count) (frameId : String)
    (result : ScriptResult) :
    (loop.handleResult assignment frameId result).Inv assignment count ∧
      (loop.handleResult assignment frameId result).ledger = loop.ledger := by
  unfold handleResult
  dsimp only
  split
  · exact ⟨h.terminate _, rfl⟩
  · refine ⟨h.ended loop.client rfl _ fun reported heq => ?_, rfl⟩
    rw [← Except.ok.inj (Except.ok.inj heq)]

/-- What a round does to a loop that goes on. -/
theorem Persistent.step_spec (h : loop.Inv assignment count) (input : PersistentInput) :
    (loop.step assignment input).Inv assignment count ∧
      Persistent.Adds (loop.passesOn assignment input) loop.ledger.acts
        (loop.step assignment input).ledger.acts := by
  have hfinish (waited : Except String ExitStatus) (hnone : loop.passesOn assignment input = none) :
      (loop.finishEof waited).Inv assignment count ∧
        Persistent.Adds (loop.passesOn assignment input) loop.ledger.acts
          (loop.finishEof waited).ledger.acts := by
    obtain ⟨hinv, hledger⟩ := finishEof_inv h waited
    rw [hledger]
    exact ⟨hinv, .nothing hnone⟩
  unfold step
  split
  · rename_i finish hended
    refine ⟨h, .nothing ?_⟩
    unfold passesOn
    split
    · split
      · exact if_neg fun hall => by
          rw [hended] at hall
          exact absurd hall.1 nofun
      · rfl
    · rfl
  rename_i hgoes
  split
  · exact hfinish _ rfl
  · split
    · exact ⟨h.terminate _, .nothing rfl⟩
    · rename_i written hfirst
      rw [Bool.not_eq_true] at hfirst
      have hcancelled (cancel : ScriptFrame) :
          true = (loop.ledger.acts ++ [Act.cancel cancel]).any Act.isCancel := by
        rw [any_append]
        exact (Bool.or_true _).symm
      have hsent (cancel : ScriptFrame) := send_inv { loop with cancelRequested := true }
        written (h.recorded.cancel cancel) h.count_eq (hcancelled cancel) hgoes
      refine ⟨(hsent _).1, ?_⟩
      dsimp only
      rw [(hsent _).2]
      exact .cancel rfl _
  · exact hfinish _ rfl
  · exact ⟨h.terminate _, .nothing rfl⟩
  · rename_i received handling waited
    split
    · rename_i requestInvocationId requestId request hpayload
      exact handleRequest_spec h hgoes hpayload
    · rename_i result hpayload
      have hnone : loop.passesOn assignment (.received (.frame received) handling waited) =
          none := by
        unfold passesOn
        simp only [hpayload]
      obtain ⟨hinv, hledger⟩ := handleResult_inv h received.frameId result
      rw [hledger]
      exact ⟨hinv, .nothing hnone⟩
    · rename_i hrequest _
      have hnone : loop.passesOn assignment (.received (.frame received) handling waited) =
          none := by
        unfold passesOn
        dsimp only
        split
        · rename_i hpayload
          exact absurd hpayload (hrequest _ _ _)
        · rfl
      exact ⟨h.terminate _, .nothing hnone⟩

/-- The record of a round is kept, and it stays prompt exactly when the request that is passed on
is in time. -/
lemma Persistent.Adds.prompt {passed : Option Handling} {acts acts' : List Act}
    (h : Persistent.Adds passed acts acts') :
    Prompt assignment.deadline acts' ↔ Prompt assignment.deadline acts ∧
      ∀ handling, passed = some handling →
        handling.elapsed < assignment.deadline ∧ acts.any Act.isCancel = false := by
  cases h with
  | nothing hnone =>
    rw [hnone]
    exact ⟨fun h => ⟨h, fun _ heq => by injection heq⟩, fun h => h.1⟩
  | cancel hnone frame =>
    rw [hnone]
    exact ⟨fun h => ⟨h.of_append, fun _ heq => by injection heq⟩, fun h => h.1.cancel frame⟩
  | call hsome call hat frame =>
    rw [hsome]
    constructor
    · intro h
      refine ⟨h.of_append, ?_⟩
      rintro handling heq
      cases heq
      rw [← hat]
      exact h.last
    · rintro ⟨hprompt, hintime⟩
      obtain ⟨hearly, hquiet⟩ := hintime _ rfl
      rw [← hat] at hearly
      have hcalled : Prompt assignment.deadline (acts ++ [.call call]) := by
        refine hprompt.concat _ fun other heq => ?_
        obtain rfl := Act.call.inj heq
        exact ⟨hearly, hquiet⟩
      have hall := hcalled.respond frame
      rw [append_assoc] at hall
      exact hall

lemma Persistent.ended_of_passesOn {input : PersistentInput}
    (h : loop.passesOn assignment input = some handling) : loop.ended = none := by
  unfold passesOn at h
  split at h
  · split at h
    · split at h
      · rename_i hall
        exact Option.isNone_iff_eq_none.mp hall.1
      · cases h
    · cases h
  · cases h

/-- A round keeps the record prompt exactly when it is in time. -/
lemma Persistent.step_prompt (h : loop.Inv assignment count) (input : PersistentInput) :
    Prompt assignment.deadline (loop.step assignment input).ledger.acts ↔
      Prompt assignment.deadline loop.ledger.acts ∧ loop.InTime assignment input := by
  rw [(step_spec h input).2.prompt]
  refine and_congr_right fun _ => forall_congr' fun handling => ?_
  refine imp_congr_right fun hpassed => ?_
  rw [h.cancelled (ended_of_passesOn hpassed)]

end

/-! ## Both -/

lemma OneShot.reported {assignment : Assignment} {loop : OneShot} {result : SupervisedResult}
    (h : loop.finish assignment waited = some (.ok result)) :
    result.brokerOperationIds = loop.ledger.brokerOperationIds := by
  unfold OneShot.finish at h
  split at h
  · cases h
  · cases h
  rw [Option.some.injEq] at h
  split at h
  · cases h
  split at h
  · split at h <;> exact absurd h nofun
  dsimp only at h
  split at h
  · cases h
  split at h
  · split at h
    · cases h
    · rw [← Except.ok.inj h]
  · cases h

/-- The calls and answers of a loop are in order, are recorded in its operations, and keep the
limits of the invocation in number and in time. -/
structure Disciplined (assignment : Assignment) (responseId : String → String)
    (ledger : Ledger) : Prop where
  dialogue : Dialogue assignment responseId ledger.acts ledger.brokerOperationIds
  withinBudget : WithinBudget assignment ledger.acts
  prompt : Prompt assignment.deadline ledger.acts

/-- Over any input, the loop of `WorkerSupervisor::invoke` calls the broker within the limits of the
invocation. The loop of the persistent client does so exactly when no request reaches it at the
deadline or later or after its cancel frame. -/
theorem broker_calls (assignment : Assignment) :
    (∀ inputs : List OneShotInput,
      let loop := Lib.run (OneShot.step assignment) .start inputs
      Disciplined assignment oneShotResponseId loop.ledger ∧
        ∀ waited result, loop.finish assignment waited = some (.ok result) →
          result.brokerOperationIds = loop.ledger.brokerOperationIds) ∧
    ∀ (client : PersistentWorkerClient) (rounds : List PersistentInput),
      let loop := Lib.run (step assignment) (.start client) rounds
      (Disciplined assignment (persistentResponseId client.invocationCount) loop.ledger ∧
        ∀ result, loop.ended = some (.ok (.ok result)) →
          result.brokerOperationIds = loop.ledger.brokerOperationIds) ↔
      Throughout (step assignment) (Persistent.InTime assignment) (.start client)
        rounds := by
  constructor
  · intro inputs loop
    have hinv := OneShot.run_inv assignment inputs
    exact ⟨⟨hinv.recorded.dialogue, hinv.recorded.withinBudget, hinv.prompt⟩,
      fun waited result hfinish => OneShot.reported hfinish⟩
  · intro client rounds loop
    have hstep (loop : Persistent) (input : PersistentInput)
        (h : loop.Inv assignment client.invocationCount) :
        (loop.step assignment input).Inv assignment client.invocationCount :=
      (step_spec h input).1
    have hstart : (start client).Inv assignment client.invocationCount :=
      inv_start client
    have hinv : loop.Inv assignment client.invocationCount :=
      run_invariant hstep hstart rounds
    have hprompt : Prompt assignment.deadline loop.ledger.acts ↔ _ :=
      run_iff_throughout (Q := fun loop => Prompt assignment.deadline loop.ledger.acts) hstep
        (fun loop input h => step_prompt h input) hstart
    constructor
    · rintro ⟨hdisciplined, -⟩
      exact (hprompt.mp hdisciplined.prompt).2
    · intro hintime
      exact ⟨⟨hinv.recorded.dialogue, hinv.recorded.withinBudget,
        hprompt.mpr ⟨prompt_nil, hintime⟩⟩, hinv.reported⟩

/-- An invocation with ten milliseconds. -/
def shortAssignment : Assignment :=
  ⟨⟨"call", .run, ⟨1, 64, 1000⟩⟩, 10, 7, fun _ => some 2⟩

/-- The deadline passes, and then the worker asks for an operation. -/
def lateRequest : List PersistentInput :=
  [.timeout (.ok ()), .received (.frame (frame "call-broker-1" (.brokerRequest "call" "broker-1"
    ⟨"fleet.call", some "close"⟩))) ⟨11, ⟨true, none, none⟩, 12, .ok ()⟩ (.ok ⟨some 0⟩)]

/-- The closure is called for a request that comes after the deadline and the cancel frame. -/
theorem late_request_called :
    ¬ Disciplined shortAssignment (persistentResponseId 0)
      (Lib.run (step shortAssignment) (.start (.spawned 7)) lateRequest).ledger := by
  intro h
  have hcall : Act.call ⟨"call", "broker-1", ⟨"fleet.call", some "close"⟩, 0, 11,
      ⟨true, none, none⟩⟩ ∈ (Lib.run (step shortAssignment) (.start (.spawned 7))
        lateRequest).ledger.acts := by decide
  have hearly := h.prompt.early _ hcall
  exact absurd hearly (by decide)

end Agenterm.Worker
