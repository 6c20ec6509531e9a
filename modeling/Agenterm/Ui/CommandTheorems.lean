import Agenterm.Ui.Command
import Agenterm.Lib.Digits
import Agenterm.Lib.Run

/-!
# The invariant of the UI command queue

`QueueRun` is a queue together with everything it was given and everything it handed out.
`Sound` ties the five collections of the queue to these two lists: what is pending or was
polled is, in order, part of what was enqueued; in-flight and completed ids were polled. Since
the enqueued ids are distinct as long as the counter has not saturated, the collections are
disjoint. `step_sound` is the step lemma, `queue_invariant` the result about runs, and
`queue_id_repeats` shows why the number of commands has to be bounded.
-/

namespace Agenterm

open List Lib AList

/-- The calls a queue receives. -/
inductive QueueOp where
  | enqueue (args : List String)
  | poll
  | recordPreapplied (commandId : String) (response : IpcResponse)
  | discardPending (commandId : String)
  | complete (commandId responseJson : String)
  | result (commandId : String)
  | replaceCompleted (commandId : String) (response : IpcResponse)
  | clearActive

def QueueOp.isEnqueue : QueueOp → Bool
  | enqueue _ => true
  | _ => false

inductive QueueAnswer where
  | enqueued (answer : Except String String)
  | polled (command : Option UiClientCommand)
  | recorded (answer : Except String Unit)
  | discarded (found : Bool)
  | completed (answer : Except String IpcResponse)
  | status (result : UiClientCommandResult)
  | cleared

def QueueAnswer.IsError : QueueAnswer → Prop
  | enqueued (.error _) => True
  | recorded (.error _) => True
  | completed (.error _) => True
  | _ => False

variable {answer : QueueAnswer} {id identity input : String} {op : QueueOp}
  {q : UiClientCommandQueue} {response : IpcResponse}

namespace UiClientCommandQueue

def call (codec : ResponseCodec) (q : UiClientCommandQueue) :
    QueueOp → QueueAnswer × UiClientCommandQueue
  | .enqueue args => (.enqueued (q.enqueue args).1, (q.enqueue args).2)
  | .poll => (.polled q.poll.1, q.poll.2)
  | .recordPreapplied commandId response =>
    (.recorded (q.recordPreapplied codec commandId response).1,
      (q.recordPreapplied codec commandId response).2)
  | .discardPending commandId =>
    (.discarded (q.discardPending commandId).1, (q.discardPending commandId).2)
  | .complete commandId responseJson =>
    (.completed (q.complete codec commandId responseJson).1,
      (q.complete codec commandId responseJson).2)
  | .result commandId => (.status (q.result commandId), q)
  | .replaceCompleted commandId response =>
    (.recorded (q.replaceCompleted codec commandId response).1,
      (q.replaceCompleted codec commandId response).2)
  | .clearActive => (.cleared, q.clearActive)

def pendingIds (q : UiClientCommandQueue) : List String :=
  q.pending.map UiClientCommand.commandId

def completedIds (q : UiClientCommandQueue) : List String := q.completed.map Prod.fst

lemma commandId_inj {m n : Nat} (h : commandId identity m = commandId identity n) : m = n := by
  have hlist := congrArg String.toList h
  simp only [commandId, String.toList_append, Nat.toString_eq_repr, Nat.toList_repr] at hlist
  have hdigits : identity.toList ++ '-' :: Nat.toDigits 10 m
      = identity.toList ++ '-' :: Nat.toDigits 10 n := by
    simpa using hlist
  exact append_hyphen_inj (by decide) (by decide) hdigits

/-- The command that the next `enqueue` of these arguments appends. -/
def nextCommand (q : UiClientCommandQueue) (args : List String) : UiClientCommand :=
  { schemaVersion := uiClientCommandSchemaVersion
    commandId := commandId q.identity q.nextId
    args }

/-! ## What each call does -/

/-- Everything a call can do: nothing, or the one change each operation is for. -/
inductive Step (codec : ResponseCodec) (q : UiClientCommandQueue) :
    QueueOp → QueueAnswer → UiClientCommandQueue → Prop
  | same {op : QueueOp} {answer : QueueAnswer}
      (hanswer : ∀ id, answer ≠ .enqueued (.ok id)) (hpolled : ∀ c, answer ≠ .polled (some c)) :
      Step codec q op answer q
  | enqueue {args : List String}
      (hroom : q.pending.length + q.inFlight.keys.length < uiClientCommandQueueLimit) :
      Step codec q (.enqueue args) (.enqueued (.ok (commandId q.identity q.nextId)))
        { q with
          nextId := saturatingAdd q.nextId 1
          pending := q.pending ++ [q.nextCommand args] }
  | poll {command : UiClientCommand} {pending : List UiClientCommand}
      (hpending : q.pending = command :: pending) :
      Step codec q .poll (.polled (some command))
        { q with pending, inFlight := q.inFlight.insert command.commandId command }
  | preapply {id : String} {response : IpcResponse} {encoded : String}
      (hid : id ∈ q.pendingIds) :
      Step codec q (.recordPreapplied id response) (.recorded (.ok ()))
        { q with preapplied := q.preapplied.insert id encoded }
  | discard {id : String} :
      Step codec q (.discardPending id) (.discarded true)
        { q with
          pending := q.pending.eraseP fun command => command.commandId = id
          preapplied := q.preapplied.erase id }
  | complete {id responseJson : String} {response : IpcResponse}
      (hsize : ¬ (responseJson.isEmpty ∨
        responseJson.utf8ByteSize > uiClientCommandResponseMaxBytes))
      (hread : codec.decode responseJson = .ok response) (hid : id ∈ q.inFlight) :
      Step codec q (.complete id responseJson) (.completed (.ok response))
        { q with
          inFlight := q.inFlight.erase id
          preapplied := q.preapplied.erase id
          completed := (trimCompleted (q.completed ++ [(id, responseJson)])
            (q.completionInputs.insert id responseJson)).1
          completionInputs := (trimCompleted (q.completed ++ [(id, responseJson)])
            (q.completionInputs.insert id responseJson)).2 }
  | replace {id : String} {response : IpcResponse} {encoded : String}
      (hencode : codec.encode response = .ok encoded) :
      Step codec q (.replaceCompleted id response) (.recorded (.ok ()))
        { q with
          completed := updateFirst (fun candidate => candidate.1 = id)
            (fun candidate => (candidate.1, encoded)) q.completed }
  | clear : Step codec q .clearActive .cleared q.clearActive

lemma enqueue_step (codec : ResponseCodec) (q : UiClientCommandQueue) (args : List String) :
    Step codec q (.enqueue args) (.enqueued (q.enqueue args).1) (q.enqueue args).2 := by
  unfold enqueue
  split
  · exact .same (by simp) (by simp)
  · split
    · exact .same (by simp) (by simp)
    · rename_i hroom
      exact .enqueue (Nat.lt_of_not_ge hroom)

lemma poll_step (codec : ResponseCodec) (q : UiClientCommandQueue) :
    Step codec q .poll (.polled q.poll.1) q.poll.2 := by
  unfold poll
  split
  · exact .same (by simp) (by simp)
  · rename_i hpending
    exact .poll hpending

lemma recordPreapplied_step (codec : ResponseCodec) (q : UiClientCommandQueue) (id : String)
    (response : IpcResponse) :
    Step codec q (.recordPreapplied id response)
      (.recorded (q.recordPreapplied codec id response).1)
      (q.recordPreapplied codec id response).2 := by
  unfold recordPreapplied
  split
  · exact .same (by simp) (by simp)
  · rename_i hpending
    split
    · exact .same (by simp) (by simp)
    · split
      · exact .same (by simp) (by simp)
      · refine .preapply ?_
        simpa [pendingIds] using hpending

lemma discardPending_step (codec : ResponseCodec) (q : UiClientCommandQueue) (id : String) :
    Step codec q (.discardPending id) (.discarded (q.discardPending id).1)
      (q.discardPending id).2 := by
  unfold discardPending
  split
  · exact .same (by simp) (by simp)
  · rename_i position hposition
    have herase := @List.eraseP_eq_eraseIdx _ q.pending
      fun command => decide (command.commandId = id)
    rw [hposition] at herase
    simp only at herase
    rw [← herase]
    exact .discard

lemma complete_step (codec : ResponseCodec) (q : UiClientCommandQueue)
    (id responseJson : String) :
    Step codec q (.complete id responseJson)
      (.completed (q.complete codec id responseJson).1)
      (q.complete codec id responseJson).2 := by
  unfold complete
  split
  · exact .same (by simp) (by simp)
  · rename_i hsize
    split
    · exact .same (by simp) (by simp)
    · rename_i response hread
      split
      · split
        · exact .same (by simp) (by simp)
        · split
          · exact .same (by simp) (by simp)
          · split
            · exact .same (by simp) (by simp)
            · exact .same (by simp) (by simp)
      · split
        · exact .same (by simp) (by simp)
        · rename_i hflight
          refine .complete hsize hread ?_
          rw [← lookup_isSome, Option.isSome_iff_ne_none]
          simpa using hflight

lemma replaceCompleted_step (codec : ResponseCodec) (q : UiClientCommandQueue) (id : String)
    (response : IpcResponse) :
    Step codec q (.replaceCompleted id response)
      (.recorded (q.replaceCompleted codec id response).1)
      (q.replaceCompleted codec id response).2 := by
  unfold replaceCompleted
  split
  · exact .same (by simp) (by simp)
  · rename_i encoded hencode
    split
    · exact .same (by simp) (by simp)
    · split
      · exact .same (by simp) (by simp)
      · exact .replace hencode

theorem call_step (codec : ResponseCodec) (q : UiClientCommandQueue) (op : QueueOp) :
    Step codec q op (q.call codec op).1 (q.call codec op).2 := by
  cases op with
  | enqueue args => exact enqueue_step codec q args
  | poll => exact poll_step codec q
  | recordPreapplied id response => exact recordPreapplied_step codec q id response
  | discardPending id => exact discardPending_step codec q id
  | complete id responseJson => exact complete_step codec q id responseJson
  | result id => exact .same (by simp [call]) (by simp [call])
  | replaceCompleted id response => exact replaceCompleted_step codec q id response
  | clearActive => exact .clear

/-- A call that returns an error changes nothing. -/
lemma Step.eq_of_isError {codec : ResponseCodec} {q' : UiClientCommandQueue}
    (hstep : Step codec q op answer q') (h : answer.IsError) : q' = q := by
  cases hstep with
  | same => rfl
  | enqueue | poll | preapply | discard | complete | replace | clear => exact absurd h id

/-! ## Trimming the completed list -/

/-- The loop keeps the newest completions. -/
lemma trimCompleted_fst (completed : List (String × String))
    (inputs : AList fun _ : String => String) :
    (trimCompleted completed inputs).1
      = completed.drop (completed.length - uiClientCommandQueueLimit) := by
  induction completed generalizing inputs with
  | nil => rfl
  | cons entry completed ih =>
    unfold trimCompleted
    split
    · rename_i hlong
      have hsub : (entry :: completed).length - uiClientCommandQueueLimit
          = (completed.length - uiClientCommandQueueLimit) + 1 := by
        rw [length_cons]
        omega
      rw [ih, hsub, drop_succ_cons]
    · rename_i hshort
      have hzero : (entry :: completed).length - uiClientCommandQueueLimit = 0 := by
        rw [length_cons]
        omega
      rw [hzero, drop_zero]

/-- The inputs of the dropped completions go, the others stay as they are. -/
lemma lookup_trimCompleted (completed : List (String × String))
    (inputs : AList fun _ : String => String) (id : String) :
    (trimCompleted completed inputs).2.lookup id
      = if id ∈ (completed.take (completed.length - uiClientCommandQueueLimit)).map Prod.fst
          then none else inputs.lookup id := by
  induction completed generalizing inputs with
  | nil => simp [trimCompleted]
  | cons entry completed ih =>
    unfold trimCompleted
    split
    · rename_i hlong
      have hsub : (entry :: completed).length - uiClientCommandQueueLimit
          = (completed.length - uiClientCommandQueueLimit) + 1 := by
        rw [length_cons]
        omega
      rw [ih, hsub, take_succ_cons, map_cons]
      by_cases hid : id = entry.1
      · subst hid
        rw [lookup_erase, ite_self, if_pos mem_cons_self]
      · simp only [lookup_erase_ne hid, mem_cons, or_iff_right hid]
    · rename_i hshort
      have hzero : (entry :: completed).length - uiClientCommandQueueLimit = 0 := by
        rw [length_cons]
        omega
      rw [hzero, take_zero, map_nil, if_neg not_mem_nil]

end UiClientCommandQueue

/-! ## Runs -/

/-- A queue with the commands it was given and the commands it handed out, in order. -/
structure QueueRun where
  queue : UiClientCommandQueue
  enqueued : List UiClientCommand
  polled : List UiClientCommand

namespace QueueRun

open UiClientCommandQueue

def start (identity : String) : QueueRun :=
  { queue := .new identity, enqueued := [], polled := [] }

/-- The run after a call with this answer and this queue. -/
def advance (r : QueueRun) (op : QueueOp) (answer : QueueAnswer)
    (queue : UiClientCommandQueue) : QueueRun :=
  { queue
    enqueued := match op, answer with
      | .enqueue args, .enqueued (.ok _) => r.enqueued ++ [r.queue.nextCommand args]
      | _, _ => r.enqueued
    polled := match answer with
      | .polled (some command) => r.polled ++ [command]
      | _ => r.polled }

def step (codec : ResponseCodec) (r : QueueRun) (op : QueueOp) : QueueRun :=
  r.advance op (r.queue.call codec op).1 (r.queue.call codec op).2

lemma advance_same {r : QueueRun} (hanswer : ∀ id, answer ≠ .enqueued (.ok id))
    (hpolled : ∀ c, answer ≠ .polled (some c)) : r.advance op answer r.queue = r := by
  unfold advance
  split
  · exact absurd rfl (hanswer _)
  · split
    · exact absurd rfl (hpolled _)
    · rfl

/-- The queue, against the lists of what came in and what went out. -/
structure Sound (codec : ResponseCodec) (r : QueueRun) : Prop where
  /-- Commands are numbered from one; the counter stops at its largest value. -/
  nextId_eq : r.queue.nextId = min (r.enqueued.length + 1) u64Max
  numbered : r.enqueued.map UiClientCommand.commandId
    = (List.range' 1 r.enqueued.length).map (commandId r.queue.identity)
  order : (r.polled ++ r.queue.pending).Sublist r.enqueued
  inFlight_polled : ∀ id ∈ r.queue.inFlight, id ∈ r.polled.map UiClientCommand.commandId
  completed_polled : ∀ id ∈ r.queue.completedIds, id ∈ r.polled.map UiClientCommand.commandId
  inFlight_not_completed : ∀ id ∈ r.queue.inFlight, id ∉ r.queue.completedIds
  completed_nodup : r.queue.completedIds.Nodup
  active_le : r.queue.pending.length + r.queue.inFlight.keys.length ≤ uiClientCommandQueueLimit
  completed_le : r.queue.completed.length ≤ uiClientCommandQueueLimit
  inputs_iff : ∀ id, id ∈ r.queue.completionInputs ↔ id ∈ r.queue.completedIds
  preapplied_active : ∀ id ∈ r.queue.preapplied, id ∈ r.queue.pendingIds ∨ id ∈ r.queue.inFlight
  /-- A recorded input passed the checks of `complete`. -/
  inputs_read : ∀ id input, r.queue.completionInputs.lookup id = some input →
    ¬ (input.isEmpty ∨ input.utf8ByteSize > uiClientCommandResponseMaxBytes) ∧
      ∃ response, codec.decode input = .ok response
  completed_read : ∀ entry ∈ r.queue.completed, ∃ response, codec.decode entry.2 = .ok response

lemma sound_start (codec : ResponseCodec) (identity : String) :
    Sound codec (start identity) where
  nextId_eq := rfl
  numbered := rfl
  order := List.Sublist.refl _
  inFlight_polled := by simp [start, new]
  completed_polled := by simp [start, new, completedIds]
  inFlight_not_completed := by simp [start, new]
  completed_nodup := nodup_nil
  active_le := Nat.zero_le _
  completed_le := Nat.zero_le _
  inputs_iff := by simp [start, new, completedIds]
  preapplied_active := by simp [start, new]
  inputs_read := by simp [start, new]
  completed_read := by simp [start, new]

section
variable {codec : ResponseCodec} {r : QueueRun}

/-- Before the counter saturates, no two commands got the same id. -/
lemma Sound.enqueued_nodup (h : Sound codec r) :
    (r.enqueued.map UiClientCommand.commandId).Nodup := by
  rw [h.numbered]
  exact (nodup_range' 1).map fun _ _ => commandId_inj

/-- What is pending has not been polled. -/
lemma Sound.pending_not_polled (h : Sound codec r) (hid : id ∈ r.queue.pendingIds) :
    id ∉ r.polled.map UiClientCommand.commandId := by
  have hnodup := (h.order.map UiClientCommand.commandId).nodup h.enqueued_nodup
  rw [map_append, nodup_append] at hnodup
  intro hpolled
  exact hnodup.2.2 id hpolled id hid rfl

lemma Sound.pending_nodup (h : Sound codec r) : r.queue.pendingIds.Nodup := by
  have hnodup := (h.order.map UiClientCommand.commandId).nodup h.enqueued_nodup
  rw [map_append, nodup_append] at hnodup
  exact hnodup.2.1

/-! ## One lemma per operation -/

lemma Sound.enqueue (h : Sound codec r) (args : List String) (id : String)
    (hroom : r.queue.pending.length + r.queue.inFlight.keys.length < uiClientCommandQueueLimit)
    (hfew : r.enqueued.length < u64Max) :
    Sound codec (r.advance (.enqueue args) (.enqueued (.ok id))
      { r.queue with
        nextId := saturatingAdd r.queue.nextId 1
        pending := r.queue.pending ++ [r.queue.nextCommand args] }) where
  nextId_eq := by
    simp only [advance, length_append, length_singleton, h.nextId_eq, saturatingAdd]
    omega
  numbered := by
    have hnext : r.queue.nextId = 1 + r.enqueued.length := by
      rw [h.nextId_eq]
      omega
    simp only [advance, map_append, h.numbered, length_append, length_singleton,
      List.range'_concat, map_cons, map_nil, nextCommand, hnext, Nat.one_mul]
  order := by
    simp only [advance, ← append_assoc]
    exact h.order.append (List.Sublist.refl _)
  inFlight_polled := h.inFlight_polled
  completed_polled := h.completed_polled
  inFlight_not_completed := h.inFlight_not_completed
  completed_nodup := h.completed_nodup
  active_le := by
    simp only [advance, length_append, length_singleton]
    omega
  completed_le := h.completed_le
  inputs_iff := h.inputs_iff
  preapplied_active := by
    intro id' hid'
    rcases h.preapplied_active id' hid' with hpending | hflight
    · left
      simp only [advance, pendingIds, map_append, mem_append]
      exact .inl hpending
    · exact .inr hflight
  inputs_read := h.inputs_read
  completed_read := h.completed_read

/-- A command that is polled goes from the pending ones to those in flight. -/
lemma Sound.poll (h : Sound codec r) {command : UiClientCommand}
    {pending : List UiClientCommand} (hpending : r.queue.pending = command :: pending) :
    Sound codec (r.advance .poll (.polled (some command))
      { r.queue with
        pending, inFlight := r.queue.inFlight.insert command.commandId command }) where
  nextId_eq := h.nextId_eq
  numbered := h.numbered
  order := by
    have horder := h.order
    rw [hpending] at horder
    simpa [advance] using horder
  inFlight_polled := by
    intro id hid
    simp only [advance, map_append, mem_append, map_cons, map_nil,
      mem_singleton]
    rcases (mem_insert _).mp hid with rfl | hold
    · exact .inr rfl
    · exact .inl (h.inFlight_polled id hold)
  completed_polled := by
    intro id hid
    simp only [advance, map_append, mem_append]
    exact .inl (h.completed_polled id hid)
  inFlight_not_completed := by
    intro id hid hdone
    rcases (mem_insert _).mp hid with rfl | hold
    · have hmem : command.commandId ∈ r.queue.pendingIds := by
        rw [pendingIds, hpending, map_cons]
        exact mem_cons_self
      exact h.pending_not_polled hmem (h.completed_polled _ hdone)
    · exact h.inFlight_not_completed id hold hdone
  completed_nodup := h.completed_nodup
  active_le := by
    have hle := h.active_le
    have herase := length_erase_le (a := command.commandId) (l := r.queue.inFlight.keys)
    rw [hpending, length_cons] at hle
    simp only [advance, keys_insert, length_cons]
    omega
  completed_le := h.completed_le
  inputs_iff := h.inputs_iff
  preapplied_active := by
    intro id hid
    have hor := h.preapplied_active id hid
    rw [pendingIds, hpending, map_cons, mem_cons] at hor
    simp only [advance, mem_insert]
    rcases hor with (rfl | hlater) | hflight
    · exact .inr (.inl rfl)
    · exact .inl hlater
    · exact .inr (.inr hflight)
  inputs_read := h.inputs_read
  completed_read := h.completed_read

lemma Sound.preapply (h : Sound codec r) (hid : id ∈ r.queue.pendingIds) (response : IpcResponse)
    (encoded : String) :
    Sound codec (r.advance (.recordPreapplied id response) (.recorded (.ok ()))
      { r.queue with preapplied := r.queue.preapplied.insert id encoded }) :=
  { h with
    preapplied_active := by
      intro id' hid'
      rcases (mem_insert _).mp hid' with rfl | hold
      · exact .inl hid
      · exact h.preapplied_active id' hold }

lemma Sound.discard (h : Sound codec r) (id : String) :
    Sound codec (r.advance (.discardPending id) (.discarded true)
      { r.queue with
        pending := r.queue.pending.eraseP fun command => command.commandId = id
        preapplied := r.queue.preapplied.erase id }) :=
  { h with
    order := (List.Sublist.append_left eraseP_sublist r.polled).trans h.order
    active_le := by
      have hle := h.active_le
      have herase := (eraseP_sublist (l := r.queue.pending)
        (p := fun command => decide (command.commandId = id))).length_le
      simp only [advance]
      omega
    preapplied_active := by
      intro id' hid'
      obtain ⟨hne, hold⟩ := mem_erase.mp hid'
      rcases h.preapplied_active id' hold with hpending | hflight
      · left
        obtain ⟨command, hmem, rfl⟩ := mem_map.mp hpending
        exact mem_map_of_mem ((mem_eraseP_of_neg (by simpa using hne)).mpr hmem)
      · exact .inr hflight }

lemma Sound.clear (h : Sound codec r) :
    Sound codec (r.advance .clearActive .cleared r.queue.clearActive) :=
  { h with
    order := by
      simp only [advance, clearActive, append_nil]
      exact (sublist_append_left _ _).trans h.order
    inFlight_polled := by simp [advance, clearActive]
    inFlight_not_completed := by simp [advance, clearActive]
    active_le := Nat.zero_le _
    preapplied_active := by simp [advance, clearActive] }

lemma Sound.replace (h : Sound codec r) (id : String) (response : IpcResponse)
    {encoded : String} (hread : ∃ read, codec.decode encoded = .ok read) :
    Sound codec (r.advance (.replaceCompleted id response) (.recorded (.ok ()))
      { r.queue with
        completed := updateFirst (fun candidate => candidate.1 = id)
          (fun candidate => (candidate.1, encoded)) r.queue.completed }) := by
  have hids : (updateFirst (fun candidate => decide (candidate.1 = id))
      (fun candidate => (candidate.1, encoded)) r.queue.completed).map Prod.fst
      = r.queue.completedIds := by
    apply map_updateFirst
    intro candidate _
    rfl
  exact
    { h with
      completed_polled := by
        simp only [advance, completedIds, hids]
        exact h.completed_polled
      inFlight_not_completed := by
        simp only [advance, completedIds, hids]
        exact h.inFlight_not_completed
      completed_nodup := by
        simp only [advance, completedIds, hids]
        exact h.completed_nodup
      completed_le := by
        simp only [advance, length_updateFirst]
        exact h.completed_le
      inputs_iff := by
        simp only [advance, completedIds, hids]
        exact h.inputs_iff
      completed_read := by
        intro entry hentry
        rcases mem_updateFirst hentry with hold | ⟨candidate, -, rfl⟩
        · exact h.completed_read entry hold
        · exact hread }

/-- The ids that stay when a completion is appended and the list trimmed. -/
lemma completedIds_trim (completed : List (String × String))
    (inputs : AList fun _ : String => String) :
    (trimCompleted completed inputs).1.map Prod.fst
      = (completed.map Prod.fst).drop (completed.length - uiClientCommandQueueLimit) := by
  rw [trimCompleted_fst, map_drop]

/-- A response of a command in flight is recorded: its id leaves the flight, and of the completions
only the oldest can go, with its input. -/
lemma Sound.complete (h : Sound codec r) {responseJson : String}
    (hsize : ¬ (responseJson.isEmpty ∨
      responseJson.utf8ByteSize > uiClientCommandResponseMaxBytes))
    (hread : codec.decode responseJson = .ok response) (hid : id ∈ r.queue.inFlight) :
    Sound codec (r.advance (.complete id responseJson) (.completed (.ok response))
      { r.queue with
        inFlight := r.queue.inFlight.erase id
        preapplied := r.queue.preapplied.erase id
        completed := (trimCompleted (r.queue.completed ++ [(id, responseJson)])
          (r.queue.completionInputs.insert id responseJson)).1
        completionInputs := (trimCompleted (r.queue.completed ++ [(id, responseJson)])
          (r.queue.completionInputs.insert id responseJson)).2 }) := by
  have hids : (r.queue.completed ++ [(id, responseJson)]).map Prod.fst
      = r.queue.completedIds ++ [id] := by simp [completedIds]
  have hnodup : (r.queue.completedIds ++ [id]).Nodup := by
    rw [nodup_append]
    refine ⟨h.completed_nodup, nodup_singleton id, ?_⟩
    rintro done hdone _ hnew rfl
    exact h.inFlight_not_completed _ hid (mem_singleton.mp hnew ▸ hdone)
  have hkept : ∀ id' ∈ (trimCompleted (r.queue.completed ++ [(id, responseJson)])
      (r.queue.completionInputs.insert id responseJson)).1.map Prod.fst,
      id' ∈ r.queue.completedIds ∨ id' = id := by
    intro id' hid'
    rw [completedIds_trim, hids] at hid'
    simpa using mem_of_mem_drop hid'
  refine
    { h with
      inFlight_polled := fun id' hid' => h.inFlight_polled id' (mem_erase.mp hid').2
      completed_polled := ?_
      inFlight_not_completed := ?_
      completed_nodup := ?_
      active_le := ?_
      completed_le := ?_
      inputs_iff := ?_
      preapplied_active := ?_
      inputs_read := ?_
      completed_read := ?_ }
  · intro id' hid'
    rcases hkept id' hid' with hold | rfl
    · exact h.completed_polled id' hold
    · exact h.inFlight_polled id' hid
  · intro id' hid' hdone
    obtain ⟨hne, hflight⟩ := mem_erase.mp hid'
    rcases hkept id' hdone with hold | heq
    · exact h.inFlight_not_completed id' hflight hold
    · exact hne heq
  · simp only [advance, completedIds, completedIds_trim]
    rw [hids]
    exact (drop_sublist _ _).nodup hnodup
  · have hle := h.active_le
    have herase := length_erase_le (a := id) (l := r.queue.inFlight.keys)
    simp only [advance, keys_erase]
    omega
  · have hle := h.completed_le
    simp only [advance, trimCompleted_fst, length_drop]
    omega
  · intro id'
    simp only [advance, completedIds, completedIds_trim]
    rw [← lookup_isSome, lookup_trimCompleted, hids, map_take, hids]
    -- an id is either in the dropped front or in the part that stays
    have hmem : id' ∈ r.queue.completionInputs.insert id responseJson
        ↔ id' ∈ r.queue.completedIds ++ [id] := by
      rw [mem_insert, h.inputs_iff, mem_append, mem_singleton, or_comm]
    generalize (r.queue.completed ++ [(id, responseJson)]).length
      - uiClientCommandQueueLimit = dropped at *
    have hsplit := take_append_drop dropped (r.queue.completedIds ++ [id])
    have hdisjoint := hnodup
    rw [← hsplit, nodup_append] at hdisjoint
    rw [← hsplit, mem_append] at hmem
    split
    · rename_i hfront
      simp only [Option.isSome_none, Bool.false_eq_true, false_iff]
      intro hback
      exact hdisjoint.2.2 id' hfront id' hback rfl
    · rename_i hfront
      rw [lookup_isSome, hmem, or_iff_right hfront]
  · intro id' hid'
    obtain ⟨hne, hold⟩ := mem_erase.mp hid'
    rcases h.preapplied_active id' hold with hpending | hflight
    · exact .inl hpending
    · exact .inr (mem_erase.mpr ⟨hne, hflight⟩)
  · intro id' input hinput
    simp only [advance, lookup_trimCompleted] at hinput
    split at hinput
    · exact absurd hinput (by simp)
    · by_cases heq : id' = id
      · subst heq
        rw [lookup_insert, Option.some.injEq] at hinput
        subst hinput
        exact ⟨hsize, response, hread⟩
      · rw [lookup_insert_ne heq] at hinput
        exact h.inputs_read id' input hinput
  · intro entry hentry
    simp only [advance, trimCompleted_fst] at hentry
    rcases mem_append.mp (mem_of_mem_drop hentry) with hold | hnew
    · exact h.completed_read entry hold
    · rw [mem_singleton.mp hnew]
      exact ⟨response, hread⟩

/-! ## Steps and runs -/

/-- One call keeps the invariant, as long as the counter has numbers left. -/
theorem step_sound (hcodec : codec.ReadsOwn) (h : Sound codec r) (op : QueueOp)
    (hfew : (r.step codec op).enqueued.length ≤ u64Max) : Sound codec (r.step codec op) := by
  unfold step at hfew ⊢
  have hcall := call_step codec r.queue op
  generalize (r.queue.call codec op).1 = answer at *
  generalize (r.queue.call codec op).2 = queue at *
  cases hcall with
  | same hanswer hpolled =>
    rw [advance_same hanswer hpolled]
    exact h
  | enqueue hroom =>
    rename_i args
    simp only [advance, length_append, length_singleton] at hfew
    exact h.enqueue args _ hroom hfew
  | poll hpending => exact h.poll hpending
  | preapply hid => exact h.preapply hid _ _
  | discard => exact h.discard _
  | complete hsize hread hid => exact h.complete hsize hread hid
  | replace hencode => exact h.replace _ _ (hcodec _ _ hencode)
  | clear => exact h.clear

lemma enqueued_length_le_step (codec : ResponseCodec) (r : QueueRun) (op : QueueOp) :
    r.enqueued.length ≤ (r.step codec op).enqueued.length ∧
      (r.step codec op).enqueued.length ≤ r.enqueued.length + [op].countP QueueOp.isEnqueue := by
  unfold step advance
  cases op with
  | enqueue args =>
    simp only [call]
    cases (r.queue.enqueue args).1 with
    | ok id => simp [QueueOp.isEnqueue]
    | error error => simp
  | poll | recordPreapplied | discardPending | complete | result | replaceCompleted
  | clearActive => simp

lemma enqueued_length_le_run (codec : ResponseCodec) (r : QueueRun) (ops : List QueueOp) :
    (run (step codec) r ops).enqueued.length
      ≤ r.enqueued.length + ops.countP QueueOp.isEnqueue := by
  induction ops generalizing r with
  | nil => simp
  | cons op ops ih =>
    have hstep := (enqueued_length_le_step codec r op).2
    have hrest := ih (r.step codec op)
    rw [countP_cons, run_cons]
    rw [countP_singleton] at hstep
    omega

/-- Every run of fewer than `2 ^ 64` enqueue calls is sound. -/
theorem run_sound (hcodec : codec.ReadsOwn) (identity : String) (ops : List QueueOp)
    (hfew : ops.countP QueueOp.isEnqueue ≤ u64Max) :
    Sound codec (run (step codec) (start identity) ops) := by
  have hinv : (run (step codec) (start identity) ops).enqueued.length ≤ u64Max →
      Sound codec (run (step codec) (start identity) ops) := by
    apply run_invariant (P := fun r => r.enqueued.length ≤ u64Max → Sound codec r)
    · intro r op hr hlen
      have hbefore := Nat.le_trans (enqueued_length_le_step codec r op).1 hlen
      exact step_sound hcodec (hr hbefore) op hlen
    · intro _
      exact sound_start codec identity
  apply hinv
  have hlen := enqueued_length_le_run codec (start identity) ops
  rw [start, length_nil, Nat.zero_add] at hlen
  exact Nat.le_trans hlen hfew

/-! ## Completing twice -/

/-- A recorded completion answers a repeat with the recorded response, and refuses any other
input. -/
lemma Sound.complete_again (h : Sound codec r)
    (hinput : r.queue.completionInputs.lookup id = some input) :
    (∃ text recorded, (id, text) ∈ r.queue.completed ∧ codec.decode text = .ok recorded ∧
        r.queue.complete codec id input = (.ok recorded, r.queue)) ∧
      ∀ other, other ≠ input →
        ∃ error, r.queue.complete codec id other = (.error error, r.queue) := by
  obtain ⟨hsize, response, hread⟩ := h.inputs_read id input hinput
  have hdone : id ∈ r.queue.completedIds := by
    rw [← h.inputs_iff, ← lookup_isSome, hinput]
    rfl
  constructor
  · obtain ⟨⟨_, text⟩, hmem, rfl⟩ := mem_map.mp hdone
    obtain ⟨recorded, hrecorded⟩ := h.completed_read _ hmem
    have hfind := find?_key h.completed_nodup hmem rfl
    refine ⟨text, recorded, hmem, hrecorded, ?_⟩
    simp only at hfind hrecorded
    simp only [UiClientCommandQueue.complete, if_neg hsize, hread, hinput, ne_eq,
      not_true_eq_false, if_false, hfind, hrecorded]
  · intro other hother
    unfold UiClientCommandQueue.complete
    split
    · exact ⟨_, rfl⟩
    · split
      · exact ⟨_, rfl⟩
      · simp only [hinput, if_pos (Ne.symm hother)]
        exact ⟨_, rfl⟩

/-- An accepted completion records its own input. -/
lemma Sound.complete_recorded (h : Sound codec r)
    (hok : (r.queue.complete codec id input).1 = .ok response) :
    (r.queue.complete codec id input).2.completionInputs.lookup id = some input := by
  cases hinput : r.queue.completionInputs.lookup id with
  | some previous =>
    -- a repeat: the queue stays, and another input would have been refused
    by_cases hsame : input = previous
    · obtain ⟨_, _, _, _, hagain⟩ := (h.complete_again hinput).1
      rw [hsame, hagain, hinput]
    · obtain ⟨error, herror⟩ := (h.complete_again hinput).2 input hsame
      rw [herror] at hok
      exact absurd hok (by simp)
  | none =>
    have hnew : id ∉ r.queue.completedIds := by
      rw [← h.inputs_iff, ← lookup_isSome, hinput]
      simp
    revert hok
    unfold UiClientCommandQueue.complete
    split
    · simp
    · split
      · simp
      · simp only [hinput]
        split
        · simp
        · intro _
          dsimp only
          rw [lookup_trimCompleted, if_neg, lookup_insert]
          -- the list was within its limit, so the new completion is not among the dropped ones
          intro hfront
          rw [take_append_of_le_length (by
            rw [length_append, length_singleton, uiClientCommandQueueLimit]
            omega), map_take] at hfront
          exact hnew (mem_of_mem_take hfront)

/-- A recorded input stays until its completion is the oldest of a full list and another one is
recorded. -/
lemma Sound.recorded_kept (h : Sound codec r) (op : QueueOp)
    (hinput : r.queue.completionInputs.lookup id = some input) :
    (r.step codec op).queue.completionInputs.lookup id = some input ∨
      r.queue.completedIds.head? = some id ∧
        r.queue.completed.length = uiClientCommandQueueLimit ∧
        id ∉ (r.step codec op).queue.completionInputs := by
  have hdone : id ∈ r.queue.completedIds := by
    rw [← h.inputs_iff, ← lookup_isSome, hinput]
    rfl
  have hcall := call_step codec r.queue op
  show (r.queue.call codec op).2.completionInputs.lookup id = some input ∨
    _ ∧ _ ∧ id ∉ (r.queue.call codec op).2.completionInputs
  generalize (r.queue.call codec op).1 = answer at *
  generalize (r.queue.call codec op).2 = queue at *
  cases hcall with
  | same | enqueue | poll | preapply | discard | replace | clear => exact .inl hinput
  | complete hsize hread hid =>
    rename_i newId responseJson _
    have hne : id ≠ newId := by
      rintro rfl
      exact h.inFlight_not_completed _ hid hdone
    have hle := h.completed_le
    by_cases hfront : id ∈ ((r.queue.completed ++ [(newId, responseJson)]).take
        ((r.queue.completed ++ [(newId, responseJson)]).length
          - uiClientCommandQueueLimit)).map Prod.fst
    · right
      cases hcompleted : r.queue.completed with
      | nil =>
        rw [completedIds, hcompleted] at hdone
        exact absurd hdone not_mem_nil
      | cons entry rest =>
        rw [hcompleted] at hfront hle
        rw [length_append, length_cons, length_singleton] at hfront
        rw [length_cons] at hle
        have hfull : rest.length + 1 = uiClientCommandQueueLimit := by
          by_contra hroom
          rw [Nat.sub_eq_zero_of_le (by omega), take_zero] at hfront
          exact not_mem_nil hfront
        rw [hfull, Nat.add_sub_cancel_left, cons_append, take_succ_cons, take_zero] at hfront
        refine ⟨?_, by rw [length_cons, hfull], ?_⟩
        · rw [completedIds, hcompleted, mem_singleton.mp hfront]
          rfl
        · rw [← lookup_isSome, lookup_trimCompleted, if_pos]
          · simp
          · rw [cons_append, length_cons, length_append, length_singleton, hfull,
              Nat.add_sub_cancel_left, take_succ_cons, take_zero]
            exact hfront
    · left
      dsimp only
      rw [lookup_trimCompleted, if_neg hfront, lookup_insert_ne hne, hinput]

/-- Pending, in-flight and completed ids are all different. -/
lemma Sound.ids_nodup (h : Sound codec r) :
    (r.queue.pendingIds ++ r.queue.inFlight.keys ++ r.queue.completedIds).Nodup := by
  rw [nodup_append, nodup_append]
  refine ⟨⟨h.pending_nodup, r.queue.inFlight.keys_nodup, ?_⟩, h.completed_nodup, ?_⟩
  · rintro id hpending _ hflight rfl
    exact h.pending_not_polled hpending (h.inFlight_polled id (mem_keys.mpr hflight))
  · rintro id hactive _ hdone rfl
    rcases mem_append.mp hactive with hpending | hflight
    · exact h.pending_not_polled hpending (h.completed_polled id hdone)
    · exact h.inFlight_not_completed id (mem_keys.mpr hflight) hdone

end

/-- **The queue invariant.** In every run with fewer than `2 ^ 64` enqueue calls: no id is in
two of the collections, the limits are kept, the recorded inputs belong to the completed ids
and the preapplied ones to active ids; commands are handed out in the order they came in; a
completion records its input, can be repeated but not changed while it is recorded, and is
recorded until it is the oldest of a full list and another comes; a call that fails changes
nothing. -/
theorem queue_invariant (codec : ResponseCodec) (hcodec : codec.ReadsOwn) (identity : String)
    (ops : List QueueOp) (hfew : ops.countP QueueOp.isEnqueue < 2 ^ 64) (r : QueueRun)
    (hr : r = run (step codec) (start identity) ops) :
    (r.queue.pendingIds ++ r.queue.inFlight.keys ++ r.queue.completedIds).Nodup ∧
      r.queue.pending.length + r.queue.inFlight.keys.length ≤ uiClientCommandQueueLimit ∧
      r.queue.completed.length ≤ uiClientCommandQueueLimit ∧
      (∀ id, id ∈ r.queue.completionInputs ↔ id ∈ r.queue.completedIds) ∧
      (∀ id ∈ r.queue.preapplied, id ∈ r.queue.pendingIds ∨ id ∈ r.queue.inFlight) ∧
      (r.enqueued.map UiClientCommand.commandId).Nodup ∧
      (r.polled ++ r.queue.pending).Sublist r.enqueued ∧
      (∀ id input, r.queue.completionInputs.lookup id = some input →
        (∃ text recorded, (id, text) ∈ r.queue.completed ∧ codec.decode text = .ok recorded ∧
          r.queue.complete codec id input = (.ok recorded, r.queue)) ∧
        ∀ other, other ≠ input →
          ∃ error, r.queue.complete codec id other = (.error error, r.queue)) ∧
      (∀ id input response, (r.queue.complete codec id input).1 = .ok response →
        (r.queue.complete codec id input).2.completionInputs.lookup id = some input) ∧
      (∀ op id input, r.queue.completionInputs.lookup id = some input →
        (r.step codec op).queue.completionInputs.lookup id = some input ∨
          r.queue.completedIds.head? = some id ∧
            r.queue.completed.length = uiClientCommandQueueLimit ∧
            id ∉ (r.step codec op).queue.completionInputs) ∧
      ∀ op, (r.queue.call codec op).1.IsError → (r.queue.call codec op).2 = r.queue := by
  have h : Sound codec r := hr ▸ run_sound hcodec identity ops (Nat.le_pred_of_lt hfew)
  exact ⟨h.ids_nodup, h.active_le, h.completed_le, h.inputs_iff, h.preapplied_active,
    h.enqueued_nodup, h.order, fun id input => h.complete_again,
    fun id input response => h.complete_recorded, fun op id input => h.recorded_kept op,
    fun op => (call_step codec r.queue op).eq_of_isError⟩

/-- The JSON text of `IpcResponse.success ""`. -/
def sampleJson : String :=
  "\x7b\"ok\":true,\"output\":\"\",\"error\":\"\",\"retryable\":false\x7d"

/-- The coding of the one response the samples use. -/
def sampleCodec : ResponseCodec where
  encode response :=
    if response.ok && response.output == "" && response.error == "" &&
        response.errorCode == "" && response.errorCategory == "" && !response.retryable &&
        response.receipt.isNone then
      .ok sampleJson
    else
      .error "not a sample"
  decode text :=
    if text = sampleJson then
      .ok (.success "")
    else
      .error "expected value at line 1 column 1"

lemma sampleCodec_readsOwn : sampleCodec.ReadsOwn := by
  intro response text h
  simp only [sampleCodec] at h ⊢
  split at h
  · cases h
    exact ⟨_, if_pos rfl⟩
  · exact absurd h (by simp)

/-- A command is enqueued, polled and completed; the repeated completion gets the recorded
response. -/
theorem queue_invariant_one_command :
    ∃ r : QueueRun,
      r = run (step sampleCodec) (start "epoch")
        [.enqueue ["ui-action", "toggle-tabs"], .poll, .complete "epoch-1" sampleJson] ∧
      r.queue.completedIds = ["epoch-1"] ∧
      ∃ error, r.queue.complete sampleCodec "epoch-1" "\x7b\x7d" = (.error error, r.queue) := by
  refine ⟨_, rfl, by decide, ?_⟩
  obtain ⟨-, -, -, -, -, -, -, hagain, -⟩ := queue_invariant sampleCodec sampleCodec_readsOwn
    "epoch" [.enqueue ["ui-action", "toggle-tabs"], .poll, .complete "epoch-1" sampleJson]
    (by decide) _ rfl
  exact (hagain "epoch-1" sampleJson (by decide)).2 "\x7b\x7d" (by decide)

/-! ## When the counter is exhausted -/

/-- `n` rounds of a command that is dropped again with the client's lease. -/
def idleRounds (n : Nat) : List QueueOp :=
  (List.replicate n [QueueOp.enqueue ["ui-snapshot"], .clearActive]).flatten

/-- A queue that has never handed out anything, with its counter at `n`. -/
def idleQueue (identity : String) (n : Nat) : UiClientCommandQueue :=
  { UiClientCommandQueue.new identity with nextId := n }

lemma enqueue_idle (identity : String) (n : Nat) :
    (idleQueue identity n).enqueue ["ui-snapshot"]
      = (.ok (commandId identity n),
          { idleQueue identity (saturatingAdd n 1) with
            pending := [(idleQueue identity n).nextCommand ["ui-snapshot"]] }) := by
  have hvalid : validateArgs ["ui-snapshot"] = .ok () := by decide
  simp only [UiClientCommandQueue.enqueue, hvalid]
  rfl

lemma run_idleRounds (codec : ResponseCodec) (identity : String) {r : QueueRun} (n k : Nat)
    (hr : r.queue = idleQueue identity k) (hk : k ≤ u64Max) :
    (run (step codec) r (idleRounds n)).queue = idleQueue identity (min (k + n) u64Max) := by
  induction n generalizing r k with
  | zero =>
    rw [Nat.add_zero, Nat.min_eq_left hk]
    exact hr
  | succ n ih =>
    have hround : ((r.step codec (.enqueue ["ui-snapshot"])).step codec .clearActive).queue
        = idleQueue identity (saturatingAdd k 1) := by
      simp only [step, advance, call, hr, enqueue_idle]
      rfl
    have hmin : min (saturatingAdd k 1 + n) u64Max = min (k + (n + 1)) u64Max := by
      simp only [saturatingAdd]
      omega
    have hrest := ih (saturatingAdd k 1) hround (Nat.min_le_right _ _)
    rw [hmin] at hrest
    exact hrest

/-- Once the counter is at its last value, two commands get the same id. -/
lemma id_repeats_of_exhausted (codec : ResponseCodec) {r : QueueRun}
    (hr : r.queue = idleQueue identity u64Max) :
    commandId identity u64Max ∈ (run (step codec) r
        [.enqueue ["ui-snapshot"], .poll, .enqueue ["ui-snapshot"]]).queue.pendingIds ∧
      commandId identity u64Max ∈ (run (step codec) r
        [.enqueue ["ui-snapshot"], .poll, .enqueue ["ui-snapshot"]]).queue.inFlight := by
  have hvalid : validateArgs ["ui-snapshot"] = .ok () := by decide
  have hstay : saturatingAdd u64Max 1 = u64Max := by decide
  simp only [run_cons, run_nil, step, advance, call, hr, enqueue_idle, hstay,
    UiClientCommandQueue.poll]
  generalize hq : UiClientCommandQueue.mk _ _ _ _ _ _ _ = q
  have hroom : ¬ q.pending.length + q.inFlight.keys.length ≥ uiClientCommandQueueLimit := by
    rw [← hq]
    simp only [idleQueue, UiClientCommandQueue.new, keys_insert, keys_empty,
      erase_nil, length_nil, length_singleton]
    decide
  simp only [UiClientCommandQueue.enqueue, hvalid, if_neg hroom]
  subst hq
  exact ⟨mem_cons_self, (mem_insert _).mpr (.inl rfl)⟩

/-- The operations that exhaust the counter, and then hand out two commands. -/
def exhaustingOps : List QueueOp :=
  idleRounds (u64Max - 1) ++ [.enqueue ["ui-snapshot"], .poll, .enqueue ["ui-snapshot"]]

/-- The command with the number `n` is enqueued, polled and completed. -/
def completingRound (n : Nat) : List QueueOp :=
  [.enqueue ["ui-snapshot"], .poll, .complete (commandId "epoch" n) sampleJson]

/-- One round more than there is room for completions. -/
def evictingOps : List QueueOp :=
  (List.range' 1 (uiClientCommandQueueLimit + 1)).flatMap completingRound

lemma complete_polled (hpending : q.pending = []) (hflight : q.inFlight = ∅)
    (hnew : q.completionInputs.lookup (commandId q.identity q.nextId) = none) :
    ((q.enqueue ["ui-snapshot"]).2.poll.2.complete sampleCodec
        (commandId q.identity q.nextId) sampleJson) = (.ok (.success ""),
      { q with
        nextId := saturatingAdd q.nextId 1
        preapplied := q.preapplied.erase (commandId q.identity q.nextId)
        completed := (trimCompleted (q.completed ++ [(commandId q.identity q.nextId, sampleJson)])
          (q.completionInputs.insert (commandId q.identity q.nextId) sampleJson)).1
        completionInputs :=
          (trimCompleted (q.completed ++ [(commandId q.identity q.nextId, sampleJson)])
            (q.completionInputs.insert (commandId q.identity q.nextId) sampleJson)).2 }) := by
  obtain ⟨identity, nextId, pending, inFlight, preapplied, completed, inputs⟩ := q
  subst hpending hflight
  have hvalid : validateArgs ["ui-snapshot"] = .ok () := by decide
  have hsize : ¬ (sampleJson.isEmpty ∨
      sampleJson.utf8ByteSize > uiClientCommandResponseMaxBytes) := by decide
  have hread : sampleCodec.decode sampleJson = .ok (.success "") := by simp [sampleCodec]
  have hroom : ¬ ([] : List UiClientCommand).length
      + (∅ : AList fun _ : String => UiClientCommand).keys.length
        ≥ uiClientCommandQueueLimit := by decide
  simp only at hnew
  simp only [UiClientCommandQueue.enqueue, hvalid, if_neg hroom, UiClientCommandQueue.poll,
    nil_append, UiClientCommandQueue.complete, if_neg hsize, hread, hnew, lookup_insert]
  have hempty (command : UiClientCommand) :
      (singleton (commandId identity nextId) command : AList fun _ : String =>
        UiClientCommand).erase (commandId identity nextId) = ∅ := ext (kerase_cons_eq rfl)
  simp [hempty]

/-- An id that is neither recorded nor in flight cannot be completed. -/
lemma complete_unknown (hflight : q.inFlight = ∅) (hnone : q.completionInputs.lookup id = none) :
    (q.complete sampleCodec id sampleJson).1 = .error "UI client command is not in flight" := by
  have hsize : ¬ (sampleJson.isEmpty ∨
      sampleJson.utf8ByteSize > uiClientCommandResponseMaxBytes) := by decide
  have hread : sampleCodec.decode sampleJson = .ok (.success "") := by simp [sampleCodec]
  simp only [UiClientCommandQueue.complete, if_neg hsize, hread, hnone, hflight]
  rfl

lemma sound_completingRounds (n : Nat) (hn : n < u64Max) :
    Sound sampleCodec (run (step sampleCodec) (start "epoch")
      ((List.range' 1 n).flatMap completingRound)) := by
  apply run_sound sampleCodec_readsOwn
  rw [countP_flatMap]
  have hone : countP QueueOp.isEnqueue ∘ completingRound = fun _ => 1 := rfl
  rw [hone, map_const', length_range', sum_replicate_nat, Nat.mul_one]
  exact Nat.le_of_lt hn

/-- After `n` rounds nothing is active, and what is still recorded are the last completions. -/
lemma run_completingRounds (n : Nat) (hn : n < u64Max) (r : QueueRun)
    (hr : r = run (step sampleCodec) (start "epoch")
      ((List.range' 1 n).flatMap completingRound)) :
    r.queue.identity = "epoch" ∧ r.queue.nextId = n + 1 ∧ r.queue.pending = [] ∧
      r.queue.inFlight = ∅ ∧
      ∃ gone, gone ++ r.queue.completedIds = (List.range' 1 n).map (commandId "epoch") := by
  induction n generalizing r with
  | zero =>
    subst hr
    exact ⟨rfl, rfl, rfl, rfl, [], rfl⟩
  | succ n ih =>
    have hsound := sound_completingRounds n (by omega)
    obtain ⟨hidentity, hnext, hpending, hflight, gone, hgone⟩ := ih (by omega) _ rfl
    rw [List.range'_concat, flatMap_append, run_append, Nat.one_mul] at hr
    generalize hbefore : run (step sampleCodec) (start "epoch")
      ((List.range' 1 n).flatMap completingRound) = before at *
    have hnew : before.queue.completionInputs.lookup
        (commandId before.queue.identity before.queue.nextId) = none := by
      rw [lookup_eq_none, hsound.inputs_iff, hidentity, hnext]
      intro hdone
      have hmem := hgone ▸ mem_append_right gone hdone
      obtain ⟨m, hm, hsame⟩ := mem_map.mp hmem
      have hlast := commandId_inj hsame
      have hbound := mem_range'_1.mp hm
      omega
    have hround := complete_polled hpending hflight hnew
    rw [hidentity, hnext] at hround
    have hqueue : r.queue = (((before.queue.enqueue ["ui-snapshot"]).2.poll.2.complete sampleCodec
        (commandId "epoch" (n + 1)) sampleJson)).2 := by
      rw [hr, Nat.add_comm 1 n]
      rfl
    rw [hround] at hqueue
    have hsaturating : saturatingAdd (n + 1) 1 = n + 2 := by
      rw [saturatingAdd]
      omega
    refine ⟨by rw [hqueue], by rw [hqueue, hsaturating], by rw [hqueue, hpending],
      by rw [hqueue, hflight], ?_⟩
    refine ⟨gone ++ (before.queue.completedIds ++ [commandId "epoch" (n + 1)]).take
      (before.queue.completed.length + 1 - uiClientCommandQueueLimit), ?_⟩
    rw [hqueue]
    show _ ++ (trimCompleted _ _).1.map Prod.fst = _
    rw [completedIds_trim, map_append, map_cons, map_nil, length_append, length_singleton,
      append_assoc, completedIds, take_append_drop, ← append_assoc]
    rw [completedIds] at hgone
    rw [hgone, List.range'_concat, map_append, map_cons, map_nil, Nat.one_mul, Nat.add_comm 1 n]

/-- The counter saturates, so after `2 ^ 64 - 1` commands one id is pending and in flight at
the same time; and a completion that has left the list cannot be repeated. -/
theorem queue_id_repeats :
    (∃ id, id ∈ (run (step sampleCodec) (start "epoch") exhaustingOps).queue.pendingIds ∧
      id ∈ (run (step sampleCodec) (start "epoch") exhaustingOps).queue.inFlight) ∧
    (∃ response, ((run (step sampleCodec) (start "epoch")
        [.enqueue ["ui-snapshot"], .poll]).queue.complete sampleCodec (commandId "epoch" 1)
          sampleJson).1 = .ok response) ∧
    evictingOps.take 3
      = [.enqueue ["ui-snapshot"], .poll, .complete (commandId "epoch" 1) sampleJson] ∧
    ((run (step sampleCodec) (start "epoch") evictingOps).queue.complete sampleCodec
      (commandId "epoch" 1) sampleJson).1 = .error "UI client command is not in flight" := by
  refine ⟨?_, ⟨.success "", ?_⟩, rfl, ?_⟩
  · have hidle := run_idleRounds sampleCodec "epoch" (r := start "epoch") (u64Max - 1) 1 rfl
      (by decide)
    have hlast : min (1 + (u64Max - 1)) u64Max = u64Max := by decide
    rw [hlast] at hidle
    rw [exhaustingOps, run_append]
    exact ⟨_, id_repeats_of_exhausted sampleCodec hidle⟩
  · exact congrArg Prod.fst (complete_polled (q := .new "epoch") rfl rfl rfl)
  · have hsound := sound_completingRounds (uiClientCommandQueueLimit + 1) (by decide)
    obtain ⟨-, -, -, hflight, gone, hgone⟩ :=
      run_completingRounds (uiClientCommandQueueLimit + 1) (by decide) _ rfl
    rw [← evictingOps] at hsound hflight hgone
    generalize run (step sampleCodec) (start "epoch") evictingOps = r at hsound hflight hgone ⊢
    have hfew := hsound.completed_le
    have hlong := congrArg List.length hgone
    rw [length_append, length_map, length_range', completedIds, length_map] at hlong
    have hdistinct : (gone ++ r.queue.completedIds).Nodup := by
      rw [hgone]
      exact (nodup_range' 1).map fun _ _ => commandId_inj
    cases gone with
    | nil =>
      rw [length_nil] at hlong
      omega
    | cons first gone =>
      -- the first id is among those that went, and so not recorded any more
      have hfirst : first = commandId "epoch" 1 := (cons_eq_cons.mp hgone).1
      have hnone : r.queue.completionInputs.lookup (commandId "epoch" 1) = none := by
        rw [lookup_eq_none, hsound.inputs_iff, ← hfirst]
        exact fun hdone => (nodup_cons.mp hdistinct).1 (mem_append_right _ hdone)
      exact complete_unknown hflight hnone

end QueueRun

end Agenterm
