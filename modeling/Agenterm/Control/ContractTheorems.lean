import Agenterm.Control.Contract
import Agenterm.Lib.Run

/-!
# At-most-once execution in the replay window

The three calls of a window are put behind one step function (`ReplayOp.call`), and `Step` says
once everything a call can do: leave the window alone, append an entry for a new id (after
evicting at most one finalized entry), or store a receipt in the open entry of its id. The
invariant (`Sound`), the life of a single entry (`step_entry`) and the main result
`admit_at_most_once` are read off from that.
-/

namespace Agenterm

open List Lib

/-- The calls a replay window receives. -/
inductive ReplayOp where
  | admitRequest (request : ControlRequest) (nowUnixMs : Nat)
  | updateAccepted (request : ControlRequest) (receipt : ControlReceipt)
  | complete (request : ControlRequest) (receipt : ControlReceipt)

inductive ReplayAnswer where
  | admission (admission : Admission)
  | completion (result : Except CompletionError Unit)

/-- A refused admission, or a completion that returned an error. -/
def ReplayAnswer.IsRejected : ReplayAnswer → Prop
  | .admission (.reject _) => True
  | .completion (.error _) => True
  | _ => False

variable {answer : ReplayAnswer} {e : ReplayEntry} {id : RequestId} {room w w' : ReplayWindow}

variable {ops : List ReplayOp} {request : ControlRequest}

namespace ReplayWindow

def call (w : ReplayWindow) : ReplayOp → ReplayAnswer × ReplayWindow
  | .admitRequest request nowUnixMs =>
    ((.admission (w.admitRequest request nowUnixMs).1), (w.admitRequest request nowUnixMs).2)
  | .updateAccepted request receipt =>
    ((.completion (w.updateAccepted request receipt).1), (w.updateAccepted request receipt).2)
  | .complete request receipt =>
    ((.completion (w.complete request receipt).1), (w.complete request receipt).2)

/-- The window after a call. -/
def next (w : ReplayWindow) (op : ReplayOp) : ReplayWindow := (w.call op).2

/-- The request ids the window holds, oldest first. -/
def ids (w : ReplayWindow) : List RequestId := w.entries.map ReplayEntry.requestId

/-- The call gives up the finalized entry of `id`. -/
def Evicts (w : ReplayWindow) (op : ReplayOp) (id : RequestId) : Prop :=
  ∃ e ∈ w.entries, e.requestId = id ∧ e.finalized = true ∧ id ∉ (w.next op).ids

/-! ## What one call does -/

/-- The entry an executed request leaves in the window. -/
def openEntry (request : ControlRequest) : ReplayEntry :=
  { requestId := request.requestId, key := request.dedupeKey, receipt := .accepted request,
    finalized := false }

/-- Storing `receipt` in an entry. -/
def store (receipt : ControlReceipt) (finalize : Bool) (e : ReplayEntry) : ReplayEntry :=
  { e with receipt, finalized := e.finalized || finalize }

/-- Everything a call can do to a window. -/
inductive Step (w : ReplayWindow) : ReplayAnswer → ReplayWindow → Prop
  | same (answer : ReplayAnswer) (h : ∀ a, answer ≠ .admission (.execute a)) : Step w answer w
  | append (request : ControlRequest) (room : ReplayWindow)
      (fresh : request.requestId ∉ w.ids) (hroom : w.makeRoom = some room) :
      Step w (.admission (.execute (.accepted request)))
        { room with entries := room.entries ++ [openEntry request] }
  | record (id : RequestId) (e : ReplayEntry) (receipt : ControlReceipt) (finalize : Bool)
      (hfind : w.entries.find? (fun entry => entry.requestId = id) = some e)
      (hopen : e.finalized = false) :
      Step w (.completion (.ok ()))
        { w with
          entries := updateFirst (fun entry => entry.requestId = id)
            (store receipt finalize) w.entries }

lemma find?_eq_none_iff_notMem_ids :
    w.entries.find? (fun entry => entry.requestId = id) = none ↔ id ∉ w.ids := by
  simp [ids]

lemma admit_step (w : ReplayWindow) (request : ControlRequest) (nowUnixMs : Nat) :
    Step w (.admission (w.admitRequest request nowUnixMs).1)
      (w.admitRequest request nowUnixMs).2 := by
  unfold admitRequest
  split
  · split
    · exact .same _ (by simp)
    · exact .same _ (by simp)
  · rename_i hfind
    split
    · exact .same _ (by simp)
    · split
      · exact .same _ (by simp)
      · rename_i room hroom
        exact .append request room (find?_eq_none_iff_notMem_ids.mp hfind) hroom

lemma recordReceipt_step (w : ReplayWindow) (request : ControlRequest)
    (receipt : ControlReceipt) (refuse : ReceiptOutcome → Option CompletionError)
    (finalize : Bool) :
    Step w (.completion (w.recordReceipt request receipt refuse finalize).1)
      (w.recordReceipt request receipt refuse finalize).2 := by
  unfold recordReceipt
  split
  · exact .same _ (by simp)
  · rename_i e hfind
    split
    · exact .same _ (by simp)
    · split
      · exact .same _ (by simp)
      · rename_i hopen
        split
        · exact .same _ (by simp)
        · exact .record request.requestId e receipt finalize hfind (by simpa using hopen)

theorem call_step (w : ReplayWindow) (op : ReplayOp) : Step w (w.call op).1 (w.next op) := by
  cases op with
  | admitRequest request nowUnixMs => exact admit_step w request nowUnixMs
  | updateAccepted request receipt => exact recordReceipt_step w request receipt _ _
  | complete request receipt => exact recordReceipt_step w request receipt _ _

/-- A full window makes room by removing its first finalized entry. -/
lemma makeRoom_eq_some (h : w.makeRoom = some room) :
    room.capacity = w.capacity ∧
      (w.entries.length ≠ w.capacity ∧ room.entries = w.entries ∨
        w.entries.length = w.capacity ∧ (∃ e ∈ w.entries, e.finalized = true) ∧
          room.entries = w.entries.eraseP fun entry => entry.finalized) := by
  unfold makeRoom at h
  split at h
  · rename_i hfull
    obtain ⟨position, hposition, rfl⟩ := Option.map_eq_some_iff.mp h
    have herase := @List.eraseP_eq_eraseIdx _ w.entries
      fun entry : ReplayEntry => entry.finalized
    rw [hposition] at herase
    have hsome : (w.entries.findIdx? fun entry => entry.finalized).isSome := by
      rw [hposition]
      rfl
    rw [List.findIdx?_isSome, any_eq_true] at hsome
    exact ⟨rfl, .inr ⟨hfull, hsome, herase.symm⟩⟩
  · rename_i hroom
    obtain rfl : w = room := by simpa using h
    exact ⟨rfl, .inl ⟨hroom, rfl⟩⟩

lemma makeRoom_sublist (h : w.makeRoom = some room) : room.entries.Sublist w.entries := by
  rcases (makeRoom_eq_some h).2 with ⟨-, heq⟩ | ⟨-, -, heq⟩
  · rw [heq]
  · rw [heq]
    exact eraseP_sublist

/-- An open entry is never the one that makes room. -/
lemma makeRoom_keeps_open (h : w.makeRoom = some room) (he : e ∈ w.entries)
    (hopen : e.finalized = false) : e ∈ room.entries := by
  rcases (makeRoom_eq_some h).2 with ⟨-, heq⟩ | ⟨-, -, heq⟩
  · rw [heq]
    exact he
  · rw [heq]
    exact (mem_eraseP_of_neg (by simp [hopen])).mpr he

/-! ## The invariant -/

/-- Request ids are unique and the window is not over its capacity. -/
structure Sound (w : ReplayWindow) : Prop where
  nodup : w.ids.Nodup
  length_le : w.entries.length ≤ w.capacity

lemma sound_new (capacity : Nat) : Sound (new capacity) :=
  ⟨nodup_nil, Nat.zero_le _⟩

lemma ids_store (w : ReplayWindow) (id : RequestId) (receipt : ControlReceipt)
    (finalize : Bool) :
    (updateFirst (fun entry => entry.requestId = id) (store receipt finalize)
      w.entries).map ReplayEntry.requestId = w.ids := by
  apply map_updateFirst
  intro e _
  rfl

lemma Sound.makeRoom_length_lt (h : Sound w) (hroom : w.makeRoom = some room) :
    room.entries.length < w.capacity := by
  have hle := h.length_le
  rcases (makeRoom_eq_some hroom).2 with ⟨hne, heq⟩ | ⟨hfull, ⟨e, he, hfinal⟩, heq⟩
  · rw [heq]
    omega
  · have hpos : 0 < w.entries.length := length_pos_of_mem he
    rw [heq, length_eraseP_of_mem he hfinal]
    omega

theorem Sound.step (h : Sound w) (hstep : Step w answer w') : Sound w' := by
  cases hstep with
  | same => exact h
  | append request room fresh hroom =>
    have hsub := (makeRoom_sublist hroom).map ReplayEntry.requestId
    refine ⟨?_, ?_⟩
    · rw [ids, map_append, nodup_append]
      refine ⟨hsub.nodup h.nodup, nodup_singleton _, ?_⟩
      rintro id hid _ hnew rfl
      obtain rfl : id = request.requestId := by simpa [openEntry] using hnew
      exact fresh (hsub.subset hid)
    · have hlt := h.makeRoom_length_lt hroom
      have hcap := (makeRoom_eq_some hroom).1
      simp only [length_append, length_singleton]
      omega
  | record id e receipt finalize hfind hopen =>
    refine ⟨?_, ?_⟩
    · rw [ids, ids_store]
      exact h.nodup
    · rw [length_updateFirst]
      exact h.length_le

theorem Sound.call (h : Sound w) (op : ReplayOp) : Sound (w.next op) :=
  h.step (call_step w op)

theorem Sound.run (h : Sound w) (ops : List ReplayOp) : Sound (run next w ops) :=
  run_invariant (P := Sound) (fun _ op hw => hw.call op) h ops

lemma Step.capacity (hstep : Step w answer w') : w'.capacity = w.capacity := by
  cases hstep with
  | same => rfl
  | append request room fresh hroom => exact (makeRoom_eq_some hroom).1
  | record => rfl

lemma capacity_run (w : ReplayWindow) (ops : List ReplayOp) :
    (run next w ops).capacity = w.capacity :=
  run_invariant (P := fun w' => w'.capacity = w.capacity)
    (fun v op hv => (call_step v op).capacity.trans hv) rfl ops

/-! ## The life of an entry -/

/-- An entry survives a call under its id and key, untouched once it is finalized; only a
finalized entry can leave the window. -/
theorem step_entry (h : Sound w) (hstep : Step w answer w') (he : e ∈ w.entries) :
    (∃ e' ∈ w'.entries, e'.requestId = e.requestId ∧ e'.key = e.key ∧
        (e.finalized = true → e' = e)) ∨
      (e.finalized = true ∧ e.requestId ∉ w'.ids) := by
  cases hstep with
  | same => exact .inl ⟨e, he, rfl, rfl, fun _ => rfl⟩
  | append request room fresh hroom =>
    by_cases hkept : e ∈ room.entries
    · exact .inl ⟨e, mem_append_left _ hkept, rfl, rfl, fun _ => rfl⟩
    · refine .inr ⟨?_, ?_⟩
      · by_contra hopen
        exact hkept (makeRoom_keeps_open hroom he (by simpa using hopen))
      · intro hid
        rw [ids, map_append, mem_append] at hid
        rcases hid with hold | hnew
        · obtain ⟨other, hother, hsame⟩ := mem_map.mp hold
          have hmem := (makeRoom_sublist hroom).subset hother
          exact hkept (inj_on_of_nodup_map h.nodup hmem he hsame ▸ hother)
        · have heq : e.requestId = request.requestId := by simpa [openEntry] using hnew
          exact fresh (heq ▸ mem_map_of_mem he)
  | record id old receipt finalize hfind hopen =>
    by_cases hid : e.requestId = id
    · have hold : old = e := by
        rw [find?_key h.nodup he hid, Option.some.injEq] at hfind
        exact hfind.symm
      subst hold
      refine .inl ⟨_, mem_updateFirst_of_find hfind, rfl, rfl, ?_⟩
      intro hfinal
      rw [hopen] at hfinal
      exact absurd hfinal (by decide)
    · have hneg : ¬ decide (e.requestId = id) = true := by simpa using hid
      exact .inl ⟨e, mem_updateFirst_of_neg he hneg, rfl, rfl, fun _ => rfl⟩

/-- An id that leaves the window in a call was evicted by it. -/
lemma Sound.evicts (h : Sound w) {op : ReplayOp} (hin : id ∈ w.ids) (hout : id ∉ (w.next op).ids) :
    w.Evicts op id := by
  obtain ⟨e, he, rfl⟩ := mem_map.mp hin
  rcases step_entry h (call_step w op) he with ⟨e', he', hid, -, -⟩ | ⟨hfinal, -⟩
  · exact absurd (hid ▸ mem_map_of_mem he') hout
  · exact ⟨e, he, rfl, hfinal, hout⟩

/-- An id that leaves the window in a run was evicted by one of its calls. -/
lemma Sound.exists_evicts (h : Sound w) (hin : id ∈ w.ids) (hout : id ∉ (Lib.run next w ops).ids) :
    ∃ pre op post, ops = pre ++ op :: post ∧ (Lib.run next w pre).Evicts op id := by
  obtain ⟨pre, op, post, rfl, hpre, hbreak⟩ :=
    Lib.exists_breaking_step (P := fun v : ReplayWindow => id ∈ v.ids) hin hout
  exact ⟨pre, op, post, rfl, (h.run pre).evicts hpre hbreak⟩

/-- A finalized entry that is no longer in the window was evicted. -/
lemma Sound.finalized_kept (h : Sound w) (he : e ∈ w.entries) (hfinal : e.finalized = true)
    (hout : e ∉ (Lib.run next w ops).entries) :
    ∃ pre op post, ops = pre ++ op :: post ∧
      (Lib.run next w pre).Evicts op e.requestId := by
  obtain ⟨pre, op, post, rfl, hpre, hbreak⟩ :=
    Lib.exists_breaking_step (P := fun v : ReplayWindow => e ∈ v.entries) he hout
  refine ⟨pre, op, post, rfl, e, hpre, rfl, hfinal, ?_⟩
  rcases step_entry (h.run pre) (call_step _ op) hpre with ⟨e', he', -, -, hsame⟩ | ⟨-, hgone⟩
  · exact absurd (hsame hfinal ▸ he') hbreak
  · exact hgone

/-! ## Admissions -/

/-- An id the window knows is answered from its entry. -/
lemma Sound.admit_known (h : Sound w) (he : e ∈ w.entries) (hid : e.requestId = request.requestId)
    (nowUnixMs : Nat) :
    (e.key = request.dedupeKey → w.admitRequest request nowUnixMs = (.replay e.receipt, w)) ∧
      (e.key ≠ request.dedupeKey →
        w.admitRequest request nowUnixMs = (.reject (.rejected request conflictError), w)) := by
  have hfind : w.entries.find? (fun entry => entry.requestId = request.requestId) = some e :=
    find?_key h.nodup he hid
  refine ⟨fun hkey => ?_, fun hkey => ?_⟩
  · simp only [admitRequest, hfind, if_pos hkey]
  · simp only [admitRequest, hfind, if_neg hkey]

/-- An executed id was unknown, and is known from then on. -/
lemma admit_eq_execute {nowUnixMs : Nat} {accepted : ControlReceipt}
    (h : (w.admitRequest request nowUnixMs).1 = .execute accepted) :
    request.requestId ∉ w.ids ∧ request.requestId ∈ (w.admitRequest request nowUnixMs).2.ids := by
  revert h
  unfold admitRequest
  split
  · split
    · simp
    · simp
  · rename_i hfind
    split
    · simp
    · split
      · simp
      · intro _
        exact ⟨find?_eq_none_iff_notMem_ids.mp hfind, by simp [ids]⟩

/-- A rejected call changes nothing. -/
lemma Step.eq_of_rejected (hstep : Step w answer w') (h : answer.IsRejected) : w' = w := by
  cases hstep with
  | same => rfl
  | append => exact absurd h id
  | record => exact absurd h id

/-- **At-most-once execution.** In every window reached by a sequence of calls, ids are unique
and the capacity is kept; a rejected call changes nothing; a repeat is answered with the stored
receipt, or as a conflict when its key differs; only finalized entries leave the window, and
they stay as they are until they do; and after an executed admission the same id is executed
again only if its finalized entry was evicted in between. -/
theorem admit_at_most_once (capacity : Nat) (ops : List ReplayOp) (w : ReplayWindow)
    (hw : w = run next (new capacity) ops) :
    w.ids.Nodup ∧ w.entries.length ≤ max capacity 1 ∧
      (∀ op, (w.call op).1.IsRejected → w.next op = w) ∧
      (∀ e ∈ w.entries, ∀ request nowUnixMs, e.requestId = request.requestId →
        (e.key = request.dedupeKey → w.admitRequest request nowUnixMs = (.replay e.receipt, w)) ∧
        (e.key ≠ request.dedupeKey →
          w.admitRequest request nowUnixMs = (.reject (.rejected request conflictError), w))) ∧
      (∀ e ∈ w.entries, ∀ op, e.requestId ∉ (w.next op).ids → e.finalized = true) ∧
      (∀ e ∈ w.entries, e.finalized = true → ∀ more, e ∉ (run next w more).entries →
        ∃ pre op post, more = pre ++ op :: post ∧
          (run next w pre).Evicts op e.requestId) ∧
      ∀ request nowUnixMs accepted, (w.admitRequest request nowUnixMs).1 = .execute accepted →
        ∀ more request' nowUnixMs' accepted', request'.requestId = request.requestId →
          ((run next (w.admitRequest request nowUnixMs).2 more).admitRequest request'
            nowUnixMs').1 = .execute accepted' →
          ∃ pre op post, more = pre ++ op :: post ∧
            (run next (w.admitRequest request nowUnixMs).2 pre).Evicts op
              request.requestId := by
  have h : Sound w := hw ▸ (sound_new capacity).run ops
  have hcap : w.capacity = max capacity 1 := by
    rw [hw, capacity_run]
    rfl
  refine ⟨h.nodup, hcap ▸ h.length_le, ?_, ?_, ?_, ?_, ?_⟩
  · intro op hrejected
    exact (call_step w op).eq_of_rejected hrejected
  · intro e he request nowUnixMs hid
    exact h.admit_known he hid nowUnixMs
  · intro e he op hout
    rcases step_entry h (call_step w op) he with ⟨e', he', hid, -, -⟩ | ⟨hfinal, -⟩
    · exact absurd (hid ▸ mem_map_of_mem he') hout
    · exact hfinal
  · intro e he hfinal more hout
    exact h.finalized_kept he hfinal hout
  · intro request nowUnixMs accepted hexecute more request' nowUnixMs' accepted' hid hagain
    have hafter : Sound (w.admitRequest request nowUnixMs).2 :=
      h.step (admit_step w request nowUnixMs)
    refine hafter.exists_evicts (admit_eq_execute hexecute).2 ?_
    rw [← hid]
    exact (admit_eq_execute hagain).1

def sampleRequest (id : String) : ControlRequest :=
  { schemaVersion := 1, requestId := ⟨id⟩, operationId := ⟨"command.select.tab"⟩,
    payloadFingerprint := ⟨"payload"⟩, intent := .mutation, deadlineUnixMs := none }

/-- Complete `a`, then admit and complete `b`. -/
def sampleCalls : List ReplayOp :=
  [.complete (sampleRequest "a")
      { ControlReceipt.accepted (sampleRequest "a") with outcome := .committed },
    .admitRequest (sampleRequest "b") 0,
    .complete (sampleRequest "b")
      { ControlReceipt.accepted (sampleRequest "b") with outcome := .noOp }]

/-- In a window of one entry `a` is executed, pushed out by `b` and executed again: the
eviction in between is the one the theorem promises. -/
theorem admit_at_most_once_single_entry :
    ((new 1).admitRequest (sampleRequest "a") 0).1 = .execute (.accepted (sampleRequest "a")) ∧
      ((run next ((new 1).admitRequest (sampleRequest "a") 0).2 sampleCalls).admitRequest
        (sampleRequest "a") 0).1 = .execute (.accepted (sampleRequest "a")) ∧
      ∃ pre op post, sampleCalls = pre ++ op :: post ∧
        (run next ((new 1).admitRequest (sampleRequest "a") 0).2 pre).Evicts op ⟨"a"⟩ := by
  refine ⟨rfl, rfl, ?_⟩
  obtain ⟨-, -, -, -, -, -, honce⟩ := admit_at_most_once 1 [] (new 1) rfl
  exact honce (sampleRequest "a") 0 _ rfl sampleCalls (sampleRequest "a") 0 _ rfl rfl

end ReplayWindow

end Agenterm
