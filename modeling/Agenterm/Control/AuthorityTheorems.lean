import Agenterm.Control.Authority
import Agenterm.Control.ContractTheorems
import Agenterm.Lib.Checks

/-!
# Receipts that are still open

`ControlAuthority.Covers a busy` says that every entry of the replay window that is not
finalized is the one of the request being executed (`busy`) or belongs to a pending submission.
An admission opens the entry of the request (`Covers.admitRequest`); recording its receipt closes
it or files it under its tab (`Covers.complete`), as long as nothing is filed there yet; and
finishing a submission closes what was filed (`Covers.finishSubmission`).
-/

namespace Agenterm

open List Lib ReplayWindow

/-! ## Which requests may wait -/

/-- The texts that `dotted` turns into the given one. -/
def undotted : List Char → List (List Char)
  | [] => [[]]
  | c :: cs => (undotted cs).flatMap fun rest =>
    if c = '.' then ['.' :: rest, '-' :: rest] else [c :: rest]

lemma mem_undotted {chars : List Char} :
    chars ∈ undotted (chars.map fun c => if c = '-' then '.' else c) := by
  induction chars with
  | nil => exact mem_singleton.mpr rfl
  | cons c chars ih =>
    rw [map_cons, undotted, mem_flatMap]
    refine ⟨chars, ih, ?_⟩
    by_cases hhyphen : c = '-'
    · simp [hhyphen]
    · rw [if_neg hhyphen]
      split
      · rename_i hdot
        simp [hdot]
      · simp

variable {command : String} {id : OperationId} {nowUnixMs : Nat} {wait : Option WaitDescriptor}

lemma eq_of_dotted (h : dotted command = "send.composer") :
    command = "send-composer" ∨ command = "send.composer" := by
  have hchars : command.toList.map (fun c => if c = '-' then '.' else c)
      = "send.composer".toList := by
    rw [← h, dotted, String.toList_ofList]
  have hmem := @mem_undotted command.toList
  rw [hchars] at hmem
  have hcases : command.toList = "send-composer".toList ∨
      command.toList = "send.composer".toList := by
    have htexts : undotted "send.composer".toList
        = ["send.composer".toList, "send-composer".toList] := by decide
    rw [htexts] at hmem
    simpa [or_comm] using hmem
  exact hcases.imp (fun heq => String.toList_injective heq)
    fun heq => String.toList_injective heq

/-- No alias stands for `send-composer`. -/
lemma eq_of_canonical (h : dotted (canonicalControlCommand command) = "send.composer") :
    command = "send-composer" ∨ command = "send.composer" := by
  have halias : ∀ identity ∈ commandCatalog,
      identity.1 = "send-composer" ∨ identity.1 = "send.composer" → identity.2 = [] := by decide
  have hcanonical := eq_of_dotted h
  unfold canonicalControlCommand at hcanonical
  cases hfind : commandCatalog.find? fun identity =>
      identity.1 = command || identity.2.contains command with
  | none => rwa [hfind] at hcanonical
  | some identity =>
    rw [hfind] at hcanonical
    -- an entry without aliases is found under its own name
    have hname := List.find?_some hfind
    rw [halias identity (mem_of_find?_eq_some hfind) hcanonical] at hname
    simp only [contains_nil, Bool.or_false, decide_eq_true_eq] at hname
    rwa [← hname]

variable {args : List String} {e : ReplayEntry} {receipt : ControlReceipt}
  {request : ControlRequest} {w : ReplayWindow}

lemma operationForArgs_mem {operation : OperationSpec}
    (h : operationForArgs args = .ok (some operation)) : operation ∈ operationCatalog := by
  unfold operationForArgs at h
  cases hid : operationIdForArgs args with
  | error error => rw [hid] at h; exact absurd h (by simp [Except.map])
  | ok id =>
    rw [hid] at h
    obtain ⟨name, -, hfound⟩ := Option.bind_eq_some_iff.mp (Except.ok.inj h)
    exact mem_of_find?_eq_some hfound

lemma OperationId.new_eq_ok {value : String} (h : OperationId.new value = .ok id) :
    id.value = value := by
  obtain ⟨-, hid⟩ := bind_unit_eq_ok.mp h
  rw [← Except.ok.inj hid]

/-- Only these two commands have the identity of a composer that is sent. -/
theorem command_of_identity {intent : RequestIntent}
    (h : controlRequestIdentity args = .ok (id, intent))
    (hid : id.value = "command.send.composer") :
    args.head? = some "send-composer" ∨ args.head? = some "send.composer" := by
  unfold controlRequestIdentity at h
  obtain ⟨operation, hoperation, h⟩ := bind_eq_ok.mp h
  cases operation with
  | some operation =>
    obtain ⟨named, hnamed, h⟩ := bind_eq_ok.mp h
    obtain ⟨rfl, -⟩ := Prod.mk.inj (Except.ok.inj h)
    rw [OperationId.new_eq_ok hnamed] at hid
    have hcatalog : ∀ operation ∈ operationCatalog,
        operation.id ≠ "command.send.composer" := by decide
    exact absurd hid (hcatalog operation (operationForArgs_mem hoperation))
  | none =>
    obtain ⟨named, hnamed, h⟩ := bind_eq_ok.mp h
    obtain ⟨rfl, -⟩ := Prod.mk.inj (Except.ok.inj h)
    rw [OperationId.new_eq_ok hnamed] at hid
    have hdotted : dotted (canonicalControlCommand (args.head?.getD "unknown"))
        = "send.composer" := by
      have hlist := congrArg String.toList hid
      rw [String.toList_append,
        show "command.send.composer" = "command." ++ "send.composer" from rfl,
        String.toList_append] at hlist
      exact String.toList_injective (append_cancel_left hlist)
    have hcommand := eq_of_canonical hdotted
    cases hhead : args.head? with
    | none =>
      rw [hhead] at hcommand
      exact absurd hcommand (by decide)
    | some command =>
      rw [hhead] at hcommand
      exact hcommand.imp (congrArg some) (congrArg some)

/-! ## Recording a receipt -/

/-- The receipt is one for this request. -/
structure ControlReceipt.IsFor (receipt : ControlReceipt) (request : ControlRequest) :
    Prop where
  requestId : receipt.requestId = request.requestId
  operationId : receipt.operationId = request.operationId
  payloadFingerprint : receipt.payloadFingerprint = request.payloadFingerprint

/-- The entry is that of the request, and still open. -/
structure ReplayEntry.OpenFor (e : ReplayEntry) (request : ControlRequest) : Prop where
  requestId : e.requestId = request.requestId
  key : e.key = request.dedupeKey
  opened : e.finalized = false

namespace ReplayWindow

/-- A receipt for an open entry is recorded in it, and only there. -/
theorem recordReceipt_open (h : w.Sound) (he : e ∈ w.entries) (hopen : e.OpenFor request)
    (hfor : receipt.IsFor request) {refuse : ReceiptOutcome → Option CompletionError}
    (hrefuse : refuse receipt.outcome = none) (finalize : Bool) :
    (w.recordReceipt request receipt refuse finalize).1 = .ok () ∧
      ∀ e' ∈ (w.recordReceipt request receipt refuse finalize).2.entries,
        e' = store receipt finalize e ∨ e' ∈ w.entries ∧ e'.requestId ≠ request.requestId := by
  have hfind : w.entries.find? (fun entry => entry.requestId = request.requestId) = some e :=
    find?_key h.nodup he hopen.requestId
  have hcheck : ¬ (e.key ≠ request.dedupeKey ∨ receipt.requestId ≠ request.requestId ∨
      receipt.operationId ≠ request.operationId ∨
      receipt.payloadFingerprint ≠ request.payloadFingerprint) := by
    simp [hopen.key, hfor.requestId, hfor.operationId, hfor.payloadFingerprint]
  unfold recordReceipt
  rw [hfind]
  dsimp only
  rw [if_neg hcheck, hopen.opened, if_neg (by simp), hrefuse]
  refine ⟨rfl, fun e' he' => ?_⟩
  dsimp only at he'
  rw [updateFirst_key h.nodup, mem_map] at he'
  obtain ⟨old, hold, rfl⟩ := he'
  by_cases hsame : old.requestId = request.requestId
  · rw [if_pos hsame, inj_on_of_nodup_map h.nodup hold he
      (hsame.trans hopen.requestId.symm)]
    exact .inl rfl
  · rw [if_neg hsame]
    exact .inr ⟨hold, hsame⟩

theorem complete_open (h : w.Sound) (he : e ∈ w.entries) (hopen : e.OpenFor request)
    (hfor : receipt.IsFor request) (houtcome : receipt.outcome ≠ .accepted) :
    (w.complete request receipt).1 = .ok () ∧
      ∀ e' ∈ (w.complete request receipt).2.entries,
        e' = store receipt true e ∨ e' ∈ w.entries ∧ e'.requestId ≠ request.requestId := by
  unfold complete
  exact recordReceipt_open h he hopen hfor (if_neg houtcome) true

theorem updateAccepted_open (h : w.Sound) (he : e ∈ w.entries) (hopen : e.OpenFor request)
    (hfor : receipt.IsFor request) (houtcome : receipt.outcome = .accepted) :
    (w.updateAccepted request receipt).1 = .ok () ∧
      ∀ e' ∈ (w.updateAccepted request receipt).2.entries,
        e' = store receipt false e ∨ e' ∈ w.entries ∧ e'.requestId ≠ request.requestId := by
  unfold updateAccepted
  exact recordReceipt_open h he hopen hfor (if_neg fun hne => hne houtcome) false

/-- Finalizing opens nothing. -/
theorem open_of_complete (he : e ∈ (w.complete request receipt).2.entries)
    (hopen : e.finalized = false) : e ∈ w.entries := by
  unfold complete recordReceipt at he
  split at he
  · exact he
  split at he
  · exact he
  split at he
  · exact he
  split at he
  · exact he
  · rcases mem_updateFirst he with he | ⟨old, -, rfl⟩
    · exact he
    · exact absurd hopen (by simp)

/-- An admission leaves the window alone, or opens an entry for the request. -/
theorem admit_eq {w' : ReplayWindow} {admission : Admission}
    (h : w.admitRequest request nowUnixMs = (admission, w')) :
    (∀ accepted, admission ≠ .execute accepted) ∧ w' = w ∨
      admission = .execute (.accepted request) ∧ ∃ room, w.makeRoom = some room ∧
        w' = { room with entries := room.entries ++ [openEntry request] } := by
  unfold admitRequest at h
  split at h
  · split at h
    · cases h
      exact .inl ⟨by simp, rfl⟩
    · cases h
      exact .inl ⟨by simp, rfl⟩
  · split at h
    · cases h
      exact .inl ⟨by simp, rfl⟩
    split at h
    · cases h
      exact .inl ⟨by simp, rfl⟩
    · rename_i room hroom
      cases h
      exact .inr ⟨rfl, room, hroom, rfl⟩

end ReplayWindow

/-! ## Covered entries -/

/-- The submission was filed with the request of this entry. -/
structure PendingControlReceipt.Answers (pending : PendingControlReceipt) (e : ReplayEntry) :
    Prop where
  requestId : e.requestId = pending.request.requestId
  key : e.key = pending.request.dedupeKey
  receipt : pending.receipt.IsFor pending.request

namespace ControlAuthority

/-- A submission waits for this tab. -/
def Files (a : ControlAuthority) (tabId : Nat) : Prop :=
  (a.pendingSubmissions.lookup tabId).isSome = true

structure Covers (a : ControlAuthority) (busy : Option ControlRequest) : Prop where
  window : a.replayWindow.Sound
  covered : ∀ e ∈ a.replayWindow.entries, e.finalized = false →
    (∃ control, busy = some control ∧ e.requestId = control.requestId) ∨
      ∃ tabId pending, a.pendingSubmissions.lookup tabId = some pending ∧ pending.Answers e
  executing : ∀ control, busy = some control → ∃ e ∈ a.replayWindow.entries, e.OpenFor control

variable {a a' : ControlAuthority}

theorem covers_default : default.Covers none where
  window := sound_new _
  covered _ he := absurd he not_mem_nil
  executing _ h := absurd h (by simp)

theorem not_files_default (tabId : Nat) : ¬ default.Files tabId := by
  simp [Files, default]

/-! ## Admissions -/

theorem admit_pendingSubmissions (a : ControlAuthority) (control : Option ControlRequest)
    (args : List String) (nowUnixMs : Nat) :
    (a.admitRequest control args nowUnixMs).2.pendingSubmissions = a.pendingSubmissions := by
  unfold ControlAuthority.admitRequest
  split
  · rfl
  split
  · rfl
  split
  · rfl
  dsimp only
  split <;> rfl

/-- **An admission.** -/
theorem Covers.admitRequest {control : Option ControlRequest} {admission : ControlAdmission}
    (h : a.Covers none) (hanswer : a.admitRequest control args nowUnixMs = (admission, a')) :
    (∀ control, admission ≠ .execute control) ∧ a'.Covers none ∨
      ∃ control, admission = .execute control ∧ matchesPayload control args = true ∧
        a'.Covers (some control) := by
  unfold ControlAuthority.admitRequest at hanswer
  split at hanswer
  · cases hanswer
    exact .inl ⟨by simp, h⟩
  rename_i control
  split at hanswer
  · cases hanswer
    exact .inl ⟨by simp, h⟩
  split at hanswer
  · cases hanswer
    exact .inl ⟨by simp, h⟩
  rename_i hmatches
  rw [Bool.not_eq_true, Bool.not_eq_false'] at hmatches
  dsimp only at hanswer
  generalize hwindow : a.replayWindow.admitRequest control nowUnixMs = result at hanswer
  rcases result with ⟨answer, window⟩
  rcases admit_eq hwindow with ⟨hkept, rfl⟩ | ⟨rfl, room, hroom, hentries⟩
  · cases answer with
    | execute accepted => exact absurd rfl (hkept accepted)
    | replay receipt =>
      cases hanswer
      exact .inl ⟨by simp, h⟩
    | reject receipt =>
      cases hanswer
      exact .inl ⟨by simp, h⟩
  · cases hanswer
    refine .inr ⟨control, rfl, hmatches, ?_, ?_, ?_⟩
    · have hsound := h.window.step (admit_step a.replayWindow control nowUnixMs)
      rwa [hwindow] at hsound
    · intro e he hopen
      dsimp only at he
      rw [hentries, mem_append, mem_singleton] at he
      rcases he with he | rfl
      · have hold := (makeRoom_sublist hroom).subset he
        rcases h.covered e hold hopen with ⟨control, hbusy, -⟩ | hfiled
        · exact absurd hbusy (by simp)
        · exact .inr hfiled
      · exact .inl ⟨control, rfl, rfl⟩
    · intro control' hcontrol
      cases hcontrol
      refine ⟨openEntry control, ?_, ⟨rfl, rfl, rfl⟩⟩
      dsimp only
      rw [hentries]
      exact mem_append_right _ (mem_singleton.mpr rfl)

/-! ## Receipts -/

lemma commandOutcome_eq_accepted {response : IpcResponse} :
    commandOutcome response wait = .accepted ↔ wait.isSome = true := by
  unfold commandOutcome
  split
  · rename_i hwait
    exact ⟨fun _ => hwait, fun _ => rfl⟩
  · rename_i hwait
    refine ⟨fun h => ?_, fun h => absurd h hwait⟩
    split at h
    · exact absurd h (by simp)
    · split at h <;> exact absurd h (by simp)

/-- **The receipt of a command.** A wait files the request under its tab; without one the entry
of the request is finalized. -/
theorem Covers.complete {control : ControlRequest} {resolved : ResolvedTarget}
    (h : a.Covers (some control)) (response : IpcResponse) (before after : ControlEventPosition)
    (hwait : wait.isSome = true → ∃ tabId, resolved.tabId = some tabId ∧ ¬ a.Files tabId) :
    (a.complete control response resolved before after wait).2.Covers none ∧
      ∀ tabId, (a.complete control response resolved before after wait).2.Files tabId →
        a.Files tabId ∨ wait.isSome = true ∧ resolved.tabId = some tabId := by
  obtain ⟨e, he, hopen⟩ := h.executing control rfl
  have hfor : (commandReceipt control response resolved before after wait).IsFor control :=
    ⟨rfl, rfl, rfl⟩
  have hother : ∀ e' ∈ a.replayWindow.entries, e'.finalized = false →
      e'.requestId ≠ control.requestId →
      ∃ tabId pending, a.pendingSubmissions.lookup tabId = some pending ∧
        pending.Answers e' := by
    intro e' he' hopen' hne
    rcases h.covered e' he' hopen' with ⟨control', hbusy, hsame⟩ | hfiled
    · cases hbusy
      exact absurd hsame hne
    · exact hfiled
  by_cases haccepted : wait.isSome = true
  · have houtcome : (commandReceipt control response resolved before after wait).outcome
        = .accepted := commandOutcome_eq_accepted.mpr haccepted
    obtain ⟨tabId, htab, hfree⟩ := hwait haccepted
    obtain ⟨hok, hentries⟩ := updateAccepted_open h.window he hopen hfor houtcome
    have hsound := h.window.call (.updateAccepted control
      (commandReceipt control response resolved before after wait))
    have hresult : (a.complete control response resolved before after wait).2 =
        { replayWindow := (a.replayWindow.updateAccepted control
            (commandReceipt control response resolved before after wait)).2
          pendingSubmissions := a.pendingSubmissions.insert tabId
            { request := control
              receipt := commandReceipt control response resolved before after wait } } := by
      unfold ControlAuthority.complete
      dsimp only
      rw [if_pos houtcome, if_pos houtcome, hok, htab]
    rw [hresult]
    refine ⟨⟨hsound, ?_, by simp⟩, ?_⟩
    · intro e' he' hopen'
      refine .inr ?_
      rcases hentries e' he' with rfl | ⟨hold, hne⟩
      · exact ⟨tabId, _, AList.lookup_insert _, hopen.requestId, hopen.key, hfor⟩
      · obtain ⟨filed, pending, hlookup, hanswers⟩ := hother e' hold hopen' hne
        have hdiffers : filed ≠ tabId := by
          rintro rfl
          exact hfree (by rw [Files, hlookup]; rfl)
        exact ⟨filed, pending, (AList.lookup_insert_ne hdiffers).trans hlookup, hanswers⟩
    · intro filed hfiled
      by_cases hsame : filed = tabId
      · exact .inr ⟨haccepted, hsame ▸ htab⟩
      · rw [Files, AList.lookup_insert_ne hsame] at hfiled
        exact .inl hfiled
  · have houtcome : (commandReceipt control response resolved before after wait).outcome
        ≠ .accepted := fun heq => haccepted (commandOutcome_eq_accepted.mp heq)
    obtain ⟨hok, hentries⟩ := complete_open h.window he hopen hfor houtcome
    have hsound := h.window.call (.complete control
      (commandReceipt control response resolved before after wait))
    have hresult : (a.complete control response resolved before after wait).2 =
        { a with replayWindow := (a.replayWindow.complete control
            (commandReceipt control response resolved before after wait)).2 } := by
      unfold ControlAuthority.complete
      dsimp only
      rw [if_neg houtcome, if_neg houtcome, hok]
    rw [hresult]
    refine ⟨⟨hsound, ?_, by simp⟩, fun tabId hfiled => .inl hfiled⟩
    intro e' he' hopen'
    rcases hentries e' he' with rfl | ⟨hold, hne⟩
    · exact absurd hopen' (by simp [store])
    · exact .inr (hother e' hold hopen' hne)

/-! ## Finished submissions -/

lemma finishedReceipt_isFor (h : receipt.IsFor request) (position : ControlEventPosition)
    (enterWritten : Bool) :
    (finishedReceipt receipt position enterWritten).IsFor request ∧
      (finishedReceipt receipt position enterWritten).outcome ≠ .accepted := by
  unfold finishedReceipt
  dsimp only
  split
  · exact ⟨⟨h.requestId, h.operationId, h.payloadFingerprint⟩, by simp⟩
  · exact ⟨⟨h.requestId, h.operationId, h.payloadFingerprint⟩, by simp⟩

/-- **A finished submission.** What was filed under the tab is closed. -/
theorem Covers.finishSubmission {j j' : EventJournal} {tabId : Nat}
    {enterWritten terminalFinalized : Bool} {result : Except CompletionError Bool}
    (h : a.Covers none)
    (hfinish : a.finishSubmission j tabId enterWritten terminalFinalized
      = some (result, a', j')) :
    a'.Covers none ∧ ∀ id, a'.Files id → a.Files id ∧ id ≠ tabId := by
  unfold ControlAuthority.finishSubmission at hfinish
  split at hfinish
  · rename_i hlookup
    simp only [Option.some.injEq, Prod.mk.injEq] at hfinish
    obtain ⟨-, rfl, -⟩ := hfinish
    refine ⟨h, fun id hid => ⟨hid, ?_⟩⟩
    rintro rfl
    rw [Files, hlookup] at hid
    exact absurd hid (by simp)
  · rename_i pending hlookup
    obtain ⟨⟨event, journal⟩, -, hfinish⟩ := Option.bind_eq_some_iff.mp hfinish
    simp only [Option.some.injEq, Prod.mk.injEq] at hfinish
    obtain ⟨-, rfl, -⟩ := hfinish
    have hsound := h.window.call (.complete pending.request (finishedReceipt pending.receipt
      { epoch := event.epoch, sequence := event.sequence } enterWritten))
    refine ⟨⟨hsound, ?_, by simp⟩, ?_⟩
    · intro e he hopen
      have hold := open_of_complete he hopen
      rcases h.covered e hold hopen with ⟨control, hbusy, -⟩ | ⟨filed, other, hother, hanswers⟩
      · exact absurd hbusy (by simp)
      refine .inr ⟨filed, other, ?_, hanswers⟩
      by_cases hsame : filed = tabId
      · -- the entry is the one that was just finalized
        subst hsame
        obtain rfl := Option.some.inj (hlookup.symm.trans hother)
        obtain ⟨hfor, houtcome⟩ := finishedReceipt_isFor hanswers.receipt
          { epoch := event.epoch, sequence := event.sequence } enterWritten
        obtain ⟨-, hentries⟩ := complete_open h.window hold
          ⟨hanswers.requestId, hanswers.key, hopen⟩ hfor houtcome
        rcases hentries e he with heq | ⟨-, hne⟩
        · rw [heq] at hopen
          exact absurd hopen (by simp [store])
        · exact absurd hanswers.requestId hne
      · rw [AList.lookup_erase_ne hsame]
        exact hother
    · intro id hid
      have hne : id ≠ tabId := by
        rintro rfl
        rw [Files, AList.lookup_erase] at hid
        exact absurd hid (by simp)
      rw [Files, AList.lookup_erase_ne hne] at hid
      exact ⟨hid, hne⟩

end ControlAuthority

end Agenterm
