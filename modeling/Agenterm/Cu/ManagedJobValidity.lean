import Agenterm.Cu.ManagedJobTheorems

/-!
# When the registry rejects its own edit

`edited_of_operation` says once what the calls do to the document: they leave it, or they move one
record on. From the transitions of a record follows when the new document is accepted
(`valid_iff`). `valid_iff_keepsPolicy` is the exact condition, with what it means for a running job.
-/

namespace Agenterm.Cu.ManagedJobs

open Std Option Lib

/-- The call writes a terminal trigger only into a record with an expiry policy. -/
def Call.KeepsPolicy (call : Call) (document : Document) : Prop :=
  ∀ (jobId : String) (record : ManagedJobRecord), call.jobId = some jobId →
    document.jobs[jobId]? = some record → call.WritesTrigger record → record.onExpiry ≠ none

/-- What a call makes of the document. -/
inductive Edited (call : Call) (document : Document) : Document → Prop
  | same
    (quiet : ∀ (jobId : String) (record : ManagedJobRecord), call.jobId = some jobId →
      document.jobs[jobId]? = some record → ¬ call.WritesTrigger record) :
    Edited call document document
  | moved (jobId : String) (record record' : ManagedJobRecord) (job_eq : call.jobId = some jobId)
    (held : document.jobs[jobId]? = some record) (moves : Moves call record record') :
    Edited call document (document.replaceRecord jobId record')

variable {answer : Answer} {edit : ManagedJobRecord → Except CuError ManagedJobRecord}
  {process : ExactProcessIdentity}

variable {facts : TerminalFacts} {liveness : OwnerLiveness} {outcome : OwnerReconciliation}

section
variable {document document' edited : Document} {call : Call} {handle : ManagedJobHandle}
  {record record' : ManagedJobRecord} {owner : ResidentOwnerIdentity} {now : I64} {code : String}

/-! ## Edits of a record -/

lemma checkedRecord_eq_ok :
    checkedRecord document handle = .ok record ↔
      document.jobs[handle.jobId]? = some record ∧ record.generation = handle.generation ∧
        record.nonce = handle.nonce := by
  unfold checkedRecord
  cases hfound : document.jobs[handle.jobId]? with
  | none => exact ⟨nofun, fun h => absurd h.1 nofun⟩
  | some found =>
    simp only [ite_error_eq_ok, not_or, not_not, Except.ok.injEq, some.injEq]
    constructor
    · rintro ⟨hsame, rfl⟩
      exact ⟨rfl, hsame⟩
    · rintro ⟨rfl, hsame⟩
      exact ⟨hsame, rfl⟩

lemma requireOwner_eq_ok : requireOwner record owner = .ok () ↔ record.owner = some owner := by
  unfold requireOwner
  split
  · exact ⟨fun _ => ‹_›, fun _ => rfl⟩
  · exact ⟨nofun, fun h => absurd h ‹_›⟩

lemma claimStarting_eq_ok (h : claimStarting owner record = .ok record') :
    record.state = .startIntent ∧
      record' = { record with owner := some owner, state := .starting } := by
  unfold claimStarting at h
  rw [ite_error_eq_ok, not_not] at h
  exact ⟨h.1, (Except.ok.inj h.2).symm⟩

lemma markUnclaimedStartFailed_eq_ok (h : markUnclaimedStartFailed code now record = .ok record') :
    record.state = .startIntent ∧
      record' = { record with state := .startFailed code, terminalAtUtcMs := some now } := by
  unfold markUnclaimedStartFailed at h
  rw [ite_error_eq_ok, not_or, not_not] at h
  exact ⟨h.1.1, (Except.ok.inj h.2).symm⟩

lemma markRunning_eq_ok (h : markRunning owner process record = .ok record') :
    record.owner = some owner ∧ record.state = .starting ∧
      record' = { record with process := some process, state := .running } := by
  unfold markRunning at h
  rw [bind_unit_eq_ok, requireOwner_eq_ok, ite_error_eq_ok, not_not] at h
  exact ⟨h.1, h.2.1, (Except.ok.inj h.2.2).symm⟩

lemma markStartFailed_eq_ok (h : markStartFailed owner code now record = .ok record') :
    record.owner = some owner ∧ record.state = .starting ∧
      record' = { record with state := .startFailed code, terminalAtUtcMs := some now } := by
  unfold markStartFailed at h
  rw [bind_unit_eq_ok, requireOwner_eq_ok, ite_error_eq_ok, not_or, not_not] at h
  exact ⟨h.1, h.2.1.1, (Except.ok.inj h.2.2).symm⟩

lemma markRunningTerminal_eq_ok :
    markRunningTerminal owner process facts now record = .ok record' ↔
      (record.owner = some owner ∧ record.state = .running ∧ record.process = some process) ∧
        record' = { record with
          state := facts.state, terminalAtUtcMs := some now
          terminalTrigger := some facts.trigger, detachLiveness := facts.detachLiveness } := by
  unfold markRunningTerminal
  rw [bind_unit_eq_ok, requireOwner_eq_ok, ite_error_eq_ok, not_or, not_not, not_not,
    Except.ok.injEq]
  constructor
  · rintro ⟨howner, ⟨hstate, hprocess⟩, rfl⟩
    exact ⟨⟨howner, hstate, hprocess⟩, rfl⟩
  · rintro ⟨⟨howner, hstate, hprocess⟩, rfl⟩
    exact ⟨howner, ⟨hstate, hprocess⟩, rfl⟩

/-! ## What the calls do -/

lemma transition_eq_ok :
    transition handle now edit document = .ok (record', document') ↔
      ∃ record changed, checkedRecord document handle = .ok record ∧
        record.updatedAtUtcMs.val ≤ now.val ∧ edit record = .ok changed ∧
        record' = { changed with updatedAtUtcMs := now } ∧
        document' = document.replaceRecord handle.jobId record' := by
  unfold transition
  simp only [bind_eq_ok, ite_error_eq_ok, Except.ok.injEq, Prod.mk.injEq]
  constructor
  · rintro ⟨record, hrecord, hclock, changed, hedit, rfl, rfl⟩
    exact ⟨record, changed, hrecord, by omega, hedit, rfl, rfl⟩
  · rintro ⟨record, changed, hrecord, hclock, hedit, rfl, rfl⟩
    exact ⟨record, hrecord, by omega, changed, hedit, rfl, rfl⟩

lemma edited_of_transition (hjob : call.jobId = some handle.jobId)
    (hmoves : ∀ record changed, edit record = .ok changed →
      Moves call record { changed with updatedAtUtcMs := now })
    (h : answered .record (transition handle now edit document) = .ok (answer, edited)) :
    Edited call document edited := by
  obtain ⟨written, -, h⟩ := answered_eq_ok h
  obtain ⟨record, changed, hrecord, -, hedit, rfl, rfl⟩ := transition_eq_ok.mp h
  exact .moved handle.jobId record _ hjob (checkedRecord_eq_ok.mp hrecord).1
    (hmoves record changed hedit)

lemma moves_of_terminal
    (h : markRunningTerminal owner process facts call.now record = .ok record')
    (hending : Ending facts.state facts.detachLiveness) (hne : facts.trigger ≠ .ownerLost)
    (hwrites : ∀ record, call.WritesTrigger record) :
    Moves call record { record' with updatedAtUtcMs := call.now } := by
  obtain ⟨⟨-, hstate, -⟩, rfl⟩ := markRunningTerminal_eq_ok.mp h
  exact .ended facts.state facts.trigger facts.detachLiveness hstate hending hne (hwrites record)

/-- The outcomes of a reconciliation: the record is left, or it is orphaned. -/
lemma reconcileOwner_eq_ok
    (h : reconcileOwner handle liveness now document = .ok (outcome, edited)) :
    ∃ record, document.jobs[handle.jobId]? = some record ∧
      ((edited = document ∧ ¬ (Call.reconcileOwner handle liveness now).WritesTrigger record) ∨
        (edited = document.replaceRecord handle.jobId (record.orphanedAt now) ∧
          (Call.reconcileOwner handle liveness now).WritesTrigger record)) := by
  obtain ⟨record, hrecord, h⟩ := bind_eq_ok.mp h
  refine ⟨record, (checkedRecord_eq_ok.mp hrecord).1, ?_⟩
  split at h
  · rename_i hterminal
    cases h
    refine .inl ⟨rfl, fun hwrites => ?_⟩
    rw [hwrites.1] at hterminal
    cases hterminal
  · rename_i hopen
    have hopen : record.state.isTerminal = false := by simpa using hopen
    cases howner : record.owner with
    | none =>
      rw [howner] at h
      cases liveness with
      | unknown =>
        cases h
        exact .inl ⟨rfl, fun ⟨_, _, _, hunknown, _⟩ => hunknown rfl⟩
      | live observed => cases h
      | dead => cases h
    | some expected =>
      rw [howner] at h
      cases liveness with
      | unknown =>
        cases h
        exact .inl ⟨rfl, fun ⟨_, _, _, hunknown, _⟩ => hunknown rfl⟩
      | live observed =>
        dsimp only at h
        split at h
        · rename_i heq
          cases h
          refine .inl ⟨rfl, fun ⟨_, other, hother, _, hlive⟩ => ?_⟩
          obtain rfl := some.inj (howner.symm.trans hother)
          exact hlive (by rw [heq])
        · rename_i hne
          cases h
          refine .inr ⟨rfl, hopen, expected, howner, nofun, fun hlive => ?_⟩
          exact hne (OwnerLiveness.live.inj hlive)
      | dead =>
        cases h
        exact .inr ⟨rfl, hopen, expected, howner, nofun, nofun⟩

lemma edited_of_reconcileOwner
    (h : reconcileOwner handle liveness now document = .ok (outcome, edited)) :
    Edited (.reconcileOwner handle liveness now) document edited := by
  obtain ⟨record, hheld, ⟨rfl, hquiet⟩ | ⟨rfl, hwrites⟩⟩ := reconcileOwner_eq_ok h
  · -- the call is about this record alone
    refine .same fun jobId found hjob hfound hwrites => ?_
    cases hjob
    obtain rfl := some.inj (hheld.symm.trans hfound)
    exact hquiet hwrites
  · obtain ⟨hopen, owner, howner, -⟩ := id hwrites
    exact .moved handle.jobId record _ rfl hheld (.orphaned hopen (by rw [howner]; rfl) hwrites)

/-- What the operations do. -/
lemma edited_of_operation (htransition : call.IsTransition) (hchecks : call.checks = .ok ())
    (h : operation document call = .ok (answer, edited)) : Edited call document edited := by
  cases call with
  | reserveStart => exact absurd htransition id
  | claimStarting handle owner now =>
    have howner := (bind_unit_eq_ok.mp hchecks).1
    refine edited_of_transition rfl (fun record changed hedit => ?_) h
    obtain ⟨hstate, rfl⟩ := claimStarting_eq_ok hedit
    exact .claimed owner hstate howner id
  | markUnclaimedStartFailed handle code now =>
    have hcode := (bind_unit_eq_ok.mp hchecks).1
    refine edited_of_transition rfl (fun record changed hedit => ?_) h
    obtain ⟨hstate, rfl⟩ := markUnclaimedStartFailed_eq_ok hedit
    exact .startFailed code (.inl hstate) hcode id
  | markRunning handle owner process now =>
    have hprocess := (bind_unit_eq_ok.mp (bind_unit_eq_ok.mp hchecks).2).1
    refine edited_of_transition rfl (fun record changed hedit => ?_) h
    obtain ⟨-, hstate, rfl⟩ := markRunning_eq_ok hedit
    exact .running process hstate hprocess id
  | markStartFailed handle owner code now =>
    have hcode := (bind_unit_eq_ok.mp (bind_unit_eq_ok.mp hchecks).2).1
    refine edited_of_transition rfl (fun record changed hedit => ?_) h
    obtain ⟨-, hstate, rfl⟩ := markStartFailed_eq_ok hedit
    exact .startFailed code (.inr hstate) hcode id
  | markExited handle owner process exitCode trigger now =>
    refine edited_of_transition rfl (fun record changed hedit => ?_) h
    exact moves_of_terminal hedit (.exited exitCode) htransition fun _ => trivial
  | markSignaled handle owner process signal trigger now =>
    refine edited_of_transition rfl (fun record changed hedit => ?_) h
    exact moves_of_terminal hedit (.signaled signal) htransition fun _ => trivial
  | markDetached handle owner process liveness trigger now =>
    refine edited_of_transition rfl (fun record changed hedit => ?_) h
    exact moves_of_terminal hedit (.detached liveness) htransition fun _ => trivial
  | reconcileOwner handle liveness now =>
    obtain ⟨outcome, -, h⟩ := answered_eq_ok h
    exact edited_of_reconcileOwner h

/-! ## The new document -/

lemma Moves.updatedAtUtcMs_eq (h : Moves call record record') :
    record'.updatedAtUtcMs = call.now := by
  cases h <;> rfl

lemma mutate_eq_ok :
    mutate call document = .ok (answer, document') ↔
      document.lastNowUtcMs.val ≤ call.now.val ∧
        ∃ edited, operation document call = .ok (answer, edited) ∧
          document' = { edited with lastNowUtcMs := call.now } := by
  unfold mutate
  rw [ite_error_eq_ok, bind_eq_ok]
  constructor
  · rintro ⟨hclock, ⟨found, edited⟩, hedit, h⟩
    cases h
    exact ⟨by omega, edited, hedit, rfl⟩
  · rintro ⟨hclock, edited, hedit, rfl⟩
    exact ⟨by omega, ⟨answer, edited⟩, hedit, rfl⟩

/-- A document in which one record was replaced, and the clock advanced, is accepted when the new
record is. -/
lemma replaced_valid {jobId : String} (hvalid : document.Valid)
    (hclock : document.lastNowUtcMs.val ≤ now.val) (hheld : document.jobs[jobId]? = some record)
    (hupdated : record'.updatedAtUtcMs = now) :
    ({ document.replaceRecord jobId record' with lastNowUtcMs := now } : Document).Valid ↔
      record'.Valid jobId := by
  constructor
  · intro h
    exact (h.records_valid jobId record' TreeMap.getElem?_insert_self).1
  · intro hrecord
    have hnonneg := hvalid.clock_nonneg
    refine ⟨hvalid.schema_eq, by dsimp only; omega, ?_, fun key found hfound => ?_⟩
    · have hsize := hvalid.size_le
      rwa [← size_insert_of_some (v := record') hheld] at hsize
    · rcases insert_eq_some hfound with ⟨rfl, rfl⟩ | ⟨-, hfound⟩
      · exact ⟨hrecord, by rw [hupdated]⟩
      · obtain ⟨hother, hle⟩ := hvalid.records_valid key found hfound
        exact ⟨hother, by dsimp only; omega⟩

/-- The edit of a call is accepted exactly when the call writes a terminal trigger only into a
record with an expiry policy. -/
lemma valid_iff (hvalid : document.Valid) (htransition : call.IsTransition)
    (hchecks : call.checks = .ok ()) (h : mutate call document = .ok (answer, document')) :
    validateDocument document' = .ok () ↔ call.KeepsPolicy document := by
  obtain ⟨hclock, edited, hedit, rfl⟩ := mutate_eq_ok.mp h
  rw [validateDocument_eq_ok]
  cases edited_of_operation htransition hchecks hedit with
  | same hquiet =>
    have hnonneg := hvalid.clock_nonneg
    refine iff_of_true ⟨hvalid.schema_eq, by dsimp only; omega, hvalid.size_le, ?_⟩ ?_
    · intro key record hrecord
      obtain ⟨hrecord, hle⟩ := hvalid.records_valid key record hrecord
      exact ⟨hrecord, by dsimp only; omega⟩
    · intro jobId record hjob hheld hwrites
      exact absurd hwrites (hquiet jobId record hjob hheld)
  | moved jobId record record' hjob hheld hmoves =>
    obtain ⟨hrecord, hle⟩ := hvalid.records_valid jobId record hheld
    rw [replaced_valid hvalid hclock hheld hmoves.updatedAtUtcMs_eq,
      hmoves.valid_iff hrecord (by omega)]
    constructor
    · intro hpolicy found other hfound hother
      obtain rfl := some.inj (hjob.symm.trans hfound)
      obtain rfl := some.inj (hheld.symm.trans hother)
      exact hpolicy
    · intro hkeeps
      exact hkeeps jobId record hjob hheld

/-! ## Errors -/

lemma corrupt_code (message : String) : (corrupt message).code = "managed_job_store_corrupt" := rfl

lemma validatePolicy_errors (record : ManagedJobRecord) :
    ErrorCodes (· = "managed_job_store_corrupt") (validatePolicy record) := by
  refine ErrorCodes.ite (errorCodes_ok _) ?_
  split
  · exact errorCodes_error (corrupt_code _)
  · refine ErrorCodes.ite (errorCodes_error (corrupt_code _)) ?_
    refine ErrorCodes.ite (errorCodes_error (corrupt_code _)) ?_
    exact ErrorCodes.ite (errorCodes_error (corrupt_code _)) (errorCodes_ok _)

lemma validateRecord_errors (key : String) (record : ManagedJobRecord) :
    ErrorCodes (· = "managed_job_store_corrupt") (validateRecord key record) := by
  refine ErrorCodes.bind (ErrorCodes.mapError fun _ => corrupt_code _) fun _ => ?_
  refine ErrorCodes.ite (errorCodes_error (corrupt_code _)) ?_
  refine ErrorCodes.bind
    (ErrorCodes.checkSome fun _ => ErrorCodes.mapError fun _ => corrupt_code _) fun _ => ?_
  refine ErrorCodes.bind
    (ErrorCodes.checkSome fun _ => ErrorCodes.mapError fun _ => corrupt_code _) fun _ => ?_
  refine ErrorCodes.bind
    (ErrorCodes.checkSome fun _ => ErrorCodes.mapError fun _ => corrupt_code _) fun _ => ?_
  refine ErrorCodes.ite (errorCodes_error (corrupt_code _)) ?_
  exact ErrorCodes.ite (errorCodes_error (corrupt_code _)) (validatePolicy_errors record)

/-- A document that is not accepted is corrupt. -/
lemma validateDocument_errors (document : Document) :
    ErrorCodes (· = "managed_job_store_corrupt") (validateDocument document) := by
  refine ErrorCodes.ite (errorCodes_error (corrupt_code _)) ?_
  refine ErrorCodes.ite (errorCodes_error (corrupt_code _)) (ErrorCodes.forM ?_ _)
  intro entry
  refine ErrorCodes.bind (validateRecord_errors entry.1 entry.2) fun _ => ?_
  exact ErrorCodes.ite (errorCodes_error (corrupt_code _)) (errorCodes_ok _)

lemma validateBoundedToken_avoids (value : String) (max : Nat) (name : String) :
    Avoids "managed_job_store_corrupt" (validateBoundedToken value max name) := by
  have hcode : "managed_job_identity_invalid" ≠ "managed_job_store_corrupt" := by decide
  exact ErrorCodes.ite (errorCodes_error hcode) (errorCodes_ok _)

lemma validateHandle_avoids (handle : ManagedJobHandle) :
    Avoids "managed_job_store_corrupt" (validateHandle handle) :=
  ErrorCodes.bind (ErrorCodes.ite (errorCodes_ok _) (errorCodes_error (by decide))) fun _ =>
    ErrorCodes.ite (errorCodes_error (by decide))
      (ErrorCodes.ite (errorCodes_error (by decide)) (errorCodes_ok _))

lemma validateProcessParts_avoids (pid : UInt32) (startIdentity kind : String) :
    Avoids "managed_job_store_corrupt" (validateProcessParts pid startIdentity kind) := by
  have hcode : "managed_job_process_identity_invalid" ≠ "managed_job_store_corrupt" := by decide
  exact ErrorCodes.ite (errorCodes_error hcode) (validateBoundedToken_avoids _ _ _)

lemma validateTime_avoids (now : I64) : Avoids "managed_job_store_corrupt" (validateTime now) :=
  ErrorCodes.ite (errorCodes_error (by decide)) (errorCodes_ok _)

/-- The checks of a call on its arguments have codes of their own. -/
lemma checks_avoids (call : Call) : Avoids "managed_job_store_corrupt" call.checks := by
  have hdrawn (random : Option (Fin 16 → UInt8)) :
      Avoids "managed_job_store_corrupt" (drawn random) :=
    ErrorCodes.ite (errorCodes_ok _) (errorCodes_error (by decide))
  have hlast (handle : ManagedJobHandle) (now : I64) : Avoids "managed_job_store_corrupt" (do
      validateHandle handle
      validateTime now) :=
    (validateHandle_avoids handle).bind fun _ => validateTime_avoids now
  have hidentities (owner : ResidentOwnerIdentity) (process : ExactProcessIdentity)
      (handle : ManagedJobHandle) (now : I64) : Avoids "managed_job_store_corrupt" (do
        validateOwner owner
        validateProcess process
        validateHandle handle
        validateTime now) :=
    (validateProcessParts_avoids _ _ _).bind fun _ =>
      (validateProcessParts_avoids _ _ _).bind fun _ => hlast handle now
  cases call with
  | reserveStart sessionId origin onExpiry randomId randomNonce now =>
    exact (validateTime_avoids now).bind fun _ =>
      (ErrorCodes.checkSome fun _ => validateBoundedToken_avoids _ _ _).bind fun _ =>
        (hdrawn randomId).bind fun _ => hdrawn randomNonce
  | claimStarting handle owner now =>
    exact (validateProcessParts_avoids _ _ _).bind fun _ => hlast handle now
  | markUnclaimedStartFailed handle code now =>
    exact (validateBoundedToken_avoids _ _ _).bind fun _ => hlast handle now
  | markRunning handle owner process now => exact hidentities owner process handle now
  | markStartFailed handle owner code now =>
    exact (validateProcessParts_avoids _ _ _).bind fun _ =>
      (validateBoundedToken_avoids _ _ _).bind fun _ => hlast handle now
  | markExited handle owner process exitCode trigger now =>
    exact hidentities owner process handle now
  | markSignaled handle owner process signal trigger now =>
    exact ErrorCodes.ite (errorCodes_error (by decide)) (hidentities owner process handle now)
  | markDetached handle owner process liveness trigger now =>
    exact hidentities owner process handle now
  | reconcileOwner handle liveness now => exact validateTime_avoids now

lemma checkedRecord_avoids (document : Document) (handle : ManagedJobHandle) :
    Avoids "managed_job_store_corrupt" (checkedRecord document handle) := by
  unfold checkedRecord
  split
  · exact errorCodes_error (by decide)
  · exact ErrorCodes.ite (errorCodes_error (by decide)) (errorCodes_ok _)

lemma requireOwner_avoids (record : ManagedJobRecord) (owner : ResidentOwnerIdentity) :
    Avoids "managed_job_store_corrupt" (requireOwner record owner) :=
  ErrorCodes.ite (errorCodes_ok _) (errorCodes_error (by decide))

lemma transition_avoids (h : ∀ record, Avoids "managed_job_store_corrupt" (edit record)) :
    Avoids "managed_job_store_corrupt" (answered Answer.record
      (transition handle now edit document)) :=
  ErrorCodes.answered ((checkedRecord_avoids _ _).bind fun record =>
    ErrorCodes.ite (errorCodes_error (by decide)) ((h record).bind fun _ => errorCodes_ok _))

/-- So have the operations. -/
lemma operation_avoids (call : Call) :
    Avoids "managed_job_store_corrupt" (operation document call) := by
  have hterminal (owner : ResidentOwnerIdentity) (process : ExactProcessIdentity)
      (facts : TerminalFacts) (now : I64) (record : ManagedJobRecord) :
      Avoids "managed_job_store_corrupt" (markRunningTerminal owner process facts now record) :=
    (requireOwner_avoids record owner).bind fun _ =>
      ErrorCodes.ite (errorCodes_error (by decide)) (errorCodes_ok _)
  cases call with
  | reserveStart sessionId origin onExpiry randomId randomNonce now =>
    cases randomId with
    | none => exact errorCodes_error (by decide)
    | some idBytes =>
      cases randomNonce with
      | none => exact errorCodes_error (by decide)
      | some nonceBytes =>
        exact ErrorCodes.answered (ErrorCodes.ite (errorCodes_error (by decide)) (errorCodes_ok _))
  | claimStarting handle owner now =>
    exact transition_avoids fun _ =>
      ErrorCodes.ite (errorCodes_error (by decide)) (errorCodes_ok _)
  | markUnclaimedStartFailed handle code now =>
    exact transition_avoids fun _ =>
      ErrorCodes.ite (errorCodes_error (by decide)) (errorCodes_ok _)
  | markRunning handle owner process now =>
    exact transition_avoids fun record => (requireOwner_avoids record owner).bind fun _ =>
      ErrorCodes.ite (errorCodes_error (by decide)) (errorCodes_ok _)
  | markStartFailed handle owner code now =>
    exact transition_avoids fun record => (requireOwner_avoids record owner).bind fun _ =>
      ErrorCodes.ite (errorCodes_error (by decide)) (errorCodes_ok _)
  | markExited handle owner process exitCode trigger now =>
    exact transition_avoids fun record => hterminal _ _ _ _ record
  | markSignaled handle owner process signal trigger now =>
    exact transition_avoids fun record => hterminal _ _ _ _ record
  | markDetached handle owner process liveness trigger now =>
    exact transition_avoids fun record => hterminal _ _ _ _ record
  | reconcileOwner handle liveness now =>
    refine ErrorCodes.answered ((checkedRecord_avoids _ _).bind fun record =>
      ErrorCodes.ite (errorCodes_ok _) ?_)
    split
    · split
      · exact errorCodes_ok _
      · exact errorCodes_error (by decide)
    · split
      · exact errorCodes_ok _
      · exact ErrorCodes.ite (errorCodes_ok _) (errorCodes_ok _)
      · exact errorCodes_ok _

section
variable (hvalid : document.Valid) (hsize : document.json.encodedLength ≤ maxFileBytes)
include hvalid hsize

lemma readable_of_valid :
    ∀ held, some document = some held →
      store.size held ≤ store.maxBytes ∧ store.validate held = .ok () := by
  rintro held hheld
  cases hheld
  exact ⟨hsize, validateDocument_eq_ok.mpr hvalid⟩

/-- A call that keeps the policy does not find the registry corrupt, whatever its surroundings
do. -/
lemma perform_avoids (io : StoreIo) (htransition : call.IsTransition)
    (hkeeps : call.KeepsPolicy document) :
    Avoids "managed_job_store_corrupt" (perform io (some document) call).1 := by
  intro error herror
  unfold perform DocumentStore.guarded at herror
  split at herror
  · rename_i e hchecks
    obtain rfl := Except.error.inj herror
    exact checks_avoids call e hchecks
  · rename_i hchecks
    cases DocumentStore.transact_fails (readable_of_valid hvalid hsize) herror with
    | contended => decide
    | unavailable => decide
    | unreadable => decide
    | edit _ hedit =>
      exact ErrorCodes.ite (errorCodes_error (by decide))
        ((operation_avoids call).bind fun _ => errorCodes_ok _) error hedit
    | invalid answer document' _ hedit hinvalid =>
      have haccepted := (valid_iff hvalid htransition hchecks hedit).mpr hkeeps
      exact absurd (haccepted.symm.trans hinvalid) nofun
    | limit => decide
    | unpublished => decide

/-- A call that does not keep the policy finds the registry corrupt when nothing else gets in its
way. -/
lemma perform_corrupt {io : StoreIo} (hio : io.Works) (htransition : call.IsTransition)
    (hchecks : call.checks = .ok ()) (h : mutate call document = .ok (answer, document'))
    (hkeeps : ¬ call.KeepsPolicy document) :
    ∃ error, perform io (some document) call = (.error error, some document) ∧
      error.code = "managed_job_store_corrupt" := by
  have hrejected := mt (valid_iff hvalid htransition hchecks h).mp hkeeps
  cases hresult : validateDocument document' with
  | ok _ => exact absurd hresult hrejected
  | error error =>
    refine ⟨error, ?_, validateDocument_errors document' error hresult⟩
    unfold perform DocumentStore.guarded
    rw [hchecks]
    exact DocumentStore.transact_invalid hio (readable_of_valid hvalid hsize) h hresult

end

/-! ## Ending a running job -/

/-- The call ends the job of a running record: it names the job, its owner and its process, or it
reports the owner of the job as gone. -/
def Call.Ends (call : Call) (record : ManagedJobRecord) : Prop :=
  match call with
  | .markExited handle owner process _ trigger _ =>
    handle = record.handle ∧ record.owner = some owner ∧ record.process = some process ∧
      trigger ≠ .ownerLost
  | .markSignaled handle owner process signal trigger _ =>
    handle = record.handle ∧ record.owner = some owner ∧ record.process = some process ∧
      trigger ≠ .ownerLost ∧ signal ≠ 0
  | .markDetached handle owner process _ trigger _ =>
    handle = record.handle ∧ record.owner = some owner ∧ record.process = some process ∧
      trigger ≠ .ownerLost
  | .reconcileOwner handle liveness _ =>
    handle = record.handle ∧ liveness ≠ .unknown ∧
      ∀ owner, record.owner = some owner → liveness ≠ .live owner
  | _ => False

/-- A record whose job is over, or was given up. -/
def ManagedJobRecord.Over (record : ManagedJobRecord) : Prop :=
  record.state.isTerminal = true ∨ record.state = .orphanedUncertain

/-- What a call that ends a running job makes of the document. -/
structure EndsJob (call : Call) (document : Document) (jobId : String)
    (record : ManagedJobRecord) : Prop where
  is_transition : call.IsTransition
  checks_pass : call.checks = .ok ()
  job_eq : call.jobId = some jobId
  writes : call.WritesTrigger record
  mutates : ∃ answer document' record', mutate call document = .ok (answer, document') ∧
    document'.jobs[jobId]? = some record' ∧ record'.Over

section
variable (hvalid : document.Valid) (hrunning : record.state = .running)
  (hheld : document.jobs[record.handle.jobId]? = some record)
  (hclock : document.lastNowUtcMs.val ≤ now.val)
include hvalid hrunning hheld hclock

omit hrunning in
lemma identities_pass (howner : record.owner = some owner)
    (hprocess : record.process = some process) :
    (do
      validateOwner owner
      validateProcess process
      validateHandle record.handle
      validateTime now) = .ok () := by
  have hrecord := (hvalid.records_valid _ record hheld).1
  have hnonneg := hvalid.clock_nonneg
  simp only [bind_unit_eq_ok]
  refine ⟨hrecord.owner_valid owner howner, hrecord.process_valid process hprocess,
    hrecord.handle_valid, ?_⟩
  unfold validateTime
  rw [if_neg (by omega)]

/-- The three calls that end a running job. -/
lemma terminal_mutates (howner : record.owner = some owner)
    (hprocess : record.process = some process) (facts : TerminalFacts)
    (hterminal : facts.state.isTerminal = true) (hnow : call.now = now)
    (hcall : operation document call = answered .record (transition record.handle now
      (markRunningTerminal owner process facts now) document)) :
    ∃ answer document' record', mutate call document = .ok (answer, document') ∧
      document'.jobs[record.handle.jobId]? = some record' ∧ record'.Over := by
  have hle := (hvalid.records_valid _ record hheld).2
  have hupdated : record.updatedAtUtcMs.val ≤ now.val := by omega
  have hedit : markRunningTerminal owner process facts now record = .ok _ :=
    markRunningTerminal_eq_ok.mpr ⟨⟨howner, hrunning, hprocess⟩, rfl⟩
  have htransition := transition_eq_ok.mpr
    ⟨record, _, checkedRecord_eq_ok.mpr ⟨hheld, rfl, rfl⟩, hupdated, hedit, rfl, rfl⟩
  have hoperation := hcall.trans (congrArg (answered Answer.record) htransition)
  refine ⟨_, _, _, mutate_eq_ok.mpr ⟨by rw [hnow]; exact hclock, _, hoperation, rfl⟩,
    TreeMap.getElem?_insert_self, .inl hterminal⟩

/-- A call that ends a running job passes its own checks, and the new record is over. -/
lemma endsJob (hnow : call.now = now) (hends : call.Ends record) :
    EndsJob call document record.handle.jobId record := by
  cases call with
  | markExited handle owner process exitCode trigger time =>
    obtain ⟨rfl, howner, hprocess, hne⟩ := hends
    obtain rfl : time = now := hnow
    exact ⟨hne, identities_pass hvalid hheld hclock howner hprocess, rfl, trivial,
      terminal_mutates hvalid hrunning hheld hclock howner hprocess _ rfl rfl rfl⟩
  | markSignaled handle owner process signal trigger time =>
    obtain ⟨rfl, howner, hprocess, hne, hsignal⟩ := hends
    obtain rfl : time = now := hnow
    refine ⟨hne, ?_, rfl, trivial,
      terminal_mutates hvalid hrunning hheld hclock howner hprocess _ rfl rfl rfl⟩
    exact (if_neg hsignal).trans (identities_pass hvalid hheld hclock howner hprocess)
  | markDetached handle owner process liveness trigger time =>
    obtain ⟨rfl, howner, hprocess, hne⟩ := hends
    obtain rfl : time = now := hnow
    exact ⟨hne, identities_pass hvalid hheld hclock howner hprocess, rfl, trivial,
      terminal_mutates hvalid hrunning hheld hclock howner hprocess _ rfl rfl rfl⟩
  | reconcileOwner handle liveness time =>
    obtain ⟨rfl, hunknown, hlive⟩ := hends
    obtain rfl : time = now := hnow
    have hrecord := (hvalid.records_valid _ record hheld).1
    have hnonneg := hvalid.clock_nonneg
    have hopen : record.state.isTerminal = false := by rw [hrunning]; rfl
    obtain ⟨owner, howner⟩ :=
      isSome_iff_exists.mp (shape_running hrecord.shape_valid hrunning).1
    have hreconciled : reconcileOwner record.handle liveness time document
        = .ok (.markedOrphanedUncertain,
          document.replaceRecord record.handle.jobId (record.orphanedAt time)) := by
      refine bind_eq_ok.mpr ⟨record, checkedRecord_eq_ok.mpr ⟨hheld, rfl, rfl⟩, ?_⟩
      rw [hopen, howner]
      cases liveness with
      | unknown => exact absurd rfl hunknown
      | live observed => exact if_neg fun heq : observed = owner => hlive owner howner (by rw [heq])
      | dead => rfl
    refine ⟨trivial, ?_, rfl, ⟨hopen, owner, howner, hunknown, hlive owner howner⟩, _, _, _,
      mutate_eq_ok.mpr ⟨hclock, _, congrArg (answered Answer.reconciled) hreconciled, rfl⟩,
      TreeMap.getElem?_insert_self, .inr rfl⟩
    show validateTime time = .ok ()
    unfold validateTime
    rw [if_neg (by omega)]
  | _ => exact absurd hends id

end

/-- For every document that is accepted. The edit of a call whose own checks pass is accepted
exactly when the call writes a terminal trigger only into a record with an expiry policy; such a
call does not find the registry corrupt, and any other one does. A running job can be ended, as far
as the checks of the calls that end it go, and the edit is accepted exactly when its record has an
expiry policy. -/
theorem valid_iff_keepsPolicy (hvalid : validateDocument document = .ok ()) :
    (∀ call answer document', call.IsTransition → call.checks = .ok () →
      mutate call document = .ok (answer, document') →
      (validateDocument document' = .ok () ↔ call.KeepsPolicy document)) ∧
    (∀ io call error, document.json.encodedLength ≤ maxFileBytes → call.IsTransition →
      call.KeepsPolicy document → (perform io (some document) call).1 = .error error →
      error.code ≠ "managed_job_store_corrupt") ∧
    (∀ io call answer document', document.json.encodedLength ≤ maxFileBytes → io.Works →
      call.IsTransition → call.checks = .ok () →
      mutate call document = .ok (answer, document') → ¬ call.KeepsPolicy document →
      ∃ error, perform io (some document) call = (.error error, some document) ∧
        error.code = "managed_job_store_corrupt") ∧
    (∀ (jobId : String) (record : ManagedJobRecord) (call : Call),
      document.jobs[jobId]? = some record → record.state = .running → call.Ends record →
      document.lastNowUtcMs.val ≤ call.now.val →
      call.IsTransition ∧ call.checks = .ok () ∧
        ∃ answer document' record', mutate call document = .ok (answer, document') ∧
          document'.jobs[jobId]? = some record' ∧ record'.Over ∧
          (validateDocument document' = .ok () ↔ record.onExpiry ≠ none)) := by
  have hvalid := validateDocument_eq_ok.mp hvalid
  refine ⟨fun call answer document' htransition hchecks h =>
      valid_iff hvalid htransition hchecks h,
    fun io call error hsize htransition hkeeps herror =>
      perform_avoids hvalid hsize io htransition hkeeps error herror,
    fun io call answer document' hsize hio htransition hchecks h hkeeps =>
      perform_corrupt hvalid hsize hio htransition hchecks h hkeeps, ?_⟩
  intro jobId record call hheld hrunning hends hclock
  obtain rfl : jobId = record.handle.jobId := (hvalid.records_valid jobId record hheld).1.key_eq
  obtain ⟨htransition, hchecks, hjob, hwrites, answer, document', record', hmutate, hrecord', hover⟩ :=
    endsJob hvalid hrunning hheld hclock rfl hends
  refine ⟨htransition, hchecks, answer, document', record', hmutate, hrecord', hover, ?_⟩
  rw [valid_iff hvalid htransition hchecks hmutate]
  constructor
  · intro hkeeps
    exact hkeeps _ record hjob hheld hwrites
  · intro hpolicy found other hfound hother _
    obtain rfl := some.inj (hjob.symm.trans hfound)
    obtain rfl := some.inj (hheld.symm.trans hother)
    exact hpolicy

/-- A registry with one running job. -/
def runningJob (onExpiry : Option ManagedJobOnExpiry) : Document where
  schemaVersion := ManagedJobs.schemaVersion
  lastNowUtcMs := zeroTime
  jobs := TreeMap.empty.insert (uuidV4 fun _ => 0)
    { jobId := uuidV4 fun _ => 0, generation := 1, nonce := hexDigest (List.replicate 16 0)
      sessionId := none, origin := .spawned, owner := some ⟨1, "owner"⟩
      process := some ⟨2, "child"⟩, state := .running, createdAtUtcMs := zeroTime
      updatedAtUtcMs := zeroTime, terminalAtUtcMs := none, onExpiry, terminalTrigger := none
      detachLiveness := none }

/-- The child of that job exits. -/
def childExits : Call :=
  .markExited ⟨uuidV4 fun _ => 0, 1, hexDigest (List.replicate 16 0)⟩ ⟨1, "owner"⟩ ⟨2, "child"⟩ 0
    .rootExit zeroTime

/-- The exit is accepted when the record has a policy. -/
theorem valid_iff_keepsPolicy_stop :
    validateDocument (runningJob (some .stop)) = .ok () ∧
      ∃ answer document', mutate childExits (runningJob (some .stop)) = .ok (answer, document') ∧
        validateDocument document' = .ok () := by
  have hvalid : validateDocument (runningJob (some .stop)) = .ok () := by decide
  refine ⟨hvalid, ?_⟩
  obtain ⟨-, -, answer, document', record', hmutate, -, -, hiff⟩ :=
    (valid_iff_keepsPolicy hvalid).2.2.2 (uuidV4 fun _ => 0) _ childExits
      TreeMap.getElem?_insert_self rfl ⟨rfl, rfl, rfl, nofun⟩ (by decide)
  exact ⟨answer, document', hmutate, hiff.mpr nofun⟩

/-- A job of an earlier version, whose record has no policy fields, cannot be ended. -/
theorem historical_corrupts :
    validateDocument (runningJob none) = .ok () ∧ childExits.checks = .ok () ∧
      (mutate childExits (runningJob none)).isOk = true ∧
      (perform ⟨.acquired, true, .published⟩ (some (runningJob none)) childExits).1
        = .error (corrupt
          "a managed-job record with policy fields must record its expiry policy") := by
  decide

end

end Agenterm.Cu.ManagedJobs
