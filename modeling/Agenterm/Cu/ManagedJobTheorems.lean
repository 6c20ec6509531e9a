import Agenterm.Cu.ManagedJobStore

/-!
# Transitions of a job

A transition changes one record (`Moves`), and the check on documents ties the state of a record to
its owner, process, times and policy fields. `Moves.valid_iff` goes through the transitions: all of
them keep the check, except that one that writes a terminal trigger needs a record with an expiry
policy. The records of earlier versions have none.
-/

namespace Agenterm.Cu.ManagedJobs

open Std Option Lib

/-! ## Policy fields -/

/-- A spawned job records the stop policy, if it records one. -/
def PolicyAllowed (record : ManagedJobRecord) : Prop :=
  ∀ onExpiry, record.onExpiry = some onExpiry → ¬ (record.origin = .spawned ∧ onExpiry ≠ .stop)

/-- The states in which a record has no trigger. -/
def ManagedJobState.isEarly : ManagedJobState → Bool
  | .startIntent | .starting | .running | .startFailed _ => true
  | .exited _ | .signaled _ | .detached | .orphanedUncertain => false

variable {record : ManagedJobRecord}

lemma validatePolicy_eq_ok :
    validatePolicy record = .ok () ↔
      (record.onExpiry = none ∧ record.terminalTrigger = none ∧ record.detachLiveness = none) ∨
        ∃ onExpiry, record.onExpiry = some onExpiry ∧ PolicyAllowed record ∧
          record.detachLiveness.isSome = (record.state == .detached) ∧
          triggerValid record = true := by
  unfold validatePolicy PolicyAllowed
  cases hpolicy : record.onExpiry with
  | none =>
    cases htrigger : record.terminalTrigger <;> cases hliveness : record.detachLiveness <;> simp
  | some onExpiry =>
    simp only [isSome_some, Bool.true_or, Bool.not_true, Bool.false_eq_true, if_false,
      ite_error_eq_ok]
    simp

lemma policyAllowed_of_ok (h : validatePolicy record = .ok ()) : PolicyAllowed record := by
  rcases validatePolicy_eq_ok.mp h with ⟨hnone, -, -⟩ | ⟨_, -, hallowed, -⟩
  · intro onExpiry hsome
    rw [hnone] at hsome
    cases hsome
  · exact hallowed

lemma detachLiveness_of_ok (h : validatePolicy record = .ok ())
    (hstate : record.state ≠ .detached) : record.detachLiveness = none := by
  rcases validatePolicy_eq_ok.mp h with ⟨-, -, hnone⟩ | ⟨_, -, -, hliveness, -⟩
  · exact hnone
  · rw [beq_eq_false_iff_ne.mpr hstate] at hliveness
    exact isNone_iff_eq_none.mp (isSome_eq_false_iff.mp hliveness)

lemma terminalTrigger_of_ok (h : validatePolicy record = .ok ())
    (hearly : record.state.isEarly = true) : record.terminalTrigger = none := by
  rcases validatePolicy_eq_ok.mp h with ⟨-, hnone, -⟩ | ⟨_, -, -, -, htrigger⟩
  · exact hnone
  · unfold triggerValid at htrigger
    cases hstate : record.state with
    | startIntent | starting | running | startFailed =>
      rw [hstate] at htrigger
      exact isNone_iff_eq_none.mp htrigger
    | exited | signaled | detached | orphanedUncertain =>
      rw [hstate] at hearly
      cases hearly

/-- A record without trigger and liveness passes in an early state. -/
lemma validatePolicy_early (hallowed : PolicyAllowed record)
    (hearly : record.state.isEarly = true) (htrigger : record.terminalTrigger = none)
    (hliveness : record.detachLiveness = none) : validatePolicy record = .ok () := by
  refine validatePolicy_eq_ok.mpr ?_
  cases hpolicy : record.onExpiry with
  | none => exact .inl ⟨rfl, htrigger, hliveness⟩
  | some onExpiry =>
    refine .inr ⟨onExpiry, rfl, hallowed, ?_, ?_⟩
    · rw [hliveness]
      cases hstate : record.state <;> rw [hstate] at hearly <;> first | rfl | exact absurd hearly nofun
    · unfold triggerValid
      rw [htrigger]
      cases hstate : record.state <;> rw [hstate] at hearly <;> first | rfl | exact absurd hearly nofun

variable {trigger : ManagedJobTerminalTrigger}

/-- A record with a trigger passes when it has an expiry policy. -/
lemma validatePolicy_triggered (hallowed : PolicyAllowed record)
    (htrigger : record.terminalTrigger = some trigger) (hvalid : triggerValid record = true)
    (hliveness : record.detachLiveness.isSome = (record.state == .detached)) :
    validatePolicy record = .ok () ↔ record.onExpiry ≠ none := by
  rw [validatePolicy_eq_ok]
  constructor
  · rintro (⟨-, hnone, -⟩ | ⟨onExpiry, hsome, -⟩)
    · rw [htrigger] at hnone
      cases hnone
    · rw [hsome]
      exact nofun
  · intro hpolicy
    obtain ⟨onExpiry, hsome⟩ := ne_none_iff_exists'.mp hpolicy
    exact .inr ⟨onExpiry, hsome, hallowed, hliveness, hvalid⟩

/-! ## Valid documents -/

/-- What the check on a record demands. -/
structure ManagedJobRecord.Valid (record : ManagedJobRecord) (key : String) : Prop where
  handle_valid : validateHandle record.handle = .ok ()
  key_eq : key = record.jobId
  session_valid : ∀ session, record.sessionId = some session → validateSessionId session = .ok ()
  owner_valid : ∀ owner, record.owner = some owner → validateOwner owner = .ok ()
  process_valid : ∀ process, record.process = some process → validateProcess process = .ok ()
  created_nonneg : 0 ≤ record.createdAtUtcMs.val
  created_le : record.createdAtUtcMs.val ≤ record.updatedAtUtcMs.val
  shape_valid : shapeValid record = true
  policy_valid : validatePolicy record = .ok ()

lemma generation_ne_zero {handle : ManagedJobHandle} (h : validateHandle handle = .ok ()) :
    handle.generation ≠ 0 := by
  unfold validateHandle at h
  rw [bind_unit_eq_ok, ite_error_eq_ok] at h
  exact h.2.1

lemma validateRecord_eq_ok {key : String} :
    validateRecord key record = .ok () ↔ record.Valid key := by
  unfold validateRecord
  simp only [bind_unit_eq_ok, mapError_eq_ok, ite_error_eq_ok, checkSome_eq_ok]
  constructor
  · rintro ⟨hhandle, hkey, hsession, howner, hprocess, htimes, hshape, hpolicy⟩
    simp only [Bool.or_eq_true, decide_eq_true_eq, not_or, not_not] at hkey
    refine ⟨hhandle, hkey.1, hsession, howner, hprocess, by omega, by omega, ?_, hpolicy⟩
    simpa using hshape
  · intro h
    have hcreated := h.created_nonneg
    have hupdated := h.created_le
    refine ⟨h.handle_valid, ?_, h.session_valid, h.owner_valid, h.process_valid, by omega, ?_,
      h.policy_valid⟩
    · simp only [Bool.or_eq_true, decide_eq_true_eq, not_or, not_not]
      exact ⟨h.key_eq, generation_ne_zero h.handle_valid⟩
    · rw [h.shape_valid]
      exact nofun

/-- What the check on a document demands. -/
structure Document.Valid (document : Document) : Prop where
  schema_eq : document.schemaVersion = ManagedJobs.schemaVersion
  clock_nonneg : 0 ≤ document.lastNowUtcMs.val
  size_le : document.jobs.size ≤ maxJobs
  records_valid : ∀ (key : String) (record : ManagedJobRecord),
    document.jobs[key]? = some record →
      record.Valid key ∧ record.updatedAtUtcMs.val ≤ document.lastNowUtcMs.val

lemma validateDocument_eq_ok {document : Document} :
    validateDocument document = .ok () ↔ document.Valid := by
  unfold validateDocument
  rw [ite_error_eq_ok, ite_error_eq_ok, forM_toList_eq_ok]
  simp only [bind_unit_eq_ok, ite_error_eq_ok, validateRecord_eq_ok]
  constructor
  · rintro ⟨hheader, hsize, hrecords⟩
    refine ⟨by omega, by omega, by omega, fun key record hrecord => ?_⟩
    obtain ⟨hvalid, hupdated, -⟩ := hrecords key record hrecord
    exact ⟨hvalid, by omega⟩
  · intro h
    have hschema := h.schema_eq
    have hclock := h.clock_nonneg
    have hsize := h.size_le
    refine ⟨by omega, by omega, fun key record hrecord => ?_⟩
    obtain ⟨hvalid, hupdated⟩ := h.records_valid key record hrecord
    exact ⟨hvalid, by omega, trivial⟩

/-! ## What a call does to a record -/

/-- The job that a call is about. -/
def Call.jobId : Call → Option String
  | .reserveStart .. => none
  | .claimStarting handle _ _ => some handle.jobId
  | .markUnclaimedStartFailed handle _ _ => some handle.jobId
  | .markRunning handle _ _ _ => some handle.jobId
  | .markStartFailed handle _ _ _ => some handle.jobId
  | .markExited handle _ _ _ _ _ => some handle.jobId
  | .markSignaled handle _ _ _ _ _ => some handle.jobId
  | .markDetached handle _ _ _ _ _ => some handle.jobId
  | .reconcileOwner handle _ _ => some handle.jobId

/-- A call on a job that exists, with a trigger that is not reserved for the reconciliation. -/
def Call.IsTransition : Call → Prop
  | .reserveStart .. => False
  | .markExited _ _ _ _ trigger _ => trigger ≠ .ownerLost
  | .markSignaled _ _ _ _ trigger _ => trigger ≠ .ownerLost
  | .markDetached _ _ _ _ trigger _ => trigger ≠ .ownerLost
  | _ => True

/-- The call writes a terminal trigger: it ends a running job, or it finds the owner of a job that
has not ended gone. -/
def Call.WritesTrigger (call : Call) (record : ManagedJobRecord) : Prop :=
  match call with
  | .markExited .. => True
  | .markSignaled .. => True
  | .markDetached .. => True
  | .reconcileOwner _ liveness _ =>
    record.state.isTerminal = false ∧
      ∃ owner, record.owner = some owner ∧ liveness ≠ .unknown ∧ liveness ≠ .live owner
  | _ => False

/-- The state of a job that has ended, and the liveness that goes with it. -/
inductive Ending : ManagedJobState → Option ManagedJobDetachLiveness → Prop
  | exited (exitCode : Int32) : Ending (.exited exitCode) none
  | signaled (signal : UInt16) : Ending (.signaled signal) none
  | detached (liveness : ManagedJobDetachLiveness) : Ending .detached (some liveness)

/-- How a call moves a record on. -/
inductive Moves (call : Call) (record : ManagedJobRecord) : ManagedJobRecord → Prop
  | claimed (owner : ResidentOwnerIdentity) (state_eq : record.state = .startIntent)
    (owner_valid : validateOwner owner = .ok ()) (quiet : ¬ call.WritesTrigger record) :
    Moves call record
      { record with owner := some owner, state := .starting, updatedAtUtcMs := call.now }
  | startFailed (code : String)
    (state_eq : record.state = .startIntent ∨ record.state = .starting)
    (code_valid : validateBoundedToken code maxTerminalCodeBytes "terminal code" = .ok ())
    (quiet : ¬ call.WritesTrigger record) :
    Moves call record
      { record with
        state := .startFailed code, terminalAtUtcMs := some call.now, updatedAtUtcMs := call.now }
  | running (process : ExactProcessIdentity) (state_eq : record.state = .starting)
    (process_valid : validateProcess process = .ok ()) (quiet : ¬ call.WritesTrigger record) :
    Moves call record
      { record with process := some process, state := .running, updatedAtUtcMs := call.now }
  | ended (state : ManagedJobState) (trigger : ManagedJobTerminalTrigger)
    (liveness : Option ManagedJobDetachLiveness) (state_eq : record.state = .running)
    (ending : Ending state liveness) (trigger_ne : trigger ≠ .ownerLost)
    (writes : call.WritesTrigger record) :
    Moves call record
      { record with
        state, terminalAtUtcMs := some call.now, terminalTrigger := some trigger
        detachLiveness := liveness, updatedAtUtcMs := call.now }
  | orphaned (state_open : record.state.isTerminal = false) (owned : record.owner.isSome = true)
    (writes : call.WritesTrigger record) :
    Moves call record (record.orphanedAt call.now)

section
variable {call : Call} {record record' : ManagedJobRecord} {key : String}

/-- A record that keeps its identity, and whose owner, process, times, shape and policy pass. -/
lemma ManagedJobRecord.Valid.update (h : record.Valid key) (record' : ManagedJobRecord)
    (hhandle : record'.handle = record.handle)
    (hsession : record'.sessionId = record.sessionId)
    (hcreated : record'.createdAtUtcMs = record.createdAtUtcMs)
    (howner : ∀ owner, record'.owner = some owner → validateOwner owner = .ok ())
    (hprocess : ∀ process, record'.process = some process → validateProcess process = .ok ())
    (hupdated : record.createdAtUtcMs.val ≤ record'.updatedAtUtcMs.val)
    (hshape : shapeValid record' = true) :
    record'.Valid key ↔ validatePolicy record' = .ok () := by
  constructor
  · exact fun hvalid => hvalid.policy_valid
  · intro hpolicy
    refine ⟨hhandle ▸ h.handle_valid, ?_, hsession ▸ h.session_valid, howner, hprocess, ?_, ?_,
      hshape, hpolicy⟩
    · rw [h.key_eq]
      exact (congrArg ManagedJobHandle.jobId hhandle).symm
    · rw [hcreated]
      exact h.created_nonneg
    · rw [hcreated]
      exact hupdated

lemma isOrdinaryTrigger_of_ne (h : trigger ≠ .ownerLost) :
    isOrdinaryTrigger (some trigger) = true := by
  cases trigger with
  | ownerLost => exact absurd rfl h
  | _ => rfl

lemma shape_startIntent (h : shapeValid record = true) (hstate : record.state = .startIntent) :
    record.owner = none ∧ record.process = none ∧ record.terminalAtUtcMs = none := by
  unfold shapeValid at h
  rw [hstate] at h
  simpa [isNone_iff_eq_none, and_assoc] using h

lemma shape_starting (h : shapeValid record = true) (hstate : record.state = .starting) :
    record.owner.isSome = true ∧ record.process = none ∧ record.terminalAtUtcMs = none := by
  unfold shapeValid at h
  rw [hstate] at h
  simpa [isNone_iff_eq_none, and_assoc] using h

lemma shape_running (h : shapeValid record = true) (hstate : record.state = .running) :
    record.owner.isSome = true ∧ record.process.isSome = true ∧
      record.terminalAtUtcMs = none := by
  unfold shapeValid at h
  rw [hstate] at h
  simpa [isNone_iff_eq_none, and_assoc] using h

/-- A job that has not ended has no time of its end. -/
lemma shape_open (h : shapeValid record = true) (hopen : record.state.isTerminal = false) :
    record.terminalAtUtcMs = none := by
  unfold shapeValid at h
  cases hstate : record.state with
  | startIntent | starting | running | orphanedUncertain =>
    rw [hstate] at h
    simp only [Bool.and_eq_true, isNone_iff_eq_none] at h
    exact h.2
  | startFailed | exited | signaled | detached =>
    rw [hstate] at hopen
    cases hopen

/-- A transition keeps the check on the record, exactly when it writes no trigger or the record has
an expiry policy. -/
lemma Moves.valid_iff (h : Moves call record record') (hvalid : record.Valid key)
    (hclock : record.updatedAtUtcMs.val ≤ call.now.val) :
    record'.Valid key ↔ (call.WritesTrigger record → record.onExpiry ≠ none) := by
  have hcreated := hvalid.created_le
  have hallowed := policyAllowed_of_ok hvalid.policy_valid
  cases h with
  | claimed owner hstate howner hquiet =>
    obtain ⟨hnone, hprocess, hterminal⟩ := shape_startIntent hvalid.shape_valid hstate
    have htrigger := terminalTrigger_of_ok hvalid.policy_valid (by rw [hstate]; rfl)
    have hliveness := detachLiveness_of_ok hvalid.policy_valid (by rw [hstate]; exact nofun)
    refine Iff.trans (hvalid.update _ rfl rfl rfl (fun _ hsome => some.inj hsome ▸ howner)
      hvalid.process_valid (by dsimp only; omega) ?_) ?_
    · simp [shapeValid, hprocess, hterminal]
    · exact iff_of_true (validatePolicy_early hallowed rfl htrigger hliveness)
        fun hwrites => absurd hwrites hquiet
  | startFailed code hstate hcode hquiet =>
    have hprocess : record.process = none := by
      rcases hstate with hstate | hstate
      · exact (shape_startIntent hvalid.shape_valid hstate).2.1
      · exact (shape_starting hvalid.shape_valid hstate).2.1
    have hearly : record.state.isEarly = true := by
      rcases hstate with hstate | hstate <;> rw [hstate] <;> rfl
    have htrigger := terminalTrigger_of_ok hvalid.policy_valid hearly
    have hliveness := detachLiveness_of_ok hvalid.policy_valid (by
      rcases hstate with hstate | hstate <;> rw [hstate] <;> exact nofun)
    refine Iff.trans (hvalid.update _ rfl rfl rfl hvalid.owner_valid hvalid.process_valid
      (by dsimp only; omega) ?_) ?_
    · simp [shapeValid, hprocess, hcode, Except.isOk, Except.toBool]
    · exact iff_of_true (validatePolicy_early hallowed rfl htrigger hliveness)
        fun hwrites => absurd hwrites hquiet
  | running process hstate hprocess hquiet =>
    obtain ⟨howner, hnone, hterminal⟩ := shape_starting hvalid.shape_valid hstate
    have htrigger := terminalTrigger_of_ok hvalid.policy_valid (by rw [hstate]; rfl)
    have hliveness := detachLiveness_of_ok hvalid.policy_valid (by rw [hstate]; exact nofun)
    refine Iff.trans (hvalid.update _ rfl rfl rfl hvalid.owner_valid
      (fun _ hsome => some.inj hsome ▸ hprocess) (by dsimp only; omega) ?_) ?_
    · simp [shapeValid, howner, hterminal]
    · exact iff_of_true (validatePolicy_early hallowed rfl htrigger hliveness)
        fun hwrites => absurd hwrites hquiet
  | ended state trigger liveness hstate hending hne hwrites =>
    obtain ⟨howner, hprocess, -⟩ := shape_running hvalid.shape_valid hstate
    have hordinary := isOrdinaryTrigger_of_ne hne
    refine Iff.trans (hvalid.update _ rfl rfl rfl hvalid.owner_valid hvalid.process_valid
      (by dsimp only; omega) ?_) ?_
    · cases hending <;> simp [shapeValid, howner, hprocess]
    · refine Iff.trans (validatePolicy_triggered hallowed rfl
        (by cases hending <;> exact hordinary) (by cases hending <;> rfl)) ?_
      exact ⟨fun hpolicy _ => hpolicy, fun hpolicy => hpolicy hwrites⟩
  | orphaned hopen howned hwrites =>
    have hterminal := shape_open hvalid.shape_valid hopen
    have hliveness := detachLiveness_of_ok hvalid.policy_valid (by
      intro hstate
      rw [hstate] at hopen
      exact absurd hopen nofun)
    refine Iff.trans (hvalid.update _ rfl rfl rfl hvalid.owner_valid hvalid.process_valid
      (by show record.createdAtUtcMs.val ≤ call.now.val; omega) ?_) ?_
    · simp [shapeValid, ManagedJobRecord.orphanedAt, howned, hterminal]
    · refine Iff.trans (validatePolicy_triggered hallowed rfl rfl
        (by simp [ManagedJobRecord.orphanedAt, hliveness])) ?_
      exact ⟨fun hpolicy _ => hpolicy, fun hpolicy => hpolicy hwrites⟩

end

end Agenterm.Cu.ManagedJobs
