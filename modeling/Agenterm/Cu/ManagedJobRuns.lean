import Agenterm.Cu.ManagedJobValidity
import Agenterm.Lib.Keyed
import Agenterm.Lib.Registry

/-!
# The life of a managed job

The accesses of any number of processes, one after the other, from a file that does not exist. The
ids of jobs are random; that no id is drawn twice is a hypothesis of the results here
(`DrawsFresh`).

* `stepped_of_written`: all that an access can do to the records, said once;
* `job_lifecycle`: jobs go through their states in order, keep their owner and process, and only
  their owner moves them, unless it is found gone.
-/

namespace Agenterm.Cu.ManagedJobs

open Std Lib List

/-! ## States and what moves them -/

/-- The states that follow a state. -/
inductive Lifecycle : ManagedJobState → ManagedJobState → Prop
  | claimed : Lifecycle .startIntent .starting
  | unclaimed (code : String) : Lifecycle .startIntent (.startFailed code)
  | started : Lifecycle .starting .running
  | failed (code : String) : Lifecycle .starting (.startFailed code)
  | exited (exitCode : Int32) : Lifecycle .running (.exited exitCode)
  | signaled (signal : UInt16) : Lifecycle .running (.signaled signal)
  | detached : Lifecycle .running .detached
  /-- Every state of a job that has an owner and has not ended. -/
  | orphaned {state : ManagedJobState} (is_open : state.isTerminal = false)
    (owned : state ≠ .startIntent) : Lifecycle state .orphanedUncertain

/-- The call names an owner as its own, or reports it dead or replaced by another process. -/
def Call.Names (call : Call) (owner : ResidentOwnerIdentity) : Prop :=
  match call with
  | .markRunning _ named _ _ => named = owner
  | .markStartFailed _ named _ _ => named = owner
  | .markExited _ named _ _ _ _ => named = owner
  | .markSignaled _ named _ _ _ _ => named = owner
  | .markDetached _ named _ _ _ _ => named = owner
  | .reconcileOwner _ liveness _ =>
    liveness = .dead ∨ ∃ observed, liveness = .live observed ∧ observed ≠ owner
  | _ => False

/-- The id that a call draws. -/
def Call.drawnJob : Call → Option String
  | .reserveStart _ _ _ randomId _ _ => randomId.map uuidV4
  | _ => none

/-- A record moved on by a call. -/
structure Advances (call : Call) (record record' : ManagedJobRecord) : Prop where
  follows : Lifecycle record.state record'.state
  owner_kept : ∀ owner, record.owner = some owner → record'.owner = some owner
  process_kept : ∀ process, record.process = some process → record'.process = some process
  named : ∀ owner, record.owner = some owner → call.Names owner

/-- What a call makes of the records. -/
inductive Stepped (call : Call) (document : Document) : Document → Prop
  | same : Stepped call document document
  | advanced (jobId : String) (record record' : ManagedJobRecord)
    (job_eq : call.jobId = some jobId) (held : document.jobs[jobId]? = some record)
    (advances : Advances call record record') :
    Stepped call document (document.replaceRecord jobId record')
  | reserved (jobId : String) (record : ManagedJobRecord) (drawn : call.drawnJob = some jobId)
    (state_eq : record.state = .startIntent) (owner_eq : record.owner = none)
    (process_eq : record.process = none) :
    Stepped call document (document.replaceRecord jobId record)

section
variable {document document' edited : Document} {call : Call} {handle : ManagedJobHandle}
  {record record' : ManagedJobRecord} {now : I64}

lemma stepped_of_transition {edit : ManagedJobRecord → Except CuError ManagedJobRecord}
    {answer : Answer} (hvalid : document.Valid) (hjob : call.jobId = some handle.jobId)
    (hedit : ∀ record changed, shapeValid record = true → edit record = .ok changed →
      Advances call record { changed with updatedAtUtcMs := now })
    (h : answered .record (transition handle now edit document) = .ok (answer, edited)) :
    Stepped call document edited := by
  obtain ⟨written, -, h⟩ := answered_eq_ok h
  obtain ⟨record, changed, hrecord, -, hchanged, rfl, rfl⟩ := transition_eq_ok.mp h
  have hheld := (checkedRecord_eq_ok.mp hrecord).1
  have hshape := (hvalid.records_valid _ record hheld).1.shape_valid
  exact .advanced handle.jobId record _ hjob hheld (hedit record changed hshape hchanged)

lemma advances_of_terminal {owner : ResidentOwnerIdentity} {process : ExactProcessIdentity}
    {facts : TerminalFacts} (h : markRunningTerminal owner process facts now record = .ok record')
    (hfollows : Lifecycle .running facts.state) (hnames : call.Names owner) :
    Advances call record { record' with updatedAtUtcMs := now } := by
  obtain ⟨⟨howner, hstate, -⟩, rfl⟩ := markRunningTerminal_eq_ok.mp h
  refine ⟨?_, fun _ hsome => hsome, fun _ hsome => hsome, fun other hother => ?_⟩
  · show Lifecycle record.state facts.state
    rwa [hstate]
  · obtain rfl := Option.some.inj (howner.symm.trans hother)
    exact hnames

lemma stepped_of_reconcileOwner {liveness : OwnerLiveness} {outcome : OwnerReconciliation}
    (hvalid : document.Valid)
    (h : reconcileOwner handle liveness now document = .ok (outcome, edited)) :
    Stepped (.reconcileOwner handle liveness now) document edited := by
  obtain ⟨record, hheld, ⟨rfl, -⟩ | ⟨rfl, hopen, owner, howner, hunknown, hlive⟩⟩ :=
    reconcileOwner_eq_ok h
  · exact .same
  · have hshape := (hvalid.records_valid _ record hheld).1.shape_valid
    refine .advanced handle.jobId record _ rfl hheld ⟨.orphaned hopen fun hstate => ?_,
      fun _ hsome => hsome, fun _ hsome => hsome, fun other hother => ?_⟩
    · rw [(shape_startIntent hshape hstate).1] at howner
      cases howner
    · obtain rfl := Option.some.inj (howner.symm.trans hother)
      cases liveness with
      | dead => exact .inl rfl
      | unknown => exact absurd rfl hunknown
      | live observed => exact .inr ⟨observed, rfl, fun heq => hlive (by rw [heq])⟩

/-- What the operations do to the records of a document that was accepted. -/
lemma stepped_of_operation (hvalid : document.Valid) {answer : Answer}
    (h : operation document call = .ok (answer, edited)) : Stepped call document edited := by
  cases call with
  | reserveStart sessionId origin onExpiry randomId randomNonce now =>
    cases randomId with
    | none => cases h
    | some idBytes =>
      cases randomNonce with
      | none => cases h
      | some nonceBytes =>
        obtain ⟨written, -, h⟩ := answered_eq_ok h
        unfold reserveStartWithOrigin at h
        rw [ite_error_eq_ok] at h
        obtain ⟨-, rfl⟩ := Prod.mk.inj (Except.ok.inj h.2)
        exact .reserved (uuidV4 idBytes) _ rfl rfl rfl rfl
  | claimStarting handle owner now =>
    refine stepped_of_transition hvalid rfl (fun record changed hshape hedit => ?_) h
    obtain ⟨hstate, rfl⟩ := claimStarting_eq_ok hedit
    -- an intent has no owner and no process, so that there is nothing to keep
    obtain ⟨hnone, hprocess, -⟩ := shape_startIntent hshape hstate
    refine ⟨?_, fun _ hsome => ?_, fun _ hsome => hsome, fun _ hsome => ?_⟩
    · show Lifecycle record.state .starting
      rw [hstate]
      exact .claimed
    · exact absurd (hnone.symm.trans hsome) nofun
    · exact absurd (hnone.symm.trans hsome) nofun
  | markUnclaimedStartFailed handle code now =>
    refine stepped_of_transition hvalid rfl (fun record changed hshape hedit => ?_) h
    obtain ⟨hstate, rfl⟩ := markUnclaimedStartFailed_eq_ok hedit
    obtain ⟨hnone, -, -⟩ := shape_startIntent hshape hstate
    refine ⟨?_, fun _ hsome => hsome, fun _ hsome => hsome, fun _ hsome => ?_⟩
    · show Lifecycle record.state (.startFailed code)
      rw [hstate]
      exact .unclaimed code
    · exact absurd (hnone.symm.trans hsome) nofun
  | markRunning handle owner process now =>
    refine stepped_of_transition hvalid rfl (fun record changed hshape hedit => ?_) h
    obtain ⟨howner, hstate, rfl⟩ := markRunning_eq_ok hedit
    obtain ⟨-, hnone, -⟩ := shape_starting hshape hstate
    refine ⟨?_, fun _ hsome => hsome, fun _ hsome => ?_, fun _ hsome => ?_⟩
    · show Lifecycle record.state .running
      rw [hstate]
      exact .started
    · exact absurd (hnone.symm.trans hsome) nofun
    · exact Option.some.inj (howner.symm.trans hsome)
  | markStartFailed handle owner code now =>
    refine stepped_of_transition hvalid rfl (fun record changed hshape hedit => ?_) h
    obtain ⟨howner, hstate, rfl⟩ := markStartFailed_eq_ok hedit
    refine ⟨?_, fun _ hsome => hsome, fun _ hsome => hsome, fun _ hsome => ?_⟩
    · show Lifecycle record.state (.startFailed code)
      rw [hstate]
      exact .failed code
    · exact Option.some.inj (howner.symm.trans hsome)
  | markExited handle owner process exitCode trigger now =>
    refine stepped_of_transition hvalid rfl (fun record changed _ hedit => ?_) h
    exact advances_of_terminal hedit (.exited exitCode) rfl
  | markSignaled handle owner process signal trigger now =>
    refine stepped_of_transition hvalid rfl (fun record changed _ hedit => ?_) h
    exact advances_of_terminal hedit (.signaled signal) rfl
  | markDetached handle owner process liveness trigger now =>
    refine stepped_of_transition hvalid rfl (fun record changed _ hedit => ?_) h
    exact advances_of_terminal hedit .detached rfl
  | reconcileOwner handle liveness now =>
    obtain ⟨outcome, -, h⟩ := answered_eq_ok h
    exact stepped_of_reconcileOwner hvalid h

/-! ## Retention -/

lemma terminalEnds_eq_ok (hvalid : document.Valid) {ends : List (I64 × String)}
    (h : terminalEnds document = .ok ends) {terminalAt : I64} {id : String}
    (hmem : (terminalAt, id) ∈ ends) :
    ∃ record, document.jobs[id]? = some record ∧ record.state.isPrunable = true := by
  unfold terminalEnds at h
  obtain ⟨⟨key, record⟩, hentry, hend⟩ :=
    exists_left_of_forall₂ (mapM_eq_ok.mp h) hmem
  obtain ⟨hentry, hprunable⟩ := mem_filter.mp hentry
  have hheld := TreeMap.mem_toList_iff_getElem?_eq_some.mp hentry
  have hkey := (hvalid.records_valid key record hheld).1.key_eq
  dsimp only at hend
  split at hend
  · cases hend
  · cases hend
    rw [hkey] at hheld
    exact ⟨record, hheld, hprunable⟩

/-- The jobs that are selected have ended, and not by a hand-over. -/
lemma pruneSelection_eq_ok (hvalid : document.Valid) {maxAgeMs : I64} {keepNewest : Nat}
    {report : ManagedJobPruneReport}
    (h : pruneSelection document maxAgeMs keepNewest now = .ok report) {id : String}
    (hmem : id ∈ report.candidateIds) :
    ∃ record, document.jobs[id]? = some record ∧ record.state.isPrunable = true := by
  unfold pruneSelection at h
  split at h
  · cases h
  · obtain ⟨ends, hends, h⟩ := bind_eq_ok.mp h
    cases h
    dsimp only at hmem
    rw [mem_insertionSort, mem_map] at hmem
    obtain ⟨⟨terminalAt, found⟩, hfound, rfl⟩ := hmem
    have hend := mem_of_mem_drop (mem_of_mem_filter hfound)
    rw [mem_insertionSort] at hend
    exact terminalEnds_eq_ok hvalid hends hend

end

/-- What an access makes of a document. -/
inductive Written (document : Document) : Access → Document → Prop
  | called (call : Call) (edited : Document) (stepped : Stepped call document edited) :
    Written document (.call call) { edited with lastNowUtcMs := call.now }
  | pruned (maxAgeMs : I64) (keepNewest : Nat) (now : I64) (ids : List String)
    (ended : ∀ id ∈ ids, ∃ record, document.jobs[id]? = some record ∧
      record.state.isPrunable = true) :
    Written document (.prune maxAgeMs keepNewest true now)
      { document with jobs := ids.foldl (fun jobs id => jobs.erase id) document.jobs
                      lastNowUtcMs := now }

/-- The id that an access draws. -/
def Access.drawnJob : Access → Option String
  | .call request => request.drawnJob
  | _ => none

/-- A record of a job that has just been reserved. -/
structure ManagedJobRecord.Reserved (record : ManagedJobRecord) : Prop where
  state_eq : record.state = .startIntent
  owner_eq : record.owner = none
  process_eq : record.process = none

section
variable {document document' : Document} {req : Access} {jobId : String}
  {record record' : ManagedJobRecord}

/-- Where the records of the new document come from. -/
lemma Written.origin (h : Written document req document')
    (hrecord' : document'.jobs[jobId]? = some record') :
    (req.drawnJob = some jobId ∧ record'.Reserved) ∨
      ∃ record, document.jobs[jobId]? = some record ∧
        (record' = record ∨ ∃ call, req = .call call ∧ call.jobId = some jobId ∧
          Advances call record record') := by
  cases h with
  | called call edited hstepped =>
    cases hstepped with
    | same => exact .inr ⟨record', hrecord', .inl rfl⟩
    | advanced key held moved hjob hheld hadvances =>
      rcases insert_eq_some hrecord' with ⟨rfl, rfl⟩ | ⟨-, hrecord'⟩
      · exact .inr ⟨held, hheld, .inr ⟨call, rfl, hjob, hadvances⟩⟩
      · exact .inr ⟨record', hrecord', .inl rfl⟩
    | reserved key reserved hdrawn hstate howner hprocess =>
      rcases insert_eq_some hrecord' with ⟨rfl, rfl⟩ | ⟨-, hrecord'⟩
      · exact .inl ⟨hdrawn, hstate, howner, hprocess⟩
      · exact .inr ⟨record', hrecord', .inl rfl⟩
  | pruned maxAgeMs keepNewest now ids hended =>
    exact .inr ⟨record', (foldl_erase_eq_some.mp hrecord').2, .inl rfl⟩

/-- Only retention removes records, of jobs that have ended. -/
lemma Written.removed (h : Written document req document')
    (hrecord : document.jobs[jobId]? = some record) (hnone : document'.jobs[jobId]? = none) :
    (∃ maxAgeMs keepNewest now, req = .prune maxAgeMs keepNewest true now) ∧
      record.state.isPrunable = true := by
  have hinsert (key : String) (inserted : ManagedJobRecord) :
      (document.replaceRecord key inserted).jobs[jobId]? ≠ none := by
    unfold Document.replaceRecord
    rw [TreeMap.getElem?_insert]
    split
    · exact nofun
    · rw [hrecord]
      exact nofun
  cases h with
  | called call edited hstepped =>
    cases hstepped with
    | same => exact absurd (hrecord.symm.trans hnone) nofun
    | advanced key _ moved _ _ _ => exact absurd hnone (hinsert key moved)
    | reserved key reserved _ _ _ _ => exact absurd hnone (hinsert key reserved)
  | pruned maxAgeMs keepNewest now ids hended =>
    refine ⟨⟨maxAgeMs, keepNewest, now, rfl⟩, ?_⟩
    by_cases hmem : jobId ∈ ids
    · obtain ⟨found, hfound, hprunable⟩ := hended jobId hmem
      obtain rfl := Option.some.inj (hrecord.symm.trans hfound)
      exact hprunable
    · have hkept := foldl_erase_eq_some.mpr ⟨hmem, hrecord⟩
      exact absurd (hkept.symm.trans hnone) nofun

/-! ## Runs -/

/-- What an access writes, if it writes. -/
inductive Writes (document : Document) : Access → Document → Prop
  | called (request : Call) (answer : Answer) (edited : Document)
    (operates : operation document request = .ok (answer, edited)) :
    Writes document (.call request) { edited with lastNowUtcMs := request.now }
  | pruned (maxAgeMs : I64) (keepNewest : Nat) (now : I64) (selection : ManagedJobPruneReport)
    (selects : pruneSelection document maxAgeMs keepNewest now = .ok selection) :
    Writes document (.prune maxAgeMs keepNewest true now)
      { document with
        jobs := selection.candidateIds.foldl (fun jobs id => jobs.erase id) document.jobs
        lastNowUtcMs := now }

/-- An access leaves the file, or writes a document that passes its checks. -/
lemma access_writes (io : StoreIo) (file : Option Document) (req : Access) :
    (access io file req).2 = file ∨
      ∃ document', (access io file req).2 = some document' ∧
        validateDocument document' = .ok () ∧ Writes (store.current file) req document' := by
  cases req with
  | call request =>
    rcases DocumentStore.guarded_file file request.checks
      (store.transact io file (mutate request)) with hsame | ⟨-, hcall⟩
    · exact .inl hsame
    · rcases DocumentStore.transact_file store io file (mutate request) with hsame |
        ⟨answer, document', hmakes, hwritten⟩
      · exact .inl ((congrArg Prod.snd hcall).trans hsame)
      · obtain ⟨-, edited, hoperation, rfl⟩ := mutate_eq_ok.mp hmakes.edited
        exact .inr ⟨_, (congrArg Prod.snd hcall).trans hwritten, hmakes.valid,
          .called request answer edited hoperation⟩
  | prune maxAgeMs keepNewest apply now =>
    cases apply with
    | false => exact .inl rfl
    | true =>
      let edit := mutateAt now fun document =>
        answered Reply.report (prune maxAgeMs keepNewest now document)
      let checks : Except CuError Unit := do pruneChecks maxAgeMs keepNewest; validateTime now
      rcases DocumentStore.guarded_file file checks (store.transact io file edit) with hsame |
        ⟨-, hcall⟩
      · exact .inl hsame
      · rcases DocumentStore.transact_file store io file edit with hsame |
          ⟨answer, document', hmakes, hwritten⟩
        · exact .inl ((congrArg Prod.snd hcall).trans hsame)
        · refine .inr ⟨document', (congrArg Prod.snd hcall).trans hwritten, hmakes.valid, ?_⟩
          have hedited : mutateAt now _ (store.current file) = .ok (answer, document') :=
            hmakes.edited
          unfold mutateAt at hedited
          rw [ite_error_eq_ok] at hedited
          obtain ⟨⟨found, pruned⟩, hpruned, hedited⟩ := bind_eq_ok.mp hedited.2
          cases hedited
          obtain ⟨report, -, hpruned⟩ := answered_eq_ok hpruned
          obtain ⟨selection, hselection, hpruned⟩ := bind_eq_ok.mp hpruned
          cases hpruned
          exact .pruned maxAgeMs keepNewest now selection hselection
  | get id => exact .inl rfl
  | list => exact .inl rfl
  | refreshBlockers => exact .inl rfl

/-- An access writes what the document has become, or leaves the file. -/
lemma access_file (io : StoreIo) (file : Option Document) (req : Access)
    (hvalid : (store.current file).Valid) :
    (access io file req).2 = file ∨
      ∃ document', (access io file req).2 = some document' ∧ document'.Valid ∧
        Written (store.current file) req document' := by
  rcases access_writes io file req with hsame | ⟨document', hwritten, hpasses, hwrites⟩
  · exact .inl hsame
  · refine .inr ⟨document', hwritten, validateDocument_eq_ok.mp hpasses, ?_⟩
    cases hwrites with
    | called request answer edited hoperation =>
      exact .called request edited (stepped_of_operation hvalid hoperation)
    | pruned maxAgeMs keepNewest now selection hselection =>
      exact .pruned maxAgeMs keepNewest now selection.candidateIds
        fun id hid => pruneSelection_eq_ok hvalid hselection hid

/-- An access that fails leaves the file unchanged. -/
lemma access_error {io : StoreIo} {file : Option Document} {error : CuError}
    (hatomic : io.Atomic) (h : (access io file req).1 = .error error) :
    (access io file req).2 = file := by
  cases req with
  | call request =>
    have hperform : ∃ error, (perform io file request).1 = .error error := by
      cases hresult : (perform io file request).1 with
      | error e => exact ⟨e, rfl⟩
      | ok answer =>
        have hok : (perform io file request).1.map Reply.answer = .error error := h
        rw [hresult] at hok
        cases hok
    obtain ⟨e, hperform⟩ := hperform
    exact DocumentStore.guarded_error
      (fun _ herror => DocumentStore.transact_error hatomic herror) hperform
  | prune maxAgeMs keepNewest apply now =>
    cases apply with
    | false => rfl
    | true =>
      exact DocumentStore.guarded_error
        (fun _ herror => DocumentStore.transact_error hatomic herror) h
  | get id => rfl
  | list => rfl
  | refreshBlockers => rfl

end

/-- The store as a table of jobs. -/
def registry : Registry (Option Document) (StoreIo × Access) String ManagedJobRecord where
  step file req := (access req.1 file req.2).2
  record file jobId := (store.current file).jobs[jobId]?
  drawn req := req.2.drawnJob

/-- The file that accesses leave of one that does not exist. -/
def after (accesses : List (StoreIo × Access)) : Option Document :=
  run registry.step none accesses

/-- No job id is drawn twice. -/
def DrawsFresh (accesses : List (StoreIo × Access)) : Prop := (registry.draws accesses).Nodup

/-- What becomes of the record of a job. -/
structure ManagedJobRecord.Becomes (record record' : ManagedJobRecord) : Prop where
  follows : Relation.ReflTransGen Lifecycle record.state record'.state
  owner_kept : ∀ owner, record.owner = some owner → record'.owner = some owner
  process_kept : ∀ process, record.process = some process → record'.process = some process
  ended_kept : record.state.isTerminal = true → record' = record

section
variable {record record' : ManagedJobRecord}

/-- No state follows one in which the job has ended. -/
lemma Lifecycle.is_open {state state' : ManagedJobState} (h : Lifecycle state state') :
    state.isTerminal = false := by
  cases h with
  | orphaned hopen _ => exact hopen
  | _ => rfl

lemma Advances.becomes {call : Call} (h : Advances call record record') :
    record.Becomes record' where
  follows := .single h.follows
  owner_kept := h.owner_kept
  process_kept := h.process_kept
  ended_kept hended := absurd (h.follows.is_open.symm.trans hended) nofun

lemma ManagedJobRecord.Becomes.refl (record : ManagedJobRecord) : record.Becomes record where
  follows := .refl
  owner_kept _ howner := howner
  process_kept _ hprocess := hprocess
  ended_kept _ := rfl

lemma ManagedJobRecord.Becomes.trans {record'' : ManagedJobRecord} (h : record.Becomes record')
    (h' : record'.Becomes record'') : record.Becomes record'' where
  follows := h.follows.trans h'.follows
  owner_kept owner howner := h'.owner_kept owner (h.owner_kept owner howner)
  process_kept process hprocess := h'.process_kept process (h.process_kept process hprocess)
  ended_kept hended := by
    obtain rfl := h.ended_kept hended
    exact h'.ended_kept hended

lemma ManagedJobRecord.Becomes.of_path
    (h : Relation.ReflTransGen ManagedJobRecord.Becomes record record') :
    record.Becomes record' := by
  induction h with
  | refl => exact .refl record
  | tail _ hstep ih => exact ih.trans hstep

end

lemma default_valid : Document.default.Valid := by
  refine ⟨rfl, Int.le_refl _, Nat.zero_le _, fun key record hrecord => ?_⟩
  have hempty : (∅ : TreeMap String ManagedJobRecord)[key]? = some record := hrecord
  rw [TreeMap.getElem?_emptyc] at hempty
  cases hempty

/-- The records of the store change as those of jobs do. -/
lemma registry_changes :
    registry.Changes (fun file => (store.current file).Valid) ManagedJobRecord.Becomes where
  step_invariant file req hvalid := by
    rcases access_file req.1 file req.2 hvalid with hsame | ⟨document', hwritten, hvalid', -⟩
    · show (store.current (access req.1 file req.2).2).Valid
      rwa [hsame]
    · show (store.current (access req.1 file req.2).2).Valid
      rwa [hwritten]
  step_record file req jobId record' hvalid hrecord' := by
    have hrecord' : (store.current (access req.1 file req.2).2).jobs[jobId]? = some record' :=
      hrecord'
    rcases access_file req.1 file req.2 hvalid with hsame | ⟨document', hwritten, -, hstep⟩
    · rw [hsame] at hrecord'
      exact .inr ⟨record', hrecord', .refl record'⟩
    · rw [hwritten] at hrecord'
      rcases hstep.origin hrecord' with ⟨hdrawn, -⟩ | ⟨record, hrecord, hmoved⟩
      · exact .inl hdrawn
      · refine .inr ⟨record, hrecord, ?_⟩
        rcases hmoved with rfl | ⟨call, -, -, hadvances⟩
        · exact .refl _
        · exact hadvances.becomes

lemma after_valid (accesses : List (StoreIo × Access)) :
    (store.current (after accesses)).Valid := by
  have hstart : (store.current none).Valid := default_valid
  exact run_invariant registry_changes.step_invariant hstart accesses

/-- Over every run of accesses that draws no job id twice. In each step: a record that was not
there is that of an intent; a record that changes moves on to a state that follows, keeps its owner
and process, and is moved by a call on its job that names its owner or reports it gone; a record is
removed only by retention, after the end of its job. Between any two moments: a job has gone
through states in order, with the same owner and process, and the record of one that has ended has
not changed. An access that fails changes nothing. -/
theorem job_lifecycle (accesses : List (StoreIo × Access)) (hfresh : DrawsFresh accesses) :
    (∀ before io req later (jobId : String) (record' : ManagedJobRecord),
      accesses = before ++ (io, req) :: later →
      (store.current (access io (after before) req).2).jobs[jobId]? = some record' →
      ((store.current (after before)).jobs[jobId]? = none ∧ record'.Reserved) ∨
        ∃ record, (store.current (after before)).jobs[jobId]? = some record ∧
          (record' = record ∨ ∃ call, req = .call call ∧ call.jobId = some jobId ∧
            Advances call record record')) ∧
    (∀ before io req later (jobId : String) (record : ManagedJobRecord),
      accesses = before ++ (io, req) :: later →
      (store.current (after before)).jobs[jobId]? = some record →
      (store.current (access io (after before) req).2).jobs[jobId]? = none →
      (∃ maxAgeMs keepNewest now, req = .prune maxAgeMs keepNewest true now) ∧
        record.state.isTerminal = true) ∧
    (∀ before between later (jobId : String) (record record' : ManagedJobRecord),
      accesses = before ++ between ++ later →
      (store.current (after before)).jobs[jobId]? = some record →
      (store.current (after (before ++ between))).jobs[jobId]? = some record' →
      record.Becomes record') ∧
    (∀ before (io : StoreIo) req later error, accesses = before ++ (io, req) :: later →
      io.Atomic → (access io (after before) req).1 = .error error →
      (access io (after before) req).2 = after before) := by
  have hempty : ∀ jobId, registry.record none jobId = none := by
    intro jobId
    show (∅ : TreeMap String ManagedJobRecord)[jobId]? = none
    rw [TreeMap.getElem?_emptyc]
  have hstart : (store.current none).Valid := default_valid
  refine ⟨?_, ?_, ?_, ?_⟩
  · intro before io req later jobId record' hrun hrecord'
    rcases access_file io (after before) req (after_valid before) with hsame |
      ⟨document', hwritten, -, hstep⟩
    · rw [hsame] at hrecord'
      exact .inr ⟨record', hrecord', .inl rfl⟩
    · rw [hwritten] at hrecord'
      rcases hstep.origin hrecord' with ⟨hdrawn, hreserved⟩ | hmoved
      · refine .inl ⟨?_, hreserved⟩
        unfold DrawsFresh at hfresh
        rw [hrun] at hfresh
        exact Registry.absent_of_drawn registry_changes hstart hempty hfresh hdrawn
      · exact .inr hmoved
  · intro before io req later jobId record _ hrecord hnone
    rcases access_file io (after before) req (after_valid before) with hsame |
      ⟨document', hwritten, -, hstep⟩
    · rw [hsame] at hnone
      exact absurd (hrecord.symm.trans hnone) nofun
    · rw [hwritten] at hnone
      obtain ⟨hprune, hprunable⟩ := hstep.removed hrecord hnone
      refine ⟨hprune, ?_⟩
      cases hstate : record.state with
      | startFailed | exited | signaled => rfl
      | _ =>
        rw [hstate] at hprunable
        cases hprunable
  · intro before between later jobId record record' hrun hrecord hrecord'
    unfold DrawsFresh Registry.draws at hfresh
    rw [hrun, filterMap_append] at hfresh
    exact .of_path (Registry.path registry_changes hstart hempty
      (nodup_append.mp hfresh).1 hrecord hrecord')
  · intro before io req later error _ hatomic herror
    exact access_error hatomic herror

/-- A job is reserved, and then claimed by an owner. -/
def claimExample : List (StoreIo × Access) :=
  [ (⟨.acquired, true, .published⟩,
      .call (.reserveStart none .spawned .stop (some fun _ => 0) (some fun _ => 1) zeroTime)),
    (⟨.acquired, true, .published⟩,
      .call (.claimStarting ⟨uuidV4 fun _ => 0, 1, hexDigest (List.replicate 16 1)⟩ ⟨7, "owner"⟩
        zeroTime)) ]

theorem job_lifecycle_claimed :
    DrawsFresh claimExample ∧
      ∃ record record',
        (store.current (after (claimExample.take 1))).jobs[uuidV4 fun _ => 0]? = some record ∧
        (store.current (after claimExample)).jobs[uuidV4 fun _ => 0]? = some record' ∧
        record'.state = .starting ∧ record.Becomes record' := by
  have hfresh : DrawsFresh claimExample := by
    unfold DrawsFresh
    decide
  have hfirst : ((store.current (after (claimExample.take 1))).jobs[uuidV4 fun _ => 0]?).isSome
      = true := by decide
  have hsecond : ((store.current (after claimExample)).jobs[uuidV4 fun _ => 0]?).any
      (fun record' => record'.state == .starting) = true := by decide
  obtain ⟨record, hrecord⟩ := Option.isSome_iff_exists.mp hfirst
  obtain ⟨record', hrecord', hstate⟩ := (Option.any_eq_true _ _).mp hsecond
  exact ⟨hfresh, record, record', hrecord, hrecord', eq_of_beq hstate,
    (job_lifecycle claimExample hfresh).2.2.1 (claimExample.take 1) (claimExample.drop 1) []
      (uuidV4 fun _ => 0) record record' rfl hrecord hrecord'⟩

end Agenterm.Cu.ManagedJobs
