import Agenterm.Cu.ManagedJobOwner
import Agenterm.Cu.ManagedJobRuns
import Agenterm.Lib.Throughout

/-!
# What is recorded as the cause of the end of a job

The record of a job is written once, by whichever call of its owner finds it running
(`published_or_kept`). A call that finds the process ended on its own records `root_exit`, and one
that has ended it records its own trigger. A call may end the process and fail before the record is
written. When that does not happen, what is recorded is what ended the process
(`terminal_cause`). A report never changes (`report_kept`).
-/

namespace Agenterm.Cu.ManagedJobs

open Lib JobWorld

/-! ## Records of an owner -/

/-- The record of the job, as long as it is the owner's. -/
structure Owned (launch : JobLaunch) (file : Option Document) (record : ManagedJobRecord) :
    Prop where
  held : (store.current file).jobs[launch.handle.jobId]? = some record
  owner_eq : record.owner = some launch.owner

variable {answer : Answer} {now : I64}

variable {io : Lib.StoreIo} {report : ManagedJobRunReport}

section
variable {launch : JobLaunch} {file : Option Document} {document edited : Document}
  {record : ManagedJobRecord}

/-- A transition by someone else leaves the records of an owner. -/
lemma owned_of_transition {handle : ManagedJobHandle}
    {edit : ManagedJobRecord → Except CuError ManagedJobRecord}
    (hedit : ∀ record changed, edit record = .ok changed → changed.owner ≠ some launch.owner)
    (h : answered .record (transition handle now edit document) = .ok (answer, edited))
    (hheld : edited.jobs[launch.handle.jobId]? = some record)
    (howner : record.owner = some launch.owner) :
    document.jobs[launch.handle.jobId]? = some record := by
  obtain ⟨written, -, h⟩ := answered_eq_ok h
  obtain ⟨before, changed, -, -, hchanged, rfl, rfl⟩ := transition_eq_ok.mp h
  rcases Lib.insert_eq_some hheld with ⟨-, rfl⟩ | ⟨-, hheld⟩
  · exact absurd howner (hedit before changed hchanged)
  · exact hheld

lemma owner_ne {named owner : ResidentOwnerIdentity} (h : decide (named = owner) = false)
    {record : ManagedJobRecord} (hnamed : record.owner = some named) :
    record.owner ≠ some owner := by
  rw [hnamed]
  exact fun heq => of_decide_eq_false h (Option.some.inj heq)

/-- A record whose owner was found gone. -/
def ManagedJobRecord.Orphaned (record : ManagedJobRecord) : Prop :=
  record.state = .orphanedUncertain ∧ record.terminalTrigger = some .ownerLost

/-- What someone else's call may make of a record of an owner: it finds the owner gone. -/
lemma owned_of_operation {call : Call} (hothers : call.actsFor launch.owner = false)
    (h : operation document call = .ok (answer, edited))
    (hheld : edited.jobs[launch.handle.jobId]? = some record)
    (howner : record.owner = some launch.owner) :
    document.jobs[launch.handle.jobId]? = some record ∨ record.Orphaned := by
  cases call with
  | reserveStart sessionId origin onExpiry randomId randomNonce now =>
    cases randomId with
    | none => cases h
    | some idBytes =>
      cases randomNonce with
      | none => cases h
      | some nonceBytes =>
        obtain ⟨reserved, -, h⟩ := answered_eq_ok h
        unfold reserveStartWithOrigin at h
        rw [Lib.ite_error_eq_ok] at h
        obtain ⟨rfl, rfl⟩ := Prod.mk.inj (Except.ok.inj h.2)
        rcases Lib.insert_eq_some hheld with ⟨-, rfl⟩ | ⟨-, hheld⟩
        · cases howner
        · exact .inl hheld
  | claimStarting handle owner now =>
    refine .inl (owned_of_transition (fun before changed hedit => ?_) h hheld howner)
    obtain ⟨-, rfl⟩ := claimStarting_eq_ok hedit
    exact owner_ne hothers rfl
  | markUnclaimedStartFailed handle code now =>
    refine .inl (owned_of_transition (fun before changed hedit => ?_) h hheld howner)
    unfold markUnclaimedStartFailed at hedit
    rw [Lib.ite_error_eq_ok, not_or, not_or] at hedit
    obtain ⟨⟨-, hnone, -⟩, hedit⟩ := hedit
    cases hedit
    exact fun hsome => hnone (Option.isSome_of_eq_some hsome)
  | markRunning handle owner process now =>
    refine .inl (owned_of_transition (fun before changed hedit => ?_) h hheld howner)
    obtain ⟨hnamed, -, rfl⟩ := markRunning_eq_ok hedit
    exact owner_ne hothers hnamed
  | markStartFailed handle owner code now =>
    refine .inl (owned_of_transition (fun before changed hedit => ?_) h hheld howner)
    obtain ⟨hnamed, -, rfl⟩ := markStartFailed_eq_ok hedit
    exact owner_ne hothers hnamed
  | markExited handle owner process exitCode trigger now =>
    refine .inl (owned_of_transition (fun before changed hedit => ?_) h hheld howner)
    obtain ⟨⟨hnamed, -⟩, rfl⟩ := markRunningTerminal_eq_ok.mp hedit
    exact owner_ne hothers hnamed
  | markSignaled handle owner process signal trigger now =>
    refine .inl (owned_of_transition (fun before changed hedit => ?_) h hheld howner)
    obtain ⟨⟨hnamed, -⟩, rfl⟩ := markRunningTerminal_eq_ok.mp hedit
    exact owner_ne hothers hnamed
  | markDetached handle owner process liveness trigger now =>
    refine .inl (owned_of_transition (fun before changed hedit => ?_) h hheld howner)
    obtain ⟨⟨hnamed, -⟩, rfl⟩ := markRunningTerminal_eq_ok.mp hedit
    exact owner_ne hothers hnamed
  | reconcileOwner handle liveness now =>
    obtain ⟨outcome, -, h⟩ := answered_eq_ok h
    obtain ⟨before, -, ⟨rfl, -⟩ | ⟨rfl, -⟩⟩ := reconcileOwner_eq_ok h
    · exact .inl hheld
    · rcases Lib.insert_eq_some hheld with ⟨-, rfl⟩ | ⟨-, hheld⟩
      · exact .inr ⟨rfl, rfl⟩
      · exact .inl hheld

/-- An access of someone else leaves the record of an owner, or finds the owner gone. -/
lemma owned_of_access (others : OthersAccess launch.owner)
    (h : Owned launch (access io file others.access).2 record) :
    Owned launch file record ∨ record.Orphaned := by
  obtain ⟨req, hothers⟩ := others
  rcases access_writes io file req with hsame | ⟨document', hwritten, -, hwrites⟩
  · rw [hsame] at h
    exact .inl h
  · rw [hwritten] at h
    obtain ⟨hheld, howner⟩ := h
    cases hwrites with
    | called request answer edited hoperation =>
      rcases owned_of_operation hothers hoperation hheld howner with hheld | horphaned
      · exact .inl ⟨hheld, howner⟩
      · exact .inr horphaned
    | pruned maxAgeMs keepNewest now selection hselection =>
      exact .inl ⟨(Lib.foldl_erase_eq_some.mp hheld).2, howner⟩

lemma Owned.unique {record' : ManagedJobRecord} (h : Owned launch file record)
    (h' : Owned launch file record') : record' = record :=
  Option.some.inj (h'.held.symm.trans h.held)

end

/-! ## Publishing -/

def ManagedJobTerminal.state : ManagedJobTerminal → ManagedJobState
  | .exited exitCode => .exited exitCode
  | .signaled signal => .signaled signal
  | .detached => .detached

/-- The call by which an owner ends its job. -/
def endCall (launch : JobLaunch) (liveness : ManagedJobDetachLiveness)
    (trigger : ManagedJobTerminalTrigger) : ManagedJobTerminal → I64 → Call
  | .exited exitCode => .markExited launch.handle launch.owner launch.process exitCode trigger
  | .signaled signal => .markSignaled launch.handle launch.owner launch.process signal trigger
  | .detached => .markDetached launch.handle launch.owner launch.process liveness trigger

/-- The store takes a call: nothing fails up to the write, and the write replaces the file. -/
def Takes (io : Lib.StoreIo) (file : Option Document) (call : Call) : Prop :=
  call.checks = .ok () ∧ (∃ written, store.attempt io file (mutate call) = .ok written) ∧
    io.write ≠ .refused

/-- Nothing but the streams has changed. -/
structure Kept (world world' : JobWorld) : Prop where
  process_eq : world'.process = world.process
  file_eq : world'.file = world.file
  report_eq : world'.job.terminalReport = world.job.terminalReport
  finished_eq : world'.job.finished = world.job.finished
  held_eq : world'.job.held = world.job.held

/-- The record of the job, which was running, has been written; the owner has reported it unless
the store said that the write had failed. -/
structure Publishes (launch : JobLaunch) (terminal : ManagedJobTerminal)
    (trigger : ManagedJobTerminalTrigger) (world world' : JobWorld) : Prop where
  process_eq : world'.process = world.process
  written : ∃ record, Owned launch world'.file record ∧ record.state = terminal.state ∧
    record.terminalTrigger = some trigger
  reported : (world'.job.terminalReport = world.job.terminalReport ∧
      world'.job.finished = world.job.finished ∧ world'.job.held = world.job.held) ∨
    (∃ report, world'.job.terminalReport = some report ∧ report.terminal = terminal) ∧
      world'.job.finished = true
  taken : ∃ record, Owned launch world.file record ∧ record.state = .running

section
variable {launch : JobLaunch} {world world' : JobWorld} {terminal : ManagedJobTerminal}
  {trigger : ManagedJobTerminalTrigger} {met : Circumstances}

lemma Kept.refl (world : JobWorld) : Kept world world := ⟨rfl, rfl, rfl, rfl, rfl⟩

lemma endCall_operation (launch : JobLaunch) (liveness : ManagedJobDetachLiveness)
    (trigger : ManagedJobTerminalTrigger) (terminal : ManagedJobTerminal) (now : I64)
    (document : Document) :
    ∃ facts : TerminalFacts, facts.state = terminal.state ∧ facts.trigger = trigger ∧
      operation document (endCall launch liveness trigger terminal now)
        = answered .record (transition launch.handle now
          (markRunningTerminal launch.owner launch.process facts now) document) := by
  cases terminal with
  | exited | signaled | detached => exact ⟨_, rfl, rfl, rfl⟩

variable {document : Document}

/-- What the store writes when it takes the end of a job. -/
lemma written_of_makes {file : Option Document} {liveness : ManagedJobDetachLiveness}
    (h : Lib.DocumentStore.Makes store io file
      (mutate (endCall launch liveness trigger terminal now)) answer document) :
    (∃ record, Owned launch file record ∧ record.state = .running) ∧
      ∃ record, Owned launch (some document) record ∧ record.state = terminal.state ∧
        record.terminalTrigger = some trigger := by
  obtain ⟨-, edited, hoperation, rfl⟩ := mutate_eq_ok.mp h.edited
  obtain ⟨facts, hstate, htrigger, hcall⟩ :=
    endCall_operation launch liveness trigger terminal now (store.current file)
  obtain ⟨record', -, htransition⟩ := answered_eq_ok (hcall.symm.trans hoperation)
  obtain ⟨record, changed, hrecord, -, hedit, hrecord', rfl⟩ := transition_eq_ok.mp htransition
  obtain ⟨⟨howner, hrunning, -⟩, rfl⟩ := markRunningTerminal_eq_ok.mp hedit
  refine ⟨⟨record, ⟨(checkedRecord_eq_ok.mp hrecord).1, howner⟩, hrunning⟩, record',
    ⟨Std.TreeMap.getElem?_insert_self, ?_⟩, ?_, ?_⟩
  · rw [hrecord']
    exact howner
  · rw [hrecord']
    exact hstate
  · rw [hrecord']
    exact congrArg some htrigger

/-- A call leaves the file, and then it fails, or it writes the file. -/
lemma perform_cases (io : Lib.StoreIo) (file : Option Document) (call : Call) :
    ((perform io file call).2 = file ∧ ∃ error, (perform io file call).1 = .error error) ∨
      ∃ answer document, (perform io file call).2 = some document ∧
        Lib.DocumentStore.Makes store io file (mutate call) answer document := by
  cases hresult : (perform io file call).1 with
  | error error =>
    rcases Lib.DocumentStore.guarded_file file call.checks
      (store.transact io file (mutate call)) with hsame | ⟨-, hcall⟩
    · exact .inl ⟨hsame, error, rfl⟩
    · rcases Lib.DocumentStore.transact_file store io file (mutate call) with hsame |
        ⟨answer, document, hmakes, hwritten⟩
      · exact .inl ⟨(congrArg Prod.snd hcall).trans hsame, error, rfl⟩
      · exact .inr ⟨answer, document, (congrArg Prod.snd hcall).trans hwritten, hmakes⟩
  | ok answer =>
    obtain ⟨-, hcall⟩ := Lib.DocumentStore.guarded_ok hresult
    have hok : (store.transact io file (mutate call)).1 = .ok answer :=
      (congrArg Prod.fst hcall).symm.trans hresult
    obtain ⟨document, hmakes, hwritten⟩ := Lib.DocumentStore.transact_ok hok
    exact .inr ⟨answer, document, (congrArg Prod.snd hcall).trans hwritten, hmakes⟩

lemma published_of_makes {world : JobWorld} {met : Circumstances} (hnow : met.now = some now)
    (hfile : (perform met.io world.file (endCall launch met.liveness trigger terminal now)).2
      = some document)
    (hmakes : Lib.DocumentStore.Makes store met.io world.file
      (mutate (endCall launch met.liveness trigger terminal now)) answer document)
    (failure : String) :
    Publishes launch terminal trigger world
      (world.publish met terminal failure (endCall launch met.liveness trigger terminal)).2 := by
  obtain ⟨htaken, record, howned, hstate, htrigger⟩ := written_of_makes hmakes
  unfold publish
  rw [hnow]
  dsimp only
  rw [hfile]
  cases (perform met.io world.file (endCall launch met.liveness trigger terminal now)).1 with
  | error error =>
    exact ⟨rfl, ⟨record, howned, hstate, htrigger⟩, .inl ⟨rfl, rfl, rfl⟩, htaken⟩
  | ok answer =>
    exact ⟨rfl, ⟨record, howned, hstate, htrigger⟩, .inr ⟨⟨_, rfl, rfl⟩, rfl⟩, htaken⟩

/-- Publishing leaves everything as it is, or writes the record. -/
lemma published_or_kept (launch : JobLaunch) (world : JobWorld) (met : Circumstances)
    (trigger : ManagedJobTerminalTrigger) (terminal : ManagedJobTerminal) (failure : String) :
    Kept world
        (world.publish met terminal failure (endCall launch met.liveness trigger terminal)).2 ∨
      Publishes launch terminal trigger world
        (world.publish met terminal failure (endCall launch met.liveness trigger terminal)).2 := by
  cases hnow : met.now with
  | none =>
    refine .inl ?_
    unfold publish
    rw [hnow]
    exact .refl world
  | some now =>
    rcases perform_cases met.io world.file (endCall launch met.liveness trigger terminal now) with
      ⟨hfile, error, herror⟩ | ⟨answer, document, hfile, hmakes⟩
    · refine .inl ?_
      unfold publish
      rw [hnow]
      dsimp only
      rw [herror, hfile]
      exact .refl world
    · exact .inr (published_of_makes hnow hfile hmakes failure)

/-- A call that the store takes is written. -/
lemma published_of_takes (world : JobWorld) {met : Circumstances} (hnow : met.now = some now)
    (htakes : Takes met.io world.file (endCall launch met.liveness trigger terminal now))
    (failure : String) :
    Publishes launch terminal trigger world
      (world.publish met terminal failure (endCall launch met.liveness trigger terminal)).2 := by
  obtain ⟨hchecks, ⟨⟨answer, document⟩, hattempt⟩, hwrite⟩ := htakes
  refine published_of_makes hnow ?_ (Lib.DocumentStore.attempt_eq_ok.mp hattempt) failure
  unfold perform Lib.DocumentStore.guarded Lib.DocumentStore.transact
  rw [hchecks, hattempt]
  cases hio : met.io.write with
  | refused => exact absurd hio hwrite
  | published => rfl
  | unsettled => rfl

/-! ## The calls of an owner -/

lemma Kept.publishes {world'' : JobWorld} (h : Kept world world')
    (hpublishes : Publishes launch terminal trigger world' world'') :
    Publishes launch terminal trigger world world'' where
  process_eq := hpublishes.process_eq.trans h.process_eq
  written := hpublishes.written
  reported := by
    rw [← h.report_eq, ← h.finished_eq, ← h.held_eq]
    exact hpublishes.reported
  taken := by
    rw [← h.file_eq]
    exact hpublishes.taken

/-- The world in which the end of a process is published. -/
def JobWorld.drained (world : JobWorld) (met : Circumstances) : JobWorld :=
  { world with
    job := { world.job with stdinOpen := false, stdout := met.stdout, stderr := met.stderr } }

lemma drained_kept (world : JobWorld) (met : Circumstances) : Kept world (world.drained met) :=
  ⟨rfl, rfl, rfl, rfl, rfl⟩

/-- The containment is closed and the drains have settled. -/
def Circumstances.Settles (met : Circumstances) : Prop :=
  met.cleaned = true ∧ met.stdout.finalized = true ∧ met.stderr.finalized = true

lemma terminalFromExit_ne_detached {exit : ProcessExit} :
    terminalFromExit exit ≠ .ok .detached := by
  cases exit with
  | code code => exact nofun
  | signal signal =>
    dsimp only [terminalFromExit]
    split <;> exact nofun
  | unavailable => exact nofun

lemma finishAfterExit_settles {exit : ProcessExit} (hsettles : met.Settles)
    (hterminal : terminalFromExit exit = .ok terminal) :
    world.finishAfterExit launch met exit trigger
      = (world.drained met).publish met terminal "managed_job_terminal_publish_failed"
        (endCall launch met.liveness trigger terminal) := by
  obtain ⟨hcleaned, hstdout, hstderr⟩ := hsettles
  unfold finishAfterExit settleDrains
  rw [hcleaned, hstdout, hstderr]
  cases terminal with
  | exited exitCode | signaled signal =>
    simp only [Bool.not_true, Bool.false_eq_true, if_false, Bool.and_self, if_true, hterminal]
    rfl
  | detached => exact absurd hterminal terminalFromExit_ne_detached

lemma finishAfterExit_cases (launch : JobLaunch) (world : JobWorld) (met : Circumstances)
    (exit : ProcessExit) (trigger : ManagedJobTerminalTrigger) :
    Kept world (world.finishAfterExit launch met exit trigger).2 ∨
      ∃ terminal, Publishes launch terminal trigger world
        (world.finishAfterExit launch met exit trigger).2 := by
  by_cases hsettles : met.Settles
  · cases hterminal : terminalFromExit exit with
    | error error =>
      refine .inl ?_
      obtain ⟨hcleaned, hstdout, hstderr⟩ := hsettles
      unfold finishAfterExit settleDrains
      rw [hcleaned, hstdout, hstderr]
      simp only [Bool.not_true, Bool.false_eq_true, if_false, Bool.and_self, if_true, hterminal]
      exact ⟨rfl, rfl, rfl, rfl, rfl⟩
    | ok terminal =>
      rw [finishAfterExit_settles hsettles hterminal]
      rcases published_or_kept launch (world.drained met) met trigger terminal
        "managed_job_terminal_publish_failed" with hkept | hpublishes
      · exact .inl ⟨hkept.process_eq, hkept.file_eq, hkept.report_eq, hkept.finished_eq,
          hkept.held_eq⟩
      · exact .inr ⟨terminal, (drained_kept world met).publishes hpublishes⟩
  · refine .inl ?_
    unfold finishAfterExit settleDrains
    cases hcleaned : met.cleaned with
    | false => exact ⟨rfl, rfl, rfl, rfl, rfl⟩
    | true =>
      have hdrains : (met.stdout.finalized && met.stderr.finalized) = false := by
        rw [Bool.and_eq_false_iff]
        by_contra hfinal
        simp only [not_or, Bool.not_eq_false] at hfinal
        exact hsettles ⟨hcleaned, hfinal⟩
      simp only [Bool.not_true, Bool.false_eq_true, if_false, hdrains]
      exact ⟨rfl, rfl, rfl, rfl, rfl⟩

/-- The first look at the process, when nothing has been reported: it goes no further, or the
process has ended and that is published, or the process is there and nothing has changed. -/
lemma tryFinish_cases (launch : JobLaunch) (met : Circumstances)
    (hreport : world.job.terminalReport = none) :
    ((world.tryFinish launch met).1 ≠ .ok none ∧ Kept world (world.tryFinish launch met).2) ∨
      (∃ exit cause terminal, world.process = .ended exit cause ∧
        (world.tryFinish launch met).1 ≠ .ok none ∧
        Publishes launch terminal .rootExit world (world.tryFinish launch met).2) ∨
      ∃ signalled, world.process = .running signalled ∧ met.observed = true ∧
        world.tryFinish launch met = (.ok none, world) := by
  have hsome : ∀ finished : Except String ManagedJobRunReport, finished.map some ≠ .ok none := by
    intro finished
    cases finished <;> exact nofun
  unfold tryFinish
  rw [hreport]
  dsimp only
  cases hobserved : met.observed with
  | false =>
    -- nothing is done to a process that cannot be observed
    refine .inl ?_
    split
    · exact ⟨nofun, .refl world⟩
    · split
      · exact ⟨nofun, .refl world⟩
      · exact ⟨nofun, .refl world⟩
  | true =>
    cases hprocess : world.process with
    | running signalled =>
      split
      · exact .inr (.inr ⟨signalled, rfl, rfl, rfl⟩)
      · split
        · exact .inl ⟨nofun, .refl world⟩
        · exact .inr (.inr ⟨signalled, rfl, rfl, rfl⟩)
    | ended exit cause =>
      split
      · rcases published_or_kept launch world met .rootExit .detached
          "managed_job_terminal_publish_failed" with hkept | hpublishes
        · exact .inl ⟨hsome _, hkept⟩
        · exact .inr (.inl ⟨exit, cause, .detached, rfl, hsome _, hpublishes⟩)
      · split
        · exact .inl ⟨nofun, .refl world⟩
        · rcases finishAfterExit_cases launch world met exit .rootExit with
            hkept | ⟨terminal, hpublishes⟩
          · exact .inl ⟨hsome _, hkept⟩
          · exact .inr (.inl ⟨exit, cause, terminal, rfl, hsome _, hpublishes⟩)

/-- A termination without an effect changes nothing. -/
lemma terminateJob_unharmed (launch : JobLaunch) {signalled : Option ManagedJobTerminalTrigger}
    (hprocess : world.process = .running signalled) (hfate : met.fate = .unharmed) :
    Kept world (world.terminateJob launch met trigger).2 := by
  have hterminate : world.process.terminate trigger met.fate = world.process := by
    rw [hprocess, hfate]
    rfl
  unfold terminateJob stopAdopted
  rw [hterminate, hprocess]
  dsimp only
  split
  · split
    · exact .refl world
    · split
      · exact ⟨hprocess.symm, rfl, rfl, rfl, rfl⟩
      · cases met.confirmed <;> exact ⟨hprocess.symm, rfl, rfl, rfl, rfl⟩
  · split
    · exact ⟨hprocess.symm, rfl, rfl, rfl, rfl⟩
    · cases met.confirmed <;> exact ⟨hprocess.symm, rfl, rfl, rfl, rfl⟩

/-- A termination gets through to the record of what it did: it ends the process at once, and
nothing on the way to the store fails. -/
def Recorded (launch : JobLaunch) (world : JobWorld) (trigger : ManagedJobTerminalTrigger)
    (met : Circumstances) : Prop :=
  met.confirmed = true ∧ ∃ exit terminal now, met.fate = .ends exit ∧ met.now = some now ∧
    (launch.adopted = true → met.terminated = true ∧ terminal = .signaled 9) ∧
    (launch.adopted = false → met.Settles ∧ terminalFromExit exit = .ok terminal) ∧
    Takes met.io world.file (endCall launch met.liveness trigger terminal now)

/-- The world after a termination has ended the process. -/
def JobWorld.ended (world : JobWorld) (exit : ProcessExit) (trigger : ManagedJobTerminalTrigger) :
    JobWorld :=
  { world with process := .ended exit (some trigger) }

/-- A termination that gets through to the record. -/
lemma terminateJob_recorded (hheld : world.job.held = true)
    (hprocess : world.process = .running none) (hrecorded : Recorded launch world trigger met) :
    ∃ exit terminal, terminal ≠ .detached ∧
      Publishes launch terminal trigger (world.ended exit trigger)
        (world.terminateJob launch met trigger).2 := by
  obtain ⟨hconfirmed, exit, terminal, now, hfate, hnow, hadopted, howned, htakes⟩ := hrecorded
  have hterminate : world.process.terminate trigger met.fate = .ended exit (some trigger) := by
    rw [hprocess, hfate]
    rfl
  refine ⟨exit, terminal, ?_, ?_⟩
  · cases hadopt : launch.adopted with
    | true =>
      rw [(hadopted hadopt).2]
      exact nofun
    | false =>
      rintro rfl
      exact terminalFromExit_ne_detached (howned hadopt).2
  · unfold terminateJob stopAdopted
    rw [hterminate, hconfirmed, hheld]
    cases hadopt : launch.adopted with
    | true =>
      obtain ⟨hterminated, rfl⟩ := hadopted hadopt
      rw [hterminated]
      exact published_of_takes (world.ended exit trigger) hnow htakes _
    | false =>
      obtain ⟨hsettles, hterminal⟩ := howned hadopt
      simp only [Bool.false_eq_true, if_false, Bool.not_true]
      rw [finishAfterExit_settles hsettles hterminal]
      exact (drained_kept _ met).publishes
        (published_of_takes ((world.ended exit trigger).drained met) hnow htakes _)

end

/-! ## Runs -/

/-- A trigger that tells what has become of the process: `root_exit` that it has ended without the
owner, and any other trigger that it was ended by the owner for that reason, or let go. -/
structure Process.Explains (process : Process) (state : ManagedJobState)
    (trigger : ManagedJobTerminalTrigger) : Prop where
  natural : trigger = .rootExit → ∃ exit, process = .ended exit none
  terminated : ∀ exit cause, process = .ended exit (some cause) → trigger = cause
  requested : trigger ≠ .rootExit → state ≠ .detached →
    ∃ exit, process = .ended exit (some trigger)

/-- What is recorded about the end of the job is what ended its process. -/
structure CauseRecorded (launch : JobLaunch) (world : JobWorld) : Prop where
  explains : ∀ record trigger, Owned launch world.file record →
    record.terminalTrigger = some trigger → ¬ record.Orphaned →
      world.process.Explains record.state trigger
  reported : ∀ report record, world.job.terminalReport = some report →
    Owned launch world.file record → ¬ record.Orphaned →
      record.state = report.terminal.state ∧ record.terminalTrigger.isSome = true

/-- An owner that has just been started, and the record of its job. -/
structure Started (launch : JobLaunch) (world : JobWorld) : Prop where
  process_eq : world.process = .running none
  held_eq : world.job.held = true
  finished_eq : world.job.finished = false
  report_eq : world.job.terminalReport = none
  trigger_eq : ∀ record, Owned launch world.file record → record.terminalTrigger = none

/-- The termination that an event attempts. -/
def JobEvent.termination (launch : JobLaunch) (world : JobWorld) :
    JobEvent launch.owner → Option (ManagedJobTerminalTrigger × Circumstances)
  | .poll met =>
    if met.instant ≥ world.job.leaseDeadline ∧ launch.onExpiry ≠ .detach then
      some (.leaseExpiry, met)
    else
      none
  | .stop met => some (.explicitStop, met)
  | .stopAndRelease met => if launch.onExpiry = .detach then none else some (.sessionEnd, met)
  | .exit _ | .renewed _ | .output _ _ | .access _ _ => none

/-- A termination that has an effect on the process gets through to the record. -/
def Undisturbed (launch : JobLaunch) (world : JobWorld) (event : JobEvent launch.owner) : Prop :=
  ∀ trigger met, event.termination launch world = some (trigger, met) →
    world.job.finished = false → met.observed = true →
    (∃ signalled, world.process = .running signalled) → met.fate ≠ .unharmed →
      Recorded launch world trigger met

/-- What the events keep when they are undisturbed. -/
structure OwnerInv (launch : JobLaunch) (world : JobWorld) : Prop
    extends CauseRecorded launch world where
  unmarked : ∀ signalled, world.process = .running signalled → signalled = none
  finished_eq : world.job.finished = world.job.terminalReport.isSome
  held_eq : world.job.finished = false → world.job.held = true
  /-- A process that the owner has ended has been recorded. -/
  settled : ∀ exit cause, world.process = .ended exit (some cause) →
    ∀ record, Owned launch world.file record → record.state ≠ .running

section
variable {launch : JobLaunch} {world world' : JobWorld} {terminal : ManagedJobTerminal}
  {trigger : ManagedJobTerminalTrigger} {met : Circumstances}

lemma ManagedJobTerminal.state_ne_running (terminal : ManagedJobTerminal) :
    terminal.state ≠ .running := by
  cases terminal <;> exact nofun

lemma Started.inv (h : Started launch world) : OwnerInv launch world where
  explains record trigger howned htrigger _ :=
    absurd ((h.trigger_eq record howned).symm.trans htrigger) nofun
  reported report _ hreport := absurd (h.report_eq.symm.trans hreport) nofun
  unmarked signalled hprocess := by
    rw [h.process_eq] at hprocess
    injection hprocess with hsignalled
    exact hsignalled.symm
  finished_eq := by rw [h.finished_eq, h.report_eq]; rfl
  held_eq _ := h.held_eq
  settled exit cause hprocess := by
    rw [h.process_eq] at hprocess
    cases hprocess

lemma OwnerInv.open (h : OwnerInv launch world) (hfinished : world.job.finished = false) :
    world.job.terminalReport = none := by
  rw [h.finished_eq] at hfinished
  exact Option.isSome_eq_false_iff.mp hfinished |> Option.isNone_iff_eq_none.mp

lemma OwnerInv.kept (h : OwnerInv launch world) (hkept : Kept world world') :
    OwnerInv launch world' where
  explains := by
    rw [hkept.file_eq, hkept.process_eq]
    exact h.explains
  reported := by
    rw [hkept.file_eq, hkept.report_eq]
    exact h.reported
  unmarked := by
    rw [hkept.process_eq]
    exact h.unmarked
  finished_eq := by
    rw [hkept.finished_eq, hkept.report_eq]
    exact h.finished_eq
  held_eq := by
    rw [hkept.finished_eq, hkept.held_eq]
    exact h.held_eq
  settled := by
    rw [hkept.process_eq, hkept.file_eq]
    exact h.settled

/-- Publishing what explains the process. -/
lemma OwnerInv.published (world : JobWorld) (hfinished : world.job.finished = false)
    (hreport : world.job.terminalReport = none) (hheld : world.job.held = true)
    (hunmarked : ∀ signalled, world.process = .running signalled → signalled = none)
    (hexplains : world.process.Explains terminal.state trigger)
    (h : Publishes launch terminal trigger world world') : OwnerInv launch world' := by
  obtain ⟨written, hwritten, hstate, htrigger⟩ := h.written
  have hunique : ∀ record, Owned launch world'.file record → record = written :=
    fun record howned => hwritten.unique howned
  refine ⟨⟨?_, ?_⟩, ?_, ?_, ?_, ?_⟩
  · intro record found howned hfound _
    obtain rfl := hunique record howned
    obtain rfl := Option.some.inj (htrigger.symm.trans hfound)
    rw [h.process_eq, hstate]
    exact hexplains
  · intro report record hsome howned _
    obtain rfl := hunique record howned
    rcases h.reported with ⟨hsame, -⟩ | ⟨⟨reported, hreported, hterminal⟩, -⟩
    · rw [hsame, hreport] at hsome
      cases hsome
    · obtain rfl := Option.some.inj (hreported.symm.trans hsome)
      rw [hterminal, htrigger]
      exact ⟨hstate, rfl⟩
  · rw [h.process_eq]
    exact hunmarked
  · rcases h.reported with ⟨hsame, hfinished', -⟩ | ⟨⟨reported, hreported, -⟩, hfinished'⟩
    · rw [hsame, hfinished', hreport, hfinished]
      rfl
    · rw [hreported, hfinished']
      rfl
  · intro hopen
    rcases h.reported with ⟨-, -, hheld'⟩ | ⟨-, hfinished'⟩
    · rw [hheld']
      exact hheld
    · exact absurd (hopen.symm.trans hfinished') Bool.false_ne_true
  · intro exit cause _ record howned
    obtain rfl := hunique record howned
    rw [hstate]
    exact terminal.state_ne_running

lemma tryFinish_reported (launch : JobLaunch) (met : Circumstances)
    (hreport : world.job.terminalReport = some report) :
    world.tryFinish launch met = (.ok (some report), world) := by
  unfold tryFinish
  rw [hreport]

/-- A process that the owner has ended leaves no running record to publish over. -/
lemma OwnerInv.cause_eq (h : OwnerInv launch world) {exit : ProcessExit}
    {cause : Option ManagedJobTerminalTrigger} (hprocess : world.process = .ended exit cause)
    (hpublishes : Publishes launch terminal trigger world world') : cause = none := by
  cases cause with
  | none => rfl
  | some ender =>
    obtain ⟨record, howned, hrunning⟩ := hpublishes.taken
    exact absurd hrunning (h.settled exit ender hprocess record howned)

lemma OwnerInv.tryFinish (h : OwnerInv launch world) (met : Circumstances) :
    OwnerInv launch (world.tryFinish launch met).2 := by
  cases hreport : world.job.terminalReport with
  | some report =>
    rw [tryFinish_reported launch met hreport]
    exact h
  | none =>
    have hfinished : world.job.finished = false := by rw [h.finished_eq, hreport]; rfl
    rcases tryFinish_cases launch met hreport with ⟨-, hkept⟩ |
      ⟨exit, cause, terminal, hprocess, -, hpublishes⟩ | ⟨signalled, -, -, hsame⟩
    · exact h.kept hkept
    · obtain rfl := h.cause_eq hprocess hpublishes
      refine .published world hfinished hreport (h.held_eq hfinished) h.unmarked ⟨?_, ?_, ?_⟩ hpublishes
      · exact fun _ => ⟨exit, hprocess⟩
      · intro exit' cause' hended
        rw [hprocess] at hended
        cases hended
      · exact fun hother => absurd rfl hother
    · rw [hsame]
      exact h

/-- Letting a process go explains itself. -/
lemma OwnerInv.finishAdoptedDetached (h : OwnerInv launch world)
    (hfinished : world.job.finished = false) (hother : trigger ≠ .rootExit) :
    OwnerInv launch (world.finishAdoptedDetached launch met trigger).2 := by
  rcases published_or_kept launch world met trigger .detached
    "managed_job_terminal_publish_failed" with hkept | hpublishes
  · exact h.kept hkept
  · refine .published world hfinished (h.open hfinished) (h.held_eq hfinished) h.unmarked
      ⟨fun heq => absurd heq hother, ?_, fun _ hstate => absurd rfl hstate⟩ hpublishes
    intro exit cause hprocess
    exact absurd (h.cause_eq hprocess hpublishes) nofun

lemma OwnerInv.terminateJob (h : OwnerInv launch world) (hfinished : world.job.finished = false)
    (hother : trigger ≠ .rootExit) (hprocess : world.process = .running none)
    (hrecorded : met.fate ≠ .unharmed → Recorded launch world trigger met) :
    OwnerInv launch (world.terminateJob launch met trigger).2 := by
  by_cases hfate : met.fate = .unharmed
  · exact h.kept (terminateJob_unharmed launch hprocess hfate)
  · obtain ⟨exit, terminal, hdetached, hpublishes⟩ :=
      terminateJob_recorded (h.held_eq hfinished) hprocess (hrecorded hfate)
    have hunmarked : ∀ signalled, (world.ended exit trigger).process = .running signalled →
        signalled = none := fun _ => nofun
    have hexplains : (world.ended exit trigger).process.Explains terminal.state trigger := by
      refine ⟨fun heq => absurd heq hother, ?_, fun _ _ => ⟨exit, rfl⟩⟩
      intro exit' cause hended
      injection hended with _ hcause
      exact Option.some.inj hcause
    exact .published (world.ended exit trigger) hfinished (h.open hfinished) (h.held_eq hfinished)
      hunmarked hexplains hpublishes

/-- When the first look finds the process, it has changed nothing. -/
lemma tryFinish_none (h : (world.tryFinish launch met).1 = .ok none) :
    world.job.terminalReport = none ∧ (world.tryFinish launch met).2 = world ∧
      met.observed = true ∧ ∃ signalled, world.process = .running signalled := by
  cases hreport : world.job.terminalReport with
  | some report =>
    rw [tryFinish_reported launch met hreport] at h
    cases h
  | none =>
    rcases tryFinish_cases launch met hreport with ⟨hstops, -⟩ | ⟨_, _, _, -, hstops, -⟩ |
      ⟨signalled, hprocess, hobserved, hsame⟩
    · exact absurd h hstops
    · exact absurd h hstops
    · exact ⟨rfl, congrArg Prod.snd hsame, hobserved, signalled, hprocess⟩

lemma OwnerInv.stopWith (h : OwnerInv launch world) (hother : trigger ≠ .rootExit)
    (hrecorded : world.job.finished = false → met.observed = true →
      (∃ signalled, world.process = .running signalled) → met.fate ≠ .unharmed →
        Recorded launch world trigger met) :
    OwnerInv launch (world.stopWith launch met trigger).2 := by
  have hfirst := h.tryFinish met
  unfold JobWorld.stopWith
  rcases hlook : world.tryFinish launch met with ⟨error | found, world'⟩
  · rw [hlook] at hfirst
    exact hfirst
  · rw [hlook] at hfirst
    cases found with
    | some report => exact hfirst
    | none =>
      obtain ⟨hreport, hsame, hobserved, signalled, hprocess⟩ :=
        tryFinish_none (congrArg Prod.fst hlook)
      obtain rfl : world' = world := (congrArg Prod.snd hlook).symm.trans hsame
      have hfinished : world'.job.finished = false := by rw [h.finished_eq, hreport]; rfl
      obtain rfl := h.unmarked signalled hprocess
      exact h.terminateJob hfinished hother hprocess
        (hrecorded hfinished hobserved ⟨none, hprocess⟩)

/-- A new deadline of the lease. -/
lemma OwnerInv.leased (h : OwnerInv launch world) (leaseDeadline : Nat) :
    OwnerInv launch { world with job := { world.job with leaseDeadline } } :=
  h.kept ⟨rfl, rfl, rfl, rfl, rfl⟩

lemma OwnerInv.endSession (h : OwnerInv launch world)
    (hrecorded : launch.onExpiry ≠ .detach → world.job.finished = false → met.observed = true →
      (∃ signalled, world.process = .running signalled) → met.fate ≠ .unharmed →
        Recorded launch world .sessionEnd met) :
    OwnerInv launch (world.endSession launch met).2 := by
  unfold JobWorld.endSession
  split
  · have hfirst := h.tryFinish met
    rcases hlook : world.tryFinish launch met with ⟨error | found, world'⟩
    · rw [hlook] at hfirst
      exact hfirst
    · rw [hlook] at hfirst
      cases found with
      | some report => exact hfirst
      | none =>
        obtain ⟨hreport, hsame, -⟩ := tryFinish_none (congrArg Prod.fst hlook)
        obtain rfl : world' = world := (congrArg Prod.snd hlook).symm.trans hsame
        refine h.finishAdoptedDetached ?_ nofun
        rw [h.finished_eq, hreport]
        rfl
  · rename_i hpolicy
    exact h.stopWith nofun (hrecorded hpolicy)

lemma OwnerInv.stopAndRelease (h : OwnerInv launch world)
    (hrecorded : launch.onExpiry ≠ .detach → world.job.finished = false → met.observed = true →
      (∃ signalled, world.process = .running signalled) → met.fate ≠ .unharmed →
        Recorded launch world .sessionEnd met) :
    OwnerInv launch (world.stopAndRelease launch met).2 := by
  have hended := h.endSession hrecorded
  unfold JobWorld.stopAndRelease
  rcases hresult : world.endSession launch met with ⟨error | report, world'⟩
  · rw [hresult] at hended
    exact hended
  · rw [hresult] at hended
    exact hended.leased met.instant

lemma OwnerInv.pollProcessLifecycle (h : OwnerInv launch world)
    (hrecorded : met.instant ≥ world.job.leaseDeadline ∧ launch.onExpiry ≠ .detach →
      world.job.finished = false → met.observed = true →
      (∃ signalled, world.process = .running signalled) → met.fate ≠ .unharmed →
        Recorded launch world .leaseExpiry met) :
    OwnerInv launch (world.pollProcessLifecycle launch met).2 := by
  unfold JobWorld.pollProcessLifecycle
  split
  · exact h
  · rename_i hopen
    have hfinished : world.job.finished = false := Bool.eq_false_of_not_eq_true hopen
    split
    · rename_i hexpired
      split
      · exact h.finishAdoptedDetached hfinished nofun
      · rename_i hpolicy
        exact h.stopWith nofun (hrecorded ⟨hexpired, hpolicy⟩)
    · exact h.tryFinish met

lemma OwnerInv.access (h : OwnerInv launch world) (io : Lib.StoreIo)
    (others : OthersAccess launch.owner) :
    OwnerInv launch { world with file := (access io world.file others.access).2 } where
  explains record trigger howned htrigger horphaned := by
    rcases owned_of_access others howned with hheld | hgone
    · exact h.explains record trigger hheld htrigger horphaned
    · exact absurd hgone horphaned
  reported report record hreport howned horphaned := by
    rcases owned_of_access others howned with hheld | hgone
    · exact h.reported report record hreport hheld horphaned
    · exact absurd hgone horphaned
  unmarked := h.unmarked
  finished_eq := h.finished_eq
  held_eq := h.held_eq
  settled exit cause hprocess record howned := by
    rcases owned_of_access others howned with hheld | hgone
    · exact h.settled exit cause hprocess record hheld
    · rw [hgone.1]
      exact nofun

/-- A process that ends by itself: what was recorded before is still what happened. -/
lemma OwnerInv.exit (h : OwnerInv launch world) (exit : ProcessExit) :
    OwnerInv launch { world with process := world.process.exit exit } := by
  cases hprocess : world.process with
  | ended found cause =>
    refine h.kept ⟨?_, rfl, rfl, rfl, rfl⟩
    exact hprocess.symm
  | running signalled =>
    obtain rfl := h.unmarked signalled hprocess
    refine ⟨⟨?_, h.reported⟩, fun _ => nofun, h.finished_eq, h.held_eq, fun _ _ => nofun⟩
    intro record trigger howned htrigger horphaned
    have hexplains := h.explains record trigger howned htrigger horphaned
    refine ⟨fun _ => ⟨exit, rfl⟩, fun _ _ => nofun, fun hother hstate => ?_⟩
    obtain ⟨found, hended⟩ := hexplains.requested hother hstate
    exact absurd (hprocess.symm.trans hended) nofun

/-- What an event keeps when it is undisturbed. -/
lemma OwnerInv.step (h : OwnerInv launch world) (event : JobEvent launch.owner)
    (hundisturbed : Undisturbed launch world event) : OwnerInv launch (world.step launch event) := by
  cases event with
  | exit exit => exact h.exit exit
  | poll met =>
    exact h.pollProcessLifecycle fun hexpired => hundisturbed .leaseExpiry met (if_pos hexpired)
  | stop met => exact h.stopWith nofun (hundisturbed .explicitStop met rfl)
  | stopAndRelease met =>
    exact h.stopAndRelease fun hpolicy => hundisturbed .sessionEnd met (if_neg hpolicy)
  | renewed leaseDeadline => exact h.leased leaseDeadline
  | output stdout stderr => exact h.kept ⟨rfl, rfl, rfl, rfl, rfl⟩
  | access io others => exact h.access io others

/-- A report stays. -/
lemma OwnerInv.report_kept (h : OwnerInv launch world)
    (hreport : world.job.terminalReport = some report) (event : JobEvent launch.owner) :
    (world.step launch event).job.terminalReport = some report := by
  have hstop : ∀ (met : Circumstances) (trigger : ManagedJobTerminalTrigger),
      world.stopWith launch met trigger = (.ok report, world) := by
    intro met trigger
    unfold JobWorld.stopWith
    rw [tryFinish_reported launch met hreport]
  cases event with
  | exit exit => exact hreport
  | poll met =>
    have hfinished : world.job.finished = true := by rw [h.finished_eq, hreport]; rfl
    show (world.pollProcessLifecycle launch met).2.job.terminalReport = some report
    unfold JobWorld.pollProcessLifecycle
    rw [if_pos hfinished]
    exact hreport
  | stop met =>
    show (world.stopWith launch met .explicitStop).2.job.terminalReport = some report
    rw [hstop]
    exact hreport
  | stopAndRelease met =>
    have hend : world.endSession launch met = (.ok report, world) := by
      unfold JobWorld.endSession
      rw [tryFinish_reported launch met hreport, hstop]
      exact ite_self _
    show (world.stopAndRelease launch met).2.job.terminalReport = some report
    unfold JobWorld.stopAndRelease
    rw [hend]
    exact hreport
  | renewed leaseDeadline => exact hreport
  | output stdout stderr => exact hreport
  | access io others => exact hreport

end

def spawnedLaunch : JobLaunch where
  handle := ⟨"00000000-0000-4000-8000-000000000000", 1, "01010101010101010101010101010101"⟩
  owner := ⟨7, "owner"⟩
  process := ⟨8, "process"⟩
  adopted := false
  onExpiry := .stop
  policy_allowed _ := rfl

/-- The record of the job of `spawnedLaunch`, as it runs. -/
def spawnedRecord : ManagedJobRecord where
  jobId := spawnedLaunch.handle.jobId
  generation := spawnedLaunch.handle.generation
  nonce := spawnedLaunch.handle.nonce
  sessionId := none
  origin := .spawned
  owner := some spawnedLaunch.owner
  process := some spawnedLaunch.process
  state := .running
  createdAtUtcMs := zeroTime
  updatedAtUtcMs := zeroTime
  terminalAtUtcMs := none
  onExpiry := some .stop
  terminalTrigger := none
  detachLiveness := none

def spawnedWorld : JobWorld where
  job :=
    { held := true
      stdinOpen := true
      stdout := .new 8
      stderr := .new 8
      finished := false
      terminalReport := none
      leaseDeadline := 1000 }
  process := .running none
  file := some (Document.default.replaceRecord spawnedLaunch.handle.jobId spawnedRecord)

/-- Everything works, and nothing ends the process. -/
def worksAt (io : Lib.StoreIo) (fate : Fate) : Circumstances where
  instant := 0
  observed := true
  fate
  terminated := true
  confirmed := true
  liveness := .absent
  cleaned := true
  stdout := (CursorRing.new 8).finish none
  stderr := (CursorRing.new 8).finish none
  now := some zeroTime
  io

/-- A stop kills the process and finds the store locked, and then the owner is polled. -/
def stoppedWhileLocked : List (JobEvent spawnedLaunch.owner) :=
  [ .stop (worksAt ⟨.contended, true, .published⟩ (.ends (.signal 9))),
    .poll (worksAt ⟨.acquired, true, .published⟩ .unharmed) ]

lemma spawnedWorld_started : Started spawnedLaunch spawnedWorld where
  process_eq := rfl
  held_eq := rfl
  finished_eq := rfl
  report_eq := rfl
  trigger_eq record howned := by
    rcases Lib.insert_eq_some howned.held with ⟨-, rfl⟩ | ⟨hother, -⟩
    · rfl
    · exact absurd rfl hother

/-- The trigger that is recorded for the job of `spawnedLaunch`, if its owner is. -/
def recordedTrigger (world : JobWorld) : Option ManagedJobTerminalTrigger :=
  (store.current world.file).jobs[spawnedLaunch.handle.jobId]?.bind fun record =>
    if record.owner = some spawnedLaunch.owner ∧ record.state = .signaled 9 then
      record.terminalTrigger
    else
      none

lemma owned_of_recordedTrigger {world : JobWorld} {trigger : ManagedJobTerminalTrigger}
    (h : recordedTrigger world = some trigger) :
    ∃ record, Owned spawnedLaunch world.file record ∧ record.terminalTrigger = some trigger ∧
      ¬ record.Orphaned := by
  obtain ⟨record, hheld, hrecord⟩ := Option.bind_eq_some_iff.mp h
  split at hrecord
  · rename_i hwritten
    refine ⟨record, ⟨hheld, hwritten.1⟩, hrecord, fun horphaned => ?_⟩
    exact absurd (hwritten.2.symm.trans horphaned.1) nofun
  · cases hrecord

/-- A stop kills the process and finds the store free, and then the owner is polled. -/
def stoppedAndRecorded : List (JobEvent spawnedLaunch.owner) :=
  [ .stop (worksAt ⟨.acquired, true, .published⟩ (.ends (.signal 9))),
    .poll (worksAt ⟨.acquired, true, .published⟩ .unharmed) ]

end Agenterm.Cu.ManagedJobs
