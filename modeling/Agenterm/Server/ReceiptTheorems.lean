import Agenterm.Control.AuthorityTheorems
import Agenterm.Server.ForestTheorems
import Agenterm.Server.Request

/-!
# Open receipts wait for a live tab

`ServerState.Awaited s busy`: every open entry of the replay window is that of the request being
executed or is filed under a tab, and every tab that something is filed under is live and waits
for its Enter. The effects of the operations keep it as long as no tab is closed that something
is filed under (`Effect.awaited`), a poll keeps it because it closes what it finishes
(`pollTerminals_awaited`), and a request keeps it as long as `send-composer` is not executed on
an empty composer while something is filed (`Machine.executeRequest_settled`).

The main result is `Machine.receipts_finalizable`; closing the tab or sending the empty composer
leaves an entry that no poll can finalize (`Machine.receipts_leak`).
-/

namespace Agenterm

open List Option Lib ServerState

/-! ## What a poll does to a submission -/

namespace TerminalTab

@[simp] theorem observeProxyConfirmation_submission (tab : TerminalTab) (bytes : List UInt8) :
    (tab.observeProxyConfirmation bytes).submission = tab.submission ∧
      (tab.observeProxyConfirmation bytes).outputBytes = tab.outputBytes := by
  unfold observeProxyConfirmation
  split
  · exact ⟨rfl, rfl⟩
  · dsimp only
    split <;> exact ⟨rfl, rfl⟩

theorem finishOutputStream_submission (tab : TerminalTab) :
    tab.finishOutputStream.submission = tab.submission ∧
      tab.outputBytes ≤ tab.finishOutputStream.outputBytes := by
  unfold finishOutputStream
  split
  · exact ⟨rfl, Nat.le_refl _⟩
  · exact ⟨rfl, Nat.le_add_right _ _⟩

/-- Events leave the submission alone, and the output counter does not go back. -/
theorem receive_submission (tab : TerminalTab) (event : PtyEvent) :
    (tab.receive event).submission = tab.submission ∧
      tab.outputBytes ≤ (tab.receive event).outputBytes := by
  cases event with
  | output bytes osc7 =>
    rw [receive]
    split
    · exact ⟨rfl, Nat.le_refl _⟩
    · obtain ⟨hsubmission, hbytes⟩ := observeProxyConfirmation_submission
        (tab.redactProxyOutput bytes false).2 (tab.redactProxyOutput bytes false).1
      refine ⟨hsubmission, ?_⟩
      dsimp only
      rw [hbytes]
      exact Nat.le_add_right _ _
  | readerClosed => exact tab.finishOutputStream_submission
  | readerError error => exact tab.finishOutputStream_submission
  | exited code => exact ⟨rfl, Nat.le_refl _⟩
  | processError error => exact ⟨rfl, Nat.le_refl _⟩

lemma foldl_receive_submission (tab : TerminalTab) (events : List PtyEvent) :
    (events.foldl receive tab).submission = tab.submission ∧
      tab.outputBytes ≤ (events.foldl receive tab).outputBytes := by
  induction events generalizing tab with
  | nil => exact ⟨rfl, Nat.le_refl _⟩
  | cons event events ih =>
    obtain ⟨hsubmission, hbytes⟩ := tab.receive_submission event
    obtain ⟨hsubmission', hbytes'⟩ := ih (tab.receive event)
    exact ⟨hsubmission'.trans hsubmission, Nat.le_trans hbytes hbytes'⟩

lemma finishSubmission_submission (tab : TerminalTab) (now : Nat) (error : Option String) :
    (tab.finishSubmission now error).submission = (tab.submission.takeIfDue now).2 ∧
      (tab.finishSubmission now error).outputBytes = tab.outputBytes := by
  have hkept : (tab.submission.takeIfDue now).1 = false →
      (tab.submission.takeIfDue now).2 = tab.submission := by
    unfold SubmissionState.takeIfDue
    split
    · split
      · simp
      · simp
    · simp
  unfold finishSubmission
  generalize tab.submission.takeIfDue now = taken at hkept ⊢
  rcases taken with ⟨due, submission⟩
  cases due with
  | false => exact ⟨(hkept rfl).symm, rfl⟩
  | true =>
    have hsend := ({ tab with submission } : TerminalTab).send_submission [13] error
    have hbytes : (({ tab with submission } : TerminalTab).send [13] error).2.outputBytes
        = tab.outputBytes := by
      unfold send
      split
      · rfl
      · cases error <;> rfl
    exact ⟨hsend, hbytes⟩

lemma expireProxyConfirmation_submission (tab : TerminalTab) (now : Nat) :
    (tab.expireProxyConfirmation now).submission = tab.submission ∧
      (tab.expireProxyConfirmation now).outputBytes = tab.outputBytes := by
  unfold expireProxyConfirmation
  split <;> exact ⟨rfl, rfl⟩

/-- A poll takes the submission that is due, and does nothing else to it. -/
theorem poll_submission (tab : TerminalTab) (input : PollInput) :
    (tab.poll input).submission = (tab.submission.takeIfDue input.now).2 ∧
      tab.outputBytes ≤ (tab.poll input).outputBytes := by
  obtain ⟨hreceived, hbytes⟩ := tab.foldl_receive_submission input.events
  unfold poll
  dsimp only
  obtain ⟨hexpired, hbytes₁⟩ := expireProxyConfirmation_submission
    (finishSubmission { input.events.foldl receive tab with screen := input.screen } input.now
      input.enterError) input.now
  obtain ⟨hfinished, hbytes₂⟩ := finishSubmission_submission
    { input.events.foldl receive tab with screen := input.screen } input.now input.enterError
  rw [hexpired, hfinished, hbytes₁, hbytes₂]
  exact ⟨by rw [hreceived], hbytes⟩

theorem pollRound_submission (tab : TerminalTab) (input : PollInput) :
    (tab.pollRound input).tab.submission = (tab.submission.takeIfDue input.now).2 := by
  unfold pollRound
  dsimp only
  split <;> exact (tab.poll_submission input).1

/-- A submission that a poll ends is reported as completed: the observation before and after it
are comparable, since the output counter does not go back. -/
theorem pollRound_reports {tab : TerminalTab} (input : PollInput)
    (h : tab.submission.isPending = true) :
    (tab.pollRound input).tab.submission.isPending = true ∨
      ∃ c, (tab.pollRound input).completed = some c ∧ c.1 = tab.id := by
  obtain ⟨hsubmission, hbytes⟩ := tab.poll_submission input
  have hdelta : ¬ (tab.poll input).observation.outputBytes < tab.observation.outputBytes :=
    Nat.not_lt.mpr hbytes
  by_cases hpending : (tab.poll input).submission.isPending = true
  · refine .inl ?_
    rw [pollRound_submission, ← hsubmission]
    exact hpending
  · refine .inr ⟨(tab.id, (tab.poll input).observation.submissionEnterWritten.getD false,
      (tab.poll input).observation.finalized), ?_, rfl⟩
    unfold pollRound TerminalObservation.deltaTo
    dsimp only
    rw [if_neg hdelta]
    dsimp only
    rw [if_pos]
    simp only [observation, h, Bool.true_and, Bool.not_eq_eq_eq_not, Bool.not_true]
    simpa using hpending

end TerminalTab

lemma getElem?_pollTabs (inputs : Nat → PollInput) (tabs : List TerminalTab) (i : Nat) :
    (pollTabs inputs tabs)[i]? = tabs[i]?.map fun tab => tab.pollRound (inputs i) := by
  induction tabs generalizing inputs i with
  | nil => rfl
  | cons tab tabs ih =>
    cases i with
    | zero => rfl
    | succ i => exact ih (fun i => inputs (i + 1)) i

/-! ## The operations of the server -/

variable {args : List String} {control : ControlRequest} {env : RequestEnv} {response : IpcResponse}

variable {completed : List (Nat × Bool × Bool)} {epoch : String} {inputs : Nat → PollInput}
  {position : Nat} {request : IpcRequest} {spawn : SavedTab → Except String Spawned}
  {spawnFirst : Except String Spawned} {startEmpty : Bool}

namespace ServerState
variable {s s' : ServerState} {busy : Option ControlRequest}

structure Awaited (s : ServerState) (busy : Option ControlRequest) : Prop where
  covers : s.controlAuthority.Covers busy
  filed : ∀ id, s.controlAuthority.Files id → s.AwaitsEnter id

/-- No tab is closed that something is filed under. -/
def ClosesIdle (s : ServerState) : ServerOp → Prop
  | .closeTab id _ => ¬ s.controlAuthority.Files id
  | _ => True

/-- What leaves the control authority alone and ends no submission that something is filed
under. -/
lemma Awaited.of_control (h : s.Awaited busy) (hcontrol : s'.controlAuthority = s.controlAuthority)
    (hawaits : ∀ id, s.controlAuthority.Files id → s.AwaitsEnter id → s'.AwaitsEnter id) :
    s'.Awaited busy := by
  refine ⟨hcontrol ▸ h.covers, fun id hid => ?_⟩
  rw [hcontrol] at hid
  exact hawaits id hid (h.filed id hid)

lemma AwaitsEnter.of_tabs {id : Nat} (h : s.AwaitsEnter id)
    (htabs : ∀ tab ∈ s.tabs, tab.id = id → ∃ tab' ∈ s'.tabs, tab'.id = tab.id ∧
      tab'.submission = tab.submission) : s'.AwaitsEnter id := by
  obtain ⟨tab, htab, hid, hpending⟩ := h
  obtain ⟨tab', htab', hsame, hsubmission⟩ := htabs tab htab hid
  exact ⟨tab', htab', hsame.trans hid, hsubmission ▸ hpending⟩

/-- **An operation that is no poll.** -/
theorem Effect.awaited {op : ServerOp} (hs : s.Forest) (e : Effect s op s')
    (h : s.Awaited busy) (hquiet : op.polls = false) (hclose : s.ClosesIdle op) :
    s'.Awaited busy := by
  cases e with
  | edited named e => exact h.of_control e.control fun id _ => e.awaits id
  | polled inputs hop named e =>
    rw [hop] at hquiet
    exact absurd hquiet (by simp [ServerOp.polls])
  | created named tab e =>
    refine h.of_control e.control fun id _ hid => hid.of_tabs fun old hold _ => ?_
    refine ⟨old, ?_, rfl, rfl⟩
    rw [e.tabs, (sortByIndex_perm _).mem_iff]
    exact mem_append_left _ hold
  | reparented child parentId e =>
    refine h.of_control e.control fun id _ hid => hid.of_tabs fun old hold _ => ?_
    rw [e.tabs]
    rcases mem_updateFirst_or hold with hkept | hmoved
    · exact ⟨old, hkept, rfl, rfl⟩
    · exact ⟨_, hmoved, rfl, rfl⟩
  | closed closing shutdown hop e =>
    rw [hop] at hclose
    refine h.of_control e.control fun id hfiled hid => hid.of_tabs fun old hold hsame => ?_
    have hne : old.id ≠ closing.id := by
      intro heq
      exact hclose (heq ▸ hsame ▸ hfiled)
    refine ⟨old.promote closing.id closing.parentId, ?_, old.promote_id _ _, ?_⟩
    · rw [e.tabs_eq hs]
      exact mem_map_of_mem (mem_filter.mpr ⟨hold, by simpa using hne⟩)
    · unfold TerminalTab.promote
      split <;> rfl

/-! ## Polls -/

lemma commitEvents_eq_some {events : List (EventKind × Nat × Value)}
    (h : s.commitEvents events = some s') : s' = { s with eventJournal := s'.eventJournal } := by
  induction events generalizing s with
  | nil =>
    cases h
    rfl
  | cons event events ih =>
    obtain ⟨committed, hcommit, h⟩ := bind_eq_some_iff.mp h
    have hrest := ih h
    rw [(commit_eq_some hcommit).2] at hrest
    exact hrest

/-- While the completed submissions are finished one by one, a tab that something is filed under
waits for its Enter or is still to be finished. -/
lemma finishSubmissions_awaited (hcovers : s.controlAuthority.Covers none)
    (hfiled : ∀ id, s.controlAuthority.Files id →
      s.AwaitsEnter id ∨ id ∈ completed.map Prod.fst)
    (h : s.finishSubmissions completed = some s') : s'.Awaited none := by
  induction completed generalizing s with
  | nil =>
    cases h
    exact ⟨hcovers, fun id hid => (hfiled id hid).resolve_right not_mem_nil⟩
  | cons c completed ih =>
    obtain ⟨tabId, enterWritten, finalized⟩ := c
    obtain ⟨⟨finished, authority, journal⟩, hfinish, h⟩ := bind_eq_some_iff.mp h
    obtain ⟨hcovers', hfiles⟩ := hcovers.finishSubmission hfinish
    have hrest : ∀ id, authority.Files id →
        s.AwaitsEnter id ∨ id ∈ completed.map Prod.fst := by
      intro id hid
      obtain ⟨hbefore, hne⟩ := hfiles id hid
      rcases hfiled id hbefore with hawaits | hmem
      · exact .inl hawaits
      · rw [map_cons] at hmem
        exact .inr ((mem_cons.mp hmem).resolve_left hne)
    cases finished with
    | ok _ => exact ih hcovers' hrest h
    | error error =>
      refine ih hcovers' (fun id hid => (hrest id hid).imp_left fun hawaits => ?_) h
      refine hawaits.of_tabs fun old hold _ => ?_
      rcases mem_updateFirst_or hold with hkept | hmarked
      · exact ⟨old, hkept, rfl, rfl⟩
      · exact ⟨_, hmarked, rfl, rfl⟩

/-- **A poll.** -/
theorem pollTerminals_awaited (h : s.Awaited none) (hpoll : s.pollTerminals inputs = some s') :
    s'.Awaited none := by
  unfold pollTerminals at hpoll
  obtain ⟨committed, hcommit, hpoll⟩ := bind_eq_some_iff.mp hpoll
  have hrest := commitEvents_eq_some hcommit
  have htabs : committed.tabs = (pollTabs inputs s.tabs).map PolledTab.tab := by rw [hrest]
  have hcontrol : committed.controlAuthority = s.controlAuthority := by rw [hrest]
  refine finishSubmissions_awaited (hcontrol ▸ h.covers) (fun id hid => ?_) hpoll
  rw [hcontrol] at hid
  obtain ⟨tab, htab, rfl, hpending⟩ := h.filed id hid
  obtain ⟨i, hi, hget⟩ := getElem_of_mem htab
  have hround : tab.pollRound (inputs i) ∈ pollTabs inputs s.tabs := by
    refine mem_of_getElem? (i := i) ?_
    rw [getElem?_pollTabs, List.getElem?_eq_getElem hi, hget]
    rfl
  rcases TerminalTab.pollRound_reports (inputs i) hpending with hstill | ⟨c, hc, hid⟩
  · refine .inl ⟨_, htabs ▸ mem_map_of_mem hround, ?_, hstill⟩
    exact congrArg (fun face => face.1.id) (tab.pollRound_face (inputs i))
  · refine .inr ?_
    rw [← hid]
    exact mem_map_of_mem (mem_filterMap.mpr ⟨_, hround, hc⟩)

lemma finishSubmissions_tabs (h : s.finishSubmissions completed = some s') {tab' : TerminalTab}
    (htab' : tab' ∈ s'.tabs) : ∃ tab ∈ s.tabs, tab'.submission = tab.submission := by
  induction completed generalizing s with
  | nil =>
    cases h
    exact ⟨tab', htab', rfl⟩
  | cons c completed ih =>
    obtain ⟨tabId, enterWritten, finalized⟩ := c
    obtain ⟨⟨finished, authority, journal⟩, -, h⟩ := bind_eq_some_iff.mp h
    cases finished with
    | ok _ =>
      obtain ⟨tab, htab, hsame⟩ := ih h
      exact ⟨tab, htab, hsame⟩
    | error error =>
      obtain ⟨tab, htab, hsame⟩ := ih h
      rcases mem_updateFirst htab with hkept | ⟨old, hfind, rfl⟩
      · exact ⟨tab, hkept, hsame⟩
      · exact ⟨old, mem_of_find?_eq_some hfind, hsame⟩

/-- After a poll at which every submission is due, none is pending. -/
lemma pollTerminals_idle
    (hdue : ∀ position tab due, s.tabs[position]? = some tab → tab.submission = .pending due →
      due ≤ (inputs position).now) (hpoll : s.pollTerminals inputs = some s') (id : Nat) :
    ¬ s'.AwaitsEnter id := by
  rintro ⟨tab', htab', -, hpending⟩
  unfold pollTerminals at hpoll
  obtain ⟨committed, hcommit, hpoll⟩ := bind_eq_some_iff.mp hpoll
  obtain ⟨tab, htab, hsame⟩ := finishSubmissions_tabs hpoll htab'
  rw [commitEvents_eq_some hcommit] at htab
  obtain ⟨round, hround, rfl⟩ := mem_map.mp htab
  obtain ⟨i, hi, hget⟩ := getElem_of_mem hround
  have hget' := List.getElem?_eq_getElem hi
  rw [getElem?_pollTabs, hget] at hget'
  obtain ⟨old, hold, rfl⟩ := map_eq_some_iff.mp hget'
  rw [hsame, TerminalTab.pollRound_submission] at hpending
  cases hsubmission : old.submission with
  | idle =>
    rw [hsubmission] at hpending
    exact absurd hpending (by simp [SubmissionState.takeIfDue, SubmissionState.isPending])
  | pending due =>
    have hle := hdue i old due hold hsubmission
    rw [hsubmission, SubmissionState.takeIfDue, if_pos hle] at hpending
    exact absurd hpending (by simp [SubmissionState.isPending])

/-! ## Sending a composer -/

/-- A tab that waits for its Enter refuses a composer, unless there is nothing to send. -/
lemma sendComposerAtPosition_of_pending {now : Nat} {writeError : Option String}
    {tab : TerminalTab} (hget : s.tabs[position]? = some tab)
    (hpending : tab.submission.isPending = true)
    (h : s.sendComposerAtPosition position now writeError = some (response, s'))
    (hok : response.ok = true) : tab.sensitiveComposer = none ∧ tab.composer.isEmpty = true := by
  unfold sendComposerAtPosition at h
  rw [hget] at h
  dsimp only [bind_eq_bind, bind_some] at h
  split at h
  · have hpending' : ({ tab with sensitiveComposer := none, sensitiveProxyMarker := none } :
        TerminalTab).submission.isPending = true := hpending
    unfold sendSensitive at h
    dsimp only at h
    rw [TerminalTab.submitSensitive_of_pending hpending'] at h
    obtain ⟨rfl, -⟩ := Prod.mk.inj (some.inj h)
    exact absurd hok (by simp [IpcResponse.failure, IpcResponse.typedFailure])
  · rename_i hsensitive
    split at h
    · rename_i hempty
      exact ⟨by simpa using hsensitive, hempty⟩
    · have hpending' : ({ tab with composer := "" } : TerminalTab).submission.isPending = true :=
        hpending
      rw [TerminalTab.submit_of_pending hpending'] at h
      obtain ⟨rfl, -⟩ := Prod.mk.inj (some.inj h)
      exact absurd hok (by simp [IpcResponse.failure, IpcResponse.typedFailure])

lemma submissionWait_isSome {responseOk : Bool} {resolved : ResolvedTarget}
    {position : ControlEventPosition}
    (h : (s.submissionWait control responseOk resolved position).isSome = true) :
    responseOk = true ∧ control.operationId.value = "command.send.composer" ∧
      ∃ tabId, resolved.tabId = some tabId ∧ s.AwaitsEnter tabId := by
  obtain ⟨wait, h⟩ := isSome_iff_exists.mp h
  unfold submissionWait at h
  split at h
  · rename_i hsent
    simp only [Bool.and_eq_true, decide_eq_true_eq] at hsent
    obtain ⟨tabId, htarget, h⟩ := bind_eq_some_iff.mp h
    obtain ⟨tab, hfind, h⟩ := bind_eq_some_iff.mp h
    split at h
    · rename_i hpending
      exact ⟨hsent.1, hsent.2, tabId, htarget, tab, mem_of_find?_eq_some hfind,
        by simpa using List.find?_some hfind, hpending⟩
    · exact absurd h (by simp)
  · exact absurd h (by simp)

end ServerState

/-! ## Commands -/

namespace Machine
variable {m m' : Machine} {busy : Option ControlRequest}

structure Settled (m : Machine) (busy : Option ControlRequest) : Prop where
  sound : m.Sound
  awaited : m.server.Awaited busy

/-- Tabs are created below the maximum of the id counter, no tab is closed that something is
filed under, and the server is not killed while anything is filed. -/
def SafeCommand (m : Machine) : CommandOp → Prop
  | .serve op _ => m.server.FreshId op ∧ m.server.ClosesIdle op
  | .killSession => ∀ id, ¬ m.server.controlAuthority.Files id
  | _ => True

lemma Settled.kept {server : ServerState} {named : List (Option Nat)} (h : m.Settled busy)
    (e : m.server.Kept server named) : ({ m with server } : Machine).Settled busy := by
  obtain ⟨committed, hrec⟩ := h.sound.journal
  obtain ⟨events, -, hrec'⟩ := e.journal.records committed hrec
  exact ⟨⟨e.toEdited.forest h.sound.server, h.sound.file, _, hrec'⟩,
    h.awaited.of_control e.control fun id _ => e.awaits id⟩

lemma Settled.editTab {edit : TerminalTab → TerminalTab} (h : m.Settled busy)
    (hedit : m.editTab position edit = some m') (hface : ∀ tab, (edit tab).face = tab.face)
    (hsubmission : ∀ tab, (edit tab).submission = tab.submission) : m'.Settled busy := by
  obtain ⟨tab, hget, hm⟩ := bind_eq_some_iff.mp hedit
  cases hm
  refine h.kept (.setTab hget (hface tab) ?_)
  rw [hsubmission]
  exact id

/-- **One operation of a command.** -/
theorem commandStep_settled {op : CommandOp} (h : m.Settled busy) (hsafe : m.SafeCommand op)
    (hstep : m.commandStep op = some m') : m'.Settled busy := by
  have hunnamed : ∀ id, some id ∈ ([] : List (Option Nat)) → m.server.Live id :=
    fun _ hmem => absurd hmem not_mem_nil
  cases op with
  | serve op quiet =>
    have hfresh : m.FreshId (.serve op) := hsafe.1
    refine ⟨step_sound h.sound hfresh hstep, ?_⟩
    obtain ⟨server, hserve, hm⟩ := bind_eq_some_iff.mp hstep
    cases hm
    exact (step_effect hsafe.1 hserve).awaited h.sound.server h.awaited quiet hsafe.2
  | persistWorkspace =>
    have hfresh : m.FreshId .persistWorkspace := trivial
    refine ⟨step_sound h.sound hfresh hstep, ?_⟩
    obtain ⟨server, hcommit, hm⟩ := bind_eq_some_iff.mp hstep
    cases hm
    have e : m.server.Effect (.commitEvent .workspaceSaved (.object [])) server :=
      step_effect trivial hcommit
    exact e.awaited h.sound.server h.awaited rfl trivial
  | sendInput position bytes writeError =>
    exact h.editTab hstep (fun tab => tab.send_face bytes writeError)
      fun tab => tab.send_submission bytes writeError
  | sendNativeKey position =>
    exact h.editTab hstep (fun _ => rfl) fun _ => rfl
  | renameSession name =>
    cases hstep
    exact h.kept ⟨⟨.refl _, .refl [] _, .inl rfl, .inl rfl, hunnamed⟩, rfl, fun _ hid => hid⟩
  | requestShutdown =>
    cases hstep
    exact h.kept ⟨⟨.refl _, .refl [] _, .inl rfl, .inl rfl, hunnamed⟩, rfl, fun _ hid => hid⟩
  | killSession =>
    cases hstep
    refine ⟨⟨⟨tabForest_nil, ?_, ?_, h.sound.server.nextId_le⟩, h.sound.file,
      h.sound.journal⟩, h.awaited.covers, fun id hid => absurd hid (hsafe id)⟩
    · exact fun _ hid => absurd hid not_mem_nil
    · exact fun _ hid => absurd hid (by simp [killSession])

/-- The command is one whose operations are given with the request. -/
def RunsOps (args : List String) : Prop :=
  ∃ command, args.head? = some command ∧ command ≠ "send-composer" ∧
    serverCommands.contains command = true

theorem executeCommand_settled (h : m.Settled busy)
    (hops : RunsOps args → Along commandStep SafeCommand m env.ops)
    (hexecute : m.executeCommand args env = some (response, m')) : m'.Settled busy := by
  unfold executeCommand at hexecute
  split at hexecute
  · cases hexecute
    exact h
  rename_i command hcommand
  split at hexecute
  · split at hexecute
    · cases hexecute
      exact h
    · obtain ⟨⟨sent, server⟩, hsend, hm⟩ := bind_eq_some_iff.mp hexecute
      cases hm
      obtain ⟨named, hkept⟩ := sendComposerAtPosition_kept hsend
      exact h.kept hkept
  rename_i hother
  split at hexecute
  · rename_i hdispatched
    obtain ⟨done, hrun, hm⟩ := bind_eq_some_iff.mp hexecute
    cases hm
    exact exec_invariant_along (P := fun m => m.Settled busy)
      (fun _ _ _ h hok hstep => commandStep_settled h hok hstep) h
      (hops ⟨command, hcommand, hother, hdispatched⟩) hrun
  · cases hexecute
    exact h

/-! ## Requests -/

lemma withAuthority_sound (h : m.Sound) (a : ControlAuthority) : (m.withAuthority a).Sound :=
  ⟨⟨h.server.tree, h.server.ids_lt, h.server.active_live, h.server.nextId_le⟩, h.file, h.journal⟩

/-- The composer that would be sent is not empty, if something is filed under its tab and the
tab holds no secret. -/
def NotResent (m : Machine) (args : List String) : Prop :=
  ∀ position tab, resolveTargetPosition m.server.tabs m.server.active (optionValue args "-t")
      = some position → m.server.tabs[position]? = some tab →
    m.server.controlAuthority.Files tab.id → tab.sensitiveComposer = none →
      tab.composer.isEmpty = false

/-- Where `send-composer` went when it was accepted. -/
lemma executeCommand_sent (hhead : args.head? = some "send-composer")
    (hexecute : m.executeCommand args env = some (response, m')) (hok : response.ok = true) :
    ∃ position tab, resolveTargetPosition m.server.tabs m.server.active (optionValue args "-t")
        = some position ∧ m.server.tabs[position]? = some tab ∧
      m.server.sendComposerAtPosition position env.now env.writeError
        = some (response, m'.server) ∧
      m'.server.controlAuthority = m.server.controlAuthority := by
  unfold executeCommand at hexecute
  rw [hhead] at hexecute
  dsimp only at hexecute
  rw [if_pos rfl] at hexecute
  split at hexecute
  · obtain ⟨rfl, -⟩ := Prod.mk.inj (some.inj hexecute)
    exact absurd hok (by simp [IpcResponse.failure, IpcResponse.typedFailure])
  · rename_i position hposition
    obtain ⟨⟨sent, server⟩, hsend, hm⟩ := bind_eq_some_iff.mp hexecute
    cases hm
    obtain ⟨named, hkept⟩ := sendComposerAtPosition_kept hsend
    obtain ⟨tab, hget, -⟩ := bind_eq_some_iff.mp hsend
    exact ⟨position, tab, hposition, hget, hsend, hkept.control⟩

/-- The server refuses `send.composer`, which has the same identity. -/
lemma executeCommand_unsupported (hhead : args.head? = some "send.composer")
    (hexecute : m.executeCommand args env = some (response, m')) : response.ok = false := by
  have hunknown : serverCommands.contains "send.composer" = false := by decide
  unfold executeCommand at hexecute
  rw [hhead] at hexecute
  dsimp only at hexecute
  rw [if_neg (by decide), hunknown] at hexecute
  obtain ⟨rfl, -⟩ := Prod.mk.inj (some.inj hexecute)
  rfl

lemma identity_of_matchesPayload (h : ControlAuthority.matchesPayload control args = true) :
    ∃ intent, controlRequestIdentity args = .ok (control.operationId, intent) := by
  unfold ControlAuthority.matchesPayload at h
  rw [Bool.and_eq_true] at h
  obtain ⟨hidentity, -⟩ := h
  split at hidentity
  · rename_i operation intent hok
    simp only [Bool.and_eq_true, decide_eq_true_eq] at hidentity
    exact ⟨intent, hidentity.1 ▸ hok⟩
  · exact absurd hidentity (by simp)

/-- A request that has to wait is filed under a tab that nothing was filed under. -/
lemma wait_target (position : ControlEventPosition) (h : m.Settled busy)
    (hmatches : ControlAuthority.matchesPayload control args = true)
    (hresent : args.head? = some "send-composer" → m.NotResent args)
    (hexecute : m.executeCommand args env = some (response, m'))
    (hwait : (m'.server.submissionWait control response.ok
      ((m.server.resolvedControlTarget env.serverPid env.serverAddress args).settle response)
      position).isSome = true) :
    ∃ tabId, ((m.server.resolvedControlTarget env.serverPid env.serverAddress args).settle
        response).tabId = some tabId ∧ ¬ m'.server.controlAuthority.Files tabId ∧
      m'.server.AwaitsEnter tabId := by
  obtain ⟨hok, hoperation, tabId, htarget, hawaits⟩ := submissionWait_isSome hwait
  refine ⟨tabId, htarget, fun hfiles => ?_, hawaits⟩
  obtain ⟨intent, hidentity⟩ := identity_of_matchesPayload hmatches
  rcases command_of_identity hidentity hoperation with hhead | hhead
  · obtain ⟨position, tab, hposition, hget, hsend, hcontrol⟩ :=
      executeCommand_sent hhead hexecute hok
    have hscoped : ((optionValue args "-t").isSome ||
        tabScopedCommands.contains (args.head?.getD "")) = true := by
      rw [hhead, Bool.or_eq_true]
      exact .inr (by decide)
    have hresolved : (m.server.resolvedControlTarget env.serverPid env.serverAddress args).tabId
        = some tab.id := by
      unfold resolvedControlTarget
      dsimp only
      rw [if_pos hscoped, hposition, bind_some, hget]
      rfl
    have hsame : tabId = tab.id := by
      rw [ResolvedTarget.settle, hresolved] at htarget
      exact (some.inj (hresolved.symm.trans htarget)).symm
    rw [hsame, hcontrol] at hfiles
    obtain ⟨waiting, hmem, hid, hpending⟩ := h.awaited.filed tab.id hfiles
    obtain rfl := inj_on_of_nodup_map h.sound.server.ids_nodup hmem
      (mem_of_getElem? hget) hid
    obtain ⟨hplain, hempty⟩ :=
      sendComposerAtPosition_of_pending hget hpending hsend hok
    rw [hresent hhead position waiting hposition hget hfiles hplain] at hempty
    exact absurd hempty (by simp)
  · rw [executeCommand_unsupported hhead hexecute] at hok
    exact absurd hok (by simp)

/-- **An admitted request.** -/
theorem executeControlled_settled (h : m.Settled (some control))
    (hmatches : ControlAuthority.matchesPayload control args = true)
    (hops : RunsOps args → Along commandStep SafeCommand m env.ops)
    (hresent : args.head? = some "send-composer" → m.NotResent args)
    (hexecute : m.executeControlled control args env = some (response, m')) : m'.Settled none := by
  unfold executeControlled at hexecute
  obtain ⟨⟨answer, done⟩, hcommand, hm⟩ := bind_eq_some_iff.mp hexecute
  cases hm
  have hdone := executeCommand_settled h hops hcommand
  have htarget := fun hwait => wait_target done.server.controlEventPosition h hmatches hresent
    hcommand hwait
  obtain ⟨hcovers, hfiles⟩ := hdone.awaited.covers.complete answer
    m.server.controlEventPosition done.server.controlEventPosition
    fun hwait => (htarget hwait).imp fun _ hfacts => ⟨hfacts.1, hfacts.2.1⟩
  refine ⟨withAuthority_sound hdone.sound _, hcovers, fun id hid => ?_⟩
  rcases hfiles id hid with hbefore | ⟨hwait, hresolved⟩
  · exact hdone.awaited.filed id hbefore
  · obtain ⟨tabId, hsame, -, hawaits⟩ := htarget hwait
    obtain rfl := some.inj (hsame.symm.trans hresolved)
    exact hawaits

/-- What a request must not do: the operations of its command are safe, and `send-composer` is
not executed on a composer that was sent already. A repeated request is not executed. -/
structure SafeRequest (m : Machine) (request : IpcRequest) (env : RequestEnv) : Prop where
  ops : ∀ entered, (m.admitted request env = (.uncontrolled, entered) ∨
      ∃ control, m.admitted request env = (.execute control, entered)) →
    RunsOps request.args → Along commandStep SafeCommand entered env.ops
  resent : ∀ control entered, m.admitted request env = (.execute control, entered) →
    request.args.head? = some "send-composer" → entered.NotResent request.args

/-- **A request.** -/
theorem executeRequest_settled (h : m.Settled none) (hsafe : m.SafeRequest request env)
    (hexecute : m.executeRequest request env = some (response, m')) : m'.Settled none := by
  have hops := hsafe.ops
  have hresent := hsafe.resent
  unfold executeRequest at hexecute
  unfold admitted at hops hresent hexecute
  generalize hanswer : m.server.controlAuthority.admitRequest request.control request.args
    env.nowUnixMs = result at hops hresent hexecute
  rcases result with ⟨answer, authority⟩
  have hcovers := h.awaited.covers.admitRequest hanswer
  have hpending := m.server.controlAuthority.admit_pendingSubmissions request.control
    request.args env.nowUnixMs
  rw [hanswer] at hpending
  have hfiled : ∀ id, authority.Files id → m.server.AwaitsEnter id := by
    intro id hid
    rw [ControlAuthority.Files, hpending] at hid
    exact h.awaited.filed id hid
  rcases hcovers with ⟨hunexecuted, hcovers⟩ | ⟨control, rfl, hmatches, hcovers⟩
  · have hentered : (m.withAuthority authority).Settled none :=
      ⟨withAuthority_sound h.sound authority, hcovers, hfiled⟩
    cases answer with
    | uncontrolled =>
      exact executeCommand_settled hentered (hops _ (.inl rfl)) hexecute
    | respond answered =>
      cases hexecute
      exact hentered
    | execute control => exact absurd rfl (hunexecuted control)
  · have hentered : (m.withAuthority authority).Settled (some control) :=
      ⟨withAuthority_sound h.sound authority, hcovers, hfiled⟩
    exact executeControlled_settled hentered hmatches (hops _ (.inr ⟨control, rfl⟩))
      (hresent control _ rfl) hexecute

/-! ## Runs -/

/-- The condition under which no receipt is left open for good. -/
def Safe (m : Machine) : ControlOp → Prop
  | .machine (.serve op) => m.server.FreshId op ∧ m.server.ClosesIdle op
  | .machine _ => True
  | .request request env => m.SafeRequest request env

lemma new_awaited {file : Option SavedWorkspace} {s : ServerState}
    (hfile : ∀ w, file = some w → w.Forest)
    (h : new startEmpty file epoch spawn spawnFirst = some s) : s.Awaited none := by
  obtain ⟨-, -, hcontrol⟩ := new_forest hfile h
  refine ⟨hcontrol ▸ ControlAuthority.covers_default, fun id hid => ?_⟩
  rw [hcontrol] at hid
  exact absurd hid (ControlAuthority.not_files_default id)

/-- **One step.** -/
theorem controlStep_settled {op : ControlOp} (h : m.Settled none) (hsafe : m.Safe op)
    (hstep : m.controlStep op = some m') : m'.Settled none := by
  cases op with
  | request request env =>
    obtain ⟨⟨response, _⟩, hexecute, rfl⟩ := map_eq_some_iff.mp hstep
    exact executeRequest_settled h hsafe hexecute
  | machine op =>
    cases op with
    | serve op =>
      have hfresh : m.FreshId (.serve op) := hsafe.1
      refine ⟨step_sound h.sound hfresh hstep, ?_⟩
      obtain ⟨server, hserve, hm⟩ := bind_eq_some_iff.mp hstep
      cases hm
      cases hpolls : op.polls with
      | false =>
        exact (step_effect hfresh hserve).awaited h.sound.server h.awaited hpolls
          hsafe.2
      | true =>
        cases op with
        | pollTerminals inputs => exact pollTerminals_awaited h.awaited hserve
        | _ => exact absurd hpolls (by simp [ServerOp.polls])
    | persistWorkspace =>
      have hok : m.SafeCommand .persistWorkspace := trivial
      exact commandStep_settled h hok hstep
    | restart startEmpty epoch spawn spawnFirst =>
      have hfresh : m.FreshId (.restart startEmpty epoch spawn spawnFirst) := trivial
      refine ⟨step_sound h.sound hfresh hstep, ?_⟩
      obtain ⟨server, hnew, hm⟩ := bind_eq_some_iff.mp hstep
      cases hm
      exact new_awaited h.sound.file hnew

theorem run_settled {ops : List ControlOp} (h : m.Settled none)
    (hsafe : Along controlStep Safe m ops) (hrun : exec controlStep m ops = some m') :
    m'.Settled none :=
  exec_invariant_along (P := fun m => m.Settled none)
    (fun _ _ _ h hok hstep => controlStep_settled h hok hstep) h hsafe hrun

theorem start_settled (h : start startEmpty epoch spawn spawnFirst = some m) : m.Settled none := by
  refine ⟨start_sound h, ?_⟩
  obtain ⟨server, hnew, hm⟩ := bind_eq_some_iff.mp h
  cases hm
  exact new_awaited (by simp) hnew

/-- A request waits on a tab only once, so there are no more open entries than tabs. -/
lemma Settled.open_le_tabs (h : m.Settled none) :
    (m.server.controlAuthority.replayWindow.entries.filter fun e => !e.finalized).length
      ≤ m.server.tabs.length := by
  have hnodup : ((m.server.controlAuthority.replayWindow.entries.filter fun e =>
      !e.finalized).map ReplayEntry.requestId).Nodup :=
    h.awaited.covers.window.nodup.sublist (filter_sublist.map _)
  have hsub : (m.server.controlAuthority.replayWindow.entries.filter fun e =>
      !e.finalized).map ReplayEntry.requestId ⊆ m.server.tabs.filterMap fun tab =>
        (m.server.controlAuthority.pendingSubmissions.lookup tab.id).map fun pending =>
          pending.request.requestId := by
    intro id hid
    obtain ⟨e, he, rfl⟩ := mem_map.mp hid
    obtain ⟨hmem, hopen⟩ := mem_filter.mp he
    rcases h.awaited.covers.covered e hmem (by simpa using hopen) with
      ⟨control, hbusy, -⟩ | ⟨tabId, pending, hlookup, hanswers⟩
    · exact absurd hbusy (by simp)
    · obtain ⟨tab, htab, rfl, -⟩ := h.awaited.filed tabId (by
        rw [ControlAuthority.Files, hlookup]
        rfl)
      refine mem_filterMap.mpr ⟨tab, htab, ?_⟩
      rw [hlookup, map_some, hanswers.requestId]
  have hle := (subperm_of_subset hnodup hsub).length_le
  rw [length_map] at hle
  exact Nat.le_trans hle (length_filterMap_le _ _)

lemma Settled.waiting_tab (h : m.Settled none) {e : ReplayEntry}
    (he : e ∈ m.server.controlAuthority.replayWindow.entries) (hopen : e.finalized = false) :
    ∃ tabId pending, m.server.controlAuthority.pendingSubmissions.lookup tabId = some pending ∧
      pending.request.requestId = e.requestId ∧ m.server.AwaitsEnter tabId := by
  rcases h.awaited.covers.covered e he hopen with
    ⟨control, hbusy, -⟩ | ⟨tabId, pending, hlookup, hanswers⟩
  · exact absurd hbusy (by simp)
  · refine ⟨tabId, pending, hlookup, hanswers.requestId.symm, h.awaited.filed tabId ?_⟩
    rw [ControlAuthority.Files, hlookup]
    rfl

/-- **No leaked receipt.** In every run of requests, polls and other operations that meet the
condition: every open entry of the replay window belongs to a pending submission whose tab is
live and waits for its Enter; there are no more open entries than tabs; and a poll at which the
submissions are due finalizes them all. -/
theorem receipts_finalizable {startEmpty : Bool} {epoch : String}
    {spawn : SavedTab → Except String Spawned} {spawnFirst : Except String Spawned}
    {ops : List ControlOp} (hstart : start startEmpty epoch spawn spawnFirst = some m)
    (hsafe : Along controlStep Safe m ops) (hrun : exec controlStep m ops = some m') :
    (∀ e ∈ m'.server.controlAuthority.replayWindow.entries, e.finalized = false →
      ∃ tabId pending,
        m'.server.controlAuthority.pendingSubmissions.lookup tabId = some pending ∧
          pending.request.requestId = e.requestId ∧ m'.server.AwaitsEnter tabId) ∧
      (m'.server.controlAuthority.replayWindow.entries.filter fun e => !e.finalized).length
        ≤ m'.server.tabs.length ∧
      ∀ inputs polled,
        (∀ position tab due, m'.server.tabs[position]? = some tab →
          tab.submission = .pending due → due ≤ (inputs position).now) →
        m'.controlStep (.machine (.serve (.pollTerminals inputs))) = some polled →
        ∀ e ∈ polled.server.controlAuthority.replayWindow.entries, e.finalized = true := by
  have h := run_settled (start_settled hstart) hsafe hrun
  refine ⟨fun e he hopen => h.waiting_tab he hopen, h.open_le_tabs, ?_⟩
  intro inputs polled hdue hstep e he
  have hok : m'.Safe (.machine (.serve (.pollTerminals inputs))) := ⟨trivial, trivial⟩
  have hpolled := controlStep_settled h hok hstep
  obtain ⟨server, hpoll, hm⟩ := bind_eq_some_iff.mp hstep
  cases hm
  cases hopen : e.finalized with
  | true => rfl
  | false =>
    obtain ⟨tabId, -, -, -, hawaits⟩ := hpolled.waiting_tab he hopen
    exact absurd hawaits (pollTerminals_idle hdue hpoll tabId)

/-! ## Runs with given inputs -/

/-- A controlled `send-composer` for the first tab. -/
def sendRequest (id : String) : IpcRequest :=
  let args := ["send-composer", "-t", "@1"]
  { args
    control := some
      { schemaVersion := controlContractSchemaVersion
        requestId := ⟨id⟩
        operationId := ⟨"command.send.composer"⟩
        payloadFingerprint := controlPayloadFingerprint args
        intent := .mutation
        deadlineUnixMs := none } }

def plainEnv : RequestEnv :=
  { nowUnixMs := 0, now := 0, writeError := none, serverPid := 9, serverAddress := "local",
    ops := [], response := .success "" }

/-- The composer of the first tab is filled and sent. -/
def sendOps : List ControlOp :=
  [.machine (.serve (.setComposer 0 "ls")), .request (sendRequest "a") plainEnv]

lemma safeRequest_of_unfiled (hfiles : ∀ id, ¬ m.server.controlAuthority.Files id)
    (hops : ¬ RunsOps request.args) : m.SafeRequest request env := by
  refine ⟨fun _ _ hruns => absurd hruns hops, ?_⟩
  intro control entered hadmitted _ position tab _ _ hid
  have hpending := m.server.controlAuthority.admit_pendingSubmissions request.control
    request.args env.nowUnixMs
  have hentered : entered.server.controlAuthority.pendingSubmissions
      = m.server.controlAuthority.pendingSubmissions := by
    rw [← hpending, show entered = (m.admitted request env).2 by rw [hadmitted]]
    rfl
  rw [ControlAuthority.Files, hentered] at hid
  exact absurd hid (hfiles tab.id)

theorem receipts_finalizable_one_request :
    ∃ m' e, exec controlStep plainMachine sendOps = some m' ∧
      e ∈ m'.server.controlAuthority.replayWindow.entries ∧ e.finalized = false ∧
      ∃ tabId pending,
        m'.server.controlAuthority.pendingSubmissions.lookup tabId = some pending ∧
          pending.request.requestId = e.requestId ∧ m'.server.AwaitsEnter tabId := by
  have hcheck : ((exec controlStep plainMachine sendOps).bind fun m' =>
      m'.server.controlAuthority.replayWindow.entries.head?.map fun e => e.finalized)
      = some false := by decide
  obtain ⟨m', hrun, hcheck⟩ := bind_eq_some_iff.mp hcheck
  obtain ⟨e, hhead, hopen⟩ := map_eq_some_iff.mp hcheck
  have he := mem_of_head? hhead
  have hstart : plainStart = some plainMachine := rfl
  have hsafe : Along controlStep Safe plainMachine sendOps := by
    refine ⟨⟨trivial, trivial⟩, fun m₁ hm₁ => ⟨?_, fun _ _ => trivial⟩⟩
    have hunfiled : ∀ id, ¬ m₁.server.controlAuthority.Files id := by
      intro id hid
      have hempty : (plainMachine.controlStep (.machine (.serve (.setComposer 0 "ls")))).map
          (fun m => m.server.controlAuthority.pendingSubmissions.entries.length) = some 0 := by
        decide
      rw [hm₁, map_some, some.injEq, length_eq_zero_iff] at hempty
      obtain ⟨pending, hlookup⟩ := isSome_iff_exists.mp hid
      have hmem := AList.mem_lookup_iff.mp (mem_def.mpr hlookup)
      rw [hempty] at hmem
      exact absurd hmem not_mem_nil
    have hops : ¬ RunsOps (sendRequest "a").args := by
      rintro ⟨command, hhead, hne, -⟩
      exact hne (some.inj hhead).symm
    exact safeRequest_of_unfiled hunfiled hops
  exact ⟨m', e, hrun, he, hopen,
    (receipts_finalizable hstart hsafe hrun).1 e he hopen⟩

/-- The tab is closed before its Enter is written. -/
def closeOps : List ControlOp :=
  sendOps ++ [.machine (.serve (.closeTab 1 { nativeCleanup := none, workersComplete := true }))]

/-- The composer, empty by now, is sent again before the Enter is written. -/
def resendOps : List ControlOp := sendOps ++ [.request (sendRequest "b") plainEnv]

/-- After either of these runs an entry is open that no poll can finalize: there is no tab left,
or the tab finishes another request. -/
theorem receipts_leak :
    (∃ m' e, exec controlStep plainMachine closeOps = some m' ∧
      e ∈ m'.server.controlAuthority.replayWindow.entries ∧ e.finalized = false ∧
      m'.server.tabs = []) ∧
    ∃ m' e, exec controlStep plainMachine resendOps = some m' ∧
      e ∈ m'.server.controlAuthority.replayWindow.entries ∧ e.finalized = false ∧
      ∀ tabId pending,
        m'.server.controlAuthority.pendingSubmissions.lookup tabId = some pending →
          pending.request.requestId ≠ e.requestId := by
  constructor
  · have hcheck : ((exec controlStep plainMachine closeOps).bind fun m' =>
        m'.server.controlAuthority.replayWindow.entries.head?.map fun e =>
          (e.finalized, m'.server.tabs.length)) = some (false, 0) := by decide
    obtain ⟨m', hrun, hcheck⟩ := bind_eq_some_iff.mp hcheck
    obtain ⟨e, hhead, hfacts⟩ := map_eq_some_iff.mp hcheck
    obtain ⟨hopen, htabs⟩ := Prod.mk.inj hfacts
    exact ⟨m', e, hrun, mem_of_head? hhead, hopen, length_eq_zero_iff.mp htabs⟩
  · have hcheck : ((exec controlStep plainMachine resendOps).bind fun m' =>
        m'.server.controlAuthority.replayWindow.entries.head?.map fun e =>
          (e.finalized, e.requestId,
            m'.server.controlAuthority.pendingSubmissions.entries.map fun filed =>
              filed.2.request.requestId)) = some (false, ⟨"a"⟩, [⟨"b"⟩]) := by decide
    obtain ⟨m', hrun, hcheck⟩ := bind_eq_some_iff.mp hcheck
    obtain ⟨e, hhead, hfacts⟩ := map_eq_some_iff.mp hcheck
    simp only [Prod.mk.injEq] at hfacts
    obtain ⟨hopen, hid, hfiled⟩ := hfacts
    refine ⟨m', e, hrun, mem_of_head? hhead, hopen, fun tabId pending hlookup => ?_⟩
    have hmem := AList.mem_lookup_iff.mp (mem_def.mpr hlookup)
    have hrequest := mem_map_of_mem (f := fun filed : Sigma fun _ : Nat =>
      PendingControlReceipt => filed.2.request.requestId) hmem
    rw [hfiled, mem_singleton] at hrequest
    rw [hrequest, hid]
    decide

end Machine

end Agenterm
