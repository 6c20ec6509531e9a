import Agenterm.Lib.Rendezvous
import Agenterm.Worker.FramedWorker
import Agenterm.Worker.Roster

/-!
# The framed worker keeps its roster and its slot

Two abstractions of the worker: its `roster` (`roster_step`), from which each invocation is answered
once, and the rendezvous between the reading loop and a call (`Mirrors.step`).
-/

namespace Agenterm.Worker

open Lib List Option

/-! ## The roster of a worker -/

def ThreadPoint.stage : ThreadPoint → Roster.Stage
  | .engine | .counted _ | .registered _ | .waiting | .forgetting _ => .running
  | .finished result => .finished result
  | .locked result => .locked result
  | .written | .completed => .written
  | .done => .done

def Thread.entry (thread : Thread) : Roster.Entry :=
  ⟨thread.number, thread.frameId, thread.invocationId, thread.point.stage⟩

def ReaderPoint.asking : ReaderPoint → Option Roster.Asking
  | .invoking number frameId invocation => some ⟨number, frameId, invocation.invocationId⟩
  | .busy number frameId invocationId => some ⟨number, frameId, invocationId⟩
  | _ => none

def ReaderPoint.refusing : ReaderPoint → Bool
  | .busy .. => true
  | _ => false

/-- What was written as the answer to an invocation. -/
def Written.answer (written : Written) : Option Roster.Answer :=
  match written.cause with
  | .result number => some ⟨number, false, written.frame⟩
  | .busy number => some ⟨number, true, written.frame⟩
  | _ => none

variable {frame : ScriptFrame} {frameId invocationId : String} {i : Nat} {request : BrokerRequest}
  {thread thread' : Thread}

variable {cause : Cause} {change : Thread → Option Thread} {requestId : String}
  {response : BrokerResponse} {roster' : Roster}

namespace FramedWorker

def roster (worker : FramedWorker) : Roster where
  admitted := worker.admitted
  asking := worker.reader.asking
  refusing := worker.reader.refusing
  entries := worker.threads.map Thread.entry
  active := worker.active
  locked := worker.activeLocked
  answers := worker.output.filterMap Written.answer

variable {fits : ScriptFrame → Bool} {worker worker' : FramedWorker}

lemma entries_getElem? (hthread : worker.threads[i]? = some thread) :
    worker.roster.entries[i]? = some thread.entry := by
  show (worker.threads.map Thread.entry)[i]? = _
  rw [List.getElem?_map, hthread]
  rfl

lemma roster_withThread (i : Nat) (thread : Thread) :
    (worker.withThread i thread).roster = worker.roster.withEntry i thread.entry := by
  unfold roster Roster.withEntry withThread
  rw [map_set]

/-- A thread whose entry stays the same leaves the roster as it is. -/
lemma roster_withThread_same (thread' : Thread) (hthread : worker.threads[i]? = some thread)
    (hsame : thread'.entry = thread.entry) :
    (worker.withThread i thread').roster = worker.roster := by
  have hentries : (worker.threads.map Thread.entry).set i thread.entry =
      worker.threads.map Thread.entry := by
    have hentry := entries_getElem? hthread
    obtain ⟨hlt, hget⟩ := List.getElem?_eq_some_iff.mp hentry
    rw [← hget]
    exact set_getElem_self hlt
  rw [roster_withThread, hsame]
  unfold Roster.withEntry roster
  rw [hentries]

lemma roster_raise (worker : FramedWorker) (i : Nat) : (worker.raise i).roster = worker.roster := by
  unfold raise
  split
  · rename_i thread hthread
    refine roster_withThread_same _ hthread ?_
    rfl
  · rfl

/-! ### Writes -/

/-- What is written for a result names the same ids. -/
lemma names_encoded {written : ScriptFrame} (h : encoded fits frame = some written)
    (hnames : Names frame frameId invocationId) : Names written frameId invocationId := by
  unfold encoded at h
  split at h
  · rw [← some.inj h]
    exact hnames
  · obtain ⟨hframe, result, hresult, hid⟩ := hnames
    rw [hresult] at h
    dsimp only at h
    split at h
    · rw [← some.inj h]
      exact ⟨hframe, _, rfl, hid⟩
    · injection h

lemma names_resultFrame (frameId : String) (result : ScriptResult) :
    Names (resultFrame frameId result) frameId result.invocationId := ⟨rfl, result, rfl, rfl⟩

lemma write_eq_some {writes : Bool} (h : worker.write fits cause frame writes = some worker') :
    writes = true ∧ ∃ written, encoded fits frame = some written ∧
      worker' = { worker with output := worker.output ++ [⟨cause, written⟩] } := by
  unfold write at h
  split at h
  · rename_i hwrites
    obtain ⟨written, hwritten, hworker⟩ := map_eq_some_iff.mp h
    exact ⟨hwrites, written, hwritten, hworker.symm⟩
  · injection h

/-- A frame that fits is lost only when the write fails. -/
lemma write_eq_none {writes : Bool} (h : worker.write fits cause frame writes = none)
    (hfits : fits frame = true) : writes = false := by
  unfold write encoded at h
  rw [hfits] at h
  split at h
  · injection h
  · rename_i hwrites
    exact Bool.eq_false_iff.mpr hwrites

/-- What is written for anything else than an answer leaves the answers as they are. -/
lemma roster_output_other (worker : FramedWorker) (cause : Cause) (frame : ScriptFrame)
    (hcause : Written.answer ⟨cause, frame⟩ = none) :
    ({ worker with output := worker.output ++ [⟨cause, frame⟩] } : FramedWorker).roster =
      worker.roster := by
  unfold roster
  rw [filterMap_append, filterMap_cons_none hcause, filterMap_nil, append_nil]

end FramedWorker

/-! ## Steps of the roster -/

def WorkerEvent.writes : WorkerEvent → Bool
  | .reader writes | .advance _ writes => writes
  | _ => true

/-- An invocation is read. -/
def WorkerEvent.invokes : WorkerEvent → Bool
  | .read (.frame frame) =>
    match frame.payload with
    | .invoke _ => true
    | _ => false
  | _ => false

namespace FramedWorker

variable {fits : ScriptFrame → Bool} {worker worker' : FramedWorker}

/-- What the event writes as a result fits a frame. -/
def resultFits (fits : ScriptFrame → Bool) (worker : FramedWorker) : WorkerEvent → Bool
  | .reader _ =>
    match worker.reader with
    | .writing frame _ => fits frame
    | .busy _ frameId invocationId => fits (busyFrame frameId invocationId)
    | _ => true
  | .advance i _ =>
    (worker.threads[i]?).all fun thread =>
      match thread.point with
      | .locked result => fits (resultFrame thread.frameId result)
      | _ => true
  | _ => true

/-- No write fails, and results fit a frame. -/
def Succeeds (fits : ScriptFrame → Bool) (worker : FramedWorker) (event : WorkerEvent) : Prop :=
  event.writes = true ∧ worker.resultFits fits event = true

instance (event : WorkerEvent) : Decidable (worker.Succeeds fits event) :=
  inferInstanceAs (Decidable (_ ∧ _))

/-- The roster stays as it is, or something happens to it; nothing that is written is lost when it
succeeds, and an invocation is admitted only when it is read. -/
def Follows (succeeds : Prop) (event : WorkerEvent) (roster roster' : Roster) : Prop :=
  (∃ written, (succeeds → written = true) ∧
    (roster' = roster ∨ Roster.Step written roster roster')) ∧
  (roster'.admitted = roster.admitted ∨ event.invokes = true)

variable {event : WorkerEvent} {succeeds : Prop}

lemma Follows.of_eq {roster : Roster} (h : roster' = roster) :
    Follows succeeds event roster roster' :=
  ⟨⟨true, fun _ => rfl, .inl h⟩, .inl (by rw [h])⟩

lemma Follows.of_step {roster : Roster} (h : Roster.Step true roster roster')
    (hadmitted : roster'.admitted = roster.admitted) : Follows succeeds event roster roster' :=
  ⟨⟨true, fun _ => rfl, .inr h⟩, .inl hadmitted⟩

lemma roster_reader (worker : FramedWorker) {reader : ReaderPoint}
    (hasking : reader.asking = worker.reader.asking)
    (hrefusing : reader.refusing = worker.reader.refusing) :
    ({ worker with reader := reader } : FramedWorker).roster = worker.roster := by
  unfold roster
  rw [hasking, hrefusing]

/-- A frame that is dispatched is admitted to the roster, or does not concern it. -/
lemma follows_dispatch (worker : FramedWorker) (hidle : worker.reader = .idle)
    (frame : ScriptFrame) :
    Follows succeeds (.read (.frame frame)) worker.roster (worker.dispatch frame).roster := by
  have hasking : worker.reader.asking = none := by rw [hidle]; rfl
  have hrefusing : worker.reader.refusing = false := by rw [hidle]; rfl
  unfold dispatch
  split
  · rename_i invocation hpayload
    have hstep : Roster.Step true worker.roster _ :=
      .admission frame.frameId invocation.invocationId hasking
    have heq : ({ worker with
        reader := .invoking worker.admitted.length frame.frameId invocation
        admitted := worker.admitted ++ [(frame.frameId, invocation.invocationId)] } :
          FramedWorker).roster =
        { worker.roster with
          admitted := worker.admitted ++ [(frame.frameId, invocation.invocationId)]
          asking := some ⟨worker.admitted.length, frame.frameId, invocation.invocationId⟩ } := by
      show Roster.mk _ _ false _ _ _ _ = Roster.mk _ _ worker.reader.refusing _ _ _ _
      rw [hrefusing]
      rfl
    rw [heq]
    refine ⟨⟨true, fun _ => rfl, .inr hstep⟩, .inr ?_⟩
    show (match frame.payload with | .invoke _ => true | _ => false) = true
    rw [hpayload]
  all_goals exact .of_eq (roster_reader _ hasking.symm hrefusing.symm)

lemma roster_eof (hidle : worker.reader = .idle) : worker.eof.roster = worker.roster := by
  unfold eof
  split
  · rename_i i hactive
    rw [← roster_raise worker i]
    refine roster_reader _ ?_ ?_
    · unfold raise
      split
      · show none = worker.reader.asking
        rw [hidle]
        rfl
      · rw [hidle]
        rfl
    · unfold raise
      split
      · show false = worker.reader.refusing
        rw [hidle]
        rfl
      · rw [hidle]
        rfl
  · refine roster_reader _ ?_ ?_
    · rw [hidle]
      rfl
    · rw [hidle]
      rfl

lemma follows_read {input : FrameRead} (h : worker.read input = some worker') :
    Follows succeeds (.read input) worker.roster worker'.roster := by
  unfold read at h
  split at h
  · injection h
  rename_i hidle
  have hidle : worker.reader = .idle := not_not.mp hidle
  have hreject (tracker : FrameTracker) (frame : ScriptFrame) (stop : Bool) :
      ({ worker with tracker := tracker, reader := .writing frame stop } : FramedWorker).roster =
        worker.roster := by
    refine roster_reader { worker with tracker := tracker } ?_ ?_
    · show _ = worker.reader.asking
      rw [hidle]
      rfl
    · show _ = worker.reader.refusing
      rw [hidle]
      rfl
  split at h
  · split at h
    · injection h
    · rw [← some.inj h]
      exact .of_eq (roster_eof hidle)
  · rw [← some.inj h]
    exact .of_eq (hreject worker.tracker _ _)
  · split at h
    · rw [← some.inj h]
      exact follows_dispatch _ hidle _
    · split at h
      · rename_i tracker hadmission
        rw [← some.inj h]
        have hsame : ({ worker with tracker := tracker } : FramedWorker).roster = worker.roster :=
          rfl
        rw [← hsame]
        exact follows_dispatch { worker with tracker := tracker } hidle _
      · rw [← some.inj h]
        exact .of_eq (hreject _ _ _)

/-- The reading loop goes from one place that does not concern the roster to another. -/
lemma roster_between (worker : FramedWorker) {before after : ReaderPoint}
    (hbefore : worker.reader = before)
    (hasking : before.asking = none ∧ after.asking = none)
    (hrefusing : before.refusing = false ∧ after.refusing = false) :
    ({ worker with reader := after } : FramedWorker).roster = worker.roster := by
  refine roster_reader worker ?_ ?_
  · rw [hbefore, hasking.1, hasking.2]
  · rw [hbefore, hrefusing.1, hrefusing.2]

lemma roster_writeOr_protocol {next : ReaderPoint} {stop : Bool} {writes : Bool}
    (hreader : worker.reader = .writing frame stop) (hnext : next.asking = none)
    (hnext' : next.refusing = false) :
    (worker.writeOr fits .protocol frame writes next).roster = worker.roster := by
  unfold writeOr
  split
  · rename_i after hwrite
    obtain ⟨-, written, -, rfl⟩ := write_eq_some hwrite
    rw [← roster_output_other worker .protocol written rfl]
    exact roster_between _ hreader ⟨rfl, hnext⟩ ⟨rfl, hnext'⟩
  · exact roster_between _ hreader ⟨rfl, rfl⟩ ⟨rfl, rfl⟩

/-- The refusal of an invocation is written, or lost. -/
lemma follows_busy {number : Nat} {writes : Bool}
    (hreader : worker.reader = .busy number frameId invocationId)
    (hsucceeds : succeeds → writes = true ∧ fits (busyFrame frameId invocationId) = true) :
    Follows succeeds event worker.roster
      ({ worker.writeOr fits (.busy number) (busyFrame frameId invocationId) writes .idle with
        activeLocked := false } : FramedWorker).roster := by
  have hasking : worker.roster.asking = some ⟨number, frameId, invocationId⟩ := by
    show worker.reader.asking = _
    rw [hreader]
    rfl
  have hrefusing : worker.roster.refusing = true := by
    show worker.reader.refusing = _
    rw [hreader]
    rfl
  have hnames : Names (busyFrame frameId invocationId) frameId invocationId :=
    names_resultFrame frameId (protocolFailureFor invocationId _ _)
  unfold writeOr
  split
  · rename_i after hwrite
    obtain ⟨-, written, hwritten, rfl⟩ := write_eq_some hwrite
    have hstep : Roster.Step true worker.roster _ :=
      .refused ⟨number, frameId, invocationId⟩ written hasking hrefusing
        (names_encoded hwritten hnames)
    refine .of_step (hstep.congr ?_) rfl
    unfold roster Roster.record
    rw [filterMap_append]
    rfl
  · rename_i hwrite
    have hstep : Roster.Step false worker.roster _ :=
      .refused ⟨number, frameId, invocationId⟩ (busyFrame frameId invocationId) hasking hrefusing
        hnames
    refine ⟨⟨false, fun htrue => ?_, .inr (hstep.congr ?_)⟩, .inl ?_⟩
    · obtain ⟨hwrites, hfits⟩ := hsucceeds htrue
      rw [← hwrites]
      exact (write_eq_none hwrite hfits).symm
    · unfold roster Roster.record
      rw [if_neg Bool.false_ne_true, append_nil]
      rfl
    · rfl

lemma roster_classify {active : Option (String × Nat)}
    (hreader : worker.reader = .classifying frameId invocationId active) :
    (worker.classify frameId invocationId active).roster = worker.roster := by
  unfold classify
  dsimp only
  split
  all_goals exact roster_between _ hreader ⟨rfl, rfl⟩ ⟨rfl, rfl⟩

lemma roster_take {activeMatches : Bool}
    (hreader : worker.reader = .taking frameId invocationId requestId response activeMatches) :
    (worker.take frameId invocationId requestId response activeMatches).roster =
      worker.roster := by
  unfold take
  split
  · split
    · exact roster_between { worker with pendingBroker := none } hreader ⟨rfl, rfl⟩ ⟨rfl, rfl⟩
    · exact roster_between { worker with pendingBroker := none } hreader ⟨rfl, rfl⟩ ⟨rfl, rfl⟩
  · exact roster_between _ hreader ⟨rfl, rfl⟩ ⟨rfl, rfl⟩

lemma roster_deliver {sender : Sender}
    (hreader : worker.reader = .delivering invocationId requestId response sender) :
    (worker.deliver invocationId requestId response sender).roster = worker.roster := by
  unfold deliver
  split
  · rename_i thread hthread
    split
    · have hsame : (worker.withThread sender.thread
          { thread with inbox := some response }).roster = worker.roster :=
        roster_withThread_same _ hthread rfl
      rw [← hsame]
      exact roster_between (worker.withThread sender.thread { thread with inbox := some response })
        hreader ⟨rfl, rfl⟩ ⟨rfl, rfl⟩
    · exact roster_between _ hreader ⟨rfl, rfl⟩ ⟨rfl, rfl⟩
  · exact roster_between _ hreader ⟨rfl, rfl⟩ ⟨rfl, rfl⟩

/-- The moves of the reader: admission, refusal and answers are steps of the roster, and between them
it stays as it is. -/
lemma follows_reader {writes : Bool} (h : worker.advanceReader fits writes = some worker')
    (hsucceeds : succeeds → worker.Succeeds fits (.reader writes)) : Follows succeeds event worker.roster worker'.roster := by
  unfold advanceReader at h
  split at h
  · rename_i frame stop hreader
    rw [← some.inj h]
    cases stop with
    | true => exact .of_eq (roster_writeOr_protocol hreader rfl rfl)
    | false => exact .of_eq (roster_writeOr_protocol hreader rfl rfl)
  · rename_i number frameId invocation hreader
    have hasking : worker.roster.asking = some ⟨number, frameId, invocation.invocationId⟩ := by
      show worker.reader.asking = _
      rw [hreader]
      rfl
    split at h
    · injection h
    rename_i hlocked
    have hlocked : worker.activeLocked = false := Bool.eq_false_iff.mpr hlocked
    split at h
    · rename_i hactive
      rw [← some.inj h]
      have hstep : Roster.Step true worker.roster _ :=
        .refuse hlocked (by rw [hasking]; rfl) hactive
      refine .of_step (hstep.congr ?_) rfl
      show Roster.mk _ (some _) _ _ _ _ _ = Roster.mk _ worker.reader.asking _ _ _ _ _
      rw [hreader]
      rfl
    · rename_i hactive
      rw [← some.inj h]
      have hrefusing : worker.roster.refusing = false := by
        show worker.reader.refusing = _
        rw [hreader]
        rfl
      have hstep : Roster.Step true worker.roster _ :=
        .spawn _ hasking hrefusing (not_isSome_iff_eq_none.mp hactive)
      refine .of_step (hstep.congr ?_) rfl
      unfold spawn roster
      rw [map_append, length_map, hreader]
      rfl
  · rename_i number frameId invocationId hreader
    rw [← some.inj h]
    refine follows_busy hreader fun htrue => ?_
    obtain ⟨hwrites, hfits⟩ := hsucceeds htrue
    unfold resultFits at hfits
    dsimp only at hfits
    rw [hreader] at hfits
    exact ⟨hwrites, hfits⟩
  · rename_i frameId invocationId hreader
    split at h
    · injection h
    · rw [← some.inj h]
      exact .of_eq (roster_between
        { worker with cancels := worker.cancels ++ [(invocationId, worker.activeThread invocationId)] }
        hreader ⟨rfl, rfl⟩ ⟨rfl, rfl⟩)
  · rename_i frameId invocationId active hreader
    rw [← some.inj h]
    exact .of_eq (roster_classify hreader)
  · rename_i i hreader
    rw [← some.inj h, ← roster_raise worker i]
    have hraised : (worker.raise i).reader = .raising i := by
      unfold raise
      split
      · exact hreader
      · exact hreader
    exact .of_eq (roster_between (worker.raise i) hraised ⟨rfl, rfl⟩ ⟨rfl, rfl⟩)
  · rename_i frameId invocationId requestId response hreader
    split at h
    · injection h
    · rw [← some.inj h]
      exact .of_eq (roster_between worker hreader ⟨rfl, rfl⟩ ⟨rfl, rfl⟩)
  · rename_i frameId invocationId requestId response activeMatches hreader
    rw [← some.inj h]
    exact .of_eq (roster_take hreader)
  · rename_i invocationId requestId response sender hreader
    rw [← some.inj h]
    exact .of_eq (roster_deliver hreader)
  · rename_i frameId invocationId pending hreader
    rw [← some.inj h]
    exact .of_eq (roster_between { worker with pendingBroker := some pending } hreader ⟨rfl, rfl⟩
      ⟨rfl, rfl⟩)
  all_goals injection h

/-! ### Threads -/

lemma onThread_eq_some (h : worker.onThread i change = some worker') : ∃ thread thread',
      worker.threads[i]? = some thread ∧ change thread = some thread' ∧
        worker' = worker.withThread i thread' := by
  unfold onThread at h
  obtain ⟨thread, hthread, hmap⟩ := bind_eq_some_iff.mp h
  obtain ⟨thread', hchange, rfl⟩ := map_eq_some_iff.mp hmap
  exact ⟨thread, thread', hthread, hchange, rfl⟩

/-- A thread that goes on running leaves the roster as it is. -/
lemma entry_of_running (hsame : thread'.number = thread.number ∧
    thread'.frameId = thread.frameId ∧ thread'.invocationId = thread.invocationId)
    (hbefore : thread.point.stage = .running) (hafter : thread'.point.stage = .running) :
    thread'.entry = thread.entry := by
  unfold Thread.entry
  rw [hsame.1, hsame.2.1, hsame.2.2, hbefore, hafter]

lemma entry_call (h : call thread request = some thread') : thread'.entry = thread.entry := by
  unfold call at h
  split at h
  · injection h
  rename_i hengine
  have hengine : thread.point = .engine := not_not.mp fun hne => hengine (.inl hne)
  split at h
  all_goals
    rw [← some.inj h]
    exact entry_of_running ⟨rfl, rfl, rfl⟩ (by rw [hengine]; rfl) rfl

lemma entry_receive (h : receive thread = some thread') : thread'.entry = thread.entry := by
  unfold receive at h
  split at h
  · rename_i hpoint _
    rw [← some.inj h]
    exact entry_of_running ⟨rfl, rfl, rfl⟩ (by rw [hpoint]; rfl) rfl
  · injection h

lemma entry_timeout {expired : Bool} (h : timeout thread expired = some thread') :
    thread'.entry = thread.entry := by
  unfold timeout at h
  split at h
  · rename_i hpoint _
    split at h
    · rw [← some.inj h]
      exact entry_of_running ⟨rfl, rfl, rfl⟩ (by rw [hpoint]; rfl) rfl
    split at h
    · rw [← some.inj h]
      exact entry_of_running ⟨rfl, rfl, rfl⟩ (by rw [hpoint]; rfl) rfl
    · rw [← some.inj h]
  · injection h

lemma entry_disconnected (h : worker.disconnected i thread = some thread') :
    thread'.entry = thread.entry := by
  unfold disconnected at h
  split at h
  · rename_i hpoint _
    split at h
    · injection h
    · rw [← some.inj h]
      exact entry_of_running ⟨rfl, rfl, rfl⟩ (by rw [hpoint]; rfl) rfl
  · injection h

lemma follows_onThread
    (hsame : ∀ thread thread', change thread = some thread' → thread'.entry = thread.entry)
    (h : worker.onThread i change = some worker') :
    Follows succeeds event worker.roster worker'.roster := by
  obtain ⟨thread, thread', hthread, hchange, rfl⟩ := onThread_eq_some h
  exact .of_eq (roster_withThread_same _ hthread (hsame thread thread' hchange))

lemma follows_finish {exitClass : ExitClass} {failure : Option ScriptFailure} {body : String}
    (h : worker.onThread i (FramedWorker.finish · exitClass failure body) = some worker') :
    Follows succeeds event worker.roster worker'.roster := by
  obtain ⟨thread, thread', hthread, hfinish, rfl⟩ := onThread_eq_some h
  unfold finish at hfinish
  split at hfinish
  · injection hfinish
  rename_i hengine
  have hstage : thread.entry.stage = .running := by
    show thread.point.stage = _
    rw [not_not.mp hengine]
    rfl
  rw [← some.inj hfinish, roster_withThread]
  have hstep : Roster.Step true worker.roster _ :=
    .finish i thread.entry ⟨thread.invocationId, exitClass, failure, body⟩
      (entries_getElem? hthread) hstage rfl
  exact .of_step hstep rfl

lemma roster_register (hthread : worker.threads[i]? = some thread)
    (hpoint : thread.point = .counted request) :
    (worker.register i thread request).roster = worker.roster := by
  have hstage : thread.point.stage = .running := by rw [hpoint]; rfl
  unfold register
  split
  · exact roster_withThread_same _ hthread (entry_of_running ⟨rfl, rfl, rfl⟩ hstage rfl)
  · have hsame := roster_withThread_same { thread with point := .registered request }
      hthread (entry_of_running ⟨rfl, rfl, rfl⟩ hstage rfl)
    rw [← hsame]
    rfl

lemma roster_send {writes : Bool} (hthread : worker.threads[i]? = some thread)
    (hpoint : thread.point = .registered request) :
    (worker.send fits i thread request writes).roster = worker.roster := by
  have hstage : thread.point.stage = .running := by rw [hpoint]; rfl
  unfold send
  split
  · rename_i after hwrite
    obtain ⟨-, written, -, rfl⟩ := write_eq_some hwrite
    have hother := roster_output_other worker (.request ⟨i, thread.calls⟩) written rfl
    rw [← hother]
    exact roster_withThread_same _ hthread (entry_of_running ⟨rfl, rfl, rfl⟩ hstage rfl)
  · exact roster_withThread_same _ hthread (entry_of_running ⟨rfl, rfl, rfl⟩ hstage rfl)

/-- The result of an invocation is written, or lost. -/
lemma follows_answer {result : ScriptResult} {writes : Bool}
    (hthread : worker.threads[i]? = some thread) (hpoint : thread.point = .locked result)
    (hsucceeds : succeeds → writes = true ∧ fits (resultFrame thread.frameId result) = true) :
    Follows succeeds event worker.roster
      (((worker.write fits (.result thread.number) (resultFrame thread.frameId result)
        writes).getD worker).withThread i { thread with point := .written }).roster := by
  have hentry := entries_getElem? hthread
  have hstage : thread.entry.stage = .locked result := by
    show thread.point.stage = _
    rw [hpoint]
    rfl
  have hnames := names_resultFrame thread.frameId result
  cases hwrite : worker.write fits (.result thread.number) (resultFrame thread.frameId result)
      writes with
  | some after =>
    obtain ⟨-, written, hwritten, rfl⟩ := write_eq_some hwrite
    have hstep : Roster.Step true worker.roster _ :=
      .answer i thread.entry result written hentry hstage (names_encoded hwritten hnames)
    refine .of_step (hstep.congr ?_) rfl
    rw [getD_some, roster_withThread]
    unfold Roster.withEntry Roster.record roster
    rw [filterMap_append]
    rfl
  | none =>
    have hstep : Roster.Step false worker.roster _ :=
      .answer i thread.entry result (resultFrame thread.frameId result) hentry hstage hnames
    refine ⟨⟨false, fun htrue => ?_, .inr (hstep.congr ?_)⟩, .inl ?_⟩
    · obtain ⟨hwrites, hfits⟩ := hsucceeds htrue
      rw [← hwrites]
      exact (write_eq_none hwrite hfits).symm
    · rw [getD_none, roster_withThread]
      unfold Roster.withEntry Roster.record
      rw [if_neg Bool.false_ne_true, append_nil]
      rfl
    · rfl

/-- An event of a thread is a step of the roster, or none. -/
lemma follows_advance {writes : Bool} (hthread : worker.threads[i]? = some thread)
    (h : worker.advanceThread fits i thread writes = some worker')
    (hsucceeds : succeeds → worker.Succeeds fits (.advance i writes)) :
    Follows succeeds event worker.roster worker'.roster := by
  have hentry := entries_getElem? hthread
  unfold advanceThread at h
  split at h
  · rename_i request hpoint
    rw [← some.inj h]
    exact .of_eq (roster_register hthread hpoint)
  · rename_i request hpoint
    rw [← some.inj h]
    exact .of_eq (roster_send hthread hpoint)
  · rename_i error hpoint
    rw [← some.inj h]
    have hsame := roster_withThread_same (thread.returned (.error error)) hthread
      (entry_of_running ⟨rfl, rfl, rfl⟩ (by rw [hpoint]; rfl) rfl)
    exact .of_eq hsame
  · rename_i result hpoint
    split at h
    · injection h
    rename_i hlocked
    rw [← some.inj h]
    have hstep : Roster.Step true worker.roster _ :=
      .lock i thread.entry result hentry (by show thread.point.stage = _; rw [hpoint]; rfl)
        (Bool.eq_false_iff.mpr hlocked)
    refine .of_step (hstep.congr ?_) rfl
    unfold roster withThread Roster.withEntry
    rw [map_set]
    rfl
  · rename_i result hpoint
    rw [← some.inj h]
    refine follows_answer hthread hpoint fun htrue => ?_
    obtain ⟨hwrites, hfits⟩ := hsucceeds htrue
    unfold resultFits at hfits
    dsimp only at hfits
    rw [hthread, all_some, hpoint] at hfits
    exact ⟨hwrites, hfits⟩
  · rename_i hpoint
    rw [← some.inj h]
    have hsame := roster_withThread_same { thread with point := .completed } hthread
      (by unfold Thread.entry; rw [hpoint]; rfl)
    exact .of_eq hsame
  · rename_i hpoint
    rw [← some.inj h]
    have hstep : Roster.Step true worker.roster _ :=
      .release i thread.entry hentry (by show thread.point.stage = _; rw [hpoint]; rfl)
    refine .of_step (hstep.congr ?_) rfl
    unfold roster withThread Roster.withEntry
    rw [map_set]
    rfl
  all_goals injection h

/-- An event of the worker is a step of its roster, or does not concern it. -/
theorem roster_step (h : worker.step fits event = some worker') :
    Follows (worker.Succeeds fits event) event worker.roster worker'.roster := by
  cases event with
  | read input => exact follows_read h
  | reader writes => exact follows_reader h fun hsucceeds => hsucceeds
  | call i request => exact follows_onThread (fun _ _ => entry_call) h
  | finish i exitClass failure body => exact follows_finish h
  | receive i => exact follows_onThread (fun _ _ => entry_receive) h
  | timeout i expired => exact follows_onThread (fun _ _ => entry_timeout) h
  | disconnected i => exact follows_onThread (fun _ _ => entry_disconnected) h
  | advance i writes =>
    obtain ⟨thread, hthread, hadvance⟩ := bind_eq_some_iff.mp h
    exact follows_advance hthread hadvance fun hsucceeds => hsucceeds

lemma orderly_step (horderly : worker.roster.Orderly) (h : worker.step fits event = some worker') :
    worker'.roster.Orderly := by
  obtain ⟨⟨written, -, hsame | hstep⟩, -⟩ := roster_step h
  · rw [hsame]
    exact horderly
  · exact horderly.step hstep

lemma answered_step (horderly : worker.roster.Orderly) (hanswered : worker.roster.Answered)
    (hsucceeds : worker.Succeeds fits event) (h : worker.step fits event = some worker') : worker'.roster.Answered := by
  obtain ⟨⟨written, hwritten, hsame | hstep⟩, -⟩ := roster_step h
  · rw [hsame]
    exact hanswered
  · rw [hwritten hsucceeds] at hstep
    exact hanswered.step horderly hstep

/-- Of the threads that have not ended there is one, and its invocation is active. -/
lemma active_of_live (horderly : worker.roster.Orderly)
    (hthread : worker.threads[i]? = some thread) (hlive : thread.point ≠ .done) :
    worker.active = some (thread.invocationId, i) := by
  refine horderly.alone i thread.entry (entries_getElem? hthread) fun hdone => hlive ?_
  have hstage : thread.point.stage = .done := hdone
  cases hpoint : thread.point with
  | done => rfl
  | _ =>
    rw [hpoint] at hstage
    injection hstage

end FramedWorker

end Agenterm.Worker
