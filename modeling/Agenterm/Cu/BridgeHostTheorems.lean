import Agenterm.Cu.BridgeHost
import Agenterm.Lib.Throughout

/-!
# The host stays paired with the extension

What the ledger remembers holds along every run (`recorded_run`): an identity is written once, and
an answer that was given is given again. That the queue holds nothing but the response to the
request that waits (`Abreast`) is lost when a response comes after its wait, since responses are
matched by their order alone: the next request gets the late one.
-/

namespace Agenterm.Cu.BrowserBridge

open Std Lib

variable {bridge : Bridge}

/-! ## What the ledger does -/

variable {digest : Vector UInt8 32} {host : Host} {ledger : RequestLedger} {request : BridgeRequest}
  {response : BridgeResponse}

lemma outset_complete {sent : Bool} (hvalid : request.validate bridge = .ok ())
    (h : ledger[request.id]? = some (.complete digest response)) :
    outset bridge ledger request sent =
      (.answered (if digest = bridge.digest request then .ok response
        else .error "browser_bridge_request_conflict"), ledger) := by
  by_cases hsame : digest = bridge.digest request
  · simp only [outset, hvalid, RequestLedger.admitRequest, h, if_pos hsame]
  · simp only [outset, hvalid, RequestLedger.admitRequest, h, if_neg hsame]

lemma outset_reserved (sent : Bool) (hvalid : request.validate bridge = .ok ())
    (h : ledger[request.id]? = some (.reserved digest)) :
    ∃ code, outset bridge ledger request sent = (.answered (.error code), ledger) := by
  by_cases hsame : digest = bridge.digest request
  · exact ⟨"browser_bridge_request_uncertain",
      by simp only [outset, hvalid, RequestLedger.admitRequest, h, if_pos hsame]⟩
  · exact ⟨"browser_bridge_request_conflict",
      by simp only [outset, hvalid, RequestLedger.admitRequest, h, if_neg hsame]⟩

/-- A new identity is reserved before it is written, and stays so when it cannot be written. -/
lemma outset_none (sent : Bool) (hvalid : request.validate bridge = .ok ())
    (h : ledger[request.id]? = none) :
    (∃ code, outset bridge ledger request sent = (.answered (.error code), ledger)) ∨
      ∃ outcome, outset bridge ledger request sent =
          (outcome, ledger.insert request.id (.reserved (bridge.digest request))) ∧
        (outcome = .written ∨ ∃ code, outcome = .answered (.error code)) := by
  by_cases hfull : requestLedgerMaxEntries ≤ ledger.size
  · exact .inl ⟨"browser_bridge_request_ledger_full",
      by simp only [outset, hvalid, RequestLedger.admitRequest, h, if_pos hfull]⟩
  · right
    simp only [outset, hvalid, RequestLedger.admitRequest, h, if_neg hfull]
    by_cases hlarge : requestMaxBytes < bridge.requestBytes request
    · exact ⟨_, if_pos hlarge, .inr ⟨_, rfl⟩⟩
    · rw [if_neg hlarge]
      cases sent with
      | true => exact ⟨_, rfl, .inl rfl⟩
      | false => exact ⟨_, rfl, .inr ⟨_, rfl⟩⟩

lemma complete_eq_some {ledger' : RequestLedger}
    (hreserved : ledger[request.id]? = some (.reserved digest))
    (h : ledger.complete request response = some ledger') :
    ledger' = ledger.insert request.id (.complete digest response) := by
  simp only [RequestLedger.complete, hreserved, Option.some.injEq] at h
  exact h.symm

/-! ## What the ledger remembers -/

/-- A later answer to the identity of a completed request. -/
def Repeats (bridge : Bridge) (a b : Answer) : Prop :=
  ∀ response, a.result = .ok response → b.request.id = a.request.id →
    b.result = if bridge.digest a.request = bridge.digest b.request then .ok response
      else .error "browser_bridge_request_conflict"

structure Recorded (bridge : Bridge) (host : Host) : Prop where
  once : (host.written.map BridgeRequest.id).Nodup
  held : ∀ request ∈ host.written, host.ledger[request.id]? ≠ none
  reserved : ∀ request, host.phase = .waiting request →
    host.ledger[request.id]? = some (.reserved (bridge.digest request))
  completed : ∀ a ∈ host.answers, ∀ response, a.result = .ok response →
    host.ledger[a.request.id]? = some (.complete (bridge.digest a.request) response)
  repeats : host.answers.Pairwise (Repeats bridge)

namespace Recorded

variable {host host' : Host}

/-- A step that leaves the ledger and the history alone. -/
lemma congr (h : Recorded bridge host) (hwritten : host'.written = host.written)
    (hledger : host'.ledger = host.ledger) (hanswers : host'.answers = host.answers)
    (hphase : ∀ request, host'.phase = .waiting request → host.phase = .waiting request) :
    Recorded bridge host' := by
  refine ⟨?_, ?_, ?_, ?_, ?_⟩
  · rw [hwritten]
    exact h.once
  · rw [hwritten, hledger]
    exact h.held
  · intro request hrequest
    rw [hledger]
    exact h.reserved request (hphase request hrequest)
  · rw [hanswers, hledger]
    exact h.completed
  · rw [hanswers]
    exact h.repeats

lemma answer_phase (host : Host) (request : BridgeRequest) (frame : Option Nat)
    (result : Except String BridgeResponse) (writeFrame : Except String Unit)
    (waiting : BridgeRequest) :
    (host.answer request frame result writeFrame).phase ≠ .waiting waiting := by
  cases writeFrame <;> exact nofun

/-- An answer is recorded, with the ledger that goes with it. -/
lemma answer (h : Recorded bridge host) {frame : Option Nat}
    {result : Except String BridgeResponse} {writeFrame : Except String Unit}
    (hheld : ∀ id : String, host.ledger[id]? ≠ none → ledger[id]? ≠ none)
    (hkept : ∀ (id : String) digest response,
      host.ledger[id]? = some (.complete digest response) →
      ledger[id]? = some (.complete digest response))
    (hcomplete : ∀ response, result = .ok response →
      ledger[request.id]? = some (.complete (bridge.digest request) response))
    (hrepeats : ∀ digest response,
      host.ledger[request.id]? = some (.complete digest response) →
      result = if digest = bridge.digest request then .ok response
        else .error "browser_bridge_request_conflict") :
    Recorded bridge ({ host with ledger }.answer request frame result writeFrame) where
  once := h.once
  held := fun r hr => hheld r.id (h.held r hr)
  reserved := fun r hr => absurd hr (answer_phase _ _ _ _ _ _)
  completed := by
    intro a ha response hresult
    rcases List.mem_append.mp ha with hold | hnew
    · exact hkept _ _ _ (h.completed a hold response hresult)
    · obtain rfl := List.mem_singleton.mp hnew
      exact hcomplete response hresult
  repeats := by
    refine List.pairwise_append.mpr ⟨h.repeats, List.pairwise_singleton _ _, ?_⟩
    intro a ha b hb
    obtain rfl := List.mem_singleton.mp hb
    intro response hresult hid
    -- the entry of the earlier answer decides the later one
    refine hrepeats (bridge.digest a.request) response ?_
    have hentry := h.completed a ha response hresult
    rwa [← hid] at hentry

/-- Reserving a new identity loses no entry. -/
lemma insert_held {id key : String} {entry : LedgerEntry} (h : ledger[key]? ≠ none) :
    (ledger.insert id entry)[key]? ≠ none := by
  by_cases hkey : id = key
  · rw [hkey, TreeMap.getElem?_insert_self]
    exact nofun
  · rwa [getElem?_insert_of_ne hkey]

lemma insert_kept {id key : String} {entry : LedgerEntry}
    (hnew : ∀ digest response, ledger[id]? ≠ some (.complete digest response))
    (h : ledger[key]? = some (.complete digest response)) :
    (ledger.insert id entry)[key]? = some (.complete digest response) := by
  have hne : id ≠ key := fun hkey => hnew digest response (hkey ▸ h)
  rwa [getElem?_insert_of_ne hne]

lemma serve (h : Recorded bridge host) (request : BridgeRequest) (sent : Bool)
    (writeFrame : Except String Unit) :
    Recorded bridge (host.serve bridge request sent writeFrame) := by
  unfold Host.serve
  cases hvalid : request.validate bridge with
  | error code => exact h.congr rfl rfl rfl nofun
  | ok u =>
    match hentry : host.ledger[request.id]? with
    | some (.complete digest response) =>
      -- a repeat of a completed request
      rw [outset_complete hvalid hentry]
      refine h.answer (fun _ => id) (fun _ _ _ => id) ?_ ?_
      · intro response' hresult
        split at hresult
        · rename_i hsame
          rw [hentry, ← hsame, Except.ok.inj hresult]
        · cases hresult
      · intro digest' response' hentry'
        rw [hentry] at hentry'
        injection hentry' with hentry'
        injection hentry' with hdigest hresponse
        rw [hdigest, hresponse]
    | some (.reserved digest) =>
      obtain ⟨code, hcode⟩ := outset_reserved sent hvalid hentry
      rw [hcode]
      refine h.answer (fun _ => id) (fun _ _ _ => id) nofun ?_
      intro digest' response' hentry'
      rw [hentry] at hentry'
      cases hentry'
    | none =>
      have hnew : ∀ digest response, host.ledger[request.id]? ≠ some (.complete digest response) :=
        fun _ _ hsome => absurd (hentry.symm.trans hsome) nofun
      rcases outset_none sent hvalid hentry with ⟨code, hcode⟩ | ⟨outcome, hout, hcases⟩
      · rw [hcode]
        exact h.answer (fun _ => id) (fun _ _ _ => id) nofun fun _ _ hsome => absurd hsome (hnew _ _)
      · rw [hout]
        rcases hcases with rfl | ⟨code, rfl⟩
        · -- the request is written
          refine ⟨?_, ?_, ?_, ?_, h.repeats⟩
          · show ((host.written ++ [request]).map BridgeRequest.id).Nodup
            rw [List.map_append, List.map_singleton, List.nodup_append]
            refine ⟨h.once, by simp, ?_⟩
            intro id hid id' hid' heq
            obtain ⟨r, hr, rfl⟩ := List.mem_map.mp hid
            obtain rfl := List.mem_singleton.mp hid'
            exact h.held r hr (heq ▸ hentry)
          · intro r hr
            rcases List.mem_append.mp hr with hold | hlast
            · exact insert_held (h.held r hold)
            · obtain rfl := List.mem_singleton.mp hlast
              show (host.ledger.insert r.id _)[r.id]? ≠ none
              rw [TreeMap.getElem?_insert_self]
              exact nofun
          · intro r hr
            injection hr with hr
            subst hr
            exact TreeMap.getElem?_insert_self
          · intro a ha response hresult
            exact insert_kept hnew (h.completed a ha response hresult)
        · exact h.answer (fun _ => insert_held) (fun _ _ _ => insert_kept hnew) nofun
            fun _ _ hsome => absurd hsome (hnew _ _)

lemma receive (h : Recorded bridge host) (hphase : host.phase = .waiting request)
    {message : Option Message} {writeFrame : Except String Unit}
    (hstep : host.receive bridge request message writeFrame = some host') :
    Recorded bridge host' := by
  have hreserved := h.reserved request hphase
  have hnew : ∀ digest response, host.ledger[request.id]? ≠ some (.complete digest response) :=
    fun _ _ hsome => absurd (hreserved.symm.trans hsome) nofun
  unfold Host.receive at hstep
  split at hstep
  · injection hstep with hstep
    subst hstep
    exact h.answer (fun _ => id) (fun _ _ _ => id) nofun fun _ _ hsome => absurd hsome (hnew _ _)
  · rename_i response _
    rw [Option.map_eq_some_iff] at hstep
    obtain ⟨ledger, hledger, rfl⟩ := hstep
    rw [complete_eq_some hreserved hledger]
    refine h.answer (fun _ => insert_held) (fun _ _ _ => insert_kept hnew) ?_
      fun _ _ hsome => absurd hsome (hnew _ _)
    intro response' hresult
    rw [TreeMap.getElem?_insert_self, Except.ok.inj hresult]

/-- Every event keeps the record of what was written and answered. -/
lemma step (h : Recorded bridge host) {event : HostEvent}
    (hstep : host.step bridge event = some host') : Recorded bridge host' := by
  cases event with
  | turn =>
    simp only [Host.step] at hstep
    split at hstep
    · injection hstep with hstep
      subst hstep
      exact h.congr rfl rfl rfl fun request hrequest => by
        cases hterminal : host.terminal <;> simp [hterminal] at hrequest
    · cases hstep
  | acceptTimeout | unavailable =>
    simp only [Host.step] at hstep
    split at hstep
    · injection hstep with hstep
      subst hstep
      exact h.congr rfl rfl rfl nofun
    · cases hstep
  | request request sent writeFrame =>
    simp only [Host.step] at hstep
    split at hstep
    · injection hstep with hstep
      subst hstep
      exact h.serve request sent writeFrame
    · cases hstep
  | receive writeFrame =>
    simp only [Host.step] at hstep
    split at hstep
    · rename_i request message queue hphase hqueue
      have hrest : Recorded bridge { host with queue } := h.congr rfl rfl rfl fun _ => id
      exact hrest.receive hphase hstep
    · cases hstep
  | timeout writeFrame =>
    simp only [Host.step] at hstep
    split at hstep
    · rename_i request hphase hqueue
      exact h.receive hphase hstep
    · cases hstep
  | arrive message =>
    simp only [Host.step] at hstep
    split at hstep
    · cases hstep
    · injection hstep with hstep
      subst hstep
      unfold Host.arrive
      split
      · exact h.congr rfl rfl rfl fun _ => id
      · exact h.congr rfl rfl rfl fun _ => id
  | readFailed code =>
    simp only [Host.step] at hstep
    split at hstep
    · cases hstep
    · injection hstep with hstep
      subst hstep
      unfold Host.readFailed
      split
      · exact h.congr rfl rfl rfl fun _ => id
      · exact h.congr rfl rfl rfl fun _ => id

lemma start : Recorded bridge .start :=
  ⟨List.nodup_nil, nofun, nofun, nofun, List.Pairwise.nil⟩

end Recorded

/-- Whatever the extension does. -/
lemma recorded_run {events : List HostEvent}
    (hrun : exec (Host.step bridge) .start events = some host) : Recorded bridge host :=
  exec_invariant (fun _ _ _ h hstep => h.step hstep) .start hrun

/-! ## The conditions of a run -/

/-- The extension answers the frames in order, each with a valid response. -/
def Conforming (bridge : Bridge) (host : Host) : HostEvent → Prop
  | .arrive message => ∃ request response, host.written[host.read.length]? = some request ∧
      message = .response response ∧ response.validateFor bridge request = .ok ()
  | .readFailed _ => False
  | _ => True

/-- The request is answered without a wait for the extension. -/
def Host.answersAtOnce (bridge : Bridge) (host : Host) (request : BridgeRequest) (sent : Bool) :
    Bool :=
  match request.validate bridge, (outset bridge host.ledger request sent).1 with
  | .ok (), .answered _ => true
  | _, _ => false

/-- A response comes while its own request waits, and an answer can be written to the caller. -/
def Timely (bridge : Bridge) (host : Host) : HostEvent → Prop
  | .arrive _ => (∃ request, host.phase = .waiting request) ∧
      host.read.length + 1 = host.written.length
  | .request request sent writeFrame =>
      host.answersAtOnce bridge request sent = true → writeFrame = .ok ()
  | .receive writeFrame | .timeout writeFrame => writeFrame = .ok ()
  | _ => True

instance decidableConforming (bridge : Bridge) (host : Host) :
    ∀ event, Decidable (Conforming bridge host event)
  | .arrive (.response response) =>
    decidable_of_iff ((host.written[host.read.length]?.any fun request =>
        (response.validateFor bridge request).isOk) = true) <| by
      constructor
      · intro h
        obtain ⟨request, hrequest, hok⟩ := (Option.any_eq_true _ _).mp h
        cases hvalid : response.validateFor bridge request with
        | error code => simp [hvalid, Except.isOk, Except.toBool] at hok
        | ok u => exact ⟨request, response, hrequest, rfl, hvalid⟩
      · rintro ⟨request, _, hrequest, hresponse, hvalid⟩
        injection hresponse with hresponse
        subst hresponse
        simp [hrequest, hvalid, Except.isOk, Except.toBool]
  | .arrive .other | .arrive (.failed _) => isFalse fun ⟨_, _, _, h, _⟩ => by injection h
  | .readFailed _ => isFalse id
  | .turn | .acceptTimeout | .unavailable | .request .. | .receive _ | .timeout _ => isTrue trivial

instance decidableTimely (bridge : Bridge) (host : Host) :
    ∀ event, Decidable (Timely bridge host event)
  | .arrive _ =>
    match h : host.phase with
    | .waiting request =>
      decidable_of_iff (host.read.length + 1 = host.written.length)
        ⟨fun hlength => ⟨⟨request, h⟩, hlength⟩, fun htimely => htimely.2⟩
    | .looping | .accepting | .ended _ =>
      isFalse fun ⟨⟨_, hphase⟩, _⟩ => by rw [h] at hphase; injection hphase
  | .request _ _ (.ok ()) => isTrue fun _ => rfl
  | .request request sent (.error _) =>
    decidable_of_iff (host.answersAtOnce bridge request sent = false)
      ⟨fun hwaits h => absurd (hwaits.symm.trans h) nofun,
        fun htimely => Bool.eq_false_iff.mpr fun h => by injection htimely h⟩
  | .receive (.ok ()) | .timeout (.ok ()) => isTrue rfl
  | .receive (.error _) | .timeout (.error _) => isFalse fun h => by injection h
  | .turn | .acceptTimeout | .unavailable | .readFailed _ => isTrue trivial

/-! ## What the queue holds -/

/-- Nothing has come for the request that waits, or its response is what the queue holds. -/
def Owed (bridge : Bridge) (host : Host) (request : BridgeRequest) : Prop :=
  (host.queue = [] ∧ host.read.length < host.written.length) ∨
    ∃ response, host.queue = [.response response] ∧ host.read.length = host.written.length ∧
      host.read[host.written.length - 1]? = some (.response response) ∧
      response.validateFor bridge request = .ok ()

/-- The answer to the request of a frame is the response to this frame, if it came in time. -/
structure Settled (host : Host) (a : Answer) (frame : Nat) : Prop where
  request : host.written[frame]? = some a.request
  response : frame < a.seen →
    ∃ response, host.read[frame]? = some (.response response) ∧ a.result = .ok response
  timeout : a.seen ≤ frame → a.result = .error "browser_bridge_extension_read_failed"

structure Abreast (bridge : Bridge) (host : Host) : Prop where
  reading : host.terminal = false
  behind : host.read.length ≤ host.written.length
  idle : (∀ request, host.phase ≠ .waiting request) → host.queue = []
  waiting : ∀ request, host.phase = .waiting request →
    host.written[host.written.length - 1]? = some request ∧ Owed bridge host request
  seen : ∀ a ∈ host.answers, a.seen ≤ host.read.length
  settled : ∀ a ∈ host.answers, ∀ frame, a.frame = some frame → Settled host a frame
  alive : ∀ result, host.phase = .ended result →
    result = .error "browser_bridge_endpoint_unavailable"

namespace Abreast

variable {host host' : Host}

lemma start : Abreast bridge .start :=
  ⟨rfl, Nat.le_refl _, fun _ => rfl, nofun, nofun, nofun, nofun⟩

/-- A new phase in which no request waits. -/
lemma congr (h : Abreast bridge host) (hidle : host.queue = []) {phase : Phase}
    (hphase : ∀ request, phase ≠ .waiting request)
    (halive : ∀ result, phase = .ended result →
      result = .error "browser_bridge_endpoint_unavailable") :
    Abreast bridge { host with phase } :=
  ⟨h.reading, h.behind, fun _ => hidle, fun request hrequest => absurd hrequest (hphase request),
    h.seen, fun a ha frame hframe => ⟨(h.settled a ha frame hframe).request,
      (h.settled a ha frame hframe).response, (h.settled a ha frame hframe).timeout⟩, halive⟩

/-- An answer ends a wait, or there was none. -/
lemma answer (h : Abreast bridge host) (ledger : RequestLedger) (request : BridgeRequest)
    {frame : Option Nat} (result : Except String BridgeResponse)
    (hsettled : ∀ i, frame = some i →
      Settled host { request, frame, seen := host.read.length, result } i) :
    Abreast bridge ({ host with ledger, queue := [] }.answer request frame result (.ok ())) := by
  refine ⟨h.reading, h.behind, fun _ => rfl, nofun, ?_, ?_, nofun⟩
  · intro a ha
    rcases List.mem_append.mp ha with hold | hnew
    · exact h.seen a hold
    · rw [List.mem_singleton.mp hnew]
      exact Nat.le_refl _
  · intro a ha i hi
    rcases List.mem_append.mp ha with hold | hnew
    · have hs := h.settled a hold i hi
      exact ⟨hs.request, hs.response, hs.timeout⟩
    · obtain rfl := List.mem_singleton.mp hnew
      have hs := hsettled i hi
      exact ⟨hs.request, hs.response, hs.timeout⟩

lemma idle_of_phase (h : Abreast bridge host) {phase : Phase} (hphase : host.phase = phase)
    (hidle : ∀ request, phase ≠ .waiting request) : host.queue = [] :=
  h.idle fun request hrequest => hidle request (hphase.symm.trans hrequest)

/-- A frame that is written leaves the earlier answers as they are. -/
lemma settled_written {a : Answer} {frame : Nat} (h : Settled host a frame)
    (request : BridgeRequest) :
    Settled { host with written := host.written ++ [request] } a frame := by
  refine ⟨?_, h.response, h.timeout⟩
  obtain ⟨hlt, -⟩ := List.getElem?_eq_some_iff.mp h.request
  exact (List.getElem?_append_left hlt).trans h.request

/-- So does a frame that is read. -/
lemma settled_read {a : Answer} {frame : Nat} (h : Settled host a frame)
    (hseen : a.seen ≤ host.read.length) (message : Message) :
    Settled { host with read := host.read ++ [message] } a frame := by
  refine ⟨h.request, fun hlt => ?_, h.timeout⟩
  obtain ⟨response, hread, hresult⟩ := h.response hlt
  exact ⟨response, (List.getElem?_append_left (Nat.lt_of_lt_of_le hlt hseen)).trans hread, hresult⟩

lemma serve (h : Abreast bridge host) (hphase : host.phase = .accepting)
    (request : BridgeRequest) (sent : Bool) {writeFrame : Except String Unit}
    (hwrites : host.answersAtOnce bridge request sent = true → writeFrame = .ok ()) :
    Abreast bridge (host.serve bridge request sent writeFrame) := by
  have hqueue : host.queue = [] := h.idle_of_phase hphase nofun
  unfold Host.serve
  split
  · exact h.congr hqueue nofun nofun
  · rename_i hvalid
    split
    · rename_i result ledger hout
      obtain rfl := hwrites (by rw [Host.answersAtOnce, hvalid, hout])
      have hanswer := h.answer ledger request result (show ∀ i, none = some i → _ from nofun)
      rwa [← hqueue] at hanswer
    · refine ⟨h.reading, ?_, fun hidle => absurd rfl (hidle request), ?_, h.seen, ?_, nofun⟩
      · rw [List.length_append, List.length_singleton]
        exact Nat.le_succ_of_le h.behind
      · intro waiting hwaiting
        injection hwaiting with hwaiting
        subst hwaiting
        refine ⟨?_, .inl ⟨hqueue, ?_⟩⟩
        · show (host.written ++ [request])[(host.written ++ [request]).length - 1]? = some request
          rw [List.length_append, List.length_singleton, Nat.add_sub_cancel,
            List.getElem?_concat_length]
        · show host.read.length < (host.written ++ [request]).length
          rw [List.length_append, List.length_singleton]
          exact Nat.lt_succ_of_le h.behind
      · intro a ha frame hframe
        have hs := settled_written (h.settled a ha frame hframe) request
        exact ⟨hs.request, hs.response, hs.timeout⟩

/-- The last frame was written. -/
lemma written_pos (h : Abreast bridge host) (hphase : host.phase = .waiting request) :
    0 < host.written.length := by
  obtain ⟨hlt, -⟩ := List.getElem?_eq_some_iff.mp (h.waiting request hphase).1
  omega

lemma timeout (h : Abreast bridge host) (hphase : host.phase = .waiting request)
    (hqueue : host.queue = []) (hstep : host.receive bridge request none (.ok ()) = some host') :
    Abreast bridge host' := by
  obtain ⟨hwritten, howed⟩ := h.waiting request hphase
  have hbehind : host.read.length < host.written.length := by
    rcases howed with ⟨-, hlt⟩ | ⟨response, hfull, -⟩
    · exact hlt
    · exact absurd (hqueue.symm.trans hfull) nofun
  simp only [Host.receive, Option.elim_none, Option.some.injEq] at hstep
  subst hstep
  have hanswer := h.answer host.ledger request (.error "browser_bridge_extension_read_failed")
    fun i (hi : some (host.written.length - 1) = some i) => by
      cases hi
      refine ⟨hwritten, fun hlt => ?_, fun _ => rfl⟩
      -- the response of the request was not read
      exact absurd hlt (by show ¬ host.written.length - 1 < host.read.length; omega)
  rwa [← hqueue] at hanswer

/-- What `receive` finds when the response of the request that waits was read. -/
lemma owed_of_read (h : Abreast bridge host) (hphase : host.phase = .waiting request)
    (hread : host.written.length ≤ host.read.length) :
    ∃ response, host.queue = [.response response] ∧
      host.read[host.written.length - 1]? = some (.response response) ∧
      response.validateFor bridge request = .ok () := by
  rcases (h.waiting request hphase).2 with ⟨-, hlt⟩ | ⟨response, hqueue, -, hlast, hvalid⟩
  · exact absurd hread (Nat.not_le_of_lt hlt)
  · exact ⟨response, hqueue, hlast, hvalid⟩

lemma accepted_response (hvalid : response.validateFor bridge request = .ok ()) :
    accepted bridge request (.response response) = .ok response := by
  rw [accepted, hvalid]
  rfl

lemma complete_of_reserved (hreserved : ledger[request.id]? = some (.reserved digest)) :
    ledger.complete request response =
      some (ledger.insert request.id (.complete digest response)) := by
  simp only [RequestLedger.complete, hreserved]

/-- The wait ends with the response that was read. -/
lemma receive_eq (h : Recorded bridge host) (hphase : host.phase = .waiting request)
    (hvalid : response.validateFor bridge request = .ok ()) (queue : List Message)
    (writeFrame : Except String Unit) :
    { host with queue }.receive bridge request (some (.response response)) writeFrame =
      some ({ host with
        queue
        ledger := host.ledger.insert request.id
          (.complete (bridge.digest request) response) }.answer request
            (some (host.written.length - 1)) (.ok response) writeFrame) := by
  simp only [Host.receive, Option.elim_some, accepted_response hvalid,
    complete_of_reserved (h.reserved request hphase), Option.map_some]

lemma receive (h : Abreast bridge host) (hrecorded : Recorded bridge host)
    (hphase : host.phase = .waiting request) {message : Message} {queue : List Message}
    (hqueue : host.queue = message :: queue)
    (hstep : { host with queue }.receive bridge request (some message) (.ok ()) = some host') :
    Abreast bridge host' := by
  obtain ⟨hwritten, howed⟩ := h.waiting request hphase
  have hpos := h.written_pos hphase
  rcases howed with ⟨hnil, -⟩ | ⟨response, hone, hlength, hlast, hvalid⟩
  · exact absurd (hqueue.symm.trans hnil) nofun
  · rw [hqueue] at hone
    injection hone with hmessage hrest
    subst hmessage hrest
    rw [receive_eq hrecorded hphase hvalid] at hstep
    cases hstep
    refine h.answer _ _ _ fun i hi => ?_
    cases hi
    refine ⟨hwritten, fun _ => ⟨response, hlast, rfl⟩, fun hle => ?_⟩
    exact absurd hle (by show ¬ host.read.length ≤ host.written.length - 1; omega)

lemma arrive (h : Abreast bridge host) (hphase : host.phase = .waiting request)
    (hlength : host.read.length + 1 = host.written.length)
    (hvalid : response.validateFor bridge request = .ok ()) :
    Abreast bridge (host.arrive (.response response)) := by
  obtain ⟨hwritten, howed⟩ := h.waiting request hphase
  have hqueue : host.queue = [] := by
    rcases howed with ⟨hnil, -⟩ | ⟨-, -, heq, -⟩
    · exact hnil
    · omega
  have hread : (host.read ++ [Message.response response]).length = host.written.length := by
    rw [List.length_append, List.length_singleton, hlength]
  rw [Host.arrive, hqueue, if_pos (by decide)]
  refine ⟨h.reading, Nat.le_of_eq hread, fun hidle => absurd hphase (hidle request), ?_, ?_, ?_,
    fun result hresult => absurd (hphase.symm.trans hresult) nofun⟩
  · intro waiting hwaiting
    have hsame : waiting = request := by
      have heq := hwaiting.symm.trans hphase
      injection heq
    subst hsame
    refine ⟨hwritten, .inr ⟨response, rfl, hread, ?_, hvalid⟩⟩
    show (host.read ++ [Message.response response])[host.written.length - 1]? = _
    rw [← hlength, Nat.add_sub_cancel, List.getElem?_concat_length]
  · intro a ha
    have hseen := h.seen a ha
    show a.seen ≤ (host.read ++ [Message.response response]).length
    omega
  · intro a ha frame hframe
    have hs := settled_read (h.settled a ha frame hframe) (h.seen a ha) (.response response)
    exact ⟨hs.request, hs.response, hs.timeout⟩

/-- A timely event of a conforming extension leaves nothing in the queue for the next request. -/
lemma step (h : Abreast bridge host) (hrecorded : Recorded bridge host) {event : HostEvent}
    (hconforming : Conforming bridge host event) (htimely : Timely bridge host event)
    (hstep : host.step bridge event = some host') : Abreast bridge host' := by
  cases event with
  | turn =>
    simp only [Host.step] at hstep
    split at hstep
    · rename_i hphase
      injection hstep with hstep
      subst hstep
      rw [if_neg (by simp [h.reading])]
      exact h.congr (h.idle_of_phase hphase nofun) nofun nofun
    · cases hstep
  | acceptTimeout =>
    simp only [Host.step] at hstep
    split at hstep
    · rename_i hphase
      injection hstep with hstep
      subst hstep
      exact h.congr (h.idle_of_phase hphase nofun) nofun nofun
    · cases hstep
  | unavailable =>
    simp only [Host.step] at hstep
    split at hstep
    · rename_i hphase
      injection hstep with hstep
      subst hstep
      refine h.congr (h.idle_of_phase hphase nofun) ?_ ?_
      · exact nofun
      · intro result hresult
        injection hresult with hresult
        exact hresult.symm
    · cases hstep
  | request request sent writeFrame =>
    simp only [Host.step] at hstep
    split at hstep
    · rename_i hphase
      injection hstep with hstep
      subst hstep
      exact h.serve hphase request sent htimely
    · cases hstep
  | receive writeFrame =>
    obtain rfl : writeFrame = .ok () := htimely
    simp only [Host.step] at hstep
    split at hstep
    · rename_i hphase hqueue
      exact h.receive hrecorded hphase hqueue hstep
    · cases hstep
  | timeout writeFrame =>
    obtain rfl : writeFrame = .ok () := htimely
    simp only [Host.step] at hstep
    split at hstep
    · rename_i hphase hqueue
      exact h.timeout hphase hqueue hstep
    · cases hstep
  | arrive message =>
    simp only [Host.step, h.reading, if_neg Bool.false_ne_true] at hstep
    cases hstep
    obtain ⟨request, response, howner, rfl, hvalid⟩ := hconforming
    obtain ⟨⟨waiting, hphase⟩, hlength⟩ := htimely
    -- the frame that is answered is the one of the request that waits
    have hsame : waiting = request := by
      have hlast := (h.waiting waiting hphase).1
      rw [← hlength, Nat.add_sub_cancel] at hlast
      exact Option.some.inj (hlast.symm.trans howner)
    subst hsame
    exact h.arrive hphase hlength hvalid
  | readFailed code => cases hconforming

end Abreast

/-- A run of a conforming extension in which every response comes in time. -/
lemma abreast_run {events : List HostEvent}
    (hrun : exec (Host.step bridge) .start events = some host)
    (hconforming : Along (Host.step bridge) (Conforming bridge) .start events)
    (htimely : Along (Host.step bridge) (Timely bridge) .start events) : Abreast bridge host := by
  have hboth : Recorded bridge host ∧ Abreast bridge host := by
    refine exec_invariant_along (P := fun host => Recorded bridge host ∧ Abreast bridge host)
      ?_ ⟨.start, .start⟩ (along_and hconforming htimely) hrun
    intro s event s' h hok hstep
    exact ⟨h.1.step hstep, h.2.step h.1 hok.1 hok.2 hstep⟩
  exact hboth.2

/-! ## Host and extension stay paired -/

/-- What a caller and the extension see of the host. -/
structure Paired (bridge : Bridge) (host : Host) : Prop where
  /-- No identity is written twice. -/
  once : (host.written.map BridgeRequest.id).Nodup
  /-- A repeat of a completed request gets its response, and other contents a conflict. -/
  repeats : host.answers.Pairwise fun a b => ∀ response, a.result = .ok response →
    b.request.id = a.request.id →
      (b.request = a.request → b.reply = response) ∧
      (b.request ≠ a.request → b.reply = refusal b.request "browser_bridge_request_conflict")
  /-- A request whose response came before its wait ended is answered with it. -/
  answered : ∀ a ∈ host.answers, ∀ frame, a.frame = some frame → frame < a.seen →
    ∃ response, host.read[frame]? = some (.response response) ∧ a.reply = response
  /-- Nothing but its own time makes a written request fail. -/
  timed : ∀ a ∈ host.answers, ∀ frame, a.frame = some frame → a.seen ≤ frame →
    a.reply = refusal a.request "browser_bridge_extension_read_failed"
  /-- A request whose response is there waits no longer, and gets it. -/
  served : ∀ request, host.phase = .waiting request → host.written.length ≤ host.read.length →
    ∃ response, host.read[host.written.length - 1]? = some (.response response) ∧
      ∀ writeFrame, host.step bridge (.timeout writeFrame) = none ∧
        ∃ host' a, host.step bridge (.receive writeFrame) = some host' ∧
          host'.answers = host.answers ++ [a] ∧ a.request = request ∧ a.reply = response
  alive : ∀ result, host.phase = .ended result →
    result = .error "browser_bridge_endpoint_unavailable"

/-- Requests of one digest are the same request. -/
def CollisionFree (bridge : Bridge) (host : Host) : Prop :=
  ∀ a ∈ host.answers, ∀ b ∈ host.answers,
    bridge.digest a.request = bridge.digest b.request → a.request = b.request

lemma repeats_of_collisionFree (h : Recorded bridge host) (hdigest : CollisionFree bridge host) :
    host.answers.Pairwise fun a b => ∀ response, a.result = .ok response →
      b.request.id = a.request.id →
        (b.request = a.request → b.reply = response) ∧
        (b.request ≠ a.request →
          b.reply = refusal b.request "browser_bridge_request_conflict") := by
  refine List.Pairwise.imp_of_mem ?_ h.repeats
  intro a b ha hb hrepeats response hresult hid
  have hb' := hrepeats response hresult hid
  constructor
  · intro hsame
    rw [hsame, if_pos rfl] at hb'
    rw [Answer.reply, hb']
  · intro hother
    rw [if_neg fun hcollision => hother (hdigest a ha b hb hcollision).symm] at hb'
    rw [Answer.reply, hb']

theorem paired_of_timely (bridge : Bridge) {events : List HostEvent} {host : Host}
    (hrun : exec (Host.step bridge) .start events = some host)
    (hconforming : Along (Host.step bridge) (Conforming bridge) .start events)
    (hdigest : CollisionFree bridge host)
    (htimely : Along (Host.step bridge) (Timely bridge) .start events) :
    Paired bridge host := by
  have hrecorded := recorded_run hrun
  have habreast := abreast_run hrun hconforming htimely
  refine ⟨hrecorded.once, repeats_of_collisionFree hrecorded hdigest, ?_, ?_, ?_, habreast.alive⟩
  · intro a ha frame hframe hseen
    obtain ⟨response, hread, hresult⟩ := (habreast.settled a ha frame hframe).response hseen
    exact ⟨response, hread, by rw [Answer.reply, hresult]⟩
  · intro a ha frame hframe hseen
    rw [Answer.reply, (habreast.settled a ha frame hframe).timeout hseen]
  · intro request hphase hread
    obtain ⟨response, hqueue, hlast, hvalid⟩ := habreast.owed_of_read hphase hread
    refine ⟨response, hlast, fun writeFrame => ⟨?_, ?_⟩⟩
    · simp only [Host.step, hphase, hqueue]
    · simp only [Host.step, hphase, hqueue]
      exact ⟨_, _, Abreast.receive_eq hrecorded hphase hvalid [] writeFrame, rfl, rfl, rfl⟩

/-- A bridge whose commands accept everything, with a digest that tells lengths of identities. -/
def trusting : Bridge where
  digest := fun request => Vector.replicate 32 (UInt8.ofNat request.id.utf8ByteSize)
  requestBytes := fun _ => 64
  validateArgs := fun _ => .ok ()
  validateOutcome := fun _ _ => .ok ()

def windowsRequest (id : String) : BridgeRequest where
  protocol := protocolVersion
  id := id
  command := "windows"
  args := []

def windowsResponse (id : String) : BridgeResponse where
  protocol := protocolVersion
  id := id
  ok := true
  result := some (.array [])
  error := none

def exchange (id : String) : List HostEvent :=
  [.turn, .request (windowsRequest id) true (.ok ()), .arrive (.response (windowsResponse id)),
    .receive (.ok ())]

lemma collisionFree_of_requests {r r' : BridgeRequest}
    (hrequests : host.answers.map Answer.request = [r, r'])
    (hne : bridge.digest r ≠ bridge.digest r') : CollisionFree bridge host := by
  have hmem : ∀ c ∈ host.answers, c.request = r ∨ c.request = r' :=
    fun c hc => List.mem_pair.mp (hrequests ▸ List.mem_map_of_mem hc)
  intro a ha b hb hdigest
  rcases hmem a ha with h | h <;> rcases hmem b hb with h' | h'
  · rw [h, h']
  · exact absurd (h ▸ h' ▸ hdigest) hne
  · exact absurd (h ▸ h' ▸ hdigest).symm hne
  · rw [h, h']

theorem paired_of_timely_exchanges :
    ∃ host, exec (Host.step trusting) .start (exchange "a" ++ exchange "bb") = some host ∧
      Paired trusting host := by
  let host := (exec (Host.step trusting) .start (exchange "a" ++ exchange "bb")).getD .start
  have hrun : exec (Host.step trusting) .start (exchange "a" ++ exchange "bb") = some host := rfl
  have hdigest : CollisionFree trusting host :=
    collisionFree_of_requests (r := windowsRequest "a") rfl (by decide)
  exact ⟨host, hrun,
    paired_of_timely trusting hrun (by decide) hdigest (by decide)⟩

/-- The first request times out, and its response comes before the next request. -/
def lateRun : List HostEvent :=
  [.turn, .request (windowsRequest "a") true (.ok ()), .timeout (.ok ()),
    .arrive (.response (windowsResponse "a"))] ++ exchange "bb"

/-- The late response is taken for the answer to the next request, which fails. -/
theorem late_response_unpairs :
    ∃ host, exec (Host.step trusting) .start lateRun = some host ∧
      Along (Host.step trusting) (Conforming trusting) .start lateRun ∧
      CollisionFree trusting host ∧ ¬ Paired trusting host := by
  let host := (exec (Host.step trusting) .start lateRun).getD .start
  have hrun : exec (Host.step trusting) .start lateRun = some host := rfl
  have hdigest : CollisionFree trusting host :=
    collisionFree_of_requests (r := windowsRequest "a") rfl (by decide)
  refine ⟨host, hrun, by decide, hdigest, fun h => ?_⟩
  have hanswer : host.answers[1]? = some ⟨windowsRequest "bb", some 1, 2,
      .error "browser_bridge_response_identity_mismatch"⟩ := rfl
  obtain ⟨response, hread, hreply⟩ :=
    h.answered _ (List.mem_of_getElem? hanswer) 1 rfl (by decide)
  -- its own response was there
  have hown : host.read[1]? = some (.response (windowsResponse "bb")) := rfl
  rw [hown] at hread
  injection hread with hread
  injection hread with hread
  rw [← hread] at hreply
  exact absurd (congrArg BridgeResponse.ok hreply) (by decide)

end Agenterm.Cu.BrowserBridge
