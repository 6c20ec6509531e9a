import Agenterm.Cu.WebSocket
import Agenterm.Lib.Keyed
import Agenterm.Lib.Run

/-!
# Calls and events of a CDP session

`Session` of `cdp/ws.rs` over any transport. `Json` stands for `serde_json`: how a text is parsed
and what is read of a message. A transport is the list of what the calls of `recv_text` find one
after the other, with the moments at which a deadline has passed; a transport at the end of its list
stays silent. `received` is a record that no operation reads.
-/

namespace Agenterm.Cu.Cdp

open Lib List

structure Json (J : Type) where
  parse : String → Option J
  /-- `Value::get`. -/
  get : J → String → Option J
  asU64 : J → Option Nat
  asStr : J → Option String
  null : J

namespace Json

variable {J : Type} (json : Json J)

/-- `message["id"].as_u64()`. -/
def idOf (message : J) : Option Nat := (json.get message "id").bind json.asU64

/-- `message.get("method").is_some()`. -/
def hasMethod (message : J) : Bool := (json.get message "method").isSome

/-- `message["method"] == method`. -/
def methodIs (method : String) (message : J) : Bool :=
  (json.get message "method").bind json.asStr = some method

end Json

/-- What the loop of an operation meets when it turns to the transport. -/
inductive Receipt where
  | text (text : String)
  /-- `recv_text` returns without a message. -/
  | silent
  | failed (error : CdpError)
  /-- There is no time left to receive. -/
  | expired

inductive SessionError (J : Type) where
  | transport (error : CdpError)
  | notJson
  | timeout (method : String)
  | methodFailed (method : String) (error : J)

structure CdpSession (J : Type) where
  nextId : Nat
  events : List J
  largestMessage : Nat
  received : List J

namespace CdpSession

variable {J : Type} (json : Json J)

def new : CdpSession J := ⟨1, [], 0, []⟩

def parse (session : CdpSession J) (text : String) : CdpSession J × Option J :=
  let session := { session with largestMessage := max session.largestMessage text.utf8ByteSize }
  match json.parse text with
  | some message => ({ session with received := session.received ++ [message] }, some message)
  | none => (session, none)

/-- A message that is not waited for is buffered if it is an event. -/
def keep (session : CdpSession J) (message : J) : CdpSession J :=
  if json.hasMethod message then { session with events := session.events ++ [message] }
  else session

/-- What an operation ends with: its result, the session, and the rest of the transport. -/
abbrev Ended (J R : Type) : Type := Except (SessionError J) R × CdpSession J × List Receipt

/-- The loop of `call`. -/
def callLoop (id : Nat) (method : String) : CdpSession J → List Receipt → Ended J J
  | session, [] => (.error (.timeout method), session, [])
  | session, .silent :: rest | session, .expired :: rest =>
    (.error (.timeout method), session, rest)
  | session, .failed error :: rest => (.error (.transport error), session, rest)
  | session, .text text :: rest =>
    match session.parse json text with
    | (session, none) => (.error .notJson, session, rest)
    | (session, some message) =>
      if json.idOf message = some id then
        match json.get message "error" with
        | some error => (.error (.methodFailed method error), session, rest)
        | none => (.ok ((json.get message "result").getD json.null), session, rest)
      else callLoop id method (session.keep json message) rest

def call (session : CdpSession J) (method : String) (sent : Except CdpError Unit)
    (incoming : List Receipt) : Ended J J :=
  let id := session.nextId
  let session := { session with nextId := session.nextId + 1 }
  match sent with
  | .error error => (.error (.transport error), session, incoming)
  | .ok () => callLoop json id method session incoming

/-- The loop of `wait_event`. -/
def waitLoop (method : String) : CdpSession J → List Receipt → Ended J (Option J)
  | session, [] => (.ok none, session, [])
  | session, .silent :: rest | session, .expired :: rest => (.ok none, session, rest)
  | session, .failed error :: rest => (.error (.transport error), session, rest)
  | session, .text text :: rest =>
    match session.parse json text with
    | (session, none) => (.error .notJson, session, rest)
    | (session, some message) =>
      if json.methodIs method message then (.ok (some message), session, rest)
      else waitLoop method (session.keep json message) rest

/-- The first buffered event of the method, or else one from the transport. -/
def waitEvent (session : CdpSession J) (method : String) (incoming : List Receipt) :
    Ended J (Option J) :=
  match session.events.find? (json.methodIs method) with
  | some event =>
    (.ok (some event), { session with events := session.events.eraseP (json.methodIs method) },
      incoming)
  | none => waitLoop json method session incoming

def takeEvents (session : CdpSession J) : List J × CdpSession J :=
  (session.events, { session with events := [] })

end CdpSession

/-! ## A client of a session -/

inductive SessionOp where
  | call (method : String) (sent : Except CdpError Unit)
  | waitEvent (method : String)
  | takeEvents

/-- What a call returned, with what it took off the transport, what it left there, and the messages
that were received during it. -/
structure CallAnswer (J : Type) where
  id : Nat
  method : String
  sent : Except CdpError Unit
  taken : List Receipt
  left : List Receipt
  heard : List J
  result : Except (SessionError J) J

structure CdpClient (J : Type) where
  session : CdpSession J
  incoming : List Receipt
  answers : List (CallAnswer J)
  /-- The events that were handed out. -/
  handed : List J

namespace CdpClient

variable {J : Type} (json : Json J)

def start (incoming : List Receipt) : CdpClient J := ⟨.new, incoming, [], []⟩

def step (client : CdpClient J) : SessionOp → CdpClient J
  | .call method sent =>
    let (result, session, incoming) := client.session.call json method sent client.incoming
    { client with
      session := session
      incoming := incoming
      answers := client.answers ++ [⟨client.session.nextId, method, sent,
        client.incoming.take (client.incoming.length - incoming.length), incoming,
        session.received.drop client.session.received.length, result⟩] }
  | .waitEvent method =>
    let (result, session, incoming) := client.session.waitEvent json method client.incoming
    let handed := match result with
      | .ok (some event) => [event]
      | _ => []
    { client with session := session, incoming := incoming, handed := client.handed ++ handed }
  | .takeEvents =>
    let (events, session) := client.session.takeEvents
    { client with session := session, handed := client.handed ++ events }

end CdpClient

/-!
`Brings` says what a loop does to the session: it receives some messages, and what is handed out
with what is buffered afterwards is, for each kind of event, what was buffered and received. The
main result is `session_delivery`.
-/

variable {J : Type} {json : Json J}

/-- A message that has a method and is not a reply. -/
def Json.isEvent (json : Json J) (message : J) : Bool :=
  json.hasMethod message && (json.idOf message).isNone

/-- An event of one method. -/
def Json.isEventOf (json : Json J) (method : String) (message : J) : Bool :=
  json.isEvent message && json.methodIs method message

/-- The message that a receipt brings. -/
def Json.brought (json : Json J) : Receipt → Option J
  | .text text => json.parse text
  | _ => none

variable {heard : List J} {message : J} {session : CdpSession J}

variable {left : List Receipt} {method text : String} {receipt : Receipt}

lemma Json.methodIs_unique {method' : String} (h : json.methodIs method message = true)
    (h' : json.methodIs method' message = true) : method = method' :=
  Option.some.inj ((of_decide_eq_true h).symm.trans (of_decide_eq_true h'))

namespace CdpSession

/-- What a loop that starts with `session` and ends with `session'` has done: it received `heard`,
and handed out some events. -/
structure Brings (json : Json J) (session session' : CdpSession J) (heard handed : List J) :
    Prop where
  received : session'.received = session.received ++ heard
  nextId : session'.nextId = session.nextId
  perm : ((handed ++ session'.events).filter json.isEvent).Perm
    ((session.events ++ heard).filter json.isEvent)
  order (method : String) : (handed ++ session'.events).filter (json.isEventOf method) =
    (session.events ++ heard).filter (json.isEventOf method)

lemma Brings.refl (session : CdpSession J) : Brings json session session [] [] where
  received := (append_nil _).symm
  nextId := rfl
  perm := by rw [append_nil, nil_append]
  order method := by rw [append_nil, nil_append]

/-- What was heard is what the receipts brought that were taken off the transport. -/
def Takes (json : Json J) (incoming : List Receipt) (heard : List J) (left : List Receipt) : Prop :=
  ∃ taken, incoming = taken ++ left ∧ taken.filterMap json.brought = heard

lemma Takes.refl (incoming : List Receipt) : Takes json incoming [] incoming :=
  ⟨[], rfl, rfl⟩

lemma Takes.one (h : json.brought receipt = none) : Takes json (receipt :: left) [] left :=
  ⟨[receipt], rfl, by rw [filterMap_cons_none h, filterMap_nil]⟩

variable {incoming : List Receipt}

lemma Takes.cons (hbrought : json.brought receipt = some message)
    (h : Takes json incoming heard left) :
    Takes json (receipt :: incoming) (message :: heard) left := by
  obtain ⟨taken, rfl, rfl⟩ := h
  exact ⟨receipt :: taken, rfl, filterMap_cons_some hbrought⟩

lemma Takes.trans {middle : List Receipt} {heard' : List J} (h : Takes json incoming heard middle)
    (h' : Takes json middle heard' left) : Takes json incoming (heard ++ heard') left := by
  obtain ⟨taken, rfl, rfl⟩ := h
  obtain ⟨taken', rfl, rfl⟩ := h'
  exact ⟨taken ++ taken', (append_assoc ..).symm, filterMap_append⟩

/-- More is received after a message that was buffered or dropped. -/
lemma Brings.cons {middle session' : CdpSession J} {handed : List J}
    (hreceived : middle.received = session.received ++ [message])
    (hnextId : middle.nextId = session.nextId)
    (hevents : middle.events.filter json.isEvent =
      (session.events ++ [message]).filter json.isEvent)
    (h : Brings json middle session' heard handed) :
    Brings json session session' (message :: heard) handed := by
  have hof (method : String) : middle.events.filter (json.isEventOf method) =
      (session.events ++ [message]).filter (json.isEventOf method) := by
    have hnarrow (xs : List J) : xs.filter (json.isEventOf method) =
        (xs.filter json.isEvent).filter (json.methodIs method) := by
      rw [filter_filter]
      exact filter_congr fun x _ => Bool.and_comm _ _
    rw [hnarrow, hnarrow, hevents]
  refine ⟨?_, h.nextId.trans hnextId, ?_, fun method => ?_⟩
  · rw [h.received, hreceived, append_assoc]
    rfl
  · refine h.perm.trans ?_
    rw [filter_append, hevents, ← filter_append, append_assoc]
    rfl
  · rw [h.order method, filter_append, hof method, ← filter_append, append_assoc]
    rfl

lemma parse_received (h : json.parse text = some message) :
    session.parse json text =
      ({ session with
          largestMessage := max session.largestMessage text.utf8ByteSize
          received := session.received ++ [message] }, some message) := by
  unfold CdpSession.parse
  rw [h]

lemma parse_none (h : json.parse text = none) :
    session.parse json text =
      ({ session with largestMessage := max session.largestMessage text.utf8ByteSize }, none) := by
  unfold CdpSession.parse
  rw [h]

lemma keep_events (session : CdpSession J) (message : J) :
    (session.keep json message).events.filter json.isEvent =
      (session.events ++ [message]).filter json.isEvent := by
  unfold keep
  split
  · rfl
  · rename_i hmethod
    have hnot : json.isEvent message = false := by
      unfold Json.isEvent
      rw [Bool.eq_false_iff.mpr hmethod]
      rfl
    rw [filter_append, filter_cons_of_neg (by rw [hnot]; exact Bool.false_ne_true),
      filter_nil, append_nil]

@[simp] lemma keep_received (session : CdpSession J) (message : J) :
    (session.keep json message).received = session.received := by
  unfold keep
  split <;> rfl

@[simp] lemma keep_nextId (session : CdpSession J) (message : J) :
    (session.keep json message).nextId = session.nextId := by
  unfold keep
  split <;> rfl

/-! ## Calls -/

/-- The result is that of a message with the id; without such a message it is neither a result nor
the error of one. -/
def OwnResult (json : Json J) (id : Nat) (heard : List J) : Except (SessionError J) J → Prop
  | .ok value => ∃ message ∈ heard, json.idOf message = some id ∧
      json.get message "error" = none ∧ value = (json.get message "result").getD json.null
  | .error (.methodFailed _ error) => ∃ message ∈ heard, json.idOf message = some id ∧
      json.get message "error" = some error
  | .error _ => ∀ message ∈ heard, json.idOf message ≠ some id

lemma OwnResult.cons {id : Nat} (hother : json.idOf message ≠ some id)
    {result : Except (SessionError J) J} (h : OwnResult json id heard result) :
    OwnResult json id (message :: heard) result := by
  match result with
  | .ok value =>
    obtain ⟨reply, hmem, hreply⟩ := h
    exact ⟨reply, mem_cons_of_mem _ hmem, hreply⟩
  | .error (.methodFailed _ error) =>
    obtain ⟨reply, hmem, hreply⟩ := h
    exact ⟨reply, mem_cons_of_mem _ hmem, hreply⟩
  | .error (.transport _) | .error .notJson | .error (.timeout _) =>
    intro reply hmem
    rcases mem_cons.mp hmem with rfl | hmem
    · exact hother
    · exact h reply hmem

/-- Why a call that was sent ended without a reply: the transport was silent or the time was over,
a text was no JSON, or the transport failed. -/
def EndsFor (json : Json J) (method : String) (taken left : List Receipt) :
    Except (SessionError J) J → Prop
  | .ok _ | .error (.methodFailed ..) => True
  | .error (.timeout method') => method' = method ∧
      (left = [] ∨ taken.getLast? = some .silent ∨ taken.getLast? = some .expired)
  | .error .notJson => ∃ text, taken.getLast? = some (.text text) ∧ json.parse text = none
  | .error (.transport error) => taken.getLast? = some (.failed error)

lemma EndsFor.cons {taken : List Receipt} {result : Except (SessionError J) J}
    (h : EndsFor json method taken left result) :
    EndsFor json method (receipt :: taken) left result := by
  have hlast {last : Receipt} (h : taken.getLast? = some last) :
      (receipt :: taken).getLast? = some last := by
    rw [List.getLast?_cons, h]
    rfl
  match result with
  | .ok _ | .error (.methodFailed ..) => trivial
  | .error (.timeout _) => exact ⟨h.1, h.2.imp_right (Or.imp hlast hlast)⟩
  | .error .notJson =>
    obtain ⟨text, htext, hparse⟩ := h
    exact ⟨text, hlast htext, hparse⟩
  | .error (.transport _) => exact hlast h

/-- A call ends with the reply to it, or without one. -/
lemma callLoop_spec (id : Nat) (method : String) (session : CdpSession J)
    (incoming : List Receipt) : ∃ taken heard,
      incoming = taken ++ (callLoop json id method session incoming).2.2 ∧
      taken.filterMap json.brought = heard ∧
      Brings json session (callLoop json id method session incoming).2.1 heard [] ∧
      OwnResult json id heard (callLoop json id method session incoming).1 ∧
      EndsFor json method taken (callLoop json id method session incoming).2.2
        (callLoop json id method session incoming).1 := by
  have hnothing : ∀ reply ∈ ([] : List J), json.idOf reply ≠ some id :=
    fun _ hmem => absurd hmem not_mem_nil
  induction incoming generalizing session with
  | nil => exact ⟨[], [], rfl, rfl, .refl session, hnothing, rfl, .inl rfl⟩
  | cons receipt rest ih =>
    cases receipt with
    | silent =>
      exact ⟨[.silent], [], rfl, rfl, .refl session, hnothing, rfl, .inr (.inl rfl)⟩
    | expired =>
      exact ⟨[.expired], [], rfl, rfl, .refl session, hnothing, rfl, .inr (.inr rfl)⟩
    | failed error => exact ⟨[.failed error], [], rfl, rfl, .refl session, hnothing, rfl⟩
    | text text =>
      unfold callLoop
      cases hparse : json.parse text with
      | none =>
        rw [parse_none hparse]
        exact ⟨[.text text], [], rfl, filterMap_cons_none hparse,
          ⟨(append_nil _).symm, rfl, by simp, fun _ => by simp⟩, hnothing, text, rfl, hparse⟩
      | some message =>
        rw [parse_received hparse]
        dsimp only
        by_cases hid : json.idOf message = some id
        · -- the reply to this call is no event
          have hnot : json.isEvent message = false := by
            unfold Json.isEvent
            rw [hid]
            exact Bool.and_false _
          have hnot' (method : String) : json.isEventOf method message = false := by
            unfold Json.isEventOf
            rw [hnot]
            rfl
          have htaken : [Receipt.text text].filterMap json.brought = [message] :=
            filterMap_cons_some hparse
          rw [if_pos hid]
          cases herror : json.get message "error" with
          | some error =>
            refine ⟨[.text text], [message], rfl, htaken, ⟨rfl, rfl, ?_, fun method => ?_⟩,
              ⟨message, mem_singleton_self _, hid, herror⟩, trivial⟩
            · simp [hnot]
            · simp [hnot']
          | none =>
            refine ⟨[.text text], [message], rfl, htaken, ⟨rfl, rfl, ?_, fun method => ?_⟩,
              ⟨message, mem_singleton_self _, hid, herror, rfl⟩, trivial⟩
            · simp [hnot]
            · simp [hnot']
        · rw [if_neg hid]
          obtain ⟨taken, heard, hincoming, htaken, hbrings, hown, hends⟩ := ih (keep json
            { session with
              largestMessage := max session.largestMessage text.utf8ByteSize
              received := session.received ++ [message] } message)
          refine ⟨.text text :: taken, message :: heard, congrArg _ hincoming, ?_,
            hbrings.cons ?_ ?_ ?_, hown.cons hid, hends.cons⟩
          · have hbrought : json.brought (.text text) = some message := hparse
            rw [filterMap_cons_some hbrought, htaken]
          · rw [keep_received]
          · rw [keep_nextId]
          · exact keep_events _ message

/-- A call whose request is not sent takes nothing; another ends with a reply or for a reason. -/
def Answers (json : Json J) (method : String) (sent : Except CdpError Unit)
    (taken left : List Receipt) (result : Except (SessionError J) J) : Prop :=
  match sent with
  | .error error => taken = [] ∧ result = .error (.transport error)
  | .ok () => EndsFor json method taken left result

lemma call_spec (session : CdpSession J) (method : String) (sent : Except CdpError Unit)
    (incoming : List Receipt) : ∃ taken heard,
      incoming = taken ++ (session.call json method sent incoming).2.2 ∧
      taken.filterMap json.brought = heard ∧
      Brings json { session with nextId := session.nextId + 1 }
        (session.call json method sent incoming).2.1 heard [] ∧
      (session.call json method sent incoming).2.1.nextId = session.nextId + 1 ∧
      OwnResult json session.nextId heard (session.call json method sent incoming).1 ∧
      Answers json method sent taken (session.call json method sent incoming).2.2
        (session.call json method sent incoming).1 := by
  unfold CdpSession.call
  cases sent with
  | error error =>
    exact ⟨[], [], rfl, rfl, .refl _, rfl, fun _ hmem => absurd hmem not_mem_nil, rfl, rfl⟩
  | ok =>
    obtain ⟨taken, heard, hincoming, htaken, hbrings, hown, hends⟩ :=
      callLoop_spec session.nextId method { session with nextId := session.nextId + 1 } incoming
    exact ⟨taken, heard, hincoming, htaken, hbrings, hbrings.nextId, hown, hends⟩

/-! ## Waiting for an event -/

/-- What an operation hands out. -/
def handedOut : Except (SessionError J) (Option J) → List J
  | .ok (some event) => [event]
  | _ => []

/-- The loop hands out the first event of its method that it receives, when none is buffered. -/
lemma waitLoop_spec (method : String) (session : CdpSession J) (incoming : List Receipt)
    (hnone : ∀ event ∈ session.events, json.methodIs method event = false) : ∃ heard,
      Takes json incoming heard (waitLoop json method session incoming).2.2 ∧
      Brings json session (waitLoop json method session incoming).2.1 heard
        (handedOut (waitLoop json method session incoming).1) ∧
      ∀ event, (waitLoop json method session incoming).1 = .ok (some event) →
        json.methodIs method event = true := by
  induction incoming generalizing session with
  | nil => exact ⟨[], .refl [], .refl session, fun event h => by injection h with h; injection h⟩
  | cons receipt rest ih =>
    cases receipt with
    | silent => exact ⟨[], .one rfl, .refl session, fun event h => by injection h with h; injection h⟩
    | expired =>
      exact ⟨[], .one rfl, .refl session, fun event h => by injection h with h; injection h⟩
    | failed error => exact ⟨[], .one rfl, .refl session, fun event h => by injection h⟩
    | text text =>
      unfold waitLoop
      cases hparse : json.parse text with
      | none =>
        rw [parse_none hparse]
        exact ⟨[], .one hparse,
          ⟨(append_nil _).symm, rfl, by simp [handedOut], fun _ => by simp [handedOut]⟩,
          fun event h => by injection h⟩
      | some message =>
        rw [parse_received hparse]
        dsimp only
        by_cases hmethod : json.methodIs method message = true
        · rw [if_pos hmethod]
          refine ⟨[message], .cons hparse (.refl rest), ⟨rfl, rfl, ?_, fun other => ?_⟩,
            fun event h => ?_⟩
          · exact List.Perm.filter _ perm_append_comm
          · show ([message] ++ session.events).filter _ = _
            rw [filter_append, filter_append]
            by_cases hother : method = other
            · -- the buffered events are of other methods
              have hempty : session.events.filter (json.isEventOf other) = [] := by
                refine filter_eq_nil_iff.mpr fun event hmem hevent => ?_
                have his := (Bool.and_eq_true_iff.mp hevent).2
                rw [← hother, hnone event hmem] at his
                injection his
              rw [hempty, append_nil, nil_append]
            · have hempty : [message].filter (json.isEventOf other) = [] := by
                refine filter_eq_nil_iff.mpr fun event hmem hevent => ?_
                rw [mem_singleton.mp hmem] at hevent
                exact hother (Json.methodIs_unique hmethod (Bool.and_eq_true_iff.mp hevent).2)
              rw [hempty, append_nil, nil_append]
          · injection h with h
            rw [← Option.some.inj h]
            exact hmethod
        · rw [if_neg hmethod]
          have hstill : ∀ event ∈ (keep json
              { session with
                largestMessage := max session.largestMessage text.utf8ByteSize
                received := session.received ++ [message] } message).events,
              json.methodIs method event = false := by
            intro event hmem
            unfold keep at hmem
            split at hmem
            · rcases mem_append.mp hmem with hmem | hmem
              · exact hnone event hmem
              · rw [mem_singleton.mp hmem]
                exact Bool.eq_false_iff.mpr hmethod
            · exact hnone event hmem
          obtain ⟨heard, htakes, hbrings, hmatches⟩ := ih _ hstill
          refine ⟨message :: heard, htakes.cons hparse, hbrings.cons ?_ ?_ ?_, hmatches⟩
          · rw [keep_received]
          · rw [keep_nextId]
          · exact keep_events _ message

lemma waitEvent_spec (session : CdpSession J) (method : String) (incoming : List Receipt) :
    ∃ heard, Takes json incoming heard (session.waitEvent json method incoming).2.2 ∧
      Brings json session (session.waitEvent json method incoming).2.1 heard
        (handedOut (session.waitEvent json method incoming).1) ∧
      ∀ event, (session.waitEvent json method incoming).1 = .ok (some event) →
        json.methodIs method event = true := by
  unfold waitEvent
  cases hfind : session.events.find? (json.methodIs method) with
  | some event =>
    refine ⟨[], .refl incoming, ⟨(append_nil _).symm, rfl, ?_, fun other => ?_⟩,
      fun event' h => ?_⟩
    · rw [append_nil]
      exact (perm_cons_eraseP hfind).filter _
    · show ([event] ++ session.events.eraseP _).filter _ = _
      rw [append_nil, filter_append]
      by_cases hother : method = other
      · refine filter_eraseP_of_imp (fun y hy => ?_) hfind
        rw [hother]
        exact (Bool.and_eq_true_iff.mp hy).2
      · refine filter_eraseP_of_not hfind fun y hy => ?_
        refine Bool.eq_false_iff.mpr fun hevent => hother ?_
        exact Json.methodIs_unique hy (Bool.and_eq_true_iff.mp hevent).2
    · injection h with h
      rw [← Option.some.inj h]
      exact List.find?_some hfind
  | none =>
    refine waitLoop_spec method session incoming fun event hmem => ?_
    exact Bool.eq_false_iff.mpr (List.find?_eq_none.mp hfind event hmem)

end CdpSession

/-! ## Runs -/

namespace CdpClient

open CdpSession

structure Sound (json : Json J) (incoming : List Receipt) (client : CdpClient J) : Prop where
  takes : Takes json incoming client.session.received client.incoming
  perm : ((client.handed ++ client.session.events).filter json.isEvent).Perm
    (client.session.received.filter json.isEvent)
  order (method : String) :
    (client.handed ++ client.session.events).filter (json.isEventOf method) =
      client.session.received.filter (json.isEventOf method)
  own (answer : CallAnswer J) : answer ∈ client.answers →
    OwnResult json answer.id answer.heard answer.result ∧
      Answers json answer.method answer.sent answer.taken answer.left answer.result ∧
      (answer.heard = answer.taken.filterMap json.brought ∧
        answer.taken ++ answer.left <:+ incoming) ∧
      answer.heard <:+: client.session.received ∧ answer.id < client.session.nextId
  nodup : (client.answers.map CallAnswer.id).Nodup

lemma sound_start (incoming : List Receipt) : Sound json incoming (start incoming) where
  takes := .refl incoming
  perm := List.Perm.refl _
  order _ := rfl
  own _ hmem := absurd hmem not_mem_nil
  nodup := nodup_nil

variable {client : CdpClient J} {incoming : List Receipt}

/-- An operation that brings messages and hands out events keeps the events in order. -/
lemma Sound.brings (h : Sound json incoming client) {session' : CdpSession J} {handed : List J}
    (hbrings : Brings json client.session session' heard handed) :
    (((client.handed ++ handed) ++ session'.events).filter json.isEvent).Perm
        (session'.received.filter json.isEvent) ∧
      ∀ method, ((client.handed ++ handed) ++ session'.events).filter (json.isEventOf method) =
        session'.received.filter (json.isEventOf method) := by
  rw [hbrings.received]
  constructor
  · rw [append_assoc, filter_append]
    refine (hbrings.perm.append_left _).trans ?_
    rw [filter_append, filter_append, ← append_assoc, ← filter_append]
    exact h.perm.append_right _
  · intro method
    rw [append_assoc, filter_append, hbrings.order method, filter_append,
      ← append_assoc, ← filter_append, h.order method, ← filter_append]

/-- Every operation takes its texts off the transport in order, and keeps the events. -/
lemma Sound.step (h : Sound json incoming client) (op : SessionOp) :
    Sound json incoming (client.step json op) := by
  have hkept {session' : CdpSession J} {heard : List J}
      (hreceived : session'.received = client.session.received ++ heard)
      (hnextId : client.session.nextId ≤ session'.nextId) (answer : CallAnswer J)
      (hmem : answer ∈ client.answers) :
      OwnResult json answer.id answer.heard answer.result ∧
        Answers json answer.method answer.sent answer.taken answer.left answer.result ∧
        (answer.heard = answer.taken.filterMap json.brought ∧
          answer.taken ++ answer.left <:+ incoming) ∧
        answer.heard <:+: session'.received ∧ answer.id < session'.nextId := by
    obtain ⟨hown, hanswers, htaken, hheard, hid⟩ := h.own answer hmem
    refine ⟨hown, hanswers, htaken, hheard.trans ?_, by omega⟩
    rw [hreceived]
    exact (prefix_append _ _).isInfix
  cases op with
  | call method sent =>
    obtain ⟨taken, heard, hincoming, htaken, hbrings, hnextId, hown, hanswers⟩ :=
      call_spec client.session method sent client.incoming
    have htakes : Takes json client.incoming heard
        (client.session.call json method sent client.incoming).2.2 := ⟨taken, hincoming, htaken⟩
    have hsession : Brings json client.session
        { (client.session.call json method sent client.incoming).2.1 with
          nextId := client.session.nextId } heard [] :=
      ⟨hbrings.received, rfl, hbrings.perm, hbrings.order⟩
    obtain ⟨hperm, horder⟩ := h.brings hsession
    rw [append_nil] at hperm horder
    refine ⟨hbrings.received ▸ h.takes.trans htakes, hperm, horder, ?_, ?_⟩
    · intro answer hmem
      rcases mem_append.mp hmem with hold | hnew
      · exact hkept hbrings.received (by omega) answer hold
      · rw [mem_singleton.mp hnew]
        have hheard : (client.session.call json method sent client.incoming).2.1.received.drop
            client.session.received.length = heard := by
          rw [hbrings.received]
          exact drop_left
        have htook : client.incoming.take (client.incoming.length -
            (client.session.call json method sent client.incoming).2.2.length) = taken := by
          have hlength := congrArg List.length hincoming
          rw [length_append] at hlength
          rw [show client.incoming.length - _ = taken.length by omega]
          nth_rewrite 1 [hincoming]
          exact take_left
        obtain ⟨before, hbefore, -⟩ := h.takes
        have hplace : taken ++ (client.session.call json method sent client.incoming).2.2
            <:+ incoming := ⟨before, hincoming ▸ hbefore.symm⟩
        rw [← hheard] at hown htaken
        rw [← htook] at hanswers htaken hplace
        refine ⟨hown, hanswers, ⟨htaken.symm, hplace⟩, (drop_suffix _ _).isInfix, ?_⟩
        show client.session.nextId < (client.session.call json method sent _).2.1.nextId
        rw [hnextId]
        exact Nat.lt_succ_self _
    · -- the ids of the earlier calls are smaller
      show ((client.answers ++ [_]).map CallAnswer.id).Nodup
      rw [map_append]
      refine List.Nodup.append h.nodup (nodup_singleton _) fun id hold hnew => ?_
      obtain ⟨answer, hmem, rfl⟩ := mem_map.mp hold
      rw [map_singleton, mem_singleton] at hnew
      have hlt := (h.own answer hmem).2.2.2.2
      rw [hnew] at hlt
      exact Nat.lt_irrefl _ hlt
  | waitEvent method =>
    obtain ⟨heard, htakes, hbrings, -⟩ := waitEvent_spec client.session method
      client.incoming
    obtain ⟨hperm, horder⟩ := h.brings hbrings
    exact ⟨hbrings.received ▸ h.takes.trans htakes, hperm, horder,
      hkept hbrings.received (Nat.le_of_eq hbrings.nextId.symm), h.nodup⟩
  | takeEvents =>
    have hbrings : Brings json client.session client.session.takeEvents.2 []
        client.session.takeEvents.1 :=
      ⟨(append_nil _).symm, rfl, List.Perm.refl _, fun _ => rfl⟩
    obtain ⟨hperm, horder⟩ := h.brings hbrings
    exact ⟨h.takes, hperm, horder, hkept hbrings.received (Nat.le_refl _), h.nodup⟩

/-- After any operations on any transport: what was received is what the texts taken off the
transport brought, in order. A call that returned a result, or the error of a message, returned that
of a message with its own id, which was received during it, and no two calls have the same id; a
call without such a message ended because its request was not sent, or because the transport was
silent, failed, was out of time or brought a text that is no JSON. What was handed out, with what is
still buffered, is what was received of events, each as often as it was received, and in the order
of arrival for each method. -/
theorem session_delivery (json : Json J) (incoming : List Receipt) (ops : List SessionOp) :
    let client := run (step json) (start incoming) ops
    (∃ taken, incoming = taken ++ client.incoming ∧
      client.session.received = taken.filterMap json.brought) ∧
      (∀ answer ∈ client.answers, OwnResult json answer.id answer.heard answer.result ∧
        Answers json answer.method answer.sent answer.taken answer.left answer.result ∧
        answer.heard = answer.taken.filterMap json.brought ∧
        answer.taken ++ answer.left <:+ incoming ∧
        answer.heard <:+: client.session.received) ∧
      (client.answers.map CallAnswer.id).Nodup ∧
      ((client.handed ++ client.session.events).filter json.isEvent).Perm
        (client.session.received.filter json.isEvent) ∧
      ∀ method, client.handed.filter (json.isEventOf method) ++
        client.session.events.filter (json.isEventOf method) =
          client.session.received.filter (json.isEventOf method) := by
  intro client
  have hsound : Sound json incoming client :=
    run_invariant (fun _ op h => h.step op) (sound_start incoming) ops
  refine ⟨?_, fun answer hmem => ?_, hsound.nodup, hsound.perm, fun method => ?_⟩
  · obtain ⟨taken, htaken, hreceived⟩ := hsound.takes
    exact ⟨taken, htaken, hreceived.symm⟩
  · obtain ⟨hown, hanswers, ⟨htaken, hplace⟩, hheard, -⟩ := hsound.own answer hmem
    exact ⟨hown, hanswers, htaken, hplace, hheard⟩
  · rw [← filter_append]
    exact hsound.order method

/-- JSON values, of which three texts are known. -/
def knownJson : Json Value where
  parse
    | "\x7b\"id\":1,\"result\":1\x7d" => some (.object [("id", .number 1), ("result", .number 1)])
    | "\x7b\"method\":\"Page.frameNavigated\"\x7d" =>
      some (.object [("method", .string "Page.frameNavigated")])
    | "\x7b\"id\":2,\"result\":2\x7d" => some (.object [("id", .number 2), ("result", .number 2)])
    | _ => none
  get
    | .object fields, key => fields.lookup key
    | _, _ => none
  asU64
    | .number n => if 0 ≤ n then some n.toNat else none
    | _ => none
  asStr
    | .string s => some s
    | _ => none
  null := .null

/-- The first call times out. Its reply comes late, during the second, and so does an event. -/
def lateReply : List Receipt :=
  [.expired, .text "\x7b\"id\":1,\"result\":1\x7d",
    .text "\x7b\"method\":\"Page.frameNavigated\"\x7d",
    .text "\x7b\"id\":2,\"result\":2\x7d"]

theorem session_delivery_late :
    let client := run (step knownJson) (start lateReply)
      [.call "Page.enable" (.ok ()), .call "Page.reload" (.ok ()),
        .waitEvent "Page.frameNavigated"]
    client.answers.map (fun answer => (answer.id, answer.heard.length)) = [(1, 0), (2, 3)] ∧
      client.handed = [.object [("method", .string "Page.frameNavigated")]] ∧
      (∀ answer ∈ client.answers, OwnResult knownJson answer.id answer.heard answer.result) ∧
      client.handed.filter (knownJson.isEventOf "Page.frameNavigated") =
        client.session.received.filter (knownJson.isEventOf "Page.frameNavigated") := by
  intro client
  obtain ⟨-, hown, -, -, horder⟩ := session_delivery knownJson lateReply
    [.call "Page.enable" (.ok ()), .call "Page.reload" (.ok ()),
      .waitEvent "Page.frameNavigated"]
  refine ⟨rfl, rfl, fun answer hmem => (hown answer hmem).1, ?_⟩
  have hnone : client.session.events.filter (knownJson.isEventOf "Page.frameNavigated") = [] := rfl
  rw [← horder "Page.frameNavigated", hnone, append_nil]

end CdpClient

end Agenterm.Cu.Cdp
