import Agenterm.Cu.RuntimeRuns

/-!
# When the coordinator rejects its own edit

An operation edits sessions and locks on its own, and the check on documents ties the expiry of
locks to that of their sessions. `valid_of_edited` goes through the edits: all of them keep the
check, except that a session may be renewed to an earlier expiry than that of a lock it holds.
`valid_iff_keepsLocks` is the exact condition.
-/

namespace Agenterm.Cu.Runtime

open Std Option Lib

/-- The call does not set the expiry of a session before that of a lock that the session holds
when the call is made. -/
def Call.KeepsLocks (call : Call) (document : Document) : Prop :=
  ∀ (sessionId : String) (expires : Int), call.setsExpiry = some (sessionId, expires) →
    ∀ (target : String) (lock : LockRecord), document.locks[target]? = some lock →
      lock.sessionId = sessionId → call.now.val < lock.expiresAtUtcS.val →
      lock.expiresAtUtcS.val ≤ expires

variable {lock : LockRecord} {now : I64} {record : SessionRecord} {sessionId target : String}
  {sessions : TreeMap String SessionRecord}

variable {expires : I64} {id lease : String}

section
variable {sha256 : String → Fin 32 → UInt8} {document document' : Document} {call : Call}

/-! ## The swept document -/

lemma sweep_session_valid (h : record.Valid id) (hcreated : record.createdAtUtcS.val ≤ now.val) :
    (record.sweep now).Valid id := by
  unfold SessionRecord.sweep
  split
  · refine { h with terminal_iff := ⟨nofun, nofun⟩, terminal_ge := fun time htime => ?_ }
    cases htime
    exact hcreated
  · exact h

section
variable (hsound : document.Sound) (hclock : document.lastNowUtcS.val ≤ call.now.val)
include hsound hclock

lemma swept_sessions_valid (h : (sweepExpired document call.now).sessions[id]? = some record) :
    record.Valid id := by
  obtain ⟨held, hheld, rfl⟩ := sweep_session_eq_some.mp h
  have hcreated := hsound.created_le id held hheld
  exact sweep_session_valid (hsound.valid.sessions_valid id held hheld) (by omega)

omit hclock in
/-- The session of a lock that the sweep has left. -/
lemma swept_owner (h : (sweepExpired document call.now).locks[target]? = some lock) :
    ∃ owner : SessionRecord,
      (sweepExpired document call.now).sessions[lock.sessionId]? = some owner ∧
        lock.expiresAtUtcS.val ≤ owner.expiresAtUtcS.val ∧ owner.state = .active := by
  obtain ⟨hlock, hlive, -⟩ := sweep_lock_eq_some.mp h
  obtain ⟨owner, howner, hexpires, hactive⟩ :=
    (hsound.valid.locks_valid target lock hlock).owned
  refine ⟨owner, ?_, hexpires, hactive⟩
  exact sweep_session_eq_some.mpr ⟨owner, howner, (SessionRecord.sweep_live (by omega)).symm⟩

omit hclock in
/-- A lock that the sweep has left passes the check, with sessions in which its own one is as
good as before. -/
lemma swept_lock_valid (h : (sweepExpired document call.now).locks[target]? = some lock)
    (howned : lock.OwnedIn sessions) : lock.Valid sessions target :=
  { hsound.valid.locks_valid target lock (sweep_lock_eq_some.mp h).1 with owned := howned }

omit hclock in
lemma swept_sessions_size :
    (sweepExpired document call.now).sessions.size ≤ maxSessions := by
  have hsize := hsound.valid.sessions_le
  show (TreeMap.map _ document.sessions).size ≤ maxSessions
  rwa [TreeMap.size_map]

omit hclock in
lemma swept_locks_size : (sweepExpired document call.now).locks.size ≤ maxLocks :=
  Nat.le_trans TreeMap.size_filter_le_size hsound.valid.locks_le

/-- A new document passes the check when its sessions and locks do. -/
lemma valid_of_parts {locks : TreeMap String LockRecord} (hsessions : sessions.size ≤ maxSessions)
    (hlocks : locks.size ≤ maxLocks)
    (hsession : ∀ (id : String) (record : SessionRecord),
      sessions[id]? = some record → record.Valid id)
    (hlock : ∀ (target : String) (lock : LockRecord),
      locks[target]? = some lock → lock.Valid sessions target) :
    ({ sweepExpired document call.now with lastNowUtcS := call.now, sessions, locks } :
      Document).Valid := by
  have hnonneg := hsound.valid.clock_nonneg
  refine ⟨hsound.valid.schema_eq, ?_, hsessions, hlocks, hsession, hlock⟩
  show 0 ≤ call.now.val
  omega

/-- Sessions in which one was replaced pass the check. -/
lemma replaced_sessions_valid
    (hheld : ∀ (id : String) (found : SessionRecord), sessions[id]? = some found →
      (sweepExpired document call.now).sessions[id]? = some found)
    (hvalid : record.Valid sessionId) (id : String) (found : SessionRecord)
    (hfound : (sessions.insert sessionId record)[id]? = some found) : found.Valid id := by
  rcases insert_eq_some hfound with ⟨rfl, rfl⟩ | ⟨-, hfound⟩
  · exact hvalid
  · exact swept_sessions_valid hsound hclock (hheld id found hfound)

omit hclock in
/-- The locks pass the check with sessions in which one got a new expiry. -/
lemma kept_locks_valid (hheld : ∀ (id : String) (found : SessionRecord),
      (sweepExpired document call.now).sessions[id]? = some found → found.state = .active →
      sessions[id]? = some found) (hsets : call.setsExpiry = some (sessionId, expires.val))
    (hkeeps : call.KeepsLocks document) (hexpires : record.expiresAtUtcS = expires)
    (hactive : record.state = .active) (target : String) (lock : LockRecord)
    (hlock : (sweepExpired document call.now).locks[target]? = some lock) :
    lock.Valid (sessions.insert sessionId record) target := by
  refine swept_lock_valid hsound hlock ?_
  by_cases hsession : lock.sessionId = sessionId
  · obtain ⟨hold, hlive, -⟩ := sweep_lock_eq_some.mp hlock
    refine ⟨record, by rw [hsession]; exact TreeMap.getElem?_insert_self, ?_, hactive⟩
    rw [hexpires]
    exact hkeeps sessionId expires.val hsets target lock hold hsession hlive
  · obtain ⟨owner, howner, hle, hstate⟩ := swept_owner hsound hlock
    exact ⟨owner, (getElem?_insert_of_ne (Ne.symm hsession)).trans
      (hheld lock.sessionId owner howner hstate), hle, hstate⟩

omit hclock in
/-- The locks of other sessions pass the check when a session ends. -/
lemma other_locks_valid (hlock : (sweepExpired document call.now).locks[target]? = some lock)
    (hsession : lock.sessionId ≠ sessionId) :
    lock.Valid ((sweepExpired document call.now).sessions.insert sessionId record) target := by
  obtain ⟨owner, howner, hle, hstate⟩ := swept_owner hsound hlock
  exact swept_lock_valid hsound hlock
    ⟨owner, (getElem?_insert_of_ne (Ne.symm hsession)).trans howner, hle, hstate⟩

lemma endAt_valid {record' : SessionRecord}
    (hheld : (sweepExpired document call.now).sessions[sessionId]? = some record)
    (h : record.endAt call.now = .ok record') : record'.Valid sessionId := by
  have hvalid := swept_sessions_valid hsound hclock hheld
  obtain ⟨held, hold, rfl⟩ := sweep_session_eq_some.mp hheld
  have hcreated := hsound.created_le sessionId held hold
  unfold SessionRecord.endAt at h
  split at h
  · cases h
    refine { hvalid with terminal_iff := ⟨nofun, nofun⟩, terminal_ge := fun time htime => ?_ }
    cases htime
    show (held.sweep call.now).createdAtUtcS.val ≤ call.now.val
    rw [held.sweep_createdAtUtcS]
    omega
  · cases h
    exact hvalid
  · cases h

omit hsound hclock in
lemma startedSession_valid {label : String} (hid : isLowercaseUuidV4 sessionId = true)
    (hlabel : isLine 128 label = true) (hnow : 0 ≤ now.val) (hlater : now.val < expires.val) :
    (startedSession sha256 sessionId label lease now expires).Valid sessionId where
  id_eq := rfl
  id_valid := hid
  label_valid := hlabel
  lease_valid := validDigest_sha256Hex sha256 lease
  created_nonneg := hnow
  created_lt := hlater
  terminal_iff := ⟨fun _ => rfl, fun _ => rfl⟩
  terminal_ge := by
    intro time htime
    have hnone : none = some time := htime
    cases hnone

/-- The edits keep the check, as long as no session is given an expiry before its locks. -/
lemma valid_of_edited {edited : Document}
    (h : Edited sha256 call (sweepExpired document call.now) edited)
    (hkeeps : call.KeepsLocks document) :
    ({ edited with lastNowUtcS := call.now } : Document).Valid := by
  have hsessions : ∀ (id : String) (record : SessionRecord),
      (sweepExpired document call.now).sessions[id]? = some record → record.Valid id :=
    fun _ _ hrecord => swept_sessions_valid hsound hclock hrecord
  have hlocks : ∀ (target : String) (lock : LockRecord),
      (sweepExpired document call.now).locks[target]? = some lock →
        lock.Valid (sweepExpired document call.now).sessions target :=
    fun _ _ hlock => swept_lock_valid hsound hlock (swept_owner hsound hlock)
  have hsessionsSize : (sweepExpired document call.now).sessions.size ≤ maxSessions :=
    swept_sessions_size hsound
  have hlocksSize : (sweepExpired document call.now).locks.size ≤ maxLocks :=
    swept_locks_size hsound
  cases h with
  | same => exact valid_of_parts hsound hclock hsessionsSize hlocksSize hsessions hlocks
  | started sessionId label lease expires sessions hevicted hroom _ hsets hid hlabel hnow hlater =>
    have hrecord : (startedSession sha256 sessionId label lease call.now expires).Valid
        sessionId := startedSession_valid hid hlabel hnow hlater
    exact valid_of_parts hsound hclock (size_insert_le_of_lt hroom) hlocksSize
      (replaced_sessions_valid hsound hclock hevicted.held hrecord)
      (kept_locks_valid hsound hevicted.active hsets hkeeps rfl rfl)
  | renewed sessionId record expires howned hactive hsets hlater =>
    have hvalid := hsessions sessionId record howned.held
    obtain ⟨held, hheld, hswept⟩ := sweep_session_eq_some.mp howned.held
    have hcreated := hsound.created_le sessionId held hheld
    have hrecord : ({ record with expiresAtUtcS := expires } : SessionRecord).Valid sessionId := by
      refine { hvalid with created_lt := ?_ }
      show record.createdAtUtcS.val < expires.val
      rw [hswept, held.sweep_createdAtUtcS]
      omega
    exact valid_of_parts hsound hclock (by rwa [size_insert_of_some howned.held]) hlocksSize
      (replaced_sessions_valid hsound hclock (fun _ _ h => h) hrecord)
      (kept_locks_valid hsound (fun _ _ h _ => h) hsets hkeeps rfl hactive)
  | ended sessionId record record' howned hended =>
    refine valid_of_parts hsound hclock (by rwa [size_insert_of_some howned.held])
      (Nat.le_trans TreeMap.size_filter_le_size hlocksSize)
      (replaced_sessions_valid hsound hclock (fun _ _ h => h)
        (endAt_valid hsound hclock howned.held hended)) ?_
    intro target lock hlock
    obtain ⟨hlock, hsession⟩ := filter_eq_some.mp hlock
    exact other_locks_valid hsound hlock (of_decide_eq_true hsession)
  | extended sessionId target owner lock expires howned hactive hheld howner hlater hle =>
    refine valid_of_parts hsound hclock hsessionsSize
      (by rwa [size_insert_of_some hheld]) hsessions ?_
    intro target' lock' hlock'
    rcases insert_eq_some hlock' with ⟨rfl, rfl⟩ | ⟨-, hlock'⟩
    · have hvalid := hlocks target' lock hheld
      have hacquired := hsound.acquired_le target' lock (sweep_lock_eq_some.mp hheld).1
      exact { hvalid with
        acquired_lt := by dsimp only; omega
        owned := ⟨owner, howner ▸ howned.held, hle, hactive⟩ }
    · exact hlocks target' lock' hlock'
  | acquired sessionId target lockId owner expires howned hactive hfree hroom htarget hid hnow
      hlater hle =>
    refine valid_of_parts hsound hclock hsessionsSize (size_insert_le_of_lt hroom) hsessions
      ?_
    intro target' lock' hlock'
    rcases insert_eq_some hlock' with ⟨rfl, rfl⟩ | ⟨-, hlock'⟩
    · exact ⟨rfl, htarget, hid, hnow, hlater, owner, howned.held, hle, hactive⟩
    · exact hlocks target' lock' hlock'
  | released target owner lock hheld howned =>
    refine valid_of_parts hsound hclock hsessionsSize
      (Nat.le_trans TreeMap.size_erase_le hlocksSize) hsessions ?_
    intro target' lock' hlock'
    rw [TreeMap.getElem?_erase] at hlock'
    split at hlock'
    · cases hlock'
    · exact hlocks target' lock' hlock'

end

/-- A new document that passes the check has not set the expiry of a session before its locks. -/
lemma keepsLocks_of_valid (h : Stepped sha256 call document document') (hvalid : document'.Valid) :
    call.KeepsLocks document := by
  intro sessionId expires hsets target lock hlock hsession hlive
  have hswept := sweep_lock_of_valid h.found_valid hlock hlive
  have hquiet : call.setsExpiry ≠ none := by
    rw [hsets]
    exact nofun
  obtain ⟨edited, hedited, rfl⟩ := h.edited
  cases hedited with
  | same hnone => exact absurd hnone hquiet
  | started sessionId' label lease expires' sessions _ _ _ hsets' =>
    obtain ⟨rfl, rfl⟩ := Prod.mk.inj (some.inj (hsets'.symm.trans hsets))
    obtain ⟨owner, howner, hle, -⟩ := (hvalid.locks_valid target lock hswept).owned
    rw [hsession] at howner
    obtain rfl := some.inj (TreeMap.getElem?_insert_self.symm.trans howner)
    exact hle
  | renewed sessionId' record expires' _ _ hsets' =>
    obtain ⟨rfl, rfl⟩ := Prod.mk.inj (some.inj (hsets'.symm.trans hsets))
    obtain ⟨owner, howner, hle, -⟩ := (hvalid.locks_valid target lock hswept).owned
    rw [hsession] at howner
    obtain rfl := some.inj (TreeMap.getElem?_insert_self.symm.trans howner)
    exact hle
  | ended _ _ _ _ _ hnone => exact absurd hnone hquiet
  | extended _ _ _ _ _ _ _ _ _ _ _ hnone => exact absurd hnone hquiet
  | acquired _ _ _ _ _ _ _ _ _ _ _ _ _ _ hnone => exact absurd hnone hquiet
  | released _ _ _ _ _ hnone => exact absurd hnone hquiet

/-! ## Errors -/

lemma addTtl_avoids {ttl : I64} {code : String} (h : code ≠ "runtime_state_corrupt") :
    Avoids "runtime_state_corrupt" (addTtl now ttl code) := by
  unfold addTtl
  split
  · exact errorCodes_ok _
  · exact errorCodes_error h

lemma randomUuidV4_avoids (random : Option (Fin 16 → UInt8)) :
    Avoids "runtime_state_corrupt" (randomUuidV4 random) := by
  cases random with
  | none => exact errorCodes_error (by decide)
  | some bytes => exact errorCodes_ok _

lemma checkedSession_avoids (sessionId lease : String) :
    Avoids "runtime_state_corrupt" (checkedSession sha256 document sessionId lease) := by
  unfold checkedSession
  split
  · exact errorCodes_error (by decide)
  · refine ErrorCodes.ite (errorCodes_error (by decide)) ?_
    split
    · exact errorCodes_ok _
    · exact errorCodes_error (by decide)
    · exact errorCodes_error (by decide)

/-- The errors of the operations are their own. -/
lemma operation_avoids (call : Call) :
    Avoids "runtime_state_corrupt" (operation sha256 document call) := by
  cases call with
  | sessionStart label ttl now randomId randomLease =>
    refine ErrorCodes.answered (ErrorCodes.ite (errorCodes_error (by decide)) ?_)
    exact (randomUuidV4_avoids _).bind fun _ => (randomUuidV4_avoids _).bind fun _ =>
      (addTtl_avoids (by decide)).bind fun _ => errorCodes_ok _
  | sessionList now => exact ErrorCodes.answered (errorCodes_ok _)
  | sessionStatus sessionId now =>
    refine ErrorCodes.answered ?_
    unfold sessionStatusOf
    split
    · exact errorCodes_error (by decide)
    · exact errorCodes_ok _
  | sessionVerify sessionId lease now =>
    exact ErrorCodes.answered ((checkedSession_avoids _ _).bind fun _ => errorCodes_ok _)
  | sessionRenew sessionId lease ttl now =>
    exact ErrorCodes.answered ((checkedSession_avoids _ _).bind fun _ =>
      (addTtl_avoids (by decide)).bind fun _ => errorCodes_ok _)
  | sessionEnd sessionId lease now =>
    refine ErrorCodes.answered ?_
    unfold sessionEnd
    split
    · exact errorCodes_error (by decide)
    · refine ErrorCodes.ite (errorCodes_error (by decide)) (ErrorCodes.bind ?_ fun _ => errorCodes_ok _)
      unfold SessionRecord.endAt
      split
      · exact errorCodes_ok _
      · exact errorCodes_ok _
      · exact errorCodes_error (by decide)
  | lockAcquire sessionId lease target ttl now random =>
    refine ErrorCodes.answered ((checkedSession_avoids _ _).bind fun session =>
      (addTtl_avoids (by decide)).bind fun expires =>
        ErrorCodes.ite (errorCodes_error (by decide)) ?_)
    split
    · exact ErrorCodes.ite (errorCodes_error (by decide)) (errorCodes_ok _)
    · exact ErrorCodes.ite (errorCodes_error (by decide))
        ((randomUuidV4_avoids _).bind fun _ => errorCodes_ok _)
  | lockList now => exact ErrorCodes.answered (errorCodes_ok _)
  | lockRelease lockId lease now =>
    refine ErrorCodes.answered ?_
    unfold lockRelease
    split
    · exact errorCodes_error (by decide)
    · exact (checkedSession_avoids _ _).bind fun _ => errorCodes_ok _

lemma checks_avoids (call : Call) : Avoids "runtime_state_corrupt" call.checks := by
  have hclock : Avoids "runtime_state_corrupt"
      (if call.now.val < 0 then
        .error
          { code := "runtime_clock_invalid",
            message := "runtime clock must be a non-negative UTC second value" }
      else .ok () : Except CuError Unit) := ErrorCodes.ite (errorCodes_error (by decide)) (errorCodes_ok _)
  have hlabel : ∀ label, Avoids "runtime_state_corrupt" (validateLabel label) :=
    fun label => ErrorCodes.ite (errorCodes_ok _) (errorCodes_error (by decide))
  have htarget : ∀ target, Avoids "runtime_state_corrupt" (validateTarget target) :=
    fun target => ErrorCodes.ite (errorCodes_ok _) (errorCodes_error (by decide))
  have httl : ∀ ttl code, code ≠ "runtime_state_corrupt" →
      Avoids "runtime_state_corrupt" (validateTtl ttl code) :=
    fun ttl code hcode => ErrorCodes.ite (errorCodes_error hcode) (errorCodes_ok _)
  cases call with
  | sessionStart label ttl now randomId randomLease =>
    exact (hlabel _).bind fun _ => (httl _ _ (by decide)).bind fun _ => hclock
  | sessionRenew sessionId lease ttl now => exact (httl _ _ (by decide)).bind fun _ => hclock
  | lockAcquire sessionId lease target ttl now random =>
    exact (htarget _).bind fun _ => (httl _ _ (by decide)).bind fun _ => hclock
  | _ => exact (errorCodes_ok ()).bind fun _ => hclock

/-! ## Reachable documents -/

/-- A file that the calls have left passes its checks. -/
lemma after_readable (sha256 : String → Fin 32 → UInt8) (calls : List (StoreIo × Call)) :
    ∀ held, after sha256 none calls = some held →
      store.size held ≤ store.maxBytes ∧ store.validate held = .ok () := by
  have hstart : ∀ held, (none : Option Document) = some held →
      store.size held ≤ store.maxBytes ∧ store.validate held = .ok () :=
    fun held hheld => absurd hheld nofun
  refine run_invariant (P := fun file => ∀ held, file = some held →
    store.size held ≤ store.maxBytes ∧ store.validate held = .ok ()) (fun file call hfile => ?_)
    hstart calls
  intro held hheld
  rcases perform_file sha256 call.1 file call.2 with hsame | ⟨document', hwritten, -, hvalid, hsize⟩
  · exact hfile held (hsame.symm.trans hheld)
  · obtain rfl := some.inj (hwritten.symm.trans hheld)
    exact ⟨hsize, validateDocument_eq_ok.mpr hvalid⟩

/-- The edit of a call passes the check exactly when the call keeps the locks. -/
lemma valid_iff (hsound : document.Sound) (hchecks : call.checks = .ok ()) {answer : Answer}
    (h : withLockedDocument sha256 call document = .ok (answer, document')) :
    validateDocument document' = .ok () ↔ call.KeepsLocks document := by
  have hstepped := stepped_of_withLockedDocument hsound.valid hchecks h
  rw [validateDocument_eq_ok]
  constructor
  · exact keepsLocks_of_valid hstepped
  · intro hkeeps
    obtain ⟨edited, hedited, rfl⟩ := hstepped.edited
    exact valid_of_edited hsound hstepped.clock_le hedited hkeeps

/-- A call that keeps the locks does not find the state corrupt. -/
lemma perform_avoids (calls : List (StoreIo × Call)) (io : StoreIo)
    (hkeeps : call.KeepsLocks (store.current (after sha256 none calls))) :
    Avoids "runtime_state_corrupt" (perform sha256 io (after sha256 none calls) call).1 := by
  intro error herror
  unfold perform DocumentStore.guarded at herror
  split at herror
  · rename_i e hchecks
    obtain rfl := Except.error.inj herror
    exact checks_avoids call e hchecks
  · rename_i hchecks
    cases DocumentStore.transact_fails (after_readable sha256 calls) herror with
    | contended => decide
    | unavailable => decide
    | unreadable => decide
    | edit _ hedit =>
      unfold withLockedDocument at hedit
      exact ErrorCodes.ite (errorCodes_error (by decide))
        ((operation_avoids call).bind fun _ => errorCodes_ok _) error hedit
    | invalid answer document' _ hedit hinvalid =>
      have hvalid := (valid_iff (after_sound sha256 calls) hchecks hedit).mpr hkeeps
      exact absurd (hvalid.symm.trans hinvalid) nofun
    | limit => decide
    | unpublished => decide

/-- The owner of an active session can renew it, as far as its own checks go. -/
lemma renew_edits {ttl : UInt64} (hrecord : document.sessions[sessionId]? = some record)
    (hactive : record.state = .active) (hlive : now.val < record.expiresAtUtcS.val)
    (hlease : record.leaseSha256 = sha256Hex sha256 lease) (httl : ttl.toNat ≤ 86400)
    (hclock : document.lastNowUtcS.val ≤ now.val) (hroom : now.val + ttl.toNat < 2 ^ 63) :
    ∃ answer document',
      withLockedDocument sha256 (.sessionRenew sessionId lease ttl now) document
        = .ok (answer, document') := by
  have hswept : (sweepExpired document now).sessions[sessionId]? = some record :=
    sweep_session_eq_some.mpr ⟨record, hrecord, (SessionRecord.sweep_live hlive).symm⟩
  have hsession : checkedSession sha256 (sweepExpired document now) sessionId lease
      = .ok record := by
    unfold checkedSession
    rw [hswept]
    dsimp only
    rw [if_neg (leaseChecked_iff.mpr hlease), hactive]
  have hcast : (asI64 ttl).val = ttl.toNat := by
    unfold asI64
    exact if_pos (by omega)
  obtain ⟨expires, hexpires⟩ : ∃ expires, addTtl now (asI64 ttl) "runtime_ttl_invalid"
      = .ok expires := by
    have hlow := now.property.1
    unfold addTtl I64.checkedAdd
    rw [dif_pos (by rw [hcast]; omega)]
    exact ⟨_, rfl⟩
  have hrollback : ¬ now.val < document.lastNowUtcS.val := by omega
  unfold withLockedDocument
  rw [show (Call.sessionRenew sessionId lease ttl now).now = now from rfl, if_neg hrollback]
  simp only [operation, sessionRenew, hsession, hexpires, bind, Except.bind, answered, Except.map]
  exact ⟨_, _, rfl⟩

/-- In every state that the calls can leave: the edit of a call whose own checks pass is accepted
exactly when the call does not set the expiry of a session before that of a lock the session holds;
then no call finds the state corrupt; and a renewal passes its own checks whatever the session
holds. -/
theorem valid_iff_keepsLocks (sha256 : String → Fin 32 → UInt8)
    (calls : List (StoreIo × Call)) :
    (∀ call answer document', call.checks = .ok () →
      withLockedDocument sha256 call (store.current (after sha256 none calls))
        = .ok (answer, document') →
      (validateDocument document' = .ok () ↔
        call.KeepsLocks (store.current (after sha256 none calls)))) ∧
    (∀ io call error, call.KeepsLocks (store.current (after sha256 none calls)) →
      (perform sha256 io (after sha256 none calls) call).1 = .error error →
      error.code ≠ "runtime_state_corrupt") ∧
    (∀ (sessionId lease : String) (ttl : UInt64) (now : I64) (record : SessionRecord),
      (store.current (after sha256 none calls)).sessions[sessionId]? = some record →
      record.state = .active → now.val < record.expiresAtUtcS.val →
      record.leaseSha256 = sha256Hex sha256 lease →
      (Call.sessionRenew sessionId lease ttl now).checks = .ok () →
      (store.current (after sha256 none calls)).lastNowUtcS.val ≤ now.val →
      now.val + ttl.toNat < 2 ^ 63 →
      ∃ answer document',
        withLockedDocument sha256 (.sessionRenew sessionId lease ttl now)
            (store.current (after sha256 none calls)) = .ok (answer, document') ∧
          (validateDocument document' = .ok () ↔
            ∀ (target : String) (lock : LockRecord),
              (store.current (after sha256 none calls)).locks[target]? = some lock →
              lock.sessionId = sessionId → now.val < lock.expiresAtUtcS.val →
              lock.expiresAtUtcS.val ≤ now.val + ttl.toNat)) := by
  have hsound := after_sound sha256 calls
  refine ⟨fun call answer document' hchecks hedit => valid_iff hsound hchecks hedit,
    fun io call error hkeeps herror => perform_avoids calls io hkeeps error herror, ?_⟩
  intro sessionId lease ttl now record hrecord hactive hlive hlease hchecks hclock hroom
  have httl := (validateTtl_eq_ok (checks_eq_ok hchecks).2).2
  obtain ⟨answer, document', hedit⟩ :=
    renew_edits hrecord hactive hlive hlease httl hclock hroom
  refine ⟨answer, document', hedit, (valid_iff hsound hchecks hedit).trans ?_⟩
  constructor
  · intro hkeeps target lock hlock hsession hexpires
    exact hkeeps sessionId _ rfl target lock hlock hsession hexpires
  · intro hkeeps sessionId' expires hsets target lock hlock hsession hexpires
    cases hsets
    exact hkeeps target lock hlock hsession hexpires

/-- A session that holds a lock for 50 seconds is renewed for 10. -/
theorem renew_corrupts :
    (Call.sessionRenew (uuidV4 fun _ => 0) (uuidV4 fun _ => 1) 10 zeroTime).checks.isOk = true ∧
      (withLockedDocument leaseDigest
        (.sessionRenew (uuidV4 fun _ => 0) (uuidV4 fun _ => 1) 10 zeroTime)
        (store.current (after leaseDigest none lockExample))).isOk = true ∧
      (perform leaseDigest ⟨.acquired, true, .published⟩ (after leaseDigest none lockExample)
          (.sessionRenew (uuidV4 fun _ => 0) (uuidV4 fun _ => 1) 10 zeroTime)).1
        = .error (corrupt "runtime lock record is invalid") := by
  refine ⟨by decide +kernel, by decide +kernel, ?_⟩
  have hfails : (match (perform leaseDigest ⟨.acquired, true, .published⟩
      (after leaseDigest none lockExample)
      (.sessionRenew (uuidV4 fun _ => 0) (uuidV4 fun _ => 1) 10 zeroTime)).1 with
    | .error error => decide (error = corrupt "runtime lock record is invalid")
    | .ok _ => false) = true := by decide +kernel
  split at hfails
  · rename_i error herror
    rw [herror, of_decide_eq_true hfails]
  · cases hfails

end

end Agenterm.Cu.Runtime
