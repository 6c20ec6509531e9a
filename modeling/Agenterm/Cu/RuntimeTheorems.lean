import Agenterm.Cu.RuntimeCoordinator
import Agenterm.Lib.Keyed

/-!
# What the calls do to sessions and locks

`Document.Valid` says what the check on documents demands, and `Edited` what a call can make of the
swept document. `session_step` and `lock_step` follow one session and one lock through a call:
nobody but the owner of a session, or the clock, touches it or its locks.
-/

namespace Agenterm.Cu.Runtime

open Std Option Lib

/-! ## Valid documents -/

/-- What the check on a session demands. -/
structure SessionRecord.Valid (record : SessionRecord) (id : String) : Prop where
  id_eq : id = record.sessionId
  id_valid : isLowercaseUuidV4 record.sessionId = true
  label_valid : isLine 128 record.label = true
  lease_valid : validDigest record.leaseSha256 = true
  created_nonneg : 0 ≤ record.createdAtUtcS.val
  created_lt : record.createdAtUtcS.val < record.expiresAtUtcS.val
  terminal_iff : record.state = .active ↔ record.terminalAtUtcS = none
  terminal_ge : ∀ time, record.terminalAtUtcS = some time →
    record.createdAtUtcS.val ≤ time.val

/-- The session of a lock is active, and does not expire before the lock. -/
def LockRecord.OwnedIn (record : LockRecord) (sessions : TreeMap String SessionRecord) : Prop :=
  ∃ owner : SessionRecord, sessions[record.sessionId]? = some owner ∧
    record.expiresAtUtcS.val ≤ owner.expiresAtUtcS.val ∧ owner.state = .active

/-- What the check on a lock demands. -/
structure LockRecord.Valid (record : LockRecord) (sessions : TreeMap String SessionRecord)
    (target : String) : Prop where
  target_eq : target = record.target
  target_valid : validateTarget record.target = .ok ()
  id_valid : isLowercaseUuidV4 record.lockId = true
  acquired_nonneg : 0 ≤ record.acquiredAtUtcS.val
  acquired_lt : record.acquiredAtUtcS.val < record.expiresAtUtcS.val
  owned : record.OwnedIn sessions

lemma isOk_iff {α : Type} {x : Except CuError α} : x.isOk = true ↔ ∃ a, x = .ok a := by
  cases x with
  | error e => simp [Except.isOk, Except.toBool]
  | ok a => simp [Except.isOk, Except.toBool]

lemma validateLabel_eq_ok {label : String} :
    validateLabel label = .ok () ↔ isLine 128 label = true := by
  unfold validateLabel
  split <;> simp [*]

variable {answer : Answer} {call : Call} {id sessionId target : String} {lock : LockRecord}
  {record : SessionRecord} {sessions : TreeMap String SessionRecord} {ttl : UInt64}

lemma validSession_iff : validSession id record = true ↔ record.Valid id := by
  unfold validSession
  simp only [Bool.and_eq_true, beq_iff_eq, decide_eq_true_eq, isOk_iff, all_eq_true]
  constructor
  · rintro ⟨⟨⟨⟨⟨⟨⟨hid, huuid⟩, ⟨_, hlabel⟩⟩, hlease⟩, hcreated⟩, hexpires⟩, hstate⟩, hterminal⟩
    refine ⟨hid, huuid, validateLabel_eq_ok.mp hlabel, hlease, hcreated, hexpires, ?_, hterminal⟩
    rw [← isNone_iff_eq_none, ← hstate, beq_iff_eq]
  · intro h
    refine ⟨⟨⟨⟨⟨⟨⟨h.id_eq, h.id_valid⟩, ⟨(), validateLabel_eq_ok.mpr h.label_valid⟩⟩, h.lease_valid⟩,
      h.created_nonneg⟩, h.created_lt⟩, ?_⟩, h.terminal_ge⟩
    rw [Bool.eq_iff_iff, beq_iff_eq, isNone_iff_eq_none]
    exact h.terminal_iff

lemma validLock_iff {record : LockRecord} :
    validLock sessions target record = true ↔ record.Valid sessions target := by
  unfold validLock
  simp only [Bool.and_eq_true, beq_iff_eq, decide_eq_true_eq, isOk_iff]
  constructor
  · rintro ⟨⟨⟨⟨⟨⟨htarget, ⟨_, hvalid⟩⟩, hid⟩, -⟩, hacquired⟩, hlt⟩, howner⟩
    refine ⟨htarget, hvalid, hid, hacquired, hlt, ?_⟩
    split at howner
    · cases howner
    · rename_i owner hfound
      rw [Bool.and_eq_true, decide_eq_true_eq, beq_iff_eq] at howner
      exact ⟨owner, hfound, howner⟩
  · intro h
    have hacquired := h.acquired_nonneg
    have hlt := h.acquired_lt
    obtain ⟨owner, hfound, hexpires, hactive⟩ := h.owned
    refine ⟨⟨⟨⟨⟨⟨h.target_eq, ⟨(), h.target_valid⟩⟩, h.id_valid⟩, by omega⟩, hacquired⟩, hlt⟩, ?_⟩
    rw [hfound]
    simp [hexpires, hactive]

/-- What the check on a document demands. -/
structure Document.Valid (document : Document) : Prop where
  schema_eq : document.schemaVersion = Runtime.schemaVersion
  clock_nonneg : 0 ≤ document.lastNowUtcS.val
  sessions_le : document.sessions.size ≤ maxSessions
  locks_le : document.locks.size ≤ maxLocks
  sessions_valid : ∀ (id : String) (record : SessionRecord),
    document.sessions[id]? = some record → record.Valid id
  locks_valid : ∀ (target : String) (record : LockRecord),
    document.locks[target]? = some record → record.Valid document.sessions target

lemma guard_eq_ok {p : Bool} {error : CuError} :
    (if p then Except.ok () else .error error) = .ok () ↔ p = true := by
  cases p <;> simp

lemma validateDocument_eq_ok {document : Document} :
    validateDocument document = .ok () ↔ document.Valid := by
  unfold validateDocument
  rw [ite_error_eq_ok, ite_error_eq_ok, ite_error_eq_ok, bind_unit_eq_ok,
    forM_toList_eq_ok, forM_toList_eq_ok, not_not]
  simp only [guard_eq_ok, validSession_iff, validLock_iff]
  constructor
  · rintro ⟨hschema, hclock, hsizes, hsessions, hlocks⟩
    exact ⟨hschema, by omega, by omega, by omega, hsessions, hlocks⟩
  · intro h
    have hclock := h.clock_nonneg
    have hsessions := h.sessions_le
    have hlocks := h.locks_le
    exact ⟨h.schema_eq, by omega, by omega, h.sessions_valid, h.locks_valid⟩

/-! ## The sweep -/

section
variable {document : Document} {now : I64}

lemma sweep_session (id : String) :
    (sweepExpired document now).sessions[id]? = (document.sessions[id]?).map (·.sweep now) := by
  unfold sweepExpired
  rw [TreeMap.getElem?_map]

lemma sweep_session_eq_some :
    (sweepExpired document now).sessions[id]? = some record ↔
      ∃ held, document.sessions[id]? = some held ∧ record = held.sweep now := by
  rw [sweep_session, map_eq_some_iff]
  simp only [eq_comm]

/-- A session that is still active after the sweep is the same, and has not expired. -/
lemma SessionRecord.sweep_active (h : (record.sweep now).state = .active) :
    record.sweep now = record ∧ record.state = .active ∧ now.val < record.expiresAtUtcS.val := by
  unfold SessionRecord.sweep at *
  split at h
  · cases h
  · rename_i hdue
    rw [if_neg hdue]
    refine ⟨rfl, h, ?_⟩
    by_contra hexpired
    exact hdue ⟨h, by omega⟩

lemma SessionRecord.sweep_live (h : now.val < record.expiresAtUtcS.val) :
    record.sweep now = record := by
  unfold SessionRecord.sweep
  rw [if_neg]
  rintro ⟨-, hexpired⟩
  omega

@[simp] lemma SessionRecord.sweep_leaseSha256 (record : SessionRecord) :
    (record.sweep now).leaseSha256 = record.leaseSha256 := by
  unfold SessionRecord.sweep
  split <;> rfl

@[simp] lemma SessionRecord.sweep_sessionId (record : SessionRecord) :
    (record.sweep now).sessionId = record.sessionId := by
  unfold SessionRecord.sweep
  split <;> rfl

@[simp] lemma SessionRecord.sweep_createdAtUtcS (record : SessionRecord) :
    (record.sweep now).createdAtUtcS = record.createdAtUtcS := by
  unfold SessionRecord.sweep
  split <;> rfl

lemma isActive_iff :
    isActive sessions id = true ↔
      ∃ session : SessionRecord, sessions[id]? = some session ∧ session.state = .active := by
  unfold isActive
  simp only [any_eq_true, beq_iff_eq]

lemma sweep_lock_eq_some :
    (sweepExpired document now).locks[target]? = some lock ↔
      document.locks[target]? = some lock ∧ now.val < lock.expiresAtUtcS.val ∧
        isActive (sweepExpired document now).sessions lock.sessionId = true := by
  show (TreeMap.filter _ document.locks)[target]? = some lock ↔ _
  rw [filter_eq_some, Bool.and_eq_true, decide_eq_true_eq]
  rfl

/-- In a document that passes the check, the sweep drops only the locks that are due. -/
lemma sweep_lock_of_valid (hvalid : document.Valid) (hlock : document.locks[target]? = some lock)
    (hlive : now.val < lock.expiresAtUtcS.val) :
    (sweepExpired document now).locks[target]? = some lock := by
  obtain ⟨owner, howner, hexpires, hactive⟩ := (hvalid.locks_valid target lock hlock).owned
  refine sweep_lock_eq_some.mpr ⟨hlock, hlive, isActive_iff.mpr ⟨owner, ?_, hactive⟩⟩
  exact sweep_session_eq_some.mpr ⟨owner, howner, (SessionRecord.sweep_live (by omega)).symm⟩

end

/-! ## Making room -/

/-- What is left of the sessions when some that are not active were removed. -/
structure Evicted (sessions sessions' : TreeMap String SessionRecord) : Prop where
  held : ∀ (id : String) (record : SessionRecord),
    sessions'[id]? = some record → sessions[id]? = some record
  active : ∀ (id : String) (record : SessionRecord), sessions[id]? = some record →
    record.state = .active → sessions'[id]? = some record

lemma oldestTerminal_eq_some (h : oldestTerminal sessions = some record) :
    record.state ≠ .active ∧ ∃ id : String, sessions[id]? = some record := by
  have hchosen := mem_of_foldl_choose (fun chosen next => ?_) h
  · rcases hchosen with hnone | hmem
    · cases hnone
    · obtain ⟨⟨id, found⟩, hentry, hfound⟩ := List.mem_filterMap.mp hmem
      dsimp only at hfound
      split at hfound
      · rename_i hstate
        cases hfound
        exact ⟨hstate, id, TreeMap.mem_toList_iff_getElem?_eq_some.mp hentry⟩
      · cases hfound
  · cases chosen with
    | none => exact .inl rfl
    | some best =>
      dsimp only
      split
      · exact .inl rfl
      · exact .inr rfl

/-- Sessions are filed under their ids. -/
def Filed (sessions : TreeMap String SessionRecord) : Prop :=
  ∀ (id : String) (record : SessionRecord), sessions[id]? = some record → id = record.sessionId

lemma evicted_rounds {rounds : Nat} (hfiled : Filed sessions) :
    Evicted sessions (evictOldestTerminalUntilRoom rounds sessions) := by
  induction rounds generalizing sessions with
  | zero => exact ⟨fun _ _ h => h, fun _ _ h _ => h⟩
  | succ rounds ih =>
    unfold evictOldestTerminalUntilRoom
    split
    · split
      · exact ⟨fun _ _ h => h, fun _ _ h _ => h⟩
      · rename_i oldest holdest
        obtain ⟨hstate, key, hkey⟩ := oldestTerminal_eq_some holdest
        have herase : ∀ (id : String) (record : SessionRecord),
            (sessions.erase oldest.sessionId)[id]? = some record →
              sessions[id]? = some record :=
          fun id record h => (erase_eq_some.mp h).2
        have hrest := ih fun id record h => hfiled id record (herase id record h)
        refine ⟨fun id record h => herase id record (hrest.held id record h), ?_⟩
        intro id record hrecord hactive
        refine hrest.active id record ?_ hactive
        have hne : id ≠ oldest.sessionId := by
          rintro rfl
          rw [hfiled key oldest hkey] at hkey
          obtain rfl := some.inj (hkey.symm.trans hrecord)
          exact hstate hactive
        exact erase_eq_some.mpr ⟨hne, hrecord⟩
    · exact ⟨fun _ _ h => h, fun _ _ h _ => h⟩

/-! ## What a call makes of the swept document -/

/-- The lease that a call carries. -/
def Call.lease : Call → Option String
  | .sessionVerify _ lease _ => some lease
  | .sessionRenew _ lease _ _ => some lease
  | .sessionEnd _ lease _ => some lease
  | .lockAcquire _ lease _ _ _ _ => some lease
  | .lockRelease _ lease _ => some lease
  | _ => none

/-- The session id that a call draws. -/
def Call.drawnSession : Call → Option String
  | .sessionStart _ _ _ (some bytes) _ => some (uuidV4 bytes)
  | _ => none

/-- The session that a call gives a new expiry, and the expiry. -/
def Call.setsExpiry : Call → Option (String × Int)
  | .sessionStart _ ttl now (some bytes) _ => some (uuidV4 bytes, now.val + ttl.toNat)
  | .sessionRenew sessionId _ ttl now => some (sessionId, now.val + ttl.toNat)
  | _ => none

/-- A call carries the lease of a session. -/
structure Owned (sha256 : String → Fin 32 → UInt8) (call : Call)
    (sessions : TreeMap String SessionRecord) (sessionId : String) (record : SessionRecord) :
    Prop where
  held : sessions[sessionId]? = some record
  lease : ∃ lease, call.lease = some lease ∧ record.leaseSha256 = sha256Hex sha256 lease

/-- The record of a session that starts. -/
def startedSession (sha256 : String → Fin 32 → UInt8) (sessionId label lease : String)
    (now expires : I64) : SessionRecord where
  sessionId := sessionId
  label := label
  leaseSha256 := sha256Hex sha256 lease
  state := .active
  createdAtUtcS := now
  expiresAtUtcS := expires
  terminalAtUtcS := none

/-- What a call makes of the swept document. -/
inductive Edited (sha256 : String → Fin 32 → UInt8) (call : Call) (document : Document) :
    Document → Prop
  | same (quiet : call.setsExpiry = none) : Edited sha256 call document document
  | started (sessionId label lease : String) (expires : I64)
    (sessions : TreeMap String SessionRecord) (evicted : Evicted document.sessions sessions)
    (room : sessions.size < maxSessions) (drawn : call.drawnSession = some sessionId)
    (sets : call.setsExpiry = some (sessionId, expires.val))
    (id_valid : isLowercaseUuidV4 sessionId = true) (label_valid : isLine 128 label = true)
    (clock_nonneg : 0 ≤ call.now.val) (expires_gt : call.now.val < expires.val) :
    Edited sha256 call document
      { document with
        sessions := sessions.insert sessionId
          (startedSession sha256 sessionId label lease call.now expires) }
  | renewed (sessionId : String) (record : SessionRecord) (expires : I64)
    (owned : Owned sha256 call document.sessions sessionId record)
    (active : record.state = .active) (sets : call.setsExpiry = some (sessionId, expires.val))
    (expires_gt : call.now.val < expires.val) :
    Edited sha256 call document
      { document with
        sessions := document.sessions.insert sessionId { record with expiresAtUtcS := expires } }
  | ended (sessionId : String) (record record' : SessionRecord)
    (owned : Owned sha256 call document.sessions sessionId record)
    (ended : record.endAt call.now = .ok record') (quiet : call.setsExpiry = none) :
    Edited sha256 call document
      { document with
        sessions := document.sessions.insert sessionId record'
        locks := document.locks.filter fun _ lock => lock.sessionId ≠ sessionId }
  | extended (sessionId target : String) (owner : SessionRecord) (lock : LockRecord)
    (expires : I64) (owned : Owned sha256 call document.sessions sessionId owner)
    (active : owner.state = .active) (held : document.locks[target]? = some lock)
    (owner_eq : lock.sessionId = sessionId) (expires_gt : call.now.val < expires.val)
    (expires_le : expires.val ≤ owner.expiresAtUtcS.val) (quiet : call.setsExpiry = none) :
    Edited sha256 call document
      { document with
        locks := document.locks.insert target { lock with expiresAtUtcS := expires } }
  | acquired (sessionId target lockId : String) (owner : SessionRecord) (expires : I64)
    (owned : Owned sha256 call document.sessions sessionId owner)
    (active : owner.state = .active) (free : document.locks[target]? = none)
    (room : document.locks.size < maxLocks) (target_valid : validateTarget target = .ok ())
    (id_valid : isLowercaseUuidV4 lockId = true) (clock_nonneg : 0 ≤ call.now.val)
    (expires_gt : call.now.val < expires.val)
    (expires_le : expires.val ≤ owner.expiresAtUtcS.val) (quiet : call.setsExpiry = none) :
    Edited sha256 call document
      { document with
        locks := document.locks.insert target
          { lockId, target, sessionId, acquiredAtUtcS := call.now, expiresAtUtcS := expires } }
  | released (target : String) (owner : SessionRecord) (lock : LockRecord)
    (held : document.locks[target]? = some lock)
    (owned : Owned sha256 call document.sessions lock.sessionId owner)
    (quiet : call.setsExpiry = none) :
    Edited sha256 call document { document with locks := document.locks.erase target }

variable {code : String} {random : Option (Fin 16 → UInt8)}

section
variable {sha256 : String → Fin 32 → UInt8} {document document' : Document}

lemma leaseChecked_iff {lease : String} :
    ¬ (!constantTimeEqual record.leaseSha256 (sha256Hex sha256 lease)) = true ↔
      record.leaseSha256 = sha256Hex sha256 lease := by
  rw [Bool.not_eq_true, Bool.not_eq_false', constantTimeEqual_iff]

lemma checkedSession_eq_ok {lease : String}
    (h : checkedSession sha256 document sessionId lease = .ok record) :
    document.sessions[sessionId]? = some record ∧
      record.leaseSha256 = sha256Hex sha256 lease ∧ record.state = .active := by
  unfold checkedSession at h
  split at h
  · cases h
  · rename_i found hfound
    rw [ite_error_eq_ok, leaseChecked_iff] at h
    obtain ⟨hlease, h⟩ := h
    split at h
    · rename_i hstate
      cases h
      exact ⟨hfound, hlease, hstate⟩
    · cases h
    · cases h

lemma validateTtl_eq_ok (h : validateTtl ttl code = .ok ()) :
    1 ≤ ttl.toNat ∧ ttl.toNat ≤ 86400 := by
  unfold validateTtl at h
  rw [ite_error_eq_ok, not_not] at h
  exact h.1

variable {now : I64}

lemma addTtl_eq_ok {expires : I64} {code' : String} (httl : validateTtl ttl code = .ok ())
    (h : addTtl now (asI64 ttl) code' = .ok expires) :
    expires.val = now.val + ttl.toNat ∧ now.val < expires.val := by
  have hrange := validateTtl_eq_ok httl
  unfold addTtl at h
  split at h
  · rename_i sum hsum
    cases h
    have hval := I64.checkedAdd_eq_some hsum
    have hcast : (asI64 ttl).val = ttl.toNat := by
      unfold asI64
      exact if_pos (by omega)
    rw [hcast] at hval
    exact ⟨hval, by omega⟩
  · cases h

lemma randomUuidV4_eq_ok (h : randomUuidV4 random = .ok id) :
    ∃ bytes, random = some bytes ∧ id = uuidV4 bytes := by
  cases random with
  | none => cases h
  | some bytes => exact ⟨bytes, rfl, (Except.ok.inj h).symm⟩

/-- What the checks of a call demand of its arguments. -/
def Call.ArgumentsValid : Call → Prop
  | .sessionStart label ttl _ _ _ =>
    isLine 128 (label.getD defaultSessionLabel) = true ∧
      validateTtl ttl "runtime_ttl_invalid" = .ok ()
  | .sessionRenew _ _ ttl _ => validateTtl ttl "runtime_ttl_invalid" = .ok ()
  | .lockAcquire _ _ target ttl _ _ =>
    validateTarget target = .ok () ∧ validateTtl ttl "runtime_lock_ttl_invalid" = .ok ()
  | _ => True

lemma checks_eq_ok (h : call.checks = .ok ()) : 0 ≤ call.now.val ∧ call.ArgumentsValid := by
  unfold Call.checks at h
  cases call with
  | sessionStart label ttl now randomId randomLease =>
    simp only [bind_unit_eq_ok, ite_error_eq_ok, validateLabel_eq_ok] at h
    obtain ⟨hlabel, httl, hnow, -⟩ := h
    exact ⟨by omega, hlabel, httl⟩
  | sessionRenew sessionId lease ttl now =>
    simp only [bind_unit_eq_ok, ite_error_eq_ok] at h
    obtain ⟨httl, hnow, -⟩ := h
    exact ⟨by omega, httl⟩
  | lockAcquire sessionId lease target ttl now random =>
    simp only [bind_unit_eq_ok, ite_error_eq_ok] at h
    obtain ⟨htarget, httl, hnow, -⟩ := h
    exact ⟨by omega, htarget, httl⟩
  | _ =>
    simp only [bind_unit_eq_ok, ite_error_eq_ok] at h
    exact ⟨by omega, trivial⟩

lemma edited_of_sessionStart {label : Option String}
    {randomId randomLease : Option (Fin 16 → UInt8)} {start : SessionStart}
    (hchecks : (Call.sessionStart label ttl now randomId randomLease).checks = .ok ())
    (hfiled : Filed document.sessions)
    (h : sessionStart sha256 label (asI64 ttl) now randomId randomLease document
      = .ok (start, document')) :
    Edited sha256 (.sessionStart label ttl now randomId randomLease) document document' ∧
      ∃ expires, document'.sessions[start.sessionId]?
        = some (startedSession sha256 start.sessionId start.label start.lease now expires) := by
  obtain ⟨hnow, hlabel, httl⟩ := checks_eq_ok hchecks
  unfold sessionStart at h
  rw [ite_error_eq_ok] at h
  obtain ⟨hroom, h⟩ := h
  obtain ⟨sessionId, hid, h⟩ := bind_eq_ok.mp h
  obtain ⟨lease, hlease, h⟩ := bind_eq_ok.mp h
  obtain ⟨expires, hexpires, h⟩ := bind_eq_ok.mp h
  cases h
  obtain ⟨bytes, rfl, rfl⟩ := randomUuidV4_eq_ok hid
  obtain ⟨hval, hlater⟩ := addTtl_eq_ok httl hexpires
  have hsets : (Call.sessionStart label ttl now (some bytes) randomLease).setsExpiry
      = some (uuidV4 bytes, expires.val) := by rw [hval]; rfl
  exact ⟨.started (uuidV4 bytes) _ lease expires _ (evicted_rounds hfiled) (by omega) rfl hsets
    (isLowercaseUuidV4_uuidV4 bytes) hlabel hnow hlater, expires, TreeMap.getElem?_insert_self⟩

lemma edited_of_sessionRenew {lease : String} {status : SessionStatus}
    (hchecks : (Call.sessionRenew sessionId lease ttl now).checks = .ok ())
    (h : sessionRenew sha256 sessionId lease (asI64 ttl) now document = .ok (status, document')) :
    Edited sha256 (.sessionRenew sessionId lease ttl now) document document' := by
  obtain ⟨hnow, httl⟩ := checks_eq_ok hchecks
  unfold sessionRenew at h
  obtain ⟨record, hrecord, h⟩ := bind_eq_ok.mp h
  obtain ⟨expires, hexpires, h⟩ := bind_eq_ok.mp h
  cases h
  obtain ⟨hheld, hlease, hactive⟩ := checkedSession_eq_ok hrecord
  obtain ⟨hval, hlater⟩ := addTtl_eq_ok httl hexpires
  have hsets : (Call.sessionRenew sessionId lease ttl now).setsExpiry
      = some (sessionId, expires.val) := by rw [hval]; rfl
  exact .renewed sessionId record expires ⟨hheld, lease, rfl, hlease⟩ hactive hsets hlater

lemma edited_of_sessionEnd {lease : String} {result : SessionEnd}
    (h : sessionEnd sha256 sessionId lease now document = .ok (result, document')) :
    Edited sha256 (.sessionEnd sessionId lease now) document document' := by
  unfold sessionEnd at h
  split at h
  · cases h
  · rename_i record hheld
    rw [ite_error_eq_ok, leaseChecked_iff] at h
    obtain ⟨hlease, h⟩ := h
    obtain ⟨record', hended, h⟩ := bind_eq_ok.mp h
    cases h
    exact .ended sessionId record record' ⟨hheld, lease, rfl, hlease⟩ hended rfl

lemma edited_of_lockAcquire {lease : String} {result : LockAcquire}
    (hchecks : (Call.lockAcquire sessionId lease target ttl now random).checks = .ok ())
    (h : lockAcquire sha256 sessionId lease target (asI64 ttl) now random document
      = .ok (result, document')) :
    Edited sha256 (.lockAcquire sessionId lease target ttl now random) document document' := by
  obtain ⟨hnow, htarget, httl⟩ := checks_eq_ok hchecks
  unfold lockAcquire at h
  obtain ⟨owner, howner, h⟩ := bind_eq_ok.mp h
  obtain ⟨expires, hexpires, h⟩ := bind_eq_ok.mp h
  obtain ⟨hheld, hlease, hactive⟩ := checkedSession_eq_ok howner
  obtain ⟨-, hlater⟩ := addTtl_eq_ok httl hexpires
  rw [ite_error_eq_ok] at h
  obtain ⟨houtlive, h⟩ := h
  split at h
  · rename_i existing hexisting
    rw [ite_error_eq_ok, not_not] at h
    obtain ⟨hsession, h⟩ := h
    cases h
    exact .extended sessionId target owner existing expires ⟨hheld, lease, rfl, hlease⟩ hactive
      hexisting hsession hlater (by omega) rfl
  · rename_i hfree
    rw [ite_error_eq_ok] at h
    obtain ⟨hroom, h⟩ := h
    obtain ⟨lockId, hid, h⟩ := bind_eq_ok.mp h
    cases h
    obtain ⟨bytes, -, rfl⟩ := randomUuidV4_eq_ok hid
    exact .acquired sessionId target _ owner expires ⟨hheld, lease, rfl, hlease⟩ hactive hfree
      (by omega) htarget (isLowercaseUuidV4_uuidV4 bytes) hnow hlater (by omega) rfl

lemma edited_of_lockRelease {lockId lease : String} {status : LockStatus}
    (h : lockRelease sha256 lockId lease document = .ok (status, document')) :
    Edited sha256 (.lockRelease lockId lease now) document document' := by
  unfold lockRelease at h
  split at h
  · cases h
  · rename_i target existing hfound
    obtain ⟨owner, howner, h⟩ := bind_eq_ok.mp h
    cases h
    obtain ⟨hheld, hlease, -⟩ := checkedSession_eq_ok howner
    have hlock := TreeMap.mem_toList_iff_getElem?_eq_some.mp (List.mem_of_find?_eq_some hfound)
    exact .released target owner existing hlock ⟨hheld, lease, rfl, hlease⟩ rfl

/-- Every operation is one of the edits. -/
lemma edited_of_operation (hchecks : call.checks = .ok ()) (hfiled : Filed document.sessions)
    (h : operation sha256 document call = .ok (answer, document')) :
    Edited sha256 call document document' := by
  cases call with
  | sessionStart label ttl now randomId randomLease =>
    obtain ⟨start, -, h⟩ := answered_eq_ok h
    exact (edited_of_sessionStart hchecks hfiled h).1
  | sessionList now =>
    obtain ⟨statuses, -, h⟩ := answered_eq_ok h
    cases h
    exact .same rfl
  | sessionStatus sessionId now =>
    obtain ⟨status, -, h⟩ := answered_eq_ok h
    unfold sessionStatusOf at h
    split at h
    · cases h
    · cases h
      exact .same rfl
  | sessionVerify sessionId lease now =>
    obtain ⟨status, -, h⟩ := answered_eq_ok h
    obtain ⟨record, -, h⟩ := bind_eq_ok.mp h
    cases h
    exact .same rfl
  | sessionRenew sessionId lease ttl now =>
    obtain ⟨status, -, h⟩ := answered_eq_ok h
    exact edited_of_sessionRenew hchecks h
  | sessionEnd sessionId lease now =>
    obtain ⟨result, -, h⟩ := answered_eq_ok h
    exact edited_of_sessionEnd h
  | lockAcquire sessionId lease target ttl now random =>
    obtain ⟨result, -, h⟩ := answered_eq_ok h
    exact edited_of_lockAcquire hchecks h
  | lockList now =>
    obtain ⟨statuses, -, h⟩ := answered_eq_ok h
    cases h
    exact .same rfl
  | lockRelease lockId lease now =>
    obtain ⟨status, -, h⟩ := answered_eq_ok h
    exact edited_of_lockRelease h

/-! ## One call -/

/-- A call has made a new document, which may still fail the check. -/
structure Stepped (sha256 : String → Fin 32 → UInt8) (call : Call)
    (document document' : Document) : Prop where
  found_valid : document.Valid
  clock_le : document.lastNowUtcS.val ≤ call.now.val
  edited : ∃ edited, Edited sha256 call (sweepExpired document call.now) edited ∧
    document' = { edited with lastNowUtcS := call.now }

lemma sweep_filed (h : document.Valid) : Filed (sweepExpired document now).sessions := by
  intro id record hrecord
  obtain ⟨held, hheld, rfl⟩ := sweep_session_eq_some.mp hrecord
  rw [SessionRecord.sweep_sessionId]
  exact (h.sessions_valid id held hheld).id_eq

lemma withLockedDocument_eq_ok
    (h : withLockedDocument sha256 call document = .ok (answer, document')) :
    document.lastNowUtcS.val ≤ call.now.val ∧
      ∃ edited, operation sha256 (sweepExpired document call.now) call = .ok (answer, edited) ∧
        document' = { edited with lastNowUtcS := call.now } := by
  unfold withLockedDocument at h
  rw [ite_error_eq_ok, bind_eq_ok] at h
  obtain ⟨hclock, ⟨answer', edited⟩, hoperation, h⟩ := h
  cases h
  exact ⟨by omega, edited, hoperation, rfl⟩

lemma stepped_of_withLockedDocument (hvalid : document.Valid) (hchecks : call.checks = .ok ())
    (h : withLockedDocument sha256 call document = .ok (answer, document')) :
    Stepped sha256 call document document' := by
  obtain ⟨hclock, edited, hoperation, rfl⟩ := withLockedDocument_eq_ok h
  exact ⟨hvalid, hclock, edited, edited_of_operation hchecks (sweep_filed hvalid) hoperation, rfl⟩

lemma default_valid : Document.default.Valid := by
  refine ⟨rfl, by decide, by decide, by decide, fun id record h => ?_, fun target lock h => ?_⟩
  · rw [show Document.default.sessions = ∅ from rfl, TreeMap.getElem?_emptyc] at h
    cases h
  · rw [show Document.default.locks = ∅ from rfl, TreeMap.getElem?_emptyc] at h
    cases h

/-- The document that a call reads passes the check. -/
lemma current_valid {file : Option Document}
    (h : ∀ held, file = some held →
      store.size held ≤ store.maxBytes ∧ store.validate held = .ok ()) :
    (store.current file).Valid := by
  cases file with
  | none => exact default_valid
  | some held => exact validateDocument_eq_ok.mp (h held rfl).2

/-- A call leaves the file as it is, or writes one of the edits. -/
lemma perform_file (sha256 : String → Fin 32 → UInt8) (io : StoreIo) (file : Option Document)
    (call : Call) :
    (perform sha256 io file call).2 = file ∨
      ∃ document', (perform sha256 io file call).2 = some document' ∧
        Stepped sha256 call (store.current file) document' ∧ document'.Valid ∧
        document'.json.encodedLength ≤ maxFileBytes := by
  unfold perform
  rcases DocumentStore.guarded_file file call.checks
    (store.transact io file (withLockedDocument sha256 call)) with hsame | ⟨hchecks, hcall⟩
  · exact .inl hsame
  rw [hcall]
  rcases store.transact_file io file (withLockedDocument sha256 call) with hsame |
    ⟨answer, document', hmakes, hwritten⟩
  · exact .inl hsame
  · exact .inr ⟨document', hwritten, stepped_of_withLockedDocument
      (current_valid hmakes.read_valid) hchecks hmakes.edited,
      validateDocument_eq_ok.mp hmakes.valid, hmakes.size_le⟩

/-- The session that a call leaves under an id is one it has started, or one that was there with
the same lease and is active only if it was so before. -/
lemma session_step (h : Stepped sha256 call document document') {record' : SessionRecord}
    (hrecord' : document'.sessions[id]? = some record') :
    (call.drawnSession = some id ∧ record'.createdAtUtcS = call.now ∧
        call.now.val < record'.expiresAtUtcS.val) ∨
      ∃ record : SessionRecord, document.sessions[id]? = some record ∧
        record'.leaseSha256 = record.leaseSha256 ∧
        record'.createdAtUtcS = record.createdAtUtcS ∧
        (record'.state = .active → record.state = .active ∧
          call.now.val < record.expiresAtUtcS.val ∧
          call.now.val < record'.expiresAtUtcS.val) := by
  -- a session that only the sweep has touched
  have hswept : ∀ record'' : SessionRecord,
      (sweepExpired document call.now).sessions[id]? = some record'' →
      ∃ record : SessionRecord, document.sessions[id]? = some record ∧
        record''.leaseSha256 = record.leaseSha256 ∧
        record''.createdAtUtcS = record.createdAtUtcS ∧
        (record''.state = .active → record.state = .active ∧
          call.now.val < record.expiresAtUtcS.val ∧
          call.now.val < record''.expiresAtUtcS.val) := by
    intro record'' hrecord''
    obtain ⟨record, hrecord, rfl⟩ := sweep_session_eq_some.mp hrecord''
    refine ⟨record, hrecord, record.sweep_leaseSha256, record.sweep_createdAtUtcS, fun hactive => ?_⟩
    obtain ⟨hsame, hactive, hlive⟩ := SessionRecord.sweep_active hactive
    exact ⟨hactive, hlive, by rw [hsame]; exact hlive⟩
  obtain ⟨edited, hedited, rfl⟩ := h.edited
  cases hedited with
  | same => exact .inr (hswept record' hrecord')
  | started sessionId label lease expires sessions hevicted _ hdrawn _ _ _ _ hlater =>
    rcases insert_eq_some hrecord' with ⟨rfl, rfl⟩ | ⟨-, hheld⟩
    · exact .inl ⟨hdrawn, rfl, hlater⟩
    · exact .inr (hswept record' (hevicted.held id record' hheld))
  | renewed sessionId held expires howned hactive _ hlater =>
    rcases insert_eq_some hrecord' with ⟨rfl, rfl⟩ | ⟨-, hheld⟩
    · obtain ⟨record, hrecord, hlease, hcreated, hstate⟩ := hswept held howned.held
      obtain ⟨hactive, hlive, -⟩ := hstate hactive
      exact .inr ⟨record, hrecord, hlease, hcreated, fun _ => ⟨hactive, hlive, hlater⟩⟩
    · exact .inr (hswept record' hheld)
  | ended sessionId held held' howned hended =>
    rcases insert_eq_some hrecord' with ⟨rfl, rfl⟩ | ⟨-, hheld⟩
    · obtain ⟨record, hrecord, hlease, hcreated, -⟩ := hswept held howned.held
      unfold SessionRecord.endAt at hended
      split at hended
      · cases hended
        exact .inr ⟨record, hrecord, hlease, hcreated, nofun⟩
      · rename_i hstate
        cases hended
        refine .inr ⟨record, hrecord, hlease, hcreated, fun hactive => ?_⟩
        rw [hstate] at hactive
        cases hactive
      · cases hended
    · exact .inr (hswept record' hheld)
  | extended => exact .inr (hswept record' hrecord')
  | acquired => exact .inr (hswept record' hrecord')
  | released => exact .inr (hswept record' hrecord')

/-- A call carries the lease of a session of the document. -/
def Carries (sha256 : String → Fin 32 → UInt8) (call : Call) (document : Document)
    (sessionId : String) : Prop :=
  ∃ owner, Owned sha256 call document.sessions sessionId owner

lemma Owned.carries {owner : SessionRecord}
    (h : Owned sha256 call (sweepExpired document call.now).sessions sessionId owner) :
    Carries sha256 call document sessionId := by
  obtain ⟨held, hheld, rfl⟩ := sweep_session_eq_some.mp h.held
  obtain ⟨lease, hcall, hlease⟩ := h.lease
  exact ⟨held, hheld, lease, hcall, by rw [← hlease, held.sweep_leaseSha256]⟩

/-- A lock that a call leaves was there before, or the call carries the lease of its session. -/
lemma lock_created (h : Stepped sha256 call document document')
    (hlock : document'.locks[target]? = some lock) :
    call.now.val < lock.expiresAtUtcS.val ∧
      (document.locks[target]? = some lock ∨
        Carries sha256 call document lock.sessionId ∧
          (lock.acquiredAtUtcS = call.now ∨ ∃ held : LockRecord,
            document.locks[target]? = some held ∧
              lock.acquiredAtUtcS = held.acquiredAtUtcS)) := by
  have hswept : ∀ {lock : LockRecord},
      (sweepExpired document call.now).locks[target]? = some lock →
        call.now.val < lock.expiresAtUtcS.val ∧ document.locks[target]? = some lock :=
    fun hlock => ⟨(sweep_lock_eq_some.mp hlock).2.1, (sweep_lock_eq_some.mp hlock).1⟩
  obtain ⟨edited, hedited, rfl⟩ := h.edited
  cases hedited with
  | same => exact ⟨(hswept hlock).1, .inl (hswept hlock).2⟩
  | started => exact ⟨(hswept hlock).1, .inl (hswept hlock).2⟩
  | renewed => exact ⟨(hswept hlock).1, .inl (hswept hlock).2⟩
  | ended =>
    have hheld := (filter_eq_some.mp hlock).1
    exact ⟨(hswept hheld).1, .inl (hswept hheld).2⟩
  | extended sessionId target' owner held expires howned _ hheld howner hlater =>
    rcases insert_eq_some hlock with ⟨rfl, rfl⟩ | ⟨-, hlock⟩
    · exact ⟨hlater, .inr ⟨howner ▸ howned.carries, .inr ⟨held, (hswept hheld).2, rfl⟩⟩⟩
    · exact ⟨(hswept hlock).1, .inl (hswept hlock).2⟩
  | acquired sessionId target' lockId owner expires howned _ _ _ _ _ _ hlater =>
    rcases insert_eq_some hlock with ⟨rfl, rfl⟩ | ⟨-, hlock⟩
    · exact ⟨hlater, .inr ⟨howned.carries, .inl rfl⟩⟩
    · exact ⟨(hswept hlock).1, .inl (hswept hlock).2⟩
  | released target' owner held =>
    rw [TreeMap.getElem?_erase] at hlock
    split at hlock
    · cases hlock
    · exact ⟨(hswept hlock).1, .inl (hswept hlock).2⟩

/-- A lock that is not due stays as it is, or the call carries the lease of its session. -/
lemma lock_kept (h : Stepped sha256 call document document')
    (hlock : document.locks[target]? = some lock) (hlive : call.now.val < lock.expiresAtUtcS.val) :
    document'.locks[target]? = some lock ∨ Carries sha256 call document lock.sessionId := by
  have hswept := sweep_lock_of_valid h.found_valid hlock hlive
  obtain ⟨edited, hedited, rfl⟩ := h.edited
  cases hedited with
  | same => exact .inl hswept
  | started => exact .inl hswept
  | renewed => exact .inl hswept
  | ended sessionId held held' howned =>
    by_cases hsession : lock.sessionId = sessionId
    · exact .inr (hsession ▸ howned.carries)
    · exact .inl (filter_eq_some.mpr ⟨hswept, decide_eq_true hsession⟩)
  | extended sessionId target' owner held expires howned _ hheld howner =>
    by_cases htarget : target' = target
    · subst htarget
      obtain rfl := some.inj (hheld.symm.trans hswept)
      exact .inr (howner ▸ howned.carries)
    · exact .inl ((getElem?_insert_of_ne htarget).trans hswept)
  | acquired sessionId target' lockId owner expires howned _ hfree =>
    have htarget : target' ≠ target := by
      rintro rfl
      rw [hfree] at hswept
      cases hswept
    exact .inl ((getElem?_insert_of_ne htarget).trans hswept)
  | released target' owner held hheld howned =>
    by_cases htarget : target' = target
    · subst htarget
      obtain rfl := some.inj (hheld.symm.trans hswept)
      exact .inr howned.carries
    · refine .inl ?_
      show (TreeMap.erase _ target')[target]? = some lock
      rw [TreeMap.getElem?_erase, if_neg (by rwa [LawfulEqOrd.compare_eq_iff_eq])]
      exact hswept

/-! ## Sound documents -/

/-- A document whose clock is not before its times, and in which what has expired is not active. -/
structure Document.Sound (document : Document) : Prop where
  valid : document.Valid
  created_le : ∀ (id : String) (record : SessionRecord),
    document.sessions[id]? = some record → record.createdAtUtcS.val ≤ document.lastNowUtcS.val
  active_live : ∀ (id : String) (record : SessionRecord),
    document.sessions[id]? = some record → record.state = .active →
      document.lastNowUtcS.val < record.expiresAtUtcS.val
  acquired_le : ∀ (target : String) (lock : LockRecord),
    document.locks[target]? = some lock → lock.acquiredAtUtcS.val ≤ document.lastNowUtcS.val
  lock_live : ∀ (target : String) (lock : LockRecord),
    document.locks[target]? = some lock →
      document.lastNowUtcS.val < lock.expiresAtUtcS.val

lemma default_sound : Document.default.Sound := by
  have hsessions : ∀ (id : String) (record : SessionRecord),
      Document.default.sessions[id]? = some record → False := by
    intro id record h
    rw [show Document.default.sessions = ∅ from rfl, TreeMap.getElem?_emptyc] at h
    cases h
  have hlocks : ∀ (target : String) (lock : LockRecord),
      Document.default.locks[target]? = some lock → False := by
    intro target lock h
    rw [show Document.default.locks = ∅ from rfl, TreeMap.getElem?_emptyc] at h
    cases h
  exact ⟨default_valid, fun id record h => (hsessions id record h).elim,
    fun id record h => (hsessions id record h).elim,
    fun target lock h => (hlocks target lock h).elim,
    fun target lock h => (hlocks target lock h).elim⟩

lemma Stepped.clock_eq (h : Stepped sha256 call document document') :
    document'.lastNowUtcS = call.now := by
  obtain ⟨edited, -, rfl⟩ := h.edited
  rfl

lemma Stepped.sound (h : Stepped sha256 call document document') (hsound : document.Sound)
    (hvalid : document'.Valid) : document'.Sound := by
  have hclock := h.clock_le
  refine ⟨hvalid, ?_, ?_, ?_, ?_⟩
  all_goals rw [h.clock_eq]
  · intro id record' hrecord'
    rcases session_step h hrecord' with ⟨-, hcreated, -⟩ | ⟨record, hrecord, -, hcreated, -⟩
    · rw [hcreated]
    · have hle := hsound.created_le id record hrecord
      rw [hcreated]
      omega
  · intro id record' hrecord' hactive
    rcases session_step h hrecord' with ⟨-, -, hlater⟩ | ⟨record, -, -, -, hlive⟩
    · exact hlater
    · exact (hlive hactive).2.2
  · intro target lock hlock
    rcases (lock_created h hlock).2 with hheld | ⟨-, hacquired | ⟨held, hheld, hacquired⟩⟩
    · have hle := hsound.acquired_le target lock hheld
      omega
    · rw [hacquired]
    · have hle := hsound.acquired_le target held hheld
      rw [hacquired]
      omega
  · intro target lock hlock
    exact (lock_created h hlock).1

/-- Every run of calls leaves a document that is sound. -/
lemma after_sound (sha256 : String → Fin 32 → UInt8) (calls : List (StoreIo × Call)) :
    (store.current (after sha256 none calls)).Sound := by
  have hstart : (store.current none).Sound := default_sound
  refine run_invariant (P := fun file => (store.current file).Sound)
    (fun file call hfile => ?_) hstart calls
  rcases perform_file sha256 call.1 file call.2 with hsame | ⟨document', hwritten, hstepped, hvalid, -⟩
  · rwa [hsame]
  · rw [hwritten]
    exact hstepped.sound hfile hvalid

end

end Agenterm.Cu.Runtime
