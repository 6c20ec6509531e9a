import Agenterm.Cu.RuntimeTheorems
import Mathlib.Data.List.Induction

/-!
# Sessions exclude each other from their targets

The calls of any number of processes, one after the other, from an empty state. The session ids
that the calls draw are random; that they are different is a hypothesis of the results here
(`DrawsFresh`). `mutual_exclusion` is the main result: a target has one lock, of a session that is
active, and only calls with the lease of that session touch the lock before it expires.
-/

namespace Agenterm.Cu.Runtime

open Std List Option Lib

variable {call : Call} {document : Document} {id : String} {io : StoreIo}
  {record : SessionRecord}

variable {before calls later : List (StoreIo × Call)} {document' : Document}
  {file : Option Document} {start : SessionStart}

section
variable {sha256 : String → Fin 32 → UInt8}

/-! ## Runs -/

/-- The session ids that the calls draw. -/
def drawn (calls : List (StoreIo × Call)) : List String :=
  calls.filterMap fun call => call.2.drawnSession

/-- No session id is drawn twice. -/
def DrawsFresh (calls : List (StoreIo × Call)) : Prop := (drawn calls).Nodup

lemma after_append (start : Option Document) (before later : List (StoreIo × Call)) :
    after sha256 start (before ++ later) = after sha256 (after sha256 start before) later :=
  run_append _ _ _ _

lemma drawn_append (before later : List (StoreIo × Call)) :
    drawn (before ++ later) = drawn before ++ drawn later :=
  filterMap_append

lemma mem_drawn {call : StoreIo × Call} (hmem : call ∈ calls)
    (h : call.2.drawnSession = some id) : id ∈ drawn calls :=
  mem_filterMap.mpr ⟨call, hmem, h⟩

/-- Every session was drawn by a call before. -/
lemma session_drawn (calls : List (StoreIo × Call))
    (h : (store.current (after sha256 none calls)).sessions[id]? = some record) :
    id ∈ drawn calls := by
  induction calls using List.reverseRecOn generalizing record with
  | nil =>
    rw [show (store.current (after sha256 none [])).sessions = ∅ from rfl,
      TreeMap.getElem?_emptyc] at h
    cases h
  | append_singleton calls call ih =>
    rw [drawn_append, mem_append]
    rw [after_append] at h
    rcases perform_file sha256 call.1 (after sha256 none calls) call.2 with hsame |
      ⟨document', hwritten, hstepped, -⟩
    · have hfile : after sha256 (after sha256 none calls) [call] = after sha256 none calls := hsame
      rw [hfile] at h
      exact .inl (ih h)
    · have hfile : after sha256 (after sha256 none calls) [call] = some document' := hwritten
      rw [hfile] at h
      rcases session_step hstepped h with ⟨hdrawn, -⟩ | ⟨held, hheld, -⟩
      · exact .inr (mem_drawn mem_cons_self hdrawn)
      · exact .inl (ih hheld)

/-- What holds of the session of an id is kept by calls that do not draw the id, when it is kept
through one step. -/
lemma session_invariant {P : SessionRecord → Prop}
    (hstep : ∀ record record' : SessionRecord, P record →
      record'.leaseSha256 = record.leaseSha256 →
      (record'.state = .active → record.state = .active) → P record') {start : Option Document}
    (hstart : ∀ record : SessionRecord,
      (store.current start).sessions[id]? = some record → P record) (hlater : id ∉ drawn later)
    (h : (store.current (after sha256 start later)).sessions[id]? = some record) : P record := by
  refine run_invariant_mem (P := fun file => ∀ record : SessionRecord,
    (store.current file).sessions[id]? = some record → P record) ?_ hstart record h
  intro file call hmem hfile record' hrecord'
  rcases perform_file sha256 call.1 file call.2 with hsame | ⟨document', hwritten, hstepped, -⟩
  · rw [hsame] at hrecord'
    exact hfile record' hrecord'
  · rw [hwritten] at hrecord'
    rcases session_step hstepped hrecord' with ⟨hdrawn, -⟩ | ⟨record, hrecord, hlease, -, hactive⟩
    · exact absurd (mem_drawn hmem hdrawn) hlater
    · exact hstep record record' (hfile record hrecord) hlease fun h => (hactive h).1

/-- A session that is not active stays so, however the later calls go. -/
lemma not_active_kept {start : Document}
    (hstart : ∀ found : SessionRecord, start.sessions[id]? = some found → found.state ≠ .active)
    (hlater : id ∉ drawn later) (hafter : after sha256 (some start) later = some document')
    (h : document'.sessions[id]? = some record) : record.state ≠ .active := by
  have hcurrent : (store.current (after sha256 (some start) later)).sessions[id]? = some record := by
    rw [hafter]
    exact h
  exact session_invariant (P := fun record => record.state ≠ .active)
    (fun _ _ hended _ hactive h => hended (hactive h)) hstart hlater hcurrent

lemma DrawsFresh.drawn_once (hfresh : DrawsFresh (before ++ later)) (h : id ∈ drawn before) :
    id ∉ drawn later := by
  unfold DrawsFresh at hfresh
  rw [drawn_append] at hfresh
  exact fun hmem => (nodup_append.mp hfresh).2.2 id h id hmem rfl

/-! ## The lease of a session -/

/-- A call of the run has returned the session and its lease. -/
def Starts (sha256 : String → Fin 32 → UInt8) (calls : List (StoreIo × Call))
    (start : SessionStart) : Prop :=
  ∃ before call later, calls = before ++ call :: later ∧
    (perform sha256 call.1 (after sha256 none before) call.2).1 = .ok (.started start)

/-- What a call that returns a new session has done. -/
lemma perform_started (h : (perform sha256 io file call).1 = .ok (.started start)) :
    call.drawnSession = some start.sessionId ∧
      ∃ document' record, (perform sha256 io file call).2 = some document' ∧
        document'.sessions[start.sessionId]? = some record ∧
        record.leaseSha256 = sha256Hex sha256 start.lease := by
  unfold perform at *
  obtain ⟨hchecks, hcall⟩ := DocumentStore.guarded_ok h
  rw [hcall] at h ⊢
  obtain ⟨document', hmakes, hwritten⟩ := DocumentStore.transact_ok h
  obtain ⟨-, edited, hoperation, rfl⟩ := withLockedDocument_eq_ok hmakes.edited
  have hvalid := current_valid hmakes.read_valid
  cases call with
  | sessionStart label ttl now randomId randomLease =>
    obtain ⟨found, hfound, hoperation⟩ := answered_eq_ok hoperation
    obtain rfl := Answer.started.inj hfound
    obtain ⟨hedited, expires, hheld⟩ :=
      edited_of_sessionStart hchecks (sweep_filed hvalid) hoperation
    refine ⟨?_, _, _, hwritten, hheld, rfl⟩
    unfold sessionStart at hoperation
    rw [ite_error_eq_ok] at hoperation
    obtain ⟨sessionId, hid, hoperation⟩ := bind_eq_ok.mp hoperation.2
    obtain ⟨lease, -, hoperation⟩ := bind_eq_ok.mp hoperation
    obtain ⟨expires', -, hoperation⟩ := bind_eq_ok.mp hoperation
    obtain ⟨rfl, -⟩ := Prod.mk.inj (Except.ok.inj hoperation)
    obtain ⟨bytes, rfl, rfl⟩ := randomUuidV4_eq_ok hid
    rfl
  | _ =>
    obtain ⟨_, hfound, -⟩ := answered_eq_ok hoperation
    cases hfound

/-- The digest of a session stays that of the lease it was started with. -/
lemma lease_kept (hfresh : DrawsFresh calls) (hstart : Starts sha256 calls start)
    (h : (store.current (after sha256 none calls)).sessions[start.sessionId]? = some record) :
    record.leaseSha256 = sha256Hex sha256 start.lease := by
  obtain ⟨before, call, later, rfl, hstarted⟩ := hstart
  obtain ⟨hdrawn, document', held, hwritten, hheld, hlease⟩ := perform_started hstarted
  rw [after_append] at h
  have hlater : start.sessionId ∉ drawn later := by
    unfold DrawsFresh at hfresh
    rw [drawn_append] at hfresh
    have htail := (nodup_append.mp hfresh).2.1
    rw [show drawn (call :: later) = start.sessionId :: drawn later from
      filterMap_cons_some hdrawn] at htail
    exact (nodup_cons.mp htail).1
  refine session_invariant (P := fun record => record.leaseSha256 = sha256Hex sha256 start.lease)
    (fun record record' hrecord hsame _ => hsame.trans hrecord) (fun found hfound => ?_) hlater h
  have hfile : (store.current (some document')).sessions[start.sessionId]? = some found :=
    hwritten ▸ hfound
  obtain rfl := some.inj (hheld.symm.trans hfile)
  exact hlease

/-- No other text passes for the lease. -/
def CollisionFree (sha256 : String → Fin 32 → UInt8) (lease : String) : Prop :=
  ∀ other, sha256Hex sha256 other = sha256Hex sha256 lease → other = lease

/-- After the calls before it, a call carries the lease of a session: a text with the digest of the
session, and so the lease that was returned when the session was started. -/
def CarriesLease (sha256 : String → Fin 32 → UInt8) (before : List (StoreIo × Call))
    (call : Call) (document : Document) (sessionId : String) : Prop :=
  ∃ (owner : SessionRecord) (lease : String),
    document.sessions[sessionId]? = some owner ∧ call.lease = some lease ∧
      owner.leaseSha256 = sha256Hex sha256 lease ∧
      ∀ start, Starts sha256 before start → start.sessionId = sessionId →
        CollisionFree sha256 start.lease → lease = start.lease

lemma Carries.lease (hfresh : DrawsFresh before)
    (hdocument : after sha256 none before = some document) {sessionId : String}
    (h : Carries sha256 call document sessionId) :
    CarriesLease sha256 before call document sessionId := by
  obtain ⟨owner, hheld, lease, hcall, hlease⟩ := h
  refine ⟨owner, lease, hheld, hcall, hlease, ?_⟩
  rintro start hstart rfl hfree
  have hcurrent : (store.current (after sha256 none before)).sessions[start.sessionId]?
      = some owner := by
    rw [hdocument]
    exact hheld
  exact hfree lease (hlease.symm.trans (lease_kept hfresh hstart hcurrent))

/-! ## Exclusion -/

/-- Every lock is the only one on its target, and has a session that is active and does not expire
before it. -/
structure Document.Exclusive (document : Document) : Prop where
  one_lock : ∀ (target target' : String) (lock lock' : LockRecord),
    document.locks[target]? = some lock → document.locks[target']? = some lock' →
      lock.target = lock'.target → target = target' ∧ lock = lock'
  owner_active : ∀ (target : String) (lock : LockRecord),
    document.locks[target]? = some lock →
      target = lock.target ∧ document.lastNowUtcS.val < lock.expiresAtUtcS.val ∧
      ∃ owner : SessionRecord, document.sessions[lock.sessionId]? = some owner ∧
        owner.state = .active ∧ document.lastNowUtcS.val < owner.expiresAtUtcS.val ∧
        lock.expiresAtUtcS.val ≤ owner.expiresAtUtcS.val

lemma Document.Sound.exclusive (h : document.Sound) :
    document.Exclusive where
  one_lock := by
    intro target target' lock lock' hlock hlock' htarget
    have hkey := (h.valid.locks_valid target lock hlock).target_eq
    have hkey' := (h.valid.locks_valid target' lock' hlock').target_eq
    obtain rfl : target = target' := by rw [hkey, hkey', htarget]
    exact ⟨rfl, some.inj (hlock.symm.trans hlock')⟩
  owner_active := by
    intro target lock hlock
    have hvalid := h.valid.locks_valid target lock hlock
    obtain ⟨owner, howner, hexpires, hactive⟩ := hvalid.owned
    exact ⟨hvalid.target_eq, h.lock_live target lock hlock, owner, howner, hactive,
      h.active_live lock.sessionId owner howner hactive, hexpires⟩

/-- What a call has written. -/
lemma stepped_of_written (h : (perform sha256 io (some document) call).2 = some document') :
    document' = document ∨ Stepped sha256 call document document' := by
  rcases perform_file sha256 io (some document) call with hsame | ⟨written, hwritten, hstepped, -⟩
  · exact .inl (some.inj (h.symm.trans hsame))
  · obtain rfl := some.inj (h.symm.trans hwritten)
    exact .inr hstepped

/-- The clock of the file does not go back. -/
lemma clock_le_after (start : Option Document) (later : List (StoreIo × Call)) :
    (store.current start).lastNowUtcS.val
      ≤ (store.current (after sha256 start later)).lastNowUtcS.val := by
  refine run_invariant (P := fun file => (store.current start).lastNowUtcS.val
    ≤ (store.current file).lastNowUtcS.val) (fun file call hfile => ?_) (Int.le_refl _) later
  rcases perform_file sha256 call.1 file call.2 with hsame | ⟨document', hwritten, hstepped, -⟩
  · rwa [hsame]
  · have hclock := hstepped.clock_le
    rw [hwritten]
    show (store.current start).lastNowUtcS.val ≤ document'.lastNowUtcS.val
    rw [hstepped.clock_eq]
    omega

/-- A call that fails leaves the file unchanged. -/
lemma perform_error {error : CuError} (hatomic : io.Atomic)
    (h : (perform sha256 io file call).1 = .error error) : (perform sha256 io file call).2 = file :=
  DocumentStore.guarded_error
    (fun _ herror => DocumentStore.transact_error hatomic herror) h

/-- Over every run of calls that draws no session id twice: a target has one lock, of a session
that is active; before it expires, only a call with the lease of its session creates, changes or
removes it; a session that is not active stays so, and so does one that has expired by the time of
a call that has set the clock of the file; the clock does not go back; a call that fails changes
nothing. -/
theorem mutual_exclusion (sha256 : String → Fin 32 → UInt8) (calls : List (StoreIo × Call))
    (hfresh : DrawsFresh calls) :
    (∀ before later document, calls = before ++ later →
      after sha256 none before = some document → document.Exclusive) ∧
    (∀ before io call later document document' (target : String) (lock : LockRecord),
      calls = before ++ (io, call) :: later → after sha256 none before = some document →
      (perform sha256 io (some document) call).2 = some document' →
      (document'.locks[target]? = some lock → document.locks[target]? = some lock ∨
        CarriesLease sha256 before call document lock.sessionId) ∧
      (document.locks[target]? = some lock → call.now.val < lock.expiresAtUtcS.val →
        document'.locks[target]? = some lock ∨
          CarriesLease sha256 before call document lock.sessionId)) ∧
    (∀ before between later document document' (id : String) (record record' : SessionRecord),
      calls = before ++ between ++ later → after sha256 none before = some document →
      after sha256 none (before ++ between) = some document' →
      document.sessions[id]? = some record → record.state ≠ .active →
      document'.sessions[id]? = some record' → record'.state ≠ .active) ∧
    (∀ before io call between later document written document' (id : String)
      (record record' : SessionRecord), calls = before ++ (io, call) :: (between ++ later) →
      after sha256 none before = some document →
      (perform sha256 io (some document) call).2 = some written →
      written.lastNowUtcS = call.now → document.sessions[id]? = some record →
      record.expiresAtUtcS.val ≤ call.now.val →
      after sha256 none (before ++ (io, call) :: between) = some document' →
      document'.sessions[id]? = some record' → record'.state ≠ .active) ∧
    (∀ before between later, calls = before ++ between ++ later →
      (store.current (after sha256 none before)).lastNowUtcS.val
        ≤ (store.current (after sha256 none (before ++ between))).lastNowUtcS.val) ∧
    (∀ before (io : StoreIo) call later error, calls = before ++ (io, call) :: later →
      io.Atomic → (perform sha256 io (after sha256 none before) call).1 = .error error →
      (perform sha256 io (after sha256 none before) call).2 = after sha256 none before) := by
  have hprefix : ∀ before later, calls = before ++ later → DrawsFresh before := by
    rintro before later rfl
    unfold DrawsFresh at hfresh
    rw [drawn_append] at hfresh
    exact (nodup_append.mp hfresh).1
  have hdrawn : ∀ before {document : Document} {id : String} {record : SessionRecord},
      after sha256 none before = some document → document.sessions[id]? = some record →
      id ∈ drawn before := by
    intro before document id record hdocument hrecord
    have hheld : (store.current (after sha256 none before)).sessions[id]? = some record := by
      rw [hdocument]
      exact hrecord
    exact session_drawn before hheld
  refine ⟨?_, ?_, ?_, ?_, ?_, ?_⟩
  · intro before later document _ hdocument
    have hsound := after_sound sha256 before
    rw [hdocument] at hsound
    exact Document.Sound.exclusive hsound
  · intro before io call later document document' target lock hcalls hdocument hwritten
    have hbefore := hprefix before _ hcalls
    rcases stepped_of_written hwritten with rfl | hstepped
    · exact ⟨.inl, fun hlock _ => .inl hlock⟩
    · constructor
      · intro hlock
        rcases (lock_created hstepped hlock).2 with hheld | ⟨hcarries, -⟩
        · exact .inl hheld
        · exact .inr (hcarries.lease hbefore hdocument)
      · intro hlock hlive
        rcases lock_kept hstepped hlock hlive with hheld | hcarries
        · exact .inl hheld
        · exact .inr (hcarries.lease hbefore hdocument)
  · intro before between later document document' id record record' hcalls hdocument hdocument'
      hrecord hstate hrecord'
    have hlater : id ∉ drawn between :=
      ( hprefix (before ++ between) later hcalls).drawn_once (hdrawn before hdocument hrecord)
    rw [after_append, hdocument] at hdocument'
    refine not_active_kept (fun found hfound => ?_) hlater hdocument' hrecord'
    obtain rfl := some.inj (hrecord.symm.trans hfound)
    exact hstate
  · intro before io call between later document written document' id record record' hcalls
      hdocument hwritten hclock hrecord hexpired hdocument' hrecord'
    have hlater : id ∉ drawn ((io, call) :: between) := by
      have hbefore := hprefix (before ++ (io, call) :: between) later (by simpa using hcalls)
      exact hbefore.drawn_once (hdrawn before hdocument hrecord)
    rw [after_append, hdocument] at hdocument'
    have hbetween : after sha256 (some written) between = some document' := hwritten ▸ hdocument'
    refine not_active_kept (fun found hfound hactive => ?_)
      (fun hmem => hlater (drawn_append [(io, call)] between ▸ mem_append_right _ hmem))
      hbetween hrecord'
    rcases stepped_of_written hwritten with rfl | hstepped
    · -- nothing was written, and the clock of the file is past the expiry
      have hsound := after_sound sha256 before
      rw [hdocument] at hsound
      have hlive : written.lastNowUtcS.val < found.expiresAtUtcS.val :=
        hsound.active_live id found hfound hactive
      obtain rfl := some.inj (hrecord.symm.trans hfound)
      rw [hclock] at hlive
      omega
    · rcases session_step hstepped hfound with ⟨hnew, -⟩ | ⟨held, hheld, -, -, hkept⟩
      · exact hlater (mem_drawn mem_cons_self hnew)
      · have hlive := (hkept hactive).2.1
        obtain rfl := some.inj (hrecord.symm.trans hheld)
        omega
  · intro before between later _
    rw [after_append]
    exact clock_le_after _ between
  · intro before io call later error _ hatomic herror
    exact perform_error hatomic herror

/-- SHA-256 of the lease `01010101-0101-4101-8101-010101010101`. -/
def leaseDigest (_ : String) (index : Fin 32) : UInt8 :=
  ([0xe9, 0xc0, 0x31, 0xdb, 0xcb, 0x85, 0x51, 0x8d, 0xa5, 0x7b, 0xfa, 0x2a, 0x8a, 0xc2, 0xdc, 0xdc,
    0x20, 0x65, 0x07, 0xe0, 0xb9, 0xf0, 0x07, 0xa9, 0x3b, 0x02, 0xef, 0x02, 0xa7, 0xfc, 0xdd, 0x01] :
    List UInt8).get index

/-- A session for 100 seconds, whose bytes are all zero and whose lease has only ones, takes a
target for 50 seconds. -/
def lockExample : List (StoreIo × Call) :=
  [ (⟨.acquired, true, .published⟩,
      .sessionStart none 100 zeroTime (some fun _ => 0) (some fun _ => 1)),
    (⟨.acquired, true, .published⟩,
      .lockAcquire (uuidV4 fun _ => 0) (uuidV4 fun _ => 1) "desktop:1" 50 zeroTime
        (some fun _ => 2)) ]

theorem mutual_exclusion_locked :
    DrawsFresh lockExample ∧
      ∃ document lock, after leaseDigest none lockExample = some document ∧
        document.locks["desktop:1"]? = some lock ∧ document.Exclusive := by
  have hfresh : DrawsFresh lockExample := by
    unfold DrawsFresh
    decide
  have hrun : (after leaseDigest none lockExample).any (fun document =>
      (document.locks["desktop:1"]?).isSome) = true := by
    decide
  obtain ⟨document, hdocument, hlock⟩ := (any_eq_true _ _).mp hrun
  obtain ⟨lock, hlock⟩ := isSome_iff_exists.mp hlock
  exact ⟨hfresh, document, lock, hdocument, hlock,
    (mutual_exclusion leaseDigest lockExample hfresh).1 lockExample [] document
      (append_nil _).symm hdocument⟩

end

end Agenterm.Cu.Runtime
