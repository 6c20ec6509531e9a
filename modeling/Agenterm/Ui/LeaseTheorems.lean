import Agenterm.Ui.Lease
import Agenterm.Lib.Digits
import Agenterm.Lib.Run

/-!
# The authority over UI leases

`LeaseRun` is an authority with what it cannot show itself: how many leases it has issued, and
for each lease id when it was last renewed and which journal sequence it was last acknowledged
against. `Step` says what a call can do, `step_sound` that it keeps the invariant, and
`lease_authority` is the result about runs. `reap_removes_fresh_lease_and_ids_wrap` shows that
the age of the last heartbeat alone does not decide what is reaped, and that the number of
attaches has to be bounded for the lease ids to be distinct.
-/

namespace Agenterm

open List Lib

/-- The calls an authority receives. -/
inductive LeaseOp where
  | attach (clientId : String) (clientPid : Nat) (clientBuild : Option UpgradeIdentity)
      (nowUnixMs : Nat)
  | heartbeat (leaseId : String) (clientPid nowUnixMs : Nat)
  | detach (leaseId : String) (clientPid : Nat)
  | acknowledge (leaseId : String)
      (clientPid observedSequence currentSequence nowUnixMs : Nat)
  | reapStale (nowUnixMs : Nat) (processIsAlive : Nat → Bool)

namespace LeaseOp

def isAttach : LeaseOp → Bool
  | attach .. => true
  | _ => false

/-- The call carries the identity of this lease: its client id and pid for `attach`, its lease
id and pid for the others. -/
def Names : LeaseOp → UiLeaseRecord → Prop
  | attach clientId clientPid _ _, lease =>
    lease.clientId = clientId ∧ lease.clientPid = clientPid
  | heartbeat leaseId clientPid _, lease =>
    lease.leaseId = leaseId ∧ lease.clientPid = clientPid
  | detach leaseId clientPid, lease => lease.leaseId = leaseId ∧ lease.clientPid = clientPid
  | acknowledge leaseId clientPid _ _ _, lease =>
    lease.leaseId = leaseId ∧ lease.clientPid = clientPid
  | reapStale _ _, _ => False

/-- The call reaps this lease: it has expired, or its process is gone. -/
def Reaps : LeaseOp → UiLeaseRecord → Prop
  | reapStale nowUnixMs processIsAlive, lease =>
    lease.expiresUnixMs ≤ nowUnixMs ∨ processIsAlive lease.clientPid = false
  | _, _ => False

/-- The clock value a successful call renews a lease at. -/
def renewalTime : LeaseOp → Option Nat
  | attach _ _ _ nowUnixMs => some nowUnixMs
  | heartbeat _ _ nowUnixMs => some nowUnixMs
  | acknowledge _ _ _ _ nowUnixMs => some nowUnixMs
  | _ => none

/-- The journal sequence an operation acknowledges against, if it does. -/
def acknowledgedSequence : LeaseOp → Option Nat
  | acknowledge _ _ _ currentSequence _ => some currentSequence
  | _ => none

end LeaseOp

inductive LeaseAnswer where
  | attached (answer : Except UiLeaseError (UiLeaseRecord × Bool))
  | renewed (answer : Except UiLeaseError UiLeaseRecord)
  | detached (answer : Except UiLeaseError UiLeaseRecord)
  | reaped (removed : List (UiLeaseRecord × String))

variable {a a' : UiLeaseAuthority} {answer : LeaseAnswer} {clientPid nowUnixMs processId : Nat}
  {lease : UiLeaseRecord} {op : LeaseOp}

namespace LeaseAnswer

def IsError : LeaseAnswer → Prop
  | attached (.error _) => True
  | renewed (.error _) => True
  | detached (.error _) => True
  | _ => False

/-- The lease a successful call made or renewed. -/
def record : LeaseAnswer → Option UiLeaseRecord
  | attached (.ok (lease, _)) => some lease
  | renewed (.ok lease) => some lease
  | _ => none

/-- Whether the call made a new lease. -/
def isCreated : LeaseAnswer → Bool
  | attached (.ok (_, created)) => created
  | _ => false

lemma record_of_isError (h : answer.IsError) : answer.record = none ∧ answer.isCreated = false := by
  match answer with
  | attached (.error _) => exact ⟨rfl, rfl⟩
  | renewed (.error _) => exact ⟨rfl, rfl⟩
  | detached (.error _) => exact ⟨rfl, rfl⟩

end LeaseAnswer

variable {clientId leaseId : String} {f : UiLeaseRecord → UiLeaseRecord} {lease' : UiLeaseRecord}
  {p : UiLeaseRecord → Bool}

namespace UiLeaseAuthority

def call (processId : Nat) (a : UiLeaseAuthority) : LeaseOp → LeaseAnswer × UiLeaseAuthority
  | .attach clientId clientPid clientBuild nowUnixMs =>
    (.attached (a.attach processId clientId clientPid clientBuild nowUnixMs).1,
      (a.attach processId clientId clientPid clientBuild nowUnixMs).2)
  | .heartbeat leaseId clientPid nowUnixMs =>
    (.renewed (a.heartbeat leaseId clientPid nowUnixMs).1,
      (a.heartbeat leaseId clientPid nowUnixMs).2)
  | .detach leaseId clientPid =>
    (.detached (a.detach leaseId clientPid).1, (a.detach leaseId clientPid).2)
  | .acknowledge leaseId clientPid observedSequence currentSequence nowUnixMs =>
    (.renewed (a.acknowledge leaseId clientPid observedSequence currentSequence nowUnixMs).1,
      (a.acknowledge leaseId clientPid observedSequence currentSequence nowUnixMs).2)
  | .reapStale nowUnixMs processIsAlive =>
    (.reaped (a.reapStale nowUnixMs processIsAlive).1,
      (a.reapStale nowUnixMs processIsAlive).2)

def leaseIds (a : UiLeaseAuthority) : List String := a.leases.map UiLeaseRecord.leaseId

/-- The (client id, pid) pairs. -/
def clients (a : UiLeaseAuthority) : List (String × Nat) :=
  a.leases.map fun lease => (lease.clientId, lease.clientPid)

/-- The sequence number at the end of a lease id can be read back. -/
lemma formatLeaseId_inj {t t' m n : Nat}
    (h : formatLeaseId processId t m = formatLeaseId processId t' n) : m = n := by
  have hlist := congrArg String.toList h
  simp only [formatLeaseId, hex, String.toList_append, String.toList_ofList] at hlist
  have hdigits :
      ("ui-".toList ++ Nat.toDigits 16 processId ++ "-".toList ++ Nat.toDigits 16 t)
        ++ '-' :: Nat.toDigits 16 m
      = ("ui-".toList ++ Nat.toDigits 16 processId ++ "-".toList ++ Nat.toDigits 16 t')
        ++ '-' :: Nat.toDigits 16 n := by
    simpa using hlist
  exact append_hyphen_inj (by decide) (by decide) hdigits

/-! ## What each call does -/

/-- A change of one lease that renews it at `nowUnixMs` and keeps whose lease it is. -/
structure Renewal (nowUnixMs : Nat) (lease lease' : UiLeaseRecord) : Prop where
  leaseId_eq : lease'.leaseId = lease.leaseId
  clientId_eq : lease'.clientId = lease.clientId
  clientPid_eq : lease'.clientPid = lease.clientPid
  expires_eq : lease'.expiresUnixMs = saturatingAdd nowUnixMs uiLeaseTtlMs
  observed_le : lease.observedSequence ≤ lease'.observedSequence

/-- Everything a call can do: fail, replace the one lease it names by a renewed one, add a
lease, remove the one it names, or reap. -/
inductive Step (processId : Nat) (a : UiLeaseAuthority) :
    LeaseOp → LeaseAnswer → UiLeaseAuthority → Prop
  | failed {op : LeaseOp} {answer : LeaseAnswer} (h : answer.IsError) :
      Step processId a op answer a
  | renewed {op : LeaseOp} {answer : LeaseAnswer} {p : UiLeaseRecord → Bool}
      {f : UiLeaseRecord → UiLeaseRecord} {lease : UiLeaseRecord} {nowUnixMs : Nat}
      (hrecord : answer.record = some (f lease)) (hold : answer.isCreated = false)
      (htime : op.renewalTime = some nowUnixMs)
      (hfind : a.leases.find? p = some lease) (hnames : ∀ l, p l = true → op.Names l)
      (hrenew : Renewal nowUnixMs lease (f lease))
      (hids : ∀ l, (f l).leaseId = l.leaseId ∧ (f l).clientId = l.clientId ∧
        (f l).clientPid = l.clientPid)
      (hobserved : (f lease).observedSequence = lease.observedSequence ∧
          op.acknowledgedSequence = none ∨
        ∃ current, op.acknowledgedSequence = some current ∧
          (f lease).observedSequence ≤ current) :
      Step processId a op answer { a with leases := updateFirst p f a.leases }
  | created {clientId : String} {clientPid : Nat} {clientBuild : Option UpgradeIdentity}
      {nowUnixMs : Nat} {record : UiLeaseRecord}
      (hrecord : record =
        { leaseId := formatLeaseId processId nowUnixMs a.nextLeaseId
          clientId, clientPid, clientBuild
          expiresUnixMs := saturatingAdd nowUnixMs uiLeaseTtlMs
          observedSequence := 0 })
      (hnew : a.leases.find? (isClient clientId clientPid) = none)
      (hroom : a.leases.length < uiLeaseMaxClients) :
      Step processId a (.attach clientId clientPid clientBuild nowUnixMs)
        (.attached (.ok (record, true)))
        { leases := a.leases ++ [record], nextLeaseId := (a.nextLeaseId + 1) % 2 ^ 64 }
  | detached {leaseId : String} {clientPid : Nat} {lease : UiLeaseRecord} :
      Step processId a (.detach leaseId clientPid) (.detached (.ok lease))
        { a with leases := a.leases.eraseP (isOwner leaseId clientPid) }
  | reaped {nowUnixMs : Nat} {processIsAlive : Nat → Bool}
      {removed : List (UiLeaseRecord × String)} :
      Step processId a (.reapStale nowUnixMs processIsAlive) (.reaped removed)
        { a with
          leases := a.leases.filter fun lease =>
            (staleReason nowUnixMs processIsAlive lease).isNone }

lemma isOwner_iff :
    isOwner leaseId clientPid lease = true
      ↔ lease.leaseId = leaseId ∧ lease.clientPid = clientPid := by
  simp [isOwner]

lemma isClient_iff :
    isClient clientId clientPid lease = true
      ↔ lease.clientId = clientId ∧ lease.clientPid = clientPid := by
  simp [isClient]

lemma verifyOwner_eq_ok (h : a.verifyOwner leaseId clientPid = .ok lease) :
    a.leases.find? (isOwner leaseId clientPid) = some lease ∧ lease.leaseId = leaseId ∧
      lease.clientPid = clientPid := by
  unfold verifyOwner at h
  split at h
  · exact absurd h (by simp)
  · split at h
    · rename_i found hfind
      obtain rfl : found = lease := by simpa using h
      have howner : isOwner leaseId clientPid found = true := List.find?_some hfind
      exact ⟨hfind, isOwner_iff.mp howner⟩
    · exact absurd h (by simp)

lemma attach_step (processId : Nat) (a : UiLeaseAuthority) (clientId : String)
    (clientPid : Nat) (clientBuild : Option UpgradeIdentity) (nowUnixMs : Nat) :
    Step processId a (.attach clientId clientPid clientBuild nowUnixMs)
      (.attached (a.attach processId clientId clientPid clientBuild nowUnixMs).1)
      (a.attach processId clientId clientPid clientBuild nowUnixMs).2 := by
  unfold attach
  split
  · exact .failed trivial
  · split
    · exact .failed trivial
    · split
      · rename_i lease hfind
        have hclient : isClient clientId clientPid lease = true := List.find?_some hfind
        obtain ⟨rfl, rfl⟩ := isClient_iff.mp hclient
        exact .renewed rfl rfl rfl hfind (fun l hl => isClient_iff.mp hl)
          ⟨rfl, rfl, rfl, rfl, Nat.le_refl _⟩ (fun _ => ⟨rfl, rfl, rfl⟩) (.inl ⟨rfl, rfl⟩)
      · rename_i hnew
        split
        · exact .failed trivial
        · rename_i hroom
          exact .created rfl hnew (Nat.lt_of_not_ge hroom)

lemma heartbeat_step (processId : Nat) (a : UiLeaseAuthority) (leaseId : String)
    (clientPid nowUnixMs : Nat) :
    Step processId a (.heartbeat leaseId clientPid nowUnixMs)
      (.renewed (a.heartbeat leaseId clientPid nowUnixMs).1)
      (a.heartbeat leaseId clientPid nowUnixMs).2 := by
  unfold heartbeat
  split
  · exact .failed trivial
  · rename_i lease howner
    obtain ⟨hfind, rfl, rfl⟩ := verifyOwner_eq_ok howner
    exact .renewed rfl rfl rfl hfind (fun l hl => isOwner_iff.mp hl)
      ⟨rfl, rfl, rfl, rfl, Nat.le_refl _⟩ (fun _ => ⟨rfl, rfl, rfl⟩) (.inl ⟨rfl, rfl⟩)

lemma detach_step (processId : Nat) (a : UiLeaseAuthority) (leaseId : String)
    (clientPid : Nat) :
    Step processId a (.detach leaseId clientPid) (.detached (a.detach leaseId clientPid).1)
      (a.detach leaseId clientPid).2 := by
  unfold detach
  split
  · exact .failed trivial
  · exact .detached

lemma acknowledge_step (processId : Nat) (a : UiLeaseAuthority) (leaseId : String)
    (clientPid observedSequence currentSequence nowUnixMs : Nat) :
    Step processId a
      (.acknowledge leaseId clientPid observedSequence currentSequence nowUnixMs)
      (.renewed (a.acknowledge leaseId clientPid observedSequence currentSequence nowUnixMs).1)
      (a.acknowledge leaseId clientPid observedSequence currentSequence nowUnixMs).2 := by
  unfold acknowledge
  split
  · exact .failed trivial
  · rename_i lease howner
    obtain ⟨hfind, rfl, rfl⟩ := verifyOwner_eq_ok howner
    split
    · exact .failed trivial
    · rename_i hbounds
      obtain ⟨hmono, hcurrent⟩ := not_or.mp hbounds
      exact .renewed rfl rfl rfl hfind (fun l hl => isOwner_iff.mp hl)
        ⟨rfl, rfl, rfl, rfl, Nat.le_of_not_lt hmono⟩ (fun _ => ⟨rfl, rfl, rfl⟩)
        (.inr ⟨currentSequence, rfl, Nat.le_of_not_lt hcurrent⟩)

theorem call_step (processId : Nat) (a : UiLeaseAuthority) (op : LeaseOp) :
    Step processId a op (a.call processId op).1 (a.call processId op).2 := by
  cases op with
  | attach clientId clientPid clientBuild nowUnixMs =>
    exact attach_step processId a clientId clientPid clientBuild nowUnixMs
  | heartbeat leaseId clientPid nowUnixMs =>
    exact heartbeat_step processId a leaseId clientPid nowUnixMs
  | detach leaseId clientPid => exact detach_step processId a leaseId clientPid
  | acknowledge leaseId clientPid observedSequence currentSequence nowUnixMs =>
    exact acknowledge_step processId a leaseId clientPid observedSequence currentSequence
      nowUnixMs
  | reapStale nowUnixMs processIsAlive => exact .reaped

/-- Replacing a lease by its renewal leaves the other leases, under the same ids. -/
lemma mem_renewed (hnodup : a.leaseIds.Nodup) (hfind : a.leases.find? p = some lease)
    (hids : ∀ l, (f l).leaseId = l.leaseId) {b : UiLeaseRecord}
    (hb : b ∈ updateFirst p f a.leases) :
    b = f lease ∨ b ∈ a.leases ∧ b.leaseId ≠ lease.leaseId := by
  by_cases hsame : b.leaseId = lease.leaseId
  · have hmap : (updateFirst p f a.leases).map UiLeaseRecord.leaseId = a.leaseIds :=
      map_updateFirst (fun l _ => hids l) a.leases
    refine .inl (inj_on_of_nodup_map (hmap ▸ hnodup) hb
      (mem_updateFirst_of_find hfind) ?_)
    rw [hsame, hids]
  · rcases mem_updateFirst hb with hold | ⟨found, hfound, rfl⟩
    · exact .inr ⟨hold, hsame⟩
    · rw [hfind, Option.some.injEq] at hfound
      exact .inl (hfound ▸ rfl)

/-! ## Ownership -/

lemma staleReason_isNone_iff {processIsAlive : Nat → Bool} :
    (staleReason nowUnixMs processIsAlive lease).isNone = true
      ↔ ¬ (lease.expiresUnixMs ≤ nowUnixMs ∨ processIsAlive lease.clientPid = false) := by
  unfold staleReason
  by_cases hexpired : lease.expiresUnixMs ≤ nowUnixMs
  · simp [hexpired]
  · cases halive : processIsAlive lease.clientPid with
    | false => simp [hexpired]
    | true => simp [hexpired]

/-- A lease that a call neither names nor reaps is still there, unchanged. -/
lemma Step.frame (hstep : Step processId a op answer a') (hlease : lease ∈ a.leases)
    (hnames : ¬ op.Names lease) (hreaps : ¬ op.Reaps lease) : lease ∈ a'.leases := by
  cases hstep with
  | failed => exact hlease
  | renewed hrecord hold htime hfind hp =>
    exact mem_updateFirst_of_neg hlease fun hmatch => hnames (hp lease hmatch)
  | created => exact mem_append_left _ hlease
  | detached =>
    exact (mem_eraseP_of_neg fun howner => hnames (isOwner_iff.mp howner)).mpr hlease
  | reaped => exact mem_filter.mpr ⟨hlease, staleReason_isNone_iff.mpr hreaps⟩

lemma names_congr (hlease : lease'.leaseId = lease.leaseId)
    (hclient : lease'.clientId = lease.clientId) (hpid : lease'.clientPid = lease.clientPid)
    (h : op.Names lease) : op.Names lease' := by
  cases op with
  | attach | heartbeat | detach | acknowledge =>
    simp only [LeaseOp.Names, hlease, hclient, hpid] at h ⊢
    exact h
  | reapStale => exact h

/-- A lease that was not there before the call is one it names. -/
lemma Step.changed (hstep : Step processId a op answer a') (hlease : lease ∈ a'.leases) :
    lease ∈ a.leases ∨ op.Names lease := by
  cases hstep with
  | failed => exact .inl hlease
  | renewed hrecord hold htime hfind hp hrenew hids =>
    rcases mem_updateFirst hlease with hkept | ⟨found, hfound, rfl⟩
    · exact .inl hkept
    · have hnamed := hp found (List.find?_some hfound)
      exact .inr (names_congr (hids found).1 (hids found).2.1 (hids found).2.2 hnamed)
  | created hrecord =>
    rcases mem_append.mp hlease with hkept | hlast
    · exact .inl hkept
    · rw [mem_singleton.mp hlast, hrecord]
      exact .inr ⟨rfl, rfl⟩
  | detached => exact .inl (mem_of_mem_eraseP hlease)
  | reaped => exact .inl (mem_filter.mp hlease).1

/-- A lease keeps its client, and what it has observed only grows. -/
lemma Step.observed_le (hstep : Step processId a op answer a') (hnodup : a.leaseIds.Nodup)
    (hfresh : ∀ t, formatLeaseId processId t a.nextLeaseId ∉ a.leaseIds)
    (hlease : lease ∈ a.leases) (hlease' : lease' ∈ a'.leases)
    (hid : lease'.leaseId = lease.leaseId) :
    lease'.clientId = lease.clientId ∧ lease'.clientPid = lease.clientPid ∧
      lease.observedSequence ≤ lease'.observedSequence := by
  have hsame (hmem : lease' ∈ a.leases) : lease' = lease :=
    inj_on_of_nodup_map hnodup hmem hlease hid
  have hkept (hmem : lease' ∈ a.leases) :
      lease'.clientId = lease.clientId ∧ lease'.clientPid = lease.clientPid ∧
        lease.observedSequence ≤ lease'.observedSequence := by
    rw [hsame hmem]
    exact ⟨rfl, rfl, Nat.le_refl _⟩
  cases hstep with
  | failed => exact hkept hlease'
  | renewed hrecord hold htime hfind hp hrenew hids =>
    rcases mem_renewed hnodup hfind (fun l => (hids l).1) hlease' with rfl | ⟨hmem, -⟩
    · rw [hrenew.leaseId_eq] at hid
      have heq := inj_on_of_nodup_map hnodup (mem_of_find?_eq_some hfind) hlease hid
      subst heq
      exact ⟨hrenew.clientId_eq, hrenew.clientPid_eq, hrenew.observed_le⟩
    · exact hkept hmem
  | created hrecord =>
    rcases mem_append.mp hlease' with hmem | hlast
    · exact hkept hmem
    · have hmem : lease.leaseId ∈ a.leaseIds := mem_map_of_mem hlease
      rw [← hid, mem_singleton.mp hlast, hrecord] at hmem
      exact absurd hmem (hfresh _)
  | detached => exact hkept (mem_of_mem_eraseP hlease')
  | reaped => exact hkept (mem_filter.mp hlease').1

/-- A call that returns an error changes nothing. -/
lemma Step.eq_of_isError (hstep : Step processId a op answer a') (h : answer.IsError) : a' = a := by
  cases hstep with
  | failed => rfl
  | renewed hrecord =>
    rw [(LeaseAnswer.record_of_isError h).1] at hrecord
    exact absurd hrecord (by simp)
  | created | detached | reaped => exact absurd h id

end UiLeaseAuthority

/-! ## Runs -/

/-- An authority with the number of leases it has issued and, for each lease id, the clock
value of its last renewal and the journal sequence of its last acknowledgement. -/
structure LeaseRun where
  authority : UiLeaseAuthority
  issued : Nat
  renewedAt : String → Nat
  acknowledgedAt : String → Nat

namespace LeaseRun

open UiLeaseAuthority

def start : LeaseRun :=
  { authority := .default, issued := 0, renewedAt := fun _ => 0, acknowledgedAt := fun _ => 0 }

/-- Notes a value under the id of a lease, when there are both. -/
def note (f : String → Nat) : Option UiLeaseRecord → Option Nat → String → Nat
  | some lease, some value => fun id => if id = lease.leaseId then value else f id
  | _, _ => f

/-- The run after a call with this answer. -/
def advance (r : LeaseRun) (op : LeaseOp) (answer : LeaseAnswer)
    (authority : UiLeaseAuthority) : LeaseRun :=
  { authority
    issued := if answer.isCreated then r.issued + 1 else r.issued
    renewedAt := note r.renewedAt answer.record op.renewalTime
    acknowledgedAt := note r.acknowledgedAt answer.record op.acknowledgedSequence }

def step (processId : Nat) (r : LeaseRun) (op : LeaseOp) : LeaseRun :=
  r.advance op (r.authority.call processId op).1 (r.authority.call processId op).2

/-- The sequence number of the `i`-th lease a process issues. -/
def issuedNumber (i : Nat) : Nat := (1 + i) % 2 ^ 64

structure Sound (processId : Nat) (r : LeaseRun) : Prop where
  length_le : r.authority.leases.length ≤ uiLeaseMaxClients
  leaseIds_nodup : r.authority.leaseIds.Nodup
  clients_nodup : r.authority.clients.Nodup
  nextLeaseId_eq : r.authority.nextLeaseId = issuedNumber r.issued
  issued_ids : ∀ lease ∈ r.authority.leases, ∃ i < r.issued, ∃ t,
    lease.leaseId = formatLeaseId processId t (issuedNumber i)
  expires_eq : ∀ lease ∈ r.authority.leases,
    lease.expiresUnixMs = saturatingAdd (r.renewedAt lease.leaseId) uiLeaseTtlMs
  observed_le : ∀ lease ∈ r.authority.leases,
    lease.observedSequence ≤ r.acknowledgedAt lease.leaseId

lemma sound_start (processId : Nat) : Sound processId start where
  length_le := Nat.zero_le _
  leaseIds_nodup := nodup_nil
  clients_nodup := nodup_nil
  nextLeaseId_eq := rfl
  issued_ids := by simp [start, UiLeaseAuthority.default]
  expires_eq := by simp [start, UiLeaseAuthority.default]
  observed_le := by simp [start, UiLeaseAuthority.default]

section
variable {processId : Nat} {r : LeaseRun}

/-- Removing leases keeps everything that holds of each lease. -/
lemma Sound.of_sublist (h : Sound processId r) (hrecord : answer.record = none)
    (hcreated : answer.isCreated = false) {leases : List UiLeaseRecord}
    (hsub : leases.Sublist r.authority.leases) :
    Sound processId (r.advance op answer { r.authority with leases }) := by
  have hnote (f : String → Nat) (value : Option Nat) : note f answer.record value = f := by
    rw [hrecord]
    rfl
  have hissued : (r.advance op answer { r.authority with leases }).issued = r.issued := by
    simp [advance, hcreated]
  exact
    { length_le := Nat.le_trans hsub.length_le h.length_le
      leaseIds_nodup := (hsub.map _).nodup h.leaseIds_nodup
      clients_nodup := (hsub.map _).nodup h.clients_nodup
      nextLeaseId_eq := by
        rw [hissued]
        exact h.nextLeaseId_eq
      issued_ids := by
        intro lease hlease
        rw [hissued]
        exact h.issued_ids lease (hsub.subset hlease)
      expires_eq := by
        intro lease hlease
        simp only [advance, hnote]
        exact h.expires_eq lease (hsub.subset hlease)
      observed_le := by
        intro lease hlease
        simp only [advance, hnote]
        exact h.observed_le lease (hsub.subset hlease) }

/-- A lease id that was never issued is fresh. -/
lemma Sound.formatLeaseId_notMem (h : Sound processId r) (hfew : r.issued < 2 ^ 64) (t : Nat) :
    formatLeaseId processId t r.authority.nextLeaseId ∉ r.authority.leaseIds := by
  intro hmem
  obtain ⟨lease, hlease, hid⟩ := mem_map.mp hmem
  obtain ⟨i, hi, t', heq⟩ := h.issued_ids lease hlease
  have hnum := formatLeaseId_inj (heq.symm.trans hid)
  rw [h.nextLeaseId_eq, issuedNumber, issuedNumber] at hnum
  omega

/-- A renewal keeps the leases sound, if it keeps their ids and observes no more than is
current. -/
lemma Sound.renew (h : Sound processId r) (hrecord : answer.record = some (f lease))
    (hold : answer.isCreated = false) (htime : op.renewalTime = some nowUnixMs)
    (hfind : r.authority.leases.find? p = some lease) (hrenew : Renewal nowUnixMs lease (f lease))
    (hids : ∀ l, (f l).leaseId = l.leaseId ∧ (f l).clientId = l.clientId ∧
      (f l).clientPid = l.clientPid)
    (hobserved : (f lease).observedSequence = lease.observedSequence ∧
        op.acknowledgedSequence = none ∨
      ∃ current, op.acknowledgedSequence = some current ∧
        (f lease).observedSequence ≤ current) :
    Sound processId (r.advance op answer
      { r.authority with leases := updateFirst p f r.authority.leases }) := by
  have hlease : lease ∈ r.authority.leases := mem_of_find?_eq_some hfind
  have hmem {b : UiLeaseRecord} (hb : b ∈ updateFirst p f r.authority.leases) :
      b = f lease ∨ b ∈ r.authority.leases ∧ b.leaseId ≠ lease.leaseId :=
    mem_renewed h.leaseIds_nodup hfind (fun l => (hids l).1) hb
  refine
    { length_le := ?_
      leaseIds_nodup := ?_
      clients_nodup := ?_
      nextLeaseId_eq := ?_
      issued_ids := ?_
      expires_eq := ?_
      observed_le := ?_ }
  · simp only [advance, length_updateFirst]
    exact h.length_le
  · simp only [advance, leaseIds]
    rw [map_updateFirst fun l _ => (hids l).1]
    exact h.leaseIds_nodup
  · simp only [advance, clients]
    rw [map_updateFirst fun l _ => by rw [(hids l).2.1, (hids l).2.2]]
    exact h.clients_nodup
  · simp only [advance, hold, Bool.false_eq_true, if_false]
    exact h.nextLeaseId_eq
  · intro b hb
    simp only [advance, hold, Bool.false_eq_true, if_false]
    rcases hmem hb with rfl | ⟨hb, -⟩
    · rw [hrenew.leaseId_eq]
      exact h.issued_ids lease hlease
    · exact h.issued_ids b hb
  · intro b hb
    simp only [advance, hrecord, htime, note, hrenew.leaseId_eq]
    rcases hmem hb with rfl | ⟨hb, hother⟩
    · rw [if_pos hrenew.leaseId_eq, hrenew.expires_eq]
    · rw [if_neg hother]
      exact h.expires_eq b hb
  · intro b hb
    rcases hobserved with ⟨hkeep, hnone⟩ | ⟨current, hsome, hle⟩
    · simp only [advance, hrecord, hnone, note]
      rcases hmem hb with rfl | ⟨hb, -⟩
      · rw [hkeep, hrenew.leaseId_eq]
        exact h.observed_le lease hlease
      · exact h.observed_le b hb
    · simp only [advance, hrecord, hsome, note, hrenew.leaseId_eq]
      rcases hmem hb with rfl | ⟨hb, hother⟩
      · rw [if_pos hrenew.leaseId_eq]
        exact hle
      · rw [if_neg hother]
        exact h.observed_le b hb

/-- A lease under a fresh id keeps the leases sound. -/
lemma Sound.create (h : Sound processId r) (hfew : r.issued < 2 ^ 64)
    {clientBuild : Option UpgradeIdentity} {record : UiLeaseRecord}
    (hrecord : record =
      { leaseId := formatLeaseId processId nowUnixMs r.authority.nextLeaseId
        clientId, clientPid, clientBuild
        expiresUnixMs := saturatingAdd nowUnixMs uiLeaseTtlMs
        observedSequence := 0 })
    (hnew : r.authority.leases.find? (isClient clientId clientPid) = none)
    (hroom : r.authority.leases.length < uiLeaseMaxClients) :
    Sound processId (r.advance (.attach clientId clientPid clientBuild nowUnixMs)
      (.attached (.ok (record, true)))
      { leases := r.authority.leases ++ [record]
        nextLeaseId := (r.authority.nextLeaseId + 1) % 2 ^ 64 }) := by
  have hfresh : record.leaseId ∉ r.authority.leaseIds := by
    rw [hrecord]
    exact h.formatLeaseId_notMem hfew nowUnixMs
  have hother {b : UiLeaseRecord} (hb : b ∈ r.authority.leases) : b.leaseId ≠ record.leaseId :=
    fun heq => hfresh (heq ▸ mem_map_of_mem hb)
  refine
    { length_le := ?_
      leaseIds_nodup := ?_
      clients_nodup := ?_
      nextLeaseId_eq := ?_
      issued_ids := ?_
      expires_eq := ?_
      observed_le := ?_ }
  · simp only [advance, length_append, length_singleton]
    omega
  · simp only [advance, leaseIds, map_append, map_cons, map_nil]
    rw [nodup_append]
    refine ⟨h.leaseIds_nodup, nodup_singleton _, ?_⟩
    rintro id hid _ hmem rfl
    exact hfresh (mem_singleton.mp hmem ▸ hid)
  · simp only [advance, clients, map_append, map_cons, map_nil]
    rw [nodup_append]
    refine ⟨h.clients_nodup, nodup_singleton _, ?_⟩
    rintro client hclient _ hmem rfl
    obtain ⟨b, hb, heq⟩ := mem_map.mp hclient
    have hsame : isClient clientId clientPid b = true := by
      rw [mem_singleton.mp hmem, hrecord, Prod.mk.injEq] at heq
      exact isClient_iff.mpr heq
    exact List.find?_eq_none.mp hnew b hb hsame
  · simp only [advance, LeaseAnswer.isCreated, h.nextLeaseId_eq, issuedNumber, if_true]
    omega
  · intro b hb
    simp only [advance, LeaseAnswer.isCreated, if_true]
    rcases mem_append.mp hb with hold | hlast
    · obtain ⟨i, hi, t, heq⟩ := h.issued_ids b hold
      exact ⟨i, by omega, t, heq⟩
    · refine ⟨r.issued, by omega, nowUnixMs, ?_⟩
      rw [mem_singleton.mp hlast, hrecord, h.nextLeaseId_eq]
  · intro b hb
    simp only [advance, LeaseAnswer.record, LeaseOp.renewalTime, note]
    rcases mem_append.mp hb with hold | hlast
    · rw [if_neg (hother hold)]
      exact h.expires_eq b hold
    · rw [mem_singleton.mp hlast, if_pos rfl, hrecord]
  · intro b hb
    simp only [advance, LeaseAnswer.record, LeaseOp.acknowledgedSequence, note]
    rcases mem_append.mp hb with hold | hlast
    · exact h.observed_le b hold
    · rw [mem_singleton.mp hlast, hrecord]
      exact Nat.zero_le _

/-- One call keeps the invariant, as long as there are lease numbers left. -/
theorem step_sound (h : Sound processId r) (op : LeaseOp)
    (hfew : (r.step processId op).issued ≤ 2 ^ 64) : Sound processId (r.step processId op) := by
  unfold step at hfew ⊢
  have hcall := call_step processId r.authority op
  generalize (r.authority.call processId op).1 = answer at *
  generalize (r.authority.call processId op).2 = authority at *
  cases hcall with
  | failed herror =>
    obtain ⟨hrecord, hcreated⟩ := LeaseAnswer.record_of_isError herror
    exact h.of_sublist hrecord hcreated (List.Sublist.refl _)
  | renewed hrecord hold htime hfind hnames hrenew hids hobserved =>
    exact h.renew hrecord hold htime hfind hrenew hids hobserved
  | created hrecord hnew hroom => exact h.create hfew hrecord hnew hroom
  | detached => exact h.of_sublist rfl rfl eraseP_sublist
  | reaped => exact h.of_sublist rfl rfl filter_sublist

lemma issued_le_step (processId : Nat) (r : LeaseRun) (op : LeaseOp) :
    r.issued ≤ (r.step processId op).issued ∧
      (r.step processId op).issued ≤ r.issued + if op.isAttach then 1 else 0 := by
  unfold step advance
  cases op with
  | attach clientId clientPid clientBuild nowUnixMs =>
    simp only [LeaseOp.isAttach]
    split <;> simp
  | heartbeat | detach | acknowledge | reapStale => simp [call, LeaseAnswer.isCreated]

lemma issued_le_run (processId : Nat) (r : LeaseRun) (ops : List LeaseOp) :
    (run (step processId) r ops).issued ≤ r.issued + ops.countP LeaseOp.isAttach := by
  induction ops generalizing r with
  | nil => simp
  | cons op ops ih =>
    have hstep := (issued_le_step processId r op).2
    have hrest := ih (r.step processId op)
    rw [countP_cons, run_cons]
    omega

theorem run_sound (processId : Nat) (ops : List LeaseOp)
    (hfew : ops.countP LeaseOp.isAttach < 2 ^ 64) :
    Sound processId (run (step processId) start ops) ∧
      (run (step processId) start ops).issued < 2 ^ 64 := by
  have hinv : (run (step processId) start ops).issued ≤ 2 ^ 64 →
      Sound processId (run (step processId) start ops) := by
    apply run_invariant (P := fun r => r.issued ≤ 2 ^ 64 → Sound processId r)
    · intro r op hr hlen
      have hbefore := Nat.le_trans (issued_le_step processId r op).1 hlen
      exact step_sound (hr hbefore) op hlen
    · intro _
      exact sound_start processId
  have hcount := issued_le_run processId start ops
  have hzero : start.issued = 0 := rfl
  rw [hzero, Nat.zero_add] at hcount
  have hlt := Nat.lt_of_le_of_lt hcount hfew
  exact ⟨hinv (Nat.le_of_lt hlt), hlt⟩

end

/-- **The lease authority.** After any calls with fewer than `2 ^ 64` attaches among them: the
limit is kept, lease ids and (client id, pid) pairs are distinct, and nothing has been observed
beyond the journal sequence it was acknowledged against. For whatever call comes next: a lease
it neither names nor reaps is unchanged, whatever is new is named by it, observed sequences do
not decrease, and if it fails nothing changes. Reaping removes exactly the leases whose last
renewal is at least the time to live ago, and those of dead processes. -/
theorem lease_authority (processId : Nat) (ops : List LeaseOp)
    (hfew : ops.countP LeaseOp.isAttach < 2 ^ 64) (r : LeaseRun)
    (hr : r = run (step processId) start ops) :
    r.authority.leases.length ≤ uiLeaseMaxClients ∧ r.authority.leaseIds.Nodup ∧
      r.authority.clients.Nodup ∧
      (∀ lease ∈ r.authority.leases,
        lease.observedSequence ≤ r.acknowledgedAt lease.leaseId) ∧
      (∀ op, ∀ lease ∈ r.authority.leases, ∀ lease' ∈ (r.authority.call processId op).2.leases,
        lease'.leaseId = lease.leaseId → lease'.clientId = lease.clientId ∧
          lease'.clientPid = lease.clientPid ∧
          lease.observedSequence ≤ lease'.observedSequence) ∧
      (∀ op, ∀ lease ∈ r.authority.leases, ¬ op.Names lease → ¬ op.Reaps lease →
        lease ∈ (r.authority.call processId op).2.leases) ∧
      (∀ op, ∀ lease ∈ (r.authority.call processId op).2.leases,
        lease ∈ r.authority.leases ∨ op.Names lease) ∧
      (∀ nowUnixMs processIsAlive,
        (r.authority.reapStale nowUnixMs processIsAlive).2.leases
          = r.authority.leases.filter fun lease =>
              ¬ (saturatingAdd (r.renewedAt lease.leaseId) uiLeaseTtlMs ≤ nowUnixMs ∨
                processIsAlive lease.clientPid = false)) ∧
      ∀ op, (r.authority.call processId op).1.IsError →
        (r.authority.call processId op).2 = r.authority := by
  obtain ⟨h, hissued⟩ := run_sound processId ops hfew
  rw [← hr] at h hissued
  refine ⟨h.length_le, h.leaseIds_nodup, h.clients_nodup, h.observed_le, ?_, ?_, ?_, ?_, ?_⟩
  · intro op lease hlease lease' hlease' hid
    exact (call_step processId r.authority op).observed_le h.leaseIds_nodup
      (h.formatLeaseId_notMem hissued) hlease hlease' hid
  · intro op lease hlease hnames hreaps
    exact (call_step processId r.authority op).frame hlease hnames hreaps
  · intro op lease hlease
    exact (call_step processId r.authority op).changed hlease
  · intro nowUnixMs processIsAlive
    apply filter_congr
    intro lease hlease
    rw [Bool.eq_iff_iff, staleReason_isNone_iff, ← h.expires_eq lease hlease, decide_eq_true_iff]
  · intro op
    exact (call_step processId r.authority op).eq_of_isError

/-- One GUI attaches, and its process dies. -/
def sampleAttach : List LeaseOp := [.attach "gui-a" 42 none 1000]

/-- A lease four seconds after its last renewal is not reaped while its process lives. -/
theorem lease_authority_one_client :
    ∃ r : LeaseRun, r = run (step 7) start sampleAttach ∧
      r.authority.leaseIds = ["ui-7-3e8-1"] ∧
      (r.authority.reapStale 5000 fun _ => true).2.leases = r.authority.leases := by
  refine ⟨_, rfl, by decide, ?_⟩
  obtain ⟨-, -, -, -, -, -, -, hreap, -⟩ :=
    lease_authority 7 sampleAttach (by decide) _ rfl
  rw [hreap]
  decide

/-! ## Two leases with one id -/

/-- Another GUI attaches and is reaped at once, `n` times over. -/
def churn (n : Nat) : List LeaseOp :=
  (List.replicate n
    [LeaseOp.attach "gui-b" 43 none 0, .reapStale 0 fun pid => pid = 42]).flatten

/-- The first lease of process 7. -/
def firstLease : UiLeaseRecord :=
  { leaseId := formatLeaseId 7 0 1, clientId := "gui-a", clientPid := 42, clientBuild := none,
    expiresUnixMs := saturatingAdd 0 uiLeaseTtlMs, observedSequence := 0 }

/-- The authority of process 7 with its first lease only, and its counter at `n`. -/
def oneLease (n : Nat) : UiLeaseAuthority := { leases := [firstLease], nextLeaseId := n }

lemma run_churn {r : LeaseRun} {k : Nat} (n : Nat) (hr : r.authority = oneLease k)
    (hk : k < 2 ^ 64) :
    (run (step 7) r (churn n)).authority = oneLease ((k + n) % 2 ^ 64) := by
  induction n generalizing r k with
  | zero =>
    rw [Nat.add_zero, Nat.mod_eq_of_lt hk]
    exact hr
  | succ n ih =>
    have hround : ((r.step 7 (.attach "gui-b" 43 none 0)).step 7
        (.reapStale 0 fun pid => pid = 42)).authority = oneLease ((k + 1) % 2 ^ 64) := by
      simp only [step, advance, call, hr]
      rfl
    have hrest := ih hround (Nat.mod_lt _ (by decide))
    have hsum : ((k + 1) % 2 ^ 64 + n) % 2 ^ 64 = (k + (n + 1)) % 2 ^ 64 := by omega
    rw [hsum] at hrest
    exact hrest

/-- The calls after which the wrapped counter hands out its first number again. -/
def wrappingCalls : List LeaseOp :=
  .attach "gui-a" 42 none 0 :: churn (2 ^ 64 - 1) ++ [.attach "gui-c" 44 none 0]

lemma leaseIds_wrapped {r : LeaseRun} (hr : r.authority = oneLease 1) :
    ((r.step 7 (.attach "gui-c" 44 none 0)).authority).leaseIds
      = [formatLeaseId 7 0 1, formatLeaseId 7 0 1] := by
  simp only [step, advance, call, hr]
  rfl

/-- A lease renewed this very millisecond is reaped when its process is gone, so the age of
the last heartbeat does not decide what `reap_stale` removes; and once the counter has wrapped
around, two leases have the same id. -/
theorem reap_removes_fresh_lease_and_ids_wrap :
    ((run (step 7) start sampleAttach).authority.leaseIds = ["ui-7-3e8-1"] ∧
      (run (step 7) start sampleAttach).renewedAt "ui-7-3e8-1" = 1000 ∧
      ((run (step 7) start sampleAttach).authority.reapStale 1000 fun _ => false).2.leases
        = []) ∧
      ¬ (run (step 7) start wrappingCalls).authority.leaseIds.Nodup := by
  refine ⟨by decide, ?_⟩
  have hfirst : (start.step 7 (.attach "gui-a" 42 none 0)).authority = oneLease 2 := rfl
  have hchurn := run_churn (2 ^ 64 - 1) hfirst (by decide)
  have hone : (2 + (2 ^ 64 - 1)) % 2 ^ 64 = 1 := by decide
  rw [hone] at hchurn
  rw [wrappingCalls, cons_append, run_cons, run_append, run_cons, run_nil,
    leaseIds_wrapped hchurn]
  simp

end LeaseRun

end Agenterm
