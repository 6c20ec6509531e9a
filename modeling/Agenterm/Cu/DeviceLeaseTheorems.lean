import Agenterm.Cu.DeviceLeaseStore
import Agenterm.Lib.Keyed
import Agenterm.Lib.Registry

/-!
# Devices are leased to one owner at a time

The calls of any number of processes, one after the other, from a file that does not exist. The
check on documents does not look for two leases of a device: that there is one follows from what
the calls do. `written_of_operation` says this once, and `Document.Sound` is what it keeps. The ids
of leases are random; that no id is drawn twice is a hypothesis of the results about single leases
(`DrawsFresh`). `device_exclusivity` is the main result.
-/

namespace Agenterm.Cu.DeviceLeases

open Std Lib List

/-! ## What calls may do -/

/-- The owner that a call names. -/
def Call.owner : Call → Option DeviceOwnerIdentity
  | .markActive _ owner _ _ _ => some owner
  | .markOpenFailed _ owner _ _ => some owner
  | .publishCounters _ owner _ _ _ _ => some owner
  | .markTerminal _ owner _ _ _ _ => some owner
  | .markOwnerLost _ owner _ => some owner
  | .reserveClaim .. | .claimOpening .. | .markUnclaimedOpenFailed .. => none

/-- The id that a call draws. -/
def Call.drawnLease : Call → Option String
  | .reserveClaim _ _ _ _ _ _ randomId _ => randomId.map uuidV4
  | _ => none

/-- Who moves a lease: the owner it is bound to, or, as long as it has none, the one that claims it
or gives the intent up. -/
def MovedBy (call : Call) (record record' : DeviceLeaseRecord) : Prop :=
  (∃ owner, record.owner = some owner ∧ call.owner = some owner) ∨
    (record.owner = none ∧ call.owner = none ∧
      (record'.state = .opening ∨ ∃ code, record'.state = .openFailed code))

/-- What becomes of the record of a lease. -/
structure DeviceLeaseRecord.Becomes (record record' : DeviceLeaseRecord) : Prop where
  device_kept : record'.deviceId = record.deviceId
  owner_kept : ∀ owner, record.owner = some owner → record'.owner = some owner
  read_le : record.bytesRead ≤ record'.bytesRead
  written_le : record.bytesWritten ≤ record'.bytesWritten
  ended_kept : record.state.isTerminal = true → record' = record

/-- A record moved on by a call. -/
structure Advances (call : Call) (record record' : DeviceLeaseRecord) : Prop where
  is_open : record.state.isTerminal = false
  moved_by : MovedBy call record record'
  becomes : record.Becomes record'

/-- Leases of which the oldest that have ended were removed to make room. -/
structure Evicted (leases leases' : TreeMap String DeviceLeaseRecord) : Prop where
  held : ∀ (id : String) (record : DeviceLeaseRecord),
    leases'[id]? = some record → leases[id]? = some record
  removed : ∀ (id : String) (record : DeviceLeaseRecord),
    leases[id]? = some record → leases'[id]? = none →
      record.state.isTerminal = true ∧ maxRecords ≤ leases.size ∧
        ∀ (other : String) (kept : DeviceLeaseRecord), leases'[other]? = some kept →
          kept.state.isTerminal = true → kept.older record = false

/-- A lease that has just been reserved. -/
structure DeviceLeaseRecord.Reserved (record : DeviceLeaseRecord) : Prop where
  state_eq : record.state = .claimIntent
  owner_eq : record.owner = none

/-- What a call makes of the leases. -/
inductive Written (document : Document) (call : Call) : Document → Prop
  | advanced (id : String) (record record' : DeviceLeaseRecord)
    (held : document.leases[id]? = some record) (advances : Advances call record record') :
    Written document call
      { document with leases := document.leases.insert id record', lastNowUtcMs := call.now }
  | reserved (id : String) (record : DeviceLeaseRecord)
    (leases : TreeMap String DeviceLeaseRecord) (evicted : Evicted document.leases leases)
    (drawn : call.drawnLease = some id) (is_new : record.Reserved)
    (device_free : ∀ (other : String) (found : DeviceLeaseRecord), leases[other]? = some found →
      found.deviceId = record.deviceId → found.state.isTerminal = true) :
    Written document call
      { document with leases := leases.insert id record, lastNowUtcMs := call.now }

/-! ## Records -/

variable {handle : DeviceLeaseHandle} {id : String} {leases : TreeMap String DeviceLeaseRecord}

section
variable {record record' : DeviceLeaseRecord}

lemma DeviceLeaseRecord.Becomes.refl (record : DeviceLeaseRecord) : record.Becomes record where
  device_kept := rfl
  owner_kept _ howner := howner
  read_le := UInt64.le_refl _
  written_le := UInt64.le_refl _
  ended_kept _ := rfl

lemma DeviceLeaseRecord.Becomes.trans {record'' : DeviceLeaseRecord} (h : record.Becomes record')
    (h' : record'.Becomes record'') : record.Becomes record'' where
  device_kept := h'.device_kept.trans h.device_kept
  owner_kept owner howner := h'.owner_kept owner (h.owner_kept owner howner)
  read_le := UInt64.le_trans h.read_le h'.read_le
  written_le := UInt64.le_trans h.written_le h'.written_le
  ended_kept hended := by
    obtain rfl := h.ended_kept hended
    exact h'.ended_kept hended

lemma DeviceLeaseRecord.Becomes.of_path
    (h : Relation.ReflTransGen DeviceLeaseRecord.Becomes record record') :
    record.Becomes record' := by
  induction h with
  | refl => exact .refl record
  | tail _ hstep ih => exact ih.trans hstep

lemma older_iff {record other : DeviceLeaseRecord} :
    record.older other = true ↔ record.updatedAtUtcMs.val < other.updatedAtUtcMs.val ∨
      (record.updatedAtUtcMs.val = other.updatedAtUtcMs.val ∧
        compare record.leaseId other.leaseId = .lt) := by
  unfold DeviceLeaseRecord.older
  simp only [Bool.or_eq_true, Bool.and_eq_true, decide_eq_true_eq, beq_iff_eq]

lemma older_asymm (record other : DeviceLeaseRecord) (h : record.older other = true) :
    other.older record = false := by
  have hswap : compare other.leaseId record.leaseId
      = (compare record.leaseId other.leaseId).swap := OrientedCmp.eq_swap
  rw [← Bool.not_eq_true, older_iff]
  rw [older_iff] at h
  rintro (hless | ⟨heq, hid⟩)
  · omega
  · rcases h with hless | ⟨-, hid'⟩
    · omega
    · rw [hswap, hid'] at hid
      cases hid

lemma not_older_trans (a b c : DeviceLeaseRecord) (hab : a.older b = false)
    (hbc : b.older c = false) : a.older c = false := by
  rw [← Bool.not_eq_true, older_iff, not_or, not_and] at hab hbc
  rw [← Bool.not_eq_true, older_iff]
  rintro (hless | ⟨heq, hid⟩)
  · omega
  · have hab' : a.updatedAtUtcMs.val = b.updatedAtUtcMs.val := by omega
    have hbc' : b.updatedAtUtcMs.val = c.updatedAtUtcMs.val := by omega
    have hle : (compare c.leaseId b.leaseId).isLE = true := by
      have hswap : compare b.leaseId c.leaseId
          = (compare c.leaseId b.leaseId).swap := OrientedCmp.eq_swap
      have hnot := hbc.2 hbc'
      rw [hswap] at hnot
      cases hcompare : compare c.leaseId b.leaseId with
      | lt => rfl
      | eq => rfl
      | gt =>
        rw [hcompare] at hnot
        exact absurd rfl hnot
    exact hab.2 hab' (TransCmp.lt_of_lt_of_isLE hid hle)

/-! ## Eviction -/

/-- Leases are filed under their ids. -/
def Filed (leases : TreeMap String DeviceLeaseRecord) : Prop :=
  ∀ (id : String) (record : DeviceLeaseRecord), leases[id]? = some record → id = record.leaseId

lemma oldestTerminal_eq_some (h : oldestTerminal leases = some record) :
    (∃ id : String, leases[id]? = some record ∧ record.state.isTerminal = true) ∧
      ∀ (id : String) (other : DeviceLeaseRecord), leases[id]? = some other →
        other.state.isTerminal = true → other.older record = false := by
  have hchosen := mem_of_foldl_choose (fun chosen next => ?_) h
  have hleast := (foldl_choose_least older_asymm not_older_trans (fun next => rfl)
    (fun best next => rfl) h).2
  · constructor
    · rcases hchosen with hnone | hmem
      · cases hnone
      · obtain ⟨⟨id, found⟩, hentry, hfound⟩ := mem_filterMap.mp hmem
        dsimp only at hfound
        split at hfound
        · rename_i hterminal
          cases hfound
          exact ⟨id, TreeMap.mem_toList_iff_getElem?_eq_some.mp hentry, hterminal⟩
        · cases hfound
    · intro id other hother hterminal
      have hentry := TreeMap.mem_toList_iff_getElem?_eq_some.mpr hother
      exact hleast other (mem_filterMap.mpr ⟨(id, other), hentry, if_pos hterminal⟩)
  · cases chosen with
    | none => exact .inl rfl
    | some best =>
      dsimp only
      split
      · exact .inl rfl
      · exact .inr rfl

lemma evicted_rounds {rounds : Nat} (hfiled : Filed leases) :
    Evicted leases (evictTerminalUntilRoom rounds leases) := by
  have hsame (leases : TreeMap String DeviceLeaseRecord) : Evicted leases leases := by
    refine ⟨fun _ _ h => h, fun id record hrecord hnone => ?_⟩
    rw [hnone] at hrecord
    cases hrecord
  induction rounds generalizing leases with
  | zero => exact hsame leases
  | succ rounds ih =>
    unfold evictTerminalUntilRoom
    split
    · rename_i hfull
      split
      · exact hsame leases
      · rename_i oldest holdest
        obtain ⟨⟨key, hkey, hterminal⟩, hleast⟩ := oldestTerminal_eq_some holdest
        have hfiled' : Filed (leases.erase oldest.leaseId) :=
          fun id record h => hfiled id record (erase_eq_some.mp h).2
        have hrest := ih hfiled'
        have hheld (id : String) (record : DeviceLeaseRecord)
            (h : (evictTerminalUntilRoom rounds (leases.erase oldest.leaseId))[id]?
              = some record) : leases[id]? = some record :=
          (erase_eq_some.mp (hrest.held id record h)).2
        refine ⟨hheld, fun id record hrecord hnone => ?_⟩
        -- the lease was removed in this round, or in a later one
        by_cases hid : id = oldest.leaseId
        · rw [hfiled key oldest hkey] at hkey
          rw [hid] at hrecord
          obtain rfl := Option.some.inj (hkey.symm.trans hrecord)
          exact ⟨hterminal, hfull, fun other kept hkept => hleast other kept (hheld other kept hkept)⟩
        · obtain ⟨hended, -, holder⟩ :=
            hrest.removed id record (erase_eq_some.mpr ⟨hid, hrecord⟩) hnone
          exact ⟨hended, hfull, holder⟩
    · exact hsame leases

/-! ## Operations -/

lemma checkedRecord_eq_ok {document : Document} (h : checkedRecord document handle = .ok record) :
    document.leases[handle.leaseId]? = some record := by
  unfold checkedRecord at h
  split at h
  · cases h
  · rename_i found hfound
    rw [ite_error_eq_ok] at h
    obtain rfl := Except.ok.inj h.2
    exact hfound

lemma requireOwner_eq_ok {owner : DeviceOwnerIdentity} :
    requireOwner record owner = .ok () ↔ record.owner = some owner := by
  unfold requireOwner
  split
  · exact ⟨fun _ => ‹_›, fun _ => rfl⟩
  · exact ⟨nofun, fun h => absurd h ‹_›⟩

/-- A record that its owner moves on. -/
lemma Advances.of_owner {call : Call} {owner : DeviceOwnerIdentity}
    (howner : record.owner = some owner) (hcall : call.owner = some owner)
    (hopen : record.state.isTerminal = false) (hdevice : record'.deviceId = record.deviceId)
    (hkept : record'.owner = record.owner) (hread : record.bytesRead ≤ record'.bytesRead)
    (hwritten : record.bytesWritten ≤ record'.bytesWritten) : Advances call record record' where
  is_open := hopen
  moved_by := .inl ⟨owner, howner, hcall⟩
  becomes :=
    { device_kept := hdevice
      owner_kept := fun _ hbound => hkept.trans hbound
      read_le := hread
      written_le := hwritten
      ended_kept := fun hended => absurd (hopen.symm.trans hended) nofun }

/-- A record of an intent, which has no owner yet. -/
lemma Advances.of_intent {call : Call} (hshape : shapeValid record = true)
    (hstate : record.state = .claimIntent) (hcall : call.owner = none)
    (hstate' : record'.state = .opening ∨ ∃ code, record'.state = .openFailed code)
    (hdevice : record'.deviceId = record.deviceId) (hread : record'.bytesRead = record.bytesRead)
    (hwritten : record'.bytesWritten = record.bytesWritten) : Advances call record record' := by
  have hnone : record.owner = none := by
    unfold shapeValid at hshape
    rw [hstate] at hshape
    simp only [Bool.and_eq_true, Option.isNone_iff_eq_none] at hshape
    exact hshape.1.1.1
  have hopen : record.state.isTerminal = false := by
    rw [hstate]
    rfl
  refine ⟨hopen, .inr ⟨hnone, hcall, hstate'⟩, hdevice, fun _ hbound => ?_, ?_, ?_, fun hended => ?_⟩
  · exact absurd (hnone.symm.trans hbound) nofun
  · rw [hread]
    exact UInt64.le_refl _
  · rw [hwritten]
    exact UInt64.le_refl _
  · exact absurd (hopen.symm.trans hended) nofun

/-- What the check on a document says about its records. -/
lemma records_of_valid {document : Document} (h : validateDocument document = .ok ())
    (hrecord : document.leases[id]? = some record) :
    id = record.leaseId ∧ shapeValid record = true := by
  unfold validateDocument at h
  rw [ite_error_eq_ok, ite_error_eq_ok, forM_toList_eq_ok] at h
  have hvalid := (bind_unit_eq_ok.mp (h.2.2 id record hrecord)).1
  unfold validateRecord at hvalid
  simp only [bind_unit_eq_ok, ite_error_eq_ok] at hvalid
  obtain ⟨-, -, -, -, -, hkey, -, -, hshape, -⟩ := hvalid
  exact ⟨by simpa using (not_or.mp hkey).1, by simpa using hshape⟩

section
variable {document edited document' : Document} {call : Call}

lemma written_of_transition {now : I64}
    {edit : DeviceLeaseRecord → Except CuError DeviceLeaseRecord}
    (hvalid : validateDocument document = .ok ())
    (hedit : ∀ record changed, shapeValid record = true → edit record = .ok changed →
      Advances call record { changed with updatedAtUtcMs := now })
    (h : transition handle now edit document = .ok (record', edited)) :
    Written document call { edited with lastNowUtcMs := call.now } := by
  obtain ⟨record, hrecord, h⟩ := bind_eq_ok.mp h
  obtain ⟨changed, hchanged, h⟩ := bind_eq_ok.mp h
  cases h
  have hheld := checkedRecord_eq_ok hrecord
  have hshape := (records_of_valid hvalid hheld).2
  exact .advanced handle.leaseId record _ hheld (hedit record changed hshape hchanged)

lemma not_lt_counters {a b c d : UInt64} (h : ¬ (a < b ∨ c < d)) : b ≤ a ∧ d ≤ c := by
  rw [not_or] at h
  exact ⟨UInt64.not_lt.mp h.1, UInt64.not_lt.mp h.2⟩

/-- What the calls do to a document that was accepted. -/
lemma written_of_operation (hvalid : validateDocument document = .ok ())
    (h : operation document call = .ok (record', edited)) :
    Written document call { edited with lastNowUtcMs := call.now } := by
  cases call with
  | reserveClaim sessionId runtimeLockId deviceId leaseSha256 expires now randomId randomNonce =>
    cases randomId with
    | none => cases h
    | some idBytes =>
      cases randomNonce with
      | none => cases h
      | some nonceBytes =>
        have hfiled : Filed document.leases :=
          fun id record hrecord => (records_of_valid hvalid hrecord).1
        change reserveClaim sessionId runtimeLockId deviceId leaseSha256 expires now
          (uuidV4 idBytes) (hexDigest (List.ofFn nonceBytes)) document = _ at h
        unfold reserveClaim at h
        rw [ite_error_eq_ok, ite_error_eq_ok] at h
        obtain ⟨-, hfree, h⟩ := h
        cases h
        refine .reserved (uuidV4 idBytes) _ _ (evicted_rounds hfiled) rfl ⟨rfl, rfl⟩ ?_
        intro other found hfound hdevice
        simp only [any_eq_true, not_exists, not_and] at hfree
        have hterminal := hfree (other, found) (TreeMap.mem_toList_iff_getElem?_eq_some.mpr hfound)
        rw [Bool.and_eq_true, not_and, Bool.not_eq_true'] at hterminal
        simpa using hterminal (beq_iff_eq.mpr hdevice)
  | claimOpening handle owner now =>
    refine written_of_transition hvalid (fun record changed hshape hedit => ?_) h
    unfold claimOpening at hedit
    rw [ite_error_eq_ok, not_not] at hedit
    obtain ⟨hstate, hchanged⟩ := hedit
    cases hchanged
    exact .of_intent hshape hstate rfl (.inl rfl) rfl rfl rfl
  | markUnclaimedOpenFailed handle code now =>
    refine written_of_transition hvalid (fun record changed hshape hedit => ?_) h
    unfold markUnclaimedOpenFailed at hedit
    rw [ite_error_eq_ok, not_or, not_not] at hedit
    obtain ⟨⟨hstate, -⟩, hchanged⟩ := hedit
    cases hchanged
    exact .of_intent hshape hstate rfl (.inr ⟨code, rfl⟩) rfl rfl rfl
  | markActive handle owner exclusive serial now =>
    refine written_of_transition hvalid (fun record changed _ hedit => ?_) h
    unfold markActive at hedit
    rw [bind_unit_eq_ok, requireOwner_eq_ok, ite_error_eq_ok, not_not] at hedit
    obtain ⟨howner, hstate, hchanged⟩ := hedit
    cases hchanged
    exact .of_owner howner rfl (by rw [hstate]; rfl) rfl rfl (UInt64.le_refl _) (UInt64.le_refl _)
  | markOpenFailed handle owner code now =>
    refine written_of_transition hvalid (fun record changed _ hedit => ?_) h
    unfold markOpenFailed at hedit
    rw [bind_unit_eq_ok, requireOwner_eq_ok, ite_error_eq_ok, not_not] at hedit
    obtain ⟨howner, hstate, hchanged⟩ := hedit
    cases hchanged
    exact .of_owner howner rfl (by rw [hstate]; rfl) rfl rfl (UInt64.le_refl _) (UInt64.le_refl _)
  | publishCounters handle owner bytesRead bytesWritten expires now =>
    refine written_of_transition hvalid (fun record changed _ hedit => ?_) h
    unfold publishCounters at hedit
    rw [bind_unit_eq_ok, requireOwner_eq_ok, ite_error_eq_ok, not_not,
      ite_error_eq_ok] at hedit
    obtain ⟨howner, hstate, hcounters, hchanged⟩ := hedit
    cases hchanged
    obtain ⟨hread, hwritten⟩ := not_lt_counters hcounters
    exact .of_owner howner rfl (by rw [hstate]; rfl) rfl rfl hread hwritten
  | markTerminal handle owner state bytesRead bytesWritten now =>
    refine written_of_transition hvalid (fun record changed _ hedit => ?_) h
    unfold markTerminal at hedit
    rw [bind_unit_eq_ok, requireOwner_eq_ok, ite_error_eq_ok, not_not,
      ite_error_eq_ok] at hedit
    obtain ⟨howner, hstate, hcounters, hchanged⟩ := hedit
    cases hchanged
    obtain ⟨hread, hwritten⟩ := not_lt_counters hcounters
    exact .of_owner howner rfl (by rw [hstate]; rfl) rfl rfl hread hwritten
  | markOwnerLost handle owner now =>
    refine written_of_transition hvalid (fun record changed _ hedit => ?_) h
    unfold markOwnerLost at hedit
    rw [bind_unit_eq_ok, requireOwner_eq_ok, ite_error_eq_ok] at hedit
    obtain ⟨howner, hstate, hchanged⟩ := hedit
    cases hchanged
    have hopen : record.state.isTerminal = false := by
      rw [not_and, not_not] at hstate
      by_cases hopening : record.state = .opening
      · rw [hopening]
        rfl
      · rw [hstate hopening]
        rfl
    exact .of_owner howner rfl hopen rfl rfl (UInt64.le_refl _) (UInt64.le_refl _)

/-- Where the records of the new document come from. -/
lemma Written.origin (h : Written document call document')
    (hrecord' : document'.leases[id]? = some record') :
    (call.drawnLease = some id ∧ record'.Reserved) ∨
      ∃ record, document.leases[id]? = some record ∧
        (record' = record ∨ Advances call record record') := by
  cases h with
  | advanced key held moved hheld hadvances =>
    rcases insert_eq_some hrecord' with ⟨rfl, rfl⟩ | ⟨-, hrecord'⟩
    · exact .inr ⟨held, hheld, .inr hadvances⟩
    · exact .inr ⟨record', hrecord', .inl rfl⟩
  | reserved key reserved leases hevicted hdrawn hnew hfree =>
    rcases insert_eq_some hrecord' with ⟨rfl, rfl⟩ | ⟨-, hrecord'⟩
    · exact .inl ⟨hdrawn, hnew⟩
    · exact .inr ⟨record', hevicted.held id record' hrecord', .inl rfl⟩

/-- A record that was removed had ended, there was no room, and no older one is left. -/
lemma Written.removed (h : Written document call document')
    (hrecord : document.leases[id]? = some record) (hnone : document'.leases[id]? = none) :
    record.state.isTerminal = true ∧ maxRecords ≤ document.leases.size ∧
      ∀ (other : String) (kept : DeviceLeaseRecord), document'.leases[other]? = some kept →
        kept.state.isTerminal = true → kept.older record = false := by
  have hinsert {leases : TreeMap String DeviceLeaseRecord} {key : String}
      {inserted : DeviceLeaseRecord} (h : (leases.insert key inserted)[id]? = none) :
      leases[id]? = none := by
    rw [TreeMap.getElem?_insert] at h
    split at h
    · cases h
    · exact h
  cases h with
  | advanced key held moved hheld hadvances =>
    exact absurd (hrecord.symm.trans (hinsert hnone)) nofun
  | reserved key reserved leases hevicted hdrawn hnew hfree =>
    obtain ⟨hended, hfull, holder⟩ := hevicted.removed id record hrecord (hinsert hnone)
    refine ⟨hended, hfull, fun other kept hkept hterminal => ?_⟩
    rcases insert_eq_some hkept with ⟨-, rfl⟩ | ⟨-, hkept⟩
    · rw [hnew.state_eq] at hterminal
      cases hterminal
    · exact holder other kept hkept hterminal

/-- A document that is accepted, with one lease of a device that has not ended. -/
structure Document.Sound (document : Document) : Prop where
  valid : validateDocument document = .ok ()
  one_open : ∀ (id id' : String) (record record' : DeviceLeaseRecord),
    document.leases[id]? = some record → document.leases[id']? = some record' →
    record.deviceId = record'.deviceId → record.state.isTerminal = false →
    record'.state.isTerminal = false → id = id'

/-- A call keeps devices to one lease. -/
lemma Written.one_open (h : Written document call document') (hsound : document.Sound)
    {id' : String} (hrecord : document'.leases[id]? = some record)
    (hrecord' : document'.leases[id']? = some record')
    (hdevice : record.deviceId = record'.deviceId) (hopen : record.state.isTerminal = false)
    (hopen' : record'.state.isTerminal = false) : id = id' := by
  cases h with
  | advanced key held moved hheld hadvances =>
    -- the new record is of the same device as the old one, which had not ended either
    have hold {id : String} {record : DeviceLeaseRecord}
        (hrecord : (document.leases.insert key moved)[id]? = some record)
        (hopen : record.state.isTerminal = false) :
        ∃ old, document.leases[id]? = some old ∧ old.deviceId = record.deviceId ∧
          old.state.isTerminal = false := by
      rcases insert_eq_some hrecord with ⟨rfl, rfl⟩ | ⟨-, hrecord⟩
      · exact ⟨held, hheld, hadvances.becomes.device_kept.symm, hadvances.is_open⟩
      · exact ⟨record, hrecord, rfl, hopen⟩
    obtain ⟨old, hfound, hsame, hold₁⟩ := hold hrecord hopen
    obtain ⟨old', hfound', hsame', hold₂⟩ := hold hrecord' hopen'
    exact hsound.one_open id id' old old' hfound hfound'
      (hsame.trans (hdevice.trans hsame'.symm)) hold₁ hold₂
  | reserved key reserved leases hevicted hdrawn hnew hfree =>
    rcases insert_eq_some hrecord with ⟨rfl, rfl⟩ | ⟨-, hfound⟩
    · rcases insert_eq_some hrecord' with ⟨rfl, -⟩ | ⟨-, hfound'⟩
      · rfl
      · rw [hfree id' record' hfound' hdevice.symm] at hopen'
        cases hopen'
    · rcases insert_eq_some hrecord' with ⟨rfl, rfl⟩ | ⟨-, hfound'⟩
      · rw [hfree id record hfound hdevice] at hopen
        cases hopen
      · exact hsound.one_open id id' record record' (hevicted.held id record hfound)
          (hevicted.held id' record' hfound') hdevice hopen hopen'

/-! ## Runs -/

/-- A call writes what the document has become, or leaves the file. -/
lemma perform_file (io : StoreIo) (file : Option Document) (call : Call)
    (hvalid : validateDocument (store.current file) = .ok ()) :
    (perform io file call).2 = file ∨
      ∃ document', (perform io file call).2 = some document' ∧
        validateDocument document' = .ok () ∧ document'.json.encodedLength ≤ maxFileBytes ∧
        Written (store.current file) call document' := by
  rcases DocumentStore.guarded_file file call.checks
    (store.transact io file (mutate call)) with hsame | ⟨-, hcall⟩
  · exact .inl hsame
  · rcases DocumentStore.transact_file store io file (mutate call) with hsame |
      ⟨record, document', hmakes, hwritten⟩
    · exact .inl ((congrArg Prod.snd hcall).trans hsame)
    · refine .inr ⟨document', (congrArg Prod.snd hcall).trans hwritten, hmakes.valid,
        hmakes.size_le, ?_⟩
      have hedited := hmakes.edited
      unfold mutate at hedited
      rw [ite_error_eq_ok] at hedited
      obtain ⟨⟨found, edited⟩, hoperation, hedited⟩ := bind_eq_ok.mp hedited.2
      cases hedited
      exact written_of_operation hvalid hoperation

end

end

/-- The store as a table of leases. -/
def registry : Registry (Option Document) (StoreIo × Call) String DeviceLeaseRecord where
  step file call := (perform call.1 file call.2).2
  record file id := (store.current file).leases[id]?
  drawn call := call.2.drawnLease

/-- The file that calls leave of one that does not exist. -/
def after (calls : List (StoreIo × Call)) : Option Document :=
  run registry.step none calls

/-- No lease id is drawn twice. -/
def DrawsFresh (calls : List (StoreIo × Call)) : Prop := (registry.draws calls).Nodup

/-- What holds of the file after every call. -/
structure Kept (file : Option Document) : Prop where
  sound : (store.current file).Sound
  fits : ∀ document, file = some document → document.json.encodedLength ≤ maxFileBytes

lemma kept_none : Kept none := by
  refine ⟨⟨by decide +kernel, fun id id' record record' hrecord => ?_⟩, fun _ h => absurd h nofun⟩
  have hempty : (∅ : TreeMap String DeviceLeaseRecord)[id]? = some record := hrecord
  rw [TreeMap.getElem?_emptyc] at hempty
  cases hempty

lemma registry_changes : registry.Changes Kept DeviceLeaseRecord.Becomes where
  step_invariant file call hkept := by
    show Kept (perform call.1 file call.2).2
    rcases perform_file call.1 file call.2 hkept.sound.valid with hsame |
      ⟨document', hwritten, hvalid, hsize, hstep⟩
    · rwa [hsame]
    · rw [hwritten]
      refine ⟨⟨hvalid, ?_⟩, fun document hdocument => Option.some.inj hdocument ▸ hsize⟩
      exact fun id id' record record' hrecord hrecord' =>
        hstep.one_open hkept.sound hrecord hrecord'
  step_record file call id record' hkept hrecord' := by
    have hrecord' : (store.current (perform call.1 file call.2).2).leases[id]? = some record' :=
      hrecord'
    rcases perform_file call.1 file call.2 hkept.sound.valid with hsame |
      ⟨document', hwritten, -, -, hstep⟩
    · rw [hsame] at hrecord'
      exact .inr ⟨record', hrecord', .refl record'⟩
    · rw [hwritten] at hrecord'
      rcases hstep.origin hrecord' with ⟨hdrawn, -⟩ | ⟨record, hrecord, hmoved⟩
      · exact .inl hdrawn
      · refine .inr ⟨record, hrecord, ?_⟩
        rcases hmoved with rfl | hadvances
        · exact .refl _
        · exact hadvances.becomes

lemma after_kept (calls : List (StoreIo × Call)) : Kept (after calls) :=
  run_invariant registry_changes.step_invariant kept_none calls

/-- Over every run of calls that draws no lease id twice. At every moment: a device has at most one
lease that has not ended, and the file is read and accepted. In each step: a lease that was not
there is an intent without an owner; a lease that changes has not ended, and is moved by a call that
names its owner, or by its claim; a lease that is removed has ended, there was no room, and no older
one that has ended is left. Between any two moments: a lease keeps its device and its owner, its
counters do not decrease, and one that has ended has not changed. A call that fails changes
nothing. -/
theorem device_exclusivity (calls : List (StoreIo × Call)) (hfresh : DrawsFresh calls) :
    (∀ before later, calls = before ++ later → (store.current (after before)).Sound ∧
      ∀ io : StoreIo, io.readable = true →
        store.read io (after before) = .ok (store.current (after before))) ∧
    (∀ before io call later (id : String) (record' : DeviceLeaseRecord),
      calls = before ++ (io, call) :: later →
      (store.current (perform io (after before) call).2).leases[id]? = some record' →
      ((store.current (after before)).leases[id]? = none ∧ record'.Reserved) ∨
        ∃ record, (store.current (after before)).leases[id]? = some record ∧
          (record' = record ∨ Advances call record record')) ∧
    (∀ before io call later (id : String) (record : DeviceLeaseRecord),
      calls = before ++ (io, call) :: later →
      (store.current (after before)).leases[id]? = some record →
      (store.current (perform io (after before) call).2).leases[id]? = none →
      record.state.isTerminal = true ∧ maxRecords ≤ (store.current (after before)).leases.size ∧
        ∀ (other : String) (kept : DeviceLeaseRecord),
          (store.current (perform io (after before) call).2).leases[other]? = some kept →
          kept.state.isTerminal = true → kept.older record = false) ∧
    (∀ before between later (id : String) (record record' : DeviceLeaseRecord),
      calls = before ++ between ++ later →
      (store.current (after before)).leases[id]? = some record →
      (store.current (after (before ++ between))).leases[id]? = some record' →
      record.Becomes record') ∧
    (∀ before (io : StoreIo) call later error, calls = before ++ (io, call) :: later →
      io.Atomic → (perform io (after before) call).1 = .error error →
      (perform io (after before) call).2 = after before) := by
  have hempty : ∀ id, registry.record none id = none := by
    intro id
    show (∅ : TreeMap String DeviceLeaseRecord)[id]? = none
    rw [TreeMap.getElem?_emptyc]
  refine ⟨?_, ?_, ?_, ?_, ?_⟩
  · intro before later _
    have hkept := after_kept before
    refine ⟨hkept.sound, fun io hio => DocumentStore.read_of_valid hio fun held hheld => ?_⟩
    have hvalid := hkept.sound.valid
    rw [hheld] at hvalid
    exact ⟨hkept.fits held hheld, hvalid⟩
  · intro before io call later id record' hrun hrecord'
    rcases perform_file io (after before) call (after_kept before).sound.valid with hsame |
      ⟨document', hwritten, -, -, hstep⟩
    · rw [hsame] at hrecord'
      exact .inr ⟨record', hrecord', .inl rfl⟩
    · rw [hwritten] at hrecord'
      rcases hstep.origin hrecord' with ⟨hdrawn, hreserved⟩ | hmoved
      · refine .inl ⟨?_, hreserved⟩
        unfold DrawsFresh at hfresh
        rw [hrun] at hfresh
        exact Registry.absent_of_drawn registry_changes kept_none hempty hfresh hdrawn
      · exact .inr hmoved
  · intro before io call later id record _ hrecord hnone
    rcases perform_file io (after before) call (after_kept before).sound.valid with hsame |
      ⟨document', hwritten, -, -, hstep⟩
    · rw [hsame] at hnone
      exact absurd (hrecord.symm.trans hnone) nofun
    · rw [hwritten] at hnone ⊢
      exact hstep.removed hrecord hnone
  · intro before between later id record record' hrun hrecord hrecord'
    unfold DrawsFresh Registry.draws at hfresh
    rw [hrun, filterMap_append] at hfresh
    exact .of_path (Registry.path registry_changes kept_none hempty
      (nodup_append.mp hfresh).1 hrecord hrecord')
  · intro before io call later error _ hatomic herror
    exact DocumentStore.guarded_error
      (fun _ h => DocumentStore.transact_error hatomic h) herror

lemma timeout_inRange : -2 ^ 63 ≤ (1000 : Int) ∧ (1000 : Int) < 2 ^ 63 := by decide

/-- A device is claimed, and then opened by an owner. -/
def openExample : List (StoreIo × Call) :=
  [ (⟨.acquired, true, .published⟩,
      .reserveClaim "session" "lock" ("agt-device-v1-" ++ hexDigest (List.replicate 32 7))
        (hexDigest (List.replicate 32 9)) ⟨1000, timeout_inRange⟩ zeroTime (some fun _ => 0)
        (some fun _ => 1)),
    (⟨.acquired, true, .published⟩,
      .claimOpening ⟨uuidV4 fun _ => 0, 1, hexDigest (List.replicate 16 1)⟩ ⟨7, "owner"⟩ zeroTime) ]

theorem device_exclusivity_opened :
    DrawsFresh openExample ∧
      ∃ record record',
        (store.current (after (openExample.take 1))).leases[uuidV4 fun _ => 0]? = some record ∧
        (store.current (after openExample)).leases[uuidV4 fun _ => 0]? = some record' ∧
        record'.state = .opening ∧ record.Becomes record' := by
  have hfresh : DrawsFresh openExample := by
    unfold DrawsFresh
    decide +kernel
  have hfirst : ((store.current (after (openExample.take 1))).leases[uuidV4 fun _ => 0]?).isSome
      = true := by decide +kernel
  have hsecond : ((store.current (after openExample)).leases[uuidV4 fun _ => 0]?).any
      (fun record' => record'.state == .opening) = true := by decide +kernel
  obtain ⟨record, hrecord⟩ := Option.isSome_iff_exists.mp hfirst
  obtain ⟨record', hrecord', hstate⟩ := (Option.any_eq_true _ _).mp hsecond
  exact ⟨hfresh, record, record', hrecord, hrecord', eq_of_beq hstate,
    (device_exclusivity openExample hfresh).2.2.2.1 (openExample.take 1) (openExample.drop 1) []
      (uuidV4 fun _ => 0) record record' rfl hrecord hrecord'⟩

end Agenterm.Cu.DeviceLeases
