import Agenterm.Cu.AuthStore
import Agenterm.Lib.Run

/-!
# Grants are consumed exactly

Any number of handles, opened at any times, that take steps in any order. A handle's copy is never
newer than the file, and a copy of the same generation is the document of the file
(`System.Coherent`): so a call that gets through its commit was decided on the document it replaces
(`step_cases`), and what it publishes is its own mutation of that document (`Mutation`).
`grant_consumption` is the main result.
-/

namespace Agenterm.Cu.AuthStore

open Std Option Lib

/-! ## The document of a file -/

/-- The document that the file holds, if it is accepted. -/
def current (file : Option Contents) : Option StoreDocument :=
  match readDocument none file with
  | .ok found => some (found.getD .default)
  | .error _ => none

/-- The grant that the file holds under an id. -/
def grant (file : Option Contents) (id : String) : Option GrantRecord :=
  (current file).bind fun document => document.records[id]?

/-- How often a grant of the file has been used. -/
def consumed (file : Option Contents) (id : String) : Nat :=
  ((grant file id).map fun record => record.consumedUses.toNat).getD 0

variable {failure : Option AuthStoreError} {length : Nat} {published : StoreDocument}
  {steps : List Step}

section
variable {file : Option Contents} {document : StoreDocument}

/-- A read that does not fail finds the document of the file. -/
lemma current_of_read {fault : Option String} {found : Option StoreDocument}
    (h : readDocument fault file = .ok found) : current file = some (found.getD .default) := by
  cases fault with
  | some message => cases h
  | none =>
    unfold current
    rw [h]

lemma generationOf_eq (found : Option StoreDocument) :
    generationOf found = (found.getD .default).generation := by
  cases found with
  | none => rfl
  | some document => rfl

lemma validateDocument_default : validateDocument .default = .ok () := by decide

/-- The document of a file has passed the checks. -/
lemma validate_of_current (h : current file = some document) :
    validateDocument document = .ok () := by
  unfold current at h
  cases hread : readDocument none file with
  | error e =>
    rw [hread] at h
    cases h
  | ok found =>
    rw [hread] at h
    cases h
    cases file with
    | none =>
      obtain rfl : none = found := Except.ok.inj hread
      exact validateDocument_default
    | some contents =>
      obtain ⟨parsed, -, hread⟩ := bind_eq_ok.mp hread
      rw [bind_unit_eq_ok] at hread
      obtain ⟨hvalid, hread⟩ := hread
      cases hread
      exact hvalid

lemma current_published (hvalid : validateDocument document = .ok ())
    (hlength : length ≤ maxStoreBytes) :
    current (some ⟨length, .current document⟩) = some document := by
  have hread : readDocument none (some ⟨length, .current document⟩) = .ok (some document) := by
    have hfits : ¬ length > maxStoreBytes := by omega
    refine bind_eq_ok.mpr ⟨document, if_neg hfits, ?_⟩
    rw [bind_unit_eq_ok]
    exact ⟨hvalid, rfl⟩
  exact current_of_read hread

end

/-! ## Mutations -/

/-- An attempt that a grant permits. -/
structure Permits (record : GrantRecord) (attempt : GrantAttempt) (now : I64) : Prop where
  target : record.targetId = attempt.targetId
  tier : record.tier = attempt.tier
  session : record.sessionBinding = attempt.sessionBinding
  bound : record.legacyOperationUnbound = false
  operation : attempt.operation ∈ record.operations
  scope : attempt.scope ∈ record.scopes
  not_revoked : record.revokedAtUtcMs = none
  not_before : record.notBeforeUtcMs.val ≤ now.val
  not_expired : now.val < record.expiresAtUtcMs.val
  not_exhausted : record.consumedUses < record.maxUses

variable {record : GrantRecord}

/-- A grant that is not denied permits the attempt. -/
lemma permits_of_denial {attempt : GrantAttempt} {now : I64}
    (h : denial record attempt now = none) : Permits record attempt now := by
  unfold denial at h
  have hsome {kind : GrantDenialKind} : some kind ≠ none := nofun
  by_cases htarget : record.targetId ≠ attempt.targetId ∨ record.tier ≠ attempt.tier
      ∨ record.sessionBinding ≠ attempt.sessionBinding
  · rw [if_pos htarget] at h
    exact absurd h hsome
  rw [if_neg htarget] at h
  by_cases hbound : record.legacyOperationUnbound = true
  · rw [if_pos hbound] at h
    exact absurd h hsome
  rw [if_neg hbound] at h
  by_cases hoperation : attempt.operation ∉ record.operations
  · rw [if_pos hoperation] at h
    exact absurd h hsome
  rw [if_neg hoperation] at h
  by_cases hscope : attempt.scope ∉ record.scopes
  · rw [if_pos hscope] at h
    exact absurd h hsome
  rw [if_neg hscope] at h
  by_cases hrevoked : record.revokedAtUtcMs.isSome = true
  · rw [if_pos hrevoked] at h
    exact absurd h hsome
  rw [if_neg hrevoked] at h
  by_cases hearly : now.val < record.notBeforeUtcMs.val
  · rw [if_pos hearly] at h
    exact absurd h hsome
  rw [if_neg hearly] at h
  by_cases hlate : now.val ≥ record.expiresAtUtcMs.val
  · rw [if_pos hlate] at h
    exact absurd h hsome
  rw [if_neg hlate] at h
  by_cases hused : record.consumedUses ≥ record.maxUses
  · rw [if_pos hused] at h
    exact absurd h hsome
  simp only [not_or, not_not] at htarget
  exact
    { target := htarget.1
      tier := htarget.2.1
      session := htarget.2.2
      bound := by simpa using hbound
      operation := not_not.mp hoperation
      scope := not_not.mp hscope
      not_revoked := by simpa using hrevoked
      not_before := by omega
      not_expired := by omega
      not_exhausted := UInt64.not_le.mp hused }

/-- A grant that has been used once more. -/
def GrantRecord.used (record : GrantRecord) : GrantRecord :=
  { record with consumedUses := record.consumedUses + 1 }

/-- A grant that has been revoked. -/
def GrantRecord.revokedAt (record : GrantRecord) (now : I64) : GrantRecord :=
  { record with revocationEpoch := record.revocationEpoch + 1, revokedAtUtcMs := some now }

/-- The document with the next generation and these records. -/
def StoreDocument.next (document : StoreDocument) (records : TreeMap String GrantRecord) :
    StoreDocument :=
  { document with generation := document.generation + 1, records }

/-- What a call makes of the document, and what it answers. -/
inductive Mutation (document : StoreDocument) : Call → StoreDocument → Answer → Prop
  | create (spec : GrantSpec) (absent : document.records[spec.grantId]? = none) :
    Mutation document (.create spec)
      (document.next (document.records.insert spec.grantId spec.record)) (.created spec.record)
  | reserve (attempt : GrantAttempt) (now : I64) (record : GrantRecord)
    (held : document.records[attempt.grantId]? = some record)
    (permits : Permits record attempt now) :
    Mutation document (.reserveAttempt attempt now)
      (document.next (document.records.insert attempt.grantId record.used))
      (.authorized
        { grantId := attempt.grantId, consumedUses := record.consumedUses + 1,
          remainingUses := record.maxUses - (record.consumedUses + 1),
          generation := document.generation + 1 })
  | revoke (id : String) (now : I64) (record : GrantRecord)
    (held : document.records[id]? = some record) (not_revoked : record.revokedAtUtcMs = none) :
    Mutation document (.revoke id now)
      (document.next (document.records.insert id (record.revokedAt now)))
      (.revoked (record.revokedAt now))
  | save : Mutation document (.saveIfGeneration document.generation)
      (document.next document.records) .saved

section
variable {document candidate : StoreDocument} {call : Call} {answer : UInt64 → Answer}

/-- What a call has prepared is its mutation. -/
lemma mutation_of_start (h : start document call = .prepared candidate answer) :
    Mutation document call { candidate with generation := document.generation + 1 }
      (answer (document.generation + 1)) := by
  cases call with
  | create spec =>
    change create document spec = _ at h
    unfold create at h
    dsimp only at h
    cases hvalid : validateRecord spec.record with
    | error e =>
      rw [hvalid] at h
      cases h
    | ok _ =>
      rw [hvalid] at h
      dsimp only at h
      split at h
      · cases h
      split at h
      · cases h
      rename_i habsent
      split at h
      · cases h
      obtain ⟨rfl, rfl⟩ := Started.prepared.inj h
      refine .create spec ?_
      rwa [TreeMap.contains_eq_isSome_getElem?, Bool.not_eq_true, isSome_eq_false_iff,
        isNone_iff_eq_none] at habsent
  | reserveAttempt attempt now =>
    change reserveAttempt document attempt now = _ at h
    unfold reserveAttempt at h
    cases hheld : document.records[attempt.grantId]? with
    | none =>
      rw [hheld] at h
      cases h
    | some record =>
      rw [hheld] at h
      dsimp only at h
      cases hdenial : denial record attempt now with
      | some kind =>
        rw [hdenial] at h
        cases h
      | none =>
        rw [hdenial] at h
        obtain ⟨rfl, rfl⟩ := Started.prepared.inj h
        exact .reserve attempt now record hheld (permits_of_denial hdenial)
  | revoke id now =>
    change revoke document id now = _ at h
    unfold revoke at h
    cases hheld : document.records[id]? with
    | none =>
      rw [hheld] at h
      cases h
    | some record =>
      rw [hheld] at h
      dsimp only at h
      split at h
      · cases h
      rename_i hrevoked
      split at h
      · cases h
      split at h
      · cases h
      obtain ⟨rfl, rfl⟩ := Started.prepared.inj h
      exact .revoke id now record hheld (by simpa using hrevoked)
  | saveIfGeneration expected =>
    change saveIfGeneration document expected = _ at h
    unfold saveIfGeneration at h
    split at h
    · cases h
    · rename_i hexpected
      obtain ⟨rfl, rfl⟩ := Started.prepared.inj h
      obtain rfl := not_not.mp hexpected
      exact .save

/-- Only a call that prepares a commit may authorize. -/
lemma not_authorized_of_start {result : Except AuthStoreError Answer}
    (h : start document call = .answered result) (reservation : GrantReservation) :
    result ≠ .ok (.authorized reservation) := by
  rintro rfl
  cases call with
  | create spec =>
    change create document spec = _ at h
    unfold create at h
    dsimp only at h
    repeat' split at h
    all_goals exact absurd h nofun
  | reserveAttempt attempt now =>
    change reserveAttempt document attempt now = _ at h
    unfold reserveAttempt at h
    cases hheld : document.records[attempt.grantId]? with
    | none =>
      rw [hheld] at h
      cases h
    | some record =>
      rw [hheld] at h
      dsimp only at h
      cases hdenial : denial record attempt now with
      | some kind =>
        rw [hdenial] at h
        cases h
      | none =>
        rw [hdenial] at h
        cases h
  | revoke id now =>
    change revoke document id now = _ at h
    unfold revoke at h
    dsimp only at h
    repeat' split at h
    all_goals exact absurd h nofun
  | saveIfGeneration expected =>
    change saveIfGeneration document expected = _ at h
    unfold saveIfGeneration at h
    split at h
    all_goals exact absurd h nofun

end

/-! ## Commits -/

section
variable {prettyLength : StoreDocument → Nat} {io : CommitIo} {file : Option Contents}

/-- A document that has replaced the file fits into it, whatever happens after that. -/
lemma length_of_published {result : PublishResult}
    (h : ∀ error, publishDocument length result = some error → error.published = true) :
    length ≤ maxStoreBytes := by
  by_contra hlength
  have hlength : length > maxStoreBytes := by omega
  have hbefore {error : AuthStoreError} (herror : publishDocument length result = some error)
      (hpublished : error.published = false) : False := by
    rw [h error herror] at hpublished
    cases hpublished
  cases result with
  | directoryFailed message => exact hbefore rfl rfl
  | serializeFailed message => exact hbefore rfl rfl
  | temporaryFailed message => exact hbefore (if_pos hlength) rfl
  | writeFailed message => exact hbefore (if_pos hlength) rfl
  | renameFailed message => exact hbefore (if_pos hlength) rfl
  | syncFailed message => exact hbefore (if_pos hlength) rfl
  | synced => exact hbefore (if_pos hlength) rfl

/-- A commit that is let through has found the generation it expects. -/
lemma attemptCommit_ok {expected : UInt64} {candidate : StoreDocument}
    (h : attemptCommit prettyLength io file expected candidate = .ok (published, failure)) :
    published = { candidate with generation := expected + 1 } ∧
      (expected + 1).toNat = expected.toNat + 1 ∧
      (∃ document, current file = some document ∧ document.generation = expected) ∧
      current (some ⟨prettyLength published, .current published⟩) = some published := by
  unfold attemptCommit at h
  rw [bind_unit_eq_ok] at h
  obtain ⟨found, hread, h⟩ := bind_eq_ok.mp h.2
  rw [ite_error_eq_ok, ite_error_eq_ok, bind_unit_eq_ok] at h
  obtain ⟨hexpected, hroom, hvalid, h⟩ := h
  have hgeneration : (expected + 1).toNat = expected.toNat + 1 := by
    rw [UInt64.toNat_add]
    have hone : (1 : UInt64).toNat = 1 := rfl
    exact Nat.mod_eq_of_lt (by omega)
  have hcurrent := current_of_read hread
  have hfound : (found.getD .default).generation = expected := by
    rw [← generationOf_eq]
    exact not_not.mp hexpected
  have hpublished : published = { candidate with generation := expected + 1 } ∧
      ∀ error, publishDocument (prettyLength { candidate with generation := expected + 1 })
        io.publish = some error → error.published = true := by
    cases hpublish : publishDocument (prettyLength { candidate with generation := expected + 1 })
      io.publish with
    | none =>
      rw [hpublish] at h
      exact ⟨(Prod.mk.inj (Except.ok.inj h)).1.symm, fun _ herror => absurd herror nofun⟩
    | some error =>
      rw [hpublish] at h
      dsimp only at h
      split at h
      · rename_i hafter
        exact ⟨(Prod.mk.inj (Except.ok.inj h)).1.symm, fun _ herror =>
          some.inj herror ▸ hafter⟩
      · cases h
  obtain ⟨rfl, hpublish⟩ := hpublished
  exact ⟨rfl, hgeneration, ⟨_, hcurrent, hfound⟩,
    current_published hvalid (length_of_published hpublish)⟩

end

/-! ## Steps -/

/-- A handle whose copy is one that the file has had, with this document the latest. -/
structure Handle.Follows (handle : Handle) (document : StoreDocument) : Prop where
  generation_le : handle.document.generation.toNat ≤ document.generation.toNat
  same : handle.document.generation = document.generation → handle.document = document
  prepared : ∀ pending, handle.pending = some pending →
    start handle.document pending.call = .prepared pending.candidate pending.answer

/-- Every handle follows the file. -/
def System.Coherent (s : System) : Prop :=
  ∀ index handle, s.handles index = some handle →
    ∃ document, current s.file = some document ∧ handle.Follows document

/-- A document is published in a step. -/
structure Publication (s s' : System) (call : Call) (answer : Answer)
    (document document' : StoreDocument) : Prop where
  held : current s.file = some document
  published : current s'.file = some document'
  next : document'.generation.toNat = document.generation.toNat + 1
  mutation : Mutation document call document' answer

section
variable {prettyLength : StoreDocument → Nat} {s : System} {document document' : StoreDocument}
  {handle : Handle}

/-- A copy that has become stale stays so. -/
lemma Handle.Follows.of_next (h : handle.Follows document)
    (hnext : document'.generation.toNat = document.generation.toNat + 1) :
    handle.Follows document' where
  generation_le := by
    have hle := h.generation_le
    omega
  same hsame := by
    have hle := h.generation_le
    rw [hsame] at hle
    omega
  prepared := h.prepared

lemma System.Coherent.setHandle (h : s.Coherent) (index : Nat) {value : Option Handle}
    (hvalue : ∀ handle, value = some handle →
      ∃ document, current s.file = some document ∧ handle.Follows document) :
    (s.setHandle index value).Coherent := by
  intro other handle hhandle
  by_cases hindex : other = index
  · subst hindex
    have hset : (s.setHandle other value).handles other = value := Function.update_self ..
    exact hvalue handle (hset ▸ hhandle)
  · have hset : (s.setHandle index value).handles other = s.handles other :=
      Function.update_of_ne hindex ..
    exact h other handle (hset ▸ hhandle)

/-- The step of a commit whose candidate replaces the file. -/
lemma commit_publishes (hs : s.Coherent) {index : Nat} {io : CommitIo} {pending : Pending}
    (hhandle : s.handles index = some ⟨document, some pending⟩)
    (hcommit : attemptCommit prettyLength io s.file document.generation pending.candidate
      = .ok (published, failure)) :
    let file := some ⟨prettyLength published, .current published⟩
    let s' := { s with file }.setHandle index (some ⟨published, none⟩)
    Publication s s' pending.call (pending.answer published.generation) document published ∧
      s'.Coherent := by
  obtain ⟨hpublished, hroom, ⟨found, hfound, hgeneration⟩, hcurrent⟩ := attemptCommit_ok hcommit
  obtain ⟨held, hheld, hfollows⟩ := hs index _ hhandle
  -- the copy has the generation of the file, so that it is the document of the file
  obtain rfl : held = found := some.inj (hheld.symm.trans hfound)
  obtain rfl : document = held := hfollows.same hgeneration.symm
  have hmutation := mutation_of_start (hfollows.prepared pending rfl)
  have hnext : published.generation.toNat = document.generation.toNat + 1 := by
    rw [hpublished]
    exact hroom
  refine ⟨⟨hheld, hcurrent, hnext, ?_⟩, ?_⟩
  · rw [hpublished]
    exact hmutation
  · have hfile : ({ s with file := some ⟨prettyLength published, .current published⟩ }
        : System).Coherent := by
      intro other handle hother
      obtain ⟨latest, hlatest, hlater⟩ := hs other handle hother
      obtain rfl : latest = document := some.inj (hlatest.symm.trans hheld)
      exact ⟨published, hcurrent, hlater.of_next hnext⟩
    refine hfile.setHandle index fun handle hvalue => ?_
    cases hvalue
    exact ⟨published, hcurrent, Nat.le_refl _, fun _ => rfl, fun _ hnone => absurd hnone nofun⟩

/-- A step that leaves the file and authorizes nothing. -/
structure Keeps (s s' : System) (reply : Option (Except AuthStoreError Answer)) : Prop where
  file_kept : s'.file = s.file
  coherent : s'.Coherent
  not_authorized : ∀ reservation, reply ≠ some (.ok (.authorized reservation))

lemma openAt_keeps (hs : s.Coherent) (index : Nat) (fault : Option String) :
    Keeps s (s.openAt index fault) none := by
  unfold System.openAt
  cases hhandle : s.handles index with
  | some handle => exact ⟨rfl, hs, fun _ h => absurd h nofun⟩
  | none =>
    dsimp only
    cases hread : readDocument fault s.file with
    | error e => exact ⟨rfl, hs, fun _ h => absurd h nofun⟩
    | ok found =>
      refine ⟨rfl, hs.setHandle index fun handle hvalue => ?_, fun _ h => absurd h nofun⟩
      cases hvalue
      exact ⟨_, current_of_read hread, Nat.le_refl _, fun _ => rfl,
        fun _ hpending => absurd hpending nofun⟩

lemma start_keeps (hs : s.Coherent) (index : Nat) (call : Call) :
    Keeps s (s.start index call).1 (s.start index call).2 := by
  unfold System.start
  cases hhandle : s.handles index with
  | none => exact ⟨rfl, hs, fun _ h => absurd h nofun⟩
  | some handle =>
    obtain ⟨document, pending⟩ := handle
    cases pending with
    | some pending => exact ⟨rfl, hs, fun _ h => absurd h nofun⟩
    | none =>
      dsimp only
      cases hstart : start document call with
      | answered result =>
        refine ⟨rfl, hs, fun reservation h => ?_⟩
        exact not_authorized_of_start hstart reservation (some.inj h)
      | prepared candidate answer =>
        refine ⟨rfl, hs.setHandle index fun handle hvalue => ?_, fun _ h => absurd h nofun⟩
        cases hvalue
        obtain ⟨latest, hlatest, hfollows⟩ := hs index _ hhandle
        refine ⟨latest, hlatest, hfollows.generation_le, hfollows.same, fun pending hpending => ?_⟩
        cases hpending
        exact hstart

/-- A commit leaves the file, or publishes the mutation of its call and answers that or an error. -/
lemma commit_cases (hs : s.Coherent) (index : Nat) (io : CommitIo) :
    Keeps s (s.commit prettyLength index io).1 (s.commit prettyLength index io).2 ∨
    ∃ pending document document' answer, s.handles index = some ⟨document, some pending⟩ ∧
      Publication s (s.commit prettyLength index io).1 pending.call answer document document' ∧
      (s.commit prettyLength index io).1.Coherent ∧
      ∀ given, (s.commit prettyLength index io).2 = some (.ok given) → given = answer := by
  unfold System.commit
  cases hhandle : s.handles index with
  | none => exact .inl ⟨rfl, hs, fun _ h => absurd h nofun⟩
  | some handle =>
    obtain ⟨document, pending⟩ := handle
    cases pending with
    | none => exact .inl ⟨rfl, hs, fun _ h => absurd h nofun⟩
    | some pending =>
      dsimp only
      unfold commitCandidate
      cases hcommit : attemptCommit prettyLength io s.file document.generation
        pending.candidate with
      | error e =>
        refine .inl ⟨rfl, ?_, fun _ h => absurd (some.inj h) nofun⟩
        refine System.Coherent.setHandle hs index fun handle hvalue => ?_
        cases hvalue
        obtain ⟨latest, hlatest, hfollows⟩ := hs index _ hhandle
        exact ⟨latest, hlatest, hfollows.generation_le, hfollows.same,
          fun _ hpending => absurd hpending nofun⟩
      | ok result =>
        obtain ⟨published, failure⟩ := result
        obtain ⟨hpublication, hcoherent⟩ := commit_publishes hs hhandle hcommit
        refine .inr ⟨pending, document, published, _, rfl, hpublication, hcoherent,
          fun given hgiven => ?_⟩
        cases failure with
        | none => exact (Except.ok.inj (some.inj hgiven)).symm
        | some error => exact absurd (some.inj hgiven) nofun

/-- What a step may do. -/
lemma step_cases (prettyLength : StoreDocument → Nat) (hs : s.Coherent) (op : Step) :
    Keeps s (s.step prettyLength op).1 (s.step prettyLength op).2 ∨
    ∃ index io pending document document' answer, op = .commit index io ∧
      s.handles index = some ⟨document, some pending⟩ ∧
      Publication s (s.step prettyLength op).1 pending.call answer document document' ∧
      (s.step prettyLength op).1.Coherent ∧
      ∀ given, (s.step prettyLength op).2 = some (.ok given) → given = answer := by
  cases op with
  | openAt index fault => exact .inl (openAt_keeps hs index fault)
  | start index call => exact .inl (start_keeps hs index call)
  | commit index io =>
    rcases commit_cases hs index io with hkeeps |
      ⟨pending, document, document', answer, hhandle, hpublication⟩
    · exact .inl hkeeps
    · exact .inr ⟨index, io, pending, document, document', answer, rfl, hhandle, hpublication⟩
  | drop index =>
    exact .inl ⟨rfl, hs.setHandle index fun _ hnone => absurd hnone nofun,
      fun _ h => absurd h nofun⟩

end

/-! ## Grants -/

/-- What becomes of a grant: it stays what it was issued as, its uses are not given back, and its
revocation stands. -/
structure GrantRecord.Becomes (record record' : GrantRecord) : Prop where
  issued : { record' with
      consumedUses := record.consumedUses, revocationEpoch := record.revocationEpoch,
      revokedAtUtcMs := record.revokedAtUtcMs } = record
  consumed_le : record.consumedUses ≤ record'.consumedUses
  revoked_kept : ∀ time, record.revokedAtUtcMs = some time → record'.revokedAtUtcMs = some time

lemma GrantRecord.Becomes.refl (record : GrantRecord) : record.Becomes record :=
  ⟨rfl, UInt64.le_refl _, fun _ h => h⟩

lemma GrantRecord.Becomes.trans {record' record'' : GrantRecord} (h : record.Becomes record')
    (h' : record'.Becomes record'') : record.Becomes record'' where
  issued := by
    have hissued := h.issued
    rw [← h'.issued] at hissued
    exact hissued
  consumed_le := UInt64.le_trans h.consumed_le h'.consumed_le
  revoked_kept time htime := h'.revoked_kept time (h.revoked_kept time htime)

lemma toNat_succ_of_lt {a b : UInt64} (h : a < b) : (a + 1).toNat = a.toNat + 1 := by
  have hlt := UInt64.lt_iff_toNat_lt.mp h
  have hmax := b.toNat_lt
  rw [UInt64.toNat_add]
  exact Nat.mod_eq_of_lt (by have hone : (1 : UInt64).toNat = 1 := rfl; omega)

lemma used_becomes (h : record.consumedUses < record.maxUses) :
    record.Becomes record.used where
  issued := rfl
  consumed_le := by
    have hsucc := toNat_succ_of_lt h
    show record.consumedUses ≤ record.consumedUses + 1
    rw [UInt64.le_iff_toNat_le]
    omega
  revoked_kept _ htime := htime

lemma revokedAt_becomes (h : record.revokedAtUtcMs = none) (now : I64) :
    record.Becomes (record.revokedAt now) where
  issued := rfl
  consumed_le := UInt64.le_refl _
  revoked_kept time htime := by
    rw [h] at htime
    cases htime

section
variable {document document' : StoreDocument} {call : Call} {answer : Answer}

/-- No grant is removed, and each becomes what the mutations may make of it. -/
lemma Mutation.becomes (h : Mutation document call document' answer) {id : String}
    (hrecord : document.records[id]? = some record) :
    ∃ record', document'.records[id]? = some record' ∧ record.Becomes record' := by
  -- the entry that a mutation replaces, and all others
  have hinsert {key : String} {value : GrantRecord}
      (hkey : id = key → record.Becomes value) :
      ∃ record', (document.records.insert key value)[id]? = some record' ∧
        record.Becomes record' := by
    by_cases heq : id = key
    · subst heq
      exact ⟨value, TreeMap.getElem?_insert_self, hkey rfl⟩
    · rw [getElem?_insert_of_ne (Ne.symm heq)]
      exact ⟨record, hrecord, .refl record⟩
  cases h with
  | create spec habsent =>
    refine hinsert fun heq => ?_
    subst heq
    rw [hrecord] at habsent
    cases habsent
  | reserve attempt now held hheld hpermits =>
    refine hinsert fun heq => ?_
    subst heq
    obtain rfl : record = held := some.inj (hrecord.symm.trans hheld)
    exact used_becomes hpermits.not_exhausted
  | revoke key now held hheld hopen =>
    refine hinsert fun heq => ?_
    subst heq
    obtain rfl : record = held := some.inj (hrecord.symm.trans hheld)
    exact revokedAt_becomes hopen now
  | save => exact ⟨record, hrecord, .refl record⟩

end

/-- Grants of a file that is accepted have not been used more often than permitted. -/
lemma consumed_le_max {file : Option Contents} {id : String} (h : grant file id = some record) :
    record.consumedUses ≤ record.maxUses := by
  obtain ⟨document, hdocument, hrecord⟩ := bind_eq_some_iff.mp h
  have hvalid := validate_of_current hdocument
  unfold validateDocument at hvalid
  rw [ite_error_eq_ok, ite_error_eq_ok, forM_toList_eq_ok] at hvalid
  have hentry := hvalid.2.2 id record hrecord
  dsimp only at hentry
  rw [ite_error_eq_ok] at hentry
  have huses := hentry.2
  unfold validateRecord at huses
  rw [bind_unit_eq_ok, bind_unit_eq_ok] at huses
  have huses := huses.2.2
  unfold validateUses at huses
  simp only [ite_error_eq_ok] at huses
  exact UInt64.not_lt.mp huses.2.2.2.1

/-! ## Runs -/

section
variable (prettyLength : StoreDocument → Nat)

/-- A file on which no handle has been opened. -/
def System.init (file : Option Contents) : System where
  file := file
  handles := fun _ => none

def after (file : Option Contents) (steps : List Step) : System :=
  run (fun s op => (s.step prettyLength op).1) (System.init file) steps

/-- The answers of a run. -/
def answers (s : System) : List Step → List (Except AuthStoreError Answer)
  | [] => []
  | op :: steps =>
    (s.step prettyLength op).2.toList ++ answers (s.step prettyLength op).1 steps

/-- A decision that authorizes an attempt on a grant. -/
def authorizes (id : String) : Except AuthStoreError Answer → Bool
  | .ok (.authorized reservation) => reservation.grantId == id
  | _ => false

/-- The number of decisions of a run that authorize attempts on a grant. -/
def authorizations (file : Option Contents) (steps : List Step) (id : String) : Nat :=
  (answers prettyLength (System.init file) steps).countP (authorizes id)

end

section
variable {prettyLength : StoreDocument → Nat} {s : System} {op : Step} {id : String}

lemma authorizes_eq_true {reply : Except AuthStoreError Answer} (h : authorizes id reply = true) :
    ∃ reservation, reply = .ok (.authorized reservation) ∧ reservation.grantId = id := by
  unfold authorizes at h
  split at h
  · exact ⟨_, rfl, eq_of_beq h⟩
  · cases h

lemma coherent_init (file : Option Contents) : (System.init file).Coherent :=
  fun _ _ h => absurd h nofun

lemma step_coherent (prettyLength : StoreDocument → Nat) (hs : s.Coherent) (op : Step) :
    (s.step prettyLength op).1.Coherent := by
  rcases step_cases prettyLength hs op with hkeeps | ⟨_, _, _, _, _, _, -, -, -, hcoherent, -⟩
  · exact hkeeps.coherent
  · exact hcoherent

lemma after_coherent (file : Option Contents) (steps : List Step) :
    (after prettyLength file steps).Coherent := by
  have hstep (s : System) (op : Step) (hs : s.Coherent) : (s.step prettyLength op).1.Coherent :=
    step_coherent prettyLength hs op
  exact run_invariant hstep (coherent_init file) steps

lemma step_grant (prettyLength : StoreDocument → Nat) (hs : s.Coherent) (op : Step)
    (h : grant s.file id = some record) :
    ∃ record', grant (s.step prettyLength op).1.file id = some record' ∧
      record.Becomes record' := by
  rcases step_cases prettyLength hs op with hkeeps |
    ⟨_, _, _, document, document', _, -, -, hpublication, -, -⟩
  · rw [hkeeps.file_kept]
    exact ⟨record, h, .refl record⟩
  · unfold grant at *
    rw [hpublication.held] at h
    rw [hpublication.published]
    exact hpublication.mutation.becomes h

/-- Grants are never removed, and each becomes what the calls may make of it. -/
lemma run_grant (hs : s.Coherent) (h : grant s.file id = some record) :
    ∃ record', grant (run (fun s op => (s.step prettyLength op).1) s steps).file id
      = some record' ∧ record.Becomes record' := by
  induction steps generalizing s record with
  | nil => exact ⟨record, h, .refl record⟩
  | cons op steps ih =>
    obtain ⟨next, hnext, hbecomes⟩ := step_grant prettyLength hs op h
    obtain ⟨record', hrecord', hlater⟩ := ih (step_coherent prettyLength hs op) hnext
    exact ⟨record', hrecord', hbecomes.trans hlater⟩

/-- An attempt is authorized on the document of the file. -/
lemma authorized_of_step (hs : s.Coherent) {reservation : GrantReservation}
    (h : (s.step prettyLength op).2 = some (.ok (.authorized reservation))) :
    ∃ index io pending document attempt now record, op = .commit index io ∧
      s.handles index = some ⟨document, some pending⟩ ∧
      pending.call = .reserveAttempt attempt now ∧ reservation.grantId = attempt.grantId ∧
      grant s.file attempt.grantId = some record ∧ Permits record attempt now ∧
      grant (s.step prettyLength op).1.file attempt.grantId = some record.used := by
  rcases step_cases prettyLength hs op with hkeeps |
    ⟨index, io, pending, document, document', answer, hop, hhandle, hpublication, -, hanswer⟩
  · exact absurd h (hkeeps.not_authorized reservation)
  · obtain rfl := hanswer _ h
    unfold grant
    rw [hpublication.held, hpublication.published]
    have hmutation := hpublication.mutation
    generalize hcall : pending.call = call at hmutation
    cases hmutation with
    | reserve attempt now record hheld hpermits =>
      exact ⟨index, io, pending, document, attempt, now, record, hop, hhandle, hcall, rfl, hheld,
        hpermits, TreeMap.getElem?_insert_self⟩

/-- Each decision that authorizes an attempt adds to the uses of its grant. -/
lemma step_consumed (prettyLength : StoreDocument → Nat) (hs : s.Coherent) (op : Step)
    (id : String) :
    (s.step prettyLength op).2.toList.countP (authorizes id) + consumed s.file id
      ≤ consumed (s.step prettyLength op).1.file id := by
  have hmono : consumed s.file id ≤ consumed (s.step prettyLength op).1.file id := by
    unfold consumed
    cases hgrant : grant s.file id with
    | none => exact Nat.zero_le _
    | some record =>
      obtain ⟨record', hrecord', hbecomes⟩ :=
        step_grant prettyLength hs op hgrant
      rw [hrecord']
      exact UInt64.le_iff_toNat_le.mp hbecomes.consumed_le
  cases hreply : (s.step prettyLength op).2 with
  | none =>
    show 0 + consumed s.file id ≤ _
    omega
  | some reply =>
    show [reply].countP (authorizes id) + consumed s.file id ≤ _
    by_cases hauthorizes : authorizes id reply = true
    · obtain ⟨reservation, rfl, rfl⟩ := authorizes_eq_true hauthorizes
      obtain ⟨-, -, -, -, attempt, now, record, -, -, -, hid, hheld, hpermits, hused⟩ :=
        authorized_of_step hs hreply
      have hsucc : record.used.consumedUses.toNat = record.consumedUses.toNat + 1 :=
        toNat_succ_of_lt hpermits.not_exhausted
      have hbefore : consumed s.file attempt.grantId = record.consumedUses.toNat := by
        unfold consumed
        rw [hheld]
        rfl
      have hafter : consumed (s.step prettyLength op).1.file attempt.grantId
          = record.used.consumedUses.toNat := by
        unfold consumed
        rw [hused]
        rfl
      rw [hid, hbefore, hafter, hsucc, List.countP_singleton]
      split <;> omega
    · rw [List.countP_singleton, if_neg hauthorizes]
      omega

lemma run_consumed (hs : s.Coherent) :
    (answers prettyLength s steps).countP (authorizes id) + consumed s.file id
      ≤ consumed (run (fun s op => (s.step prettyLength op).1) s steps).file id := by
  induction steps generalizing s with
  | nil =>
    show 0 + consumed s.file id ≤ consumed s.file id
    omega
  | cons op steps ih =>
    have hstep := step_consumed prettyLength hs op id
    have hrest := ih (step_coherent prettyLength hs op)
    unfold answers
    rw [List.countP_append, run_cons]
    omega

end

/-- Over every run of any number of handles on a file. The decisions that authorize attempts on a
grant are no more than its uses in the file, which are no more than it permits. Each is taken when
the grant in the file permits the attempt at its time, and none once the file has held the grant as
revoked. Each step leaves the file, or publishes a document of the next generation that differs from
the one before by the mutation of the call that is committed. Grants stay in the file as they were
issued. -/
theorem grant_consumption (prettyLength : StoreDocument → Nat) (file : Option Contents)
    (steps : List Step) :
    (∀ id, 0 < authorizations prettyLength file steps id →
      ∃ record, grant (after prettyLength file steps).file id = some record ∧
        authorizations prettyLength file steps id ≤ record.consumedUses.toNat ∧
        record.consumedUses ≤ record.maxUses) ∧
    (∀ before op later reservation, steps = before ++ op :: later →
      ((after prettyLength file before).step prettyLength op).2
        = some (.ok (.authorized reservation)) →
      ∃ index io pending document attempt now record, op = .commit index io ∧
        (after prettyLength file before).handles index = some ⟨document, some pending⟩ ∧
        pending.call = .reserveAttempt attempt now ∧ reservation.grantId = attempt.grantId ∧
        grant (after prettyLength file before).file attempt.grantId = some record ∧
        Permits record attempt now) ∧
    (∀ before between op later reservation id record,
      steps = before ++ between ++ op :: later →
      grant (after prettyLength file before).file id = some record →
      record.revokedAtUtcMs.isSome →
      ((after prettyLength file (before ++ between)).step prettyLength op).2
        = some (.ok (.authorized reservation)) →
      reservation.grantId ≠ id) ∧
    (∀ before op later, steps = before ++ op :: later →
      ((after prettyLength file before).step prettyLength op).1.file
        = (after prettyLength file before).file ∨
      ∃ index io pending document document' answer, op = .commit index io ∧
        (after prettyLength file before).handles index = some ⟨document, some pending⟩ ∧
        Publication (after prettyLength file before)
          ((after prettyLength file before).step prettyLength op).1 pending.call answer document
          document') ∧
    (∀ before between later id record, steps = before ++ between ++ later →
      grant (after prettyLength file before).file id = some record →
      ∃ record', grant (after prettyLength file (before ++ between)).file id = some record' ∧
        record.Becomes record') := by
  have hcoherent (steps : List Step) : (after prettyLength file steps).Coherent :=
    after_coherent file steps
  have hgrants (before between : List Step) {id : String} {record : GrantRecord}
      (hrecord : grant (after prettyLength file before).file id = some record) :
      ∃ record', grant (after prettyLength file (before ++ between)).file id = some record' ∧
        record.Becomes record' := by
    unfold after
    rw [run_append]
    exact run_grant (hcoherent before) hrecord
  refine ⟨?_, ?_, ?_, ?_, ?_⟩
  · intro id hpos
    have hcount : authorizations prettyLength file steps id + consumed file id
        ≤ consumed (after prettyLength file steps).file id := run_consumed (coherent_init file)
    cases hgrant : grant (after prettyLength file steps).file id with
    | none =>
      unfold consumed at hcount
      rw [hgrant] at hcount
      have hnone : authorizations prettyLength file steps id + consumed file id ≤ 0 := hcount
      omega
    | some record =>
      refine ⟨record, rfl, ?_, consumed_le_max hgrant⟩
      unfold consumed at hcount
      rw [hgrant] at hcount
      exact Nat.le_trans (Nat.le_add_right _ _) hcount
  · intro before op later reservation _ hauthorized
    obtain ⟨index, io, pending, document, attempt, now, record, hop, hhandle, hcall, hid, hheld,
      hpermits, -⟩ := authorized_of_step (hcoherent before) hauthorized
    exact ⟨index, io, pending, document, attempt, now, record, hop, hhandle, hcall, hid, hheld,
      hpermits⟩
  · intro before between op later reservation id record _ hrecord hrevoked hauthorized hid
    obtain ⟨time, htime⟩ := isSome_iff_exists.mp hrevoked
    obtain ⟨record', hrecord', hbecomes⟩ := hgrants before between hrecord
    obtain ⟨-, -, -, -, attempt, now, held, -, -, -, hsame, hheld, hpermits, -⟩ :=
      authorized_of_step (hcoherent (before ++ between)) hauthorized
    rw [← hsame, hid] at hheld
    obtain rfl : record' = held := some.inj (hrecord'.symm.trans hheld)
    have hkept := hbecomes.revoked_kept time htime
    rw [hpermits.not_revoked] at hkept
    cases hkept
  · intro before op later _
    rcases step_cases prettyLength (hcoherent before) op with hkeeps |
      ⟨index, io, pending, document, document', answer, hop, hhandle, hpublication, -, -⟩
    · exact .inl hkeeps.file_kept
    · exact .inr ⟨index, io, pending, document, document', answer, hop, hhandle, hpublication⟩
  · intro before between later id record _ hrecord
    exact hgrants before between hrecord

end Agenterm.Cu.AuthStore
