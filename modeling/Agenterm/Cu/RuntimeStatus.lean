import Agenterm.Cu.RuntimeRuns

/-!
# The read-only counts of the coordinator

`status_counts` counts what is still effective at a time without the sweep that the lists make
first. The counts are the lengths of the lists (`statusCounts_swept`): a lock that the filter counts
is one that the sweep keeps, since both look at its session.
-/

namespace Agenterm.Cu.Runtime

open Std Lib List

structure RuntimeStatusCounts where
  activeSessions : Nat
  activeLocks : Nat
deriving DecidableEq

/-- A session that is active and has not expired. -/
def SessionRecord.effective (session : SessionRecord) (now : I64) : Bool :=
  session.state == .active && decide (now.val < session.expiresAtUtcS.val)

def Document.effectiveCounts (document : Document) (now : I64) : RuntimeStatusCounts where
  activeSessions :=
    (document.sessions.toList.filter fun (_, session) => session.effective now).length
  activeLocks :=
    (document.locks.toList.filter fun (_, lock) =>
      decide (now.val < lock.expiresAtUtcS.val)
        && (document.sessions[lock.sessionId]?).any fun session => session.effective now).length

/-- `status_counts`: it reads without the lock and leaves the file. -/
def statusCounts (io : StoreIo) (file : Option Document) (now : I64) :
    Except CuError RuntimeStatusCounts × Option Document :=
  (if now.val < 0 then
    .error
      { code := "runtime_clock_invalid",
        message := "runtime clock must be a non-negative UTC second value" }
  else do
    let document ← store.read io file
    if now.val < document.lastNowUtcS.val then
      .error
        { code := "runtime_clock_rollback",
          message := "runtime clock moved backward from persisted state" }
    else .ok (document.effectiveCounts now),
  file)

section
variable {document : Document} {now : I64}

/-! ## The counts and the sweep -/

lemma sweep_active_eq (record : SessionRecord) (now : I64) :
    ((record.sweep now).state == .active) = record.effective now := by
  unfold SessionRecord.effective
  by_cases hactive : (record.sweep now).state = .active
  · obtain ⟨hsame, hstate, hlive⟩ := SessionRecord.sweep_active hactive
    rw [hsame, hstate, decide_eq_true hlive]
    rfl
  · have hineffective : ¬ (record.state = .active ∧ now.val < record.expiresAtUtcS.val) :=
      fun ⟨hstate, hlive⟩ => hactive (by rw [SessionRecord.sweep_live hlive, hstate])
    rw [beq_eq_false_iff_ne.mpr hactive, eq_comm, Bool.and_eq_false_iff]
    by_cases hstate : record.state = .active
    · exact .inr (decide_eq_false fun hlive => hineffective ⟨hstate, hlive⟩)
    · exact .inl (beq_eq_false_iff_ne.mpr hstate)

lemma isActive_sweep (id : String) :
    isActive (sweepExpired document now).sessions id =
      (document.sessions[id]?).any fun session => session.effective now := by
  unfold isActive
  rw [sweep_session, Option.any_map]
  exact congrArg (fun p => Option.any p _) (funext fun record => sweep_active_eq record now)

/-- The sessions that the list shows as active. -/
lemma activeSessions_sweep :
    (document.effectiveCounts now).activeSessions =
      (((sweepExpired document now).sessions.toList.map fun (_, record) =>
        sessionStatus record).filter fun status => status.state == .active).length := by
  show _ = (((document.sessions.map fun _ record => record.sweep now).toList.map _).filter _).length
  rw [TreeMap.toList_map, map_map, filter_map, length_map]
  exact congrArg List.length (filter_congr fun entry _ => (sweep_active_eq entry.2 now).symm)

/-- The locks that the list shows. -/
lemma activeLocks_sweep :
    (document.effectiveCounts now).activeLocks =
      ((sweepExpired document now).locks.toList.map fun (_, record) => lockStatus record).length := by
  show _ = ((document.locks.filter _).toList.map _).length
  rw [TreeMap.toList_filter, length_map]
  exact congrArg List.length (filter_congr fun entry _ =>
    congrArg (decide _ && ·) (isActive_sweep entry.2.sessionId).symm)

/-! ## What a list answers -/

/-- An answer of a call is that of its operation on the swept document. -/
lemma perform_answer {sha256 : String → Fin 32 → UInt8} {io : StoreIo} {file : Option Document}
    {call : Call} {answer : Answer} (h : (perform sha256 io file call).1 = .ok answer) :
    ∃ edited, operation sha256 (sweepExpired (store.current file) call.now) call =
      .ok (answer, edited) := by
  unfold perform DocumentStore.guarded at h
  split at h
  · cases h
  · obtain ⟨document', hmakes, -⟩ := DocumentStore.transact_ok h
    obtain ⟨-, edited, hoperation, -⟩ := withLockedDocument_eq_ok hmakes.edited
    exact ⟨edited, hoperation⟩

theorem statusCounts_swept (sha256 : String → Fin 32 → UInt8) {io : StoreIo}
    {file : Option Document} (hread : store.read io file = .ok document)
    (hclock : document.lastNowUtcS.val ≤ now.val) :
    ∃ sessions locks,
      sessionList (sweepExpired document now) = .ok (sessions, sweepExpired document now) ∧
      lockList (sweepExpired document now) = .ok (locks, sweepExpired document now) ∧
      statusCounts io file now =
        (.ok { activeSessions := (sessions.filter fun status => status.state == .active).length,
               activeLocks := locks.length }, file) ∧
      ∀ io' answer,
        ((perform sha256 io' file (.sessionList now)).1 = .ok answer → answer = .sessions sessions) ∧
        ((perform sha256 io' file (.lockList now)).1 = .ok answer → answer = .locks locks) := by
  obtain ⟨-, hcurrent, hheld⟩ := DocumentStore.read_eq_ok hread
  have hvalid : document.Valid := hcurrent ▸ current_valid hheld
  have hclock_nonneg := hvalid.clock_nonneg
  refine ⟨_, _, rfl, rfl, ?_, fun io' answer => ⟨fun h => ?_, fun h => ?_⟩⟩
  · unfold statusCounts
    rw [if_neg (by omega), hread]
    show (if _ then _ else _, file) = _
    rw [if_neg (by omega), ← activeSessions_sweep, ← activeLocks_sweep]
  · obtain ⟨edited, hoperation⟩ := perform_answer h
    rw [← hcurrent] at hoperation
    exact ((Prod.mk.inj (Except.ok.inj hoperation)).1).symm
  · obtain ⟨edited, hoperation⟩ := perform_answer h
    rw [← hcurrent] at hoperation
    exact ((Prod.mk.inj (Except.ok.inj hoperation)).1).symm

/-- Another process holds the lock, and the lock on the target is due. -/
theorem statusCounts_swept_locked :
    ∃ document sessions locks,
      sessionList (sweepExpired document ⟨60, by decide⟩) =
        .ok (sessions, sweepExpired document ⟨60, by decide⟩) ∧
      lockList (sweepExpired document ⟨60, by decide⟩) =
        .ok (locks, sweepExpired document ⟨60, by decide⟩) ∧
      statusCounts ⟨.contended, true, .published⟩ (after leaseDigest none lockExample)
          ⟨60, by decide⟩ =
        (.ok { activeSessions := (sessions.filter fun status => status.state == .active).length,
               activeLocks := locks.length }, after leaseDigest none lockExample) := by
  have hread : ((store.read ⟨.contended, true, .published⟩
      (after leaseDigest none lockExample)).toOption.any fun document =>
        decide (document.lastNowUtcS.val ≤ 60)) = true := by
    decide
  obtain ⟨document, hdocument, hclock⟩ := (Option.any_eq_true _ _).mp hread
  have hok : store.read ⟨.contended, true, .published⟩ (after leaseDigest none lockExample) =
      .ok document := by
    revert hdocument
    cases store.read ⟨.contended, true, .published⟩ (after leaseDigest none lockExample) with
    | error error => exact nofun
    | ok found => exact fun h => congrArg Except.ok (Option.some.inj h)
  have hle : document.lastNowUtcS.val ≤ (⟨60, by decide⟩ : I64).val := of_decide_eq_true hclock
  obtain ⟨sessions, locks, hsessions, hlocks, hstatus, -⟩ := statusCounts_swept leaseDigest hok hle
  exact ⟨document, sessions, locks, hsessions, hlocks, hstatus⟩

end

end Agenterm.Cu.Runtime
