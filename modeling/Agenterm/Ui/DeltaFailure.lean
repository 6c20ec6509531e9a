import Agenterm.Ui.BridgeTheorems
import Agenterm.Ui.Client

/-!
# What a failing batch leaves behind

`apply_delta` edits the client's snapshot and checks it afterwards. A batch that fails this check
is in the snapshot all the same: the call leaves the snapshot alone exactly when the merged snapshot passes its check or is the old one (`applyDelta_restores_iff`). The checks that
`poll_deltas` makes before do not touch the snapshot (`receiveDelta_refused`).
-/

namespace Agenterm

/-- The batch is well formed and continues the snapshot. -/
structure UiDeltaBatch.Continues (batch : UiDeltaBatch) (snapshot : UiBootstrapSnapshot) :
    Prop where
  valid : batch.validate = .ok ()
  epoch : batch.serverEpoch = snapshot.serverEpoch
  after : batch.afterSequence = snapshot.position.sequence

variable {batch : UiDeltaBatch} {snapshot : UiBootstrapSnapshot}

theorem applyDelta_error_iff {error : String} :
    (applyDelta snapshot batch).1 = .error error ↔
      (mergedSnapshot snapshot batch).validate = .error error := by
  simp only [applyDelta]
  cases (mergedSnapshot snapshot batch).validate with
  | error e => simp [Except.map]
  | ok _ => simp [Except.map]

lemma applyDelta_fails_iff :
    (∃ error, (applyDelta snapshot batch).1 = .error error) ↔
      ¬ (mergedSnapshot snapshot batch).Valid := by
  rw [← UiBootstrapSnapshot.validate_eq_ok]
  simp only [applyDelta_error_iff]
  cases (mergedSnapshot snapshot batch).validate with
  | error e => simp
  | ok _ => simp

/-- A batch that is not well formed or does not continue the snapshot is refused before anything
is changed. -/
theorem receiveDelta_refused (h : ¬ batch.Continues snapshot) :
    (∃ error, (receiveDelta snapshot batch).1 = .error error) ∧
      (receiveDelta snapshot batch).2 = snapshot := by
  unfold receiveDelta
  cases hvalid : batch.validate with
  | error error => exact ⟨⟨error, rfl⟩, rfl⟩
  | ok _ =>
    dsimp only
    split
    · exact ⟨⟨_, rfl⟩, rfl⟩
    · rename_i hcontinues
      simp only [ne_eq, Bool.or_eq_true, decide_eq_true_eq, not_or,
        not_not] at hcontinues
      exact absurd ⟨hvalid, hcontinues.1, hcontinues.2⟩ h

/-- **Failure of a batch.** The check that fails is the one of the merged snapshot, the client is
left with it, and so it has the old snapshot exactly when the merge passes or changes nothing. A
batch that `poll_deltas` refuses changes nothing. -/
theorem applyDelta_restores_iff (snapshot : UiBootstrapSnapshot) (batch : UiDeltaBatch) :
    ((∀ error, (applyDelta snapshot batch).1 = .error error →
        (applyDelta snapshot batch).2 = snapshot) ↔
      (mergedSnapshot snapshot batch).Valid ∨ mergedSnapshot snapshot batch = snapshot) ∧
    (∀ error, (applyDelta snapshot batch).1 = .error error ↔
      (mergedSnapshot snapshot batch).validate = .error error) ∧
    (applyDelta snapshot batch).2 = mergedSnapshot snapshot batch ∧
    (¬ batch.Continues snapshot →
      (∃ error, (receiveDelta snapshot batch).1 = .error error) ∧
        (receiveDelta snapshot batch).2 = snapshot) := by
  refine ⟨⟨fun h => ?_, fun h error herror => ?_⟩, fun _ => applyDelta_error_iff, rfl,
    receiveDelta_refused⟩
  · by_cases hvalid : (mergedSnapshot snapshot batch).Valid
    · exact .inl hvalid
    · obtain ⟨error, herror⟩ := applyDelta_fails_iff.mpr hvalid
      exact .inr (h error herror)
  · rcases h with hvalid | hsame
    · exact absurd hvalid (applyDelta_fails_iff.mp ⟨error, herror⟩)
    · exact hsame

/-- A server without tabs. -/
def emptySnapshot : UiBootstrapSnapshot where
  schemaVersion := 2
  serverPid := 7
  serverEpoch := "epoch"
  position := ⟨"epoch", 2⟩
  workspaceRevision := none
  activeTabId := none
  tabs := []
  complete := true
  truncated := false

/-- A batch that selects a tab without an update of it. -/
def strayBatch : UiDeltaBatch where
  schemaVersion := 2
  serverEpoch := "epoch"
  afterSequence := 2
  throughSequence := 3
  currentSequence := 3
  events := [⟨3, "tab.selected", some "@1", none, none, .null⟩]
  tabUpdates := []
  closedTabIds := []
  activeTabId := some "@1"
  complete := true
  truncated := false

/-- The batch is well formed, continues the valid snapshot and fails, and the client is left with
the unknown active tab and the new position. -/
theorem failed_batch_stays :
    emptySnapshot.validate = .ok () ∧ strayBatch.validate = .ok () ∧
      strayBatch.Continues emptySnapshot ∧
      (applyDelta emptySnapshot strayBatch).1 = .error "ui_bootstrap_active_tab_invalid" ∧
      (applyDelta emptySnapshot strayBatch).2 ≠ emptySnapshot ∧
      (applyDelta emptySnapshot strayBatch).2.position.sequence = 3 ∧
      (applyDelta emptySnapshot strayBatch).2.activeTabId = some "@1" := by
  have hvalid : strayBatch.validate = .ok () := by decide
  refine ⟨by decide, hvalid, ⟨hvalid, rfl, rfl⟩, by decide, fun h => ?_, rfl, rfl⟩
  have hsequence := congrArg (fun snapshot => snapshot.position.sequence) h
  simp [applyDelta, mergedSnapshot, emptySnapshot, strayBatch] at hsequence

end Agenterm
