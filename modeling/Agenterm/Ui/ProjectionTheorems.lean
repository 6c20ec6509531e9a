import Agenterm.Server.Effects
import Agenterm.Ui.BridgeTheorems
import Agenterm.Ui.Projection

/-!
# What the projections contain

`Shows u tab` relates a tab on the wire to the tab of the server it stands for. From it follow
what a bootstrap snapshot contains (`uiBootstrapSnapshot_eq_ok`) and what a delta batch contains
(`deltaBatchOf_eq_ok`), and which of the events that were read a batch carries (`Carries`,
`uiDeltaBatch_eq_ok`).
-/

namespace Agenterm

open List Lib

/-! ## Tabs -/

/-- The tab on the wire has the place, the name and the note of the tab, and passes every check
of a tab except the limits on name and note. -/
structure Shows (u : UiTabBootstrap) (tab : TerminalTab) : Prop where
  id : u.id = stableTabId tab.id
  index : u.index = tab.index
  parentId : u.parentId = tab.parentId.map stableTabId
  title : u.title = tab.title
  note : u.note = tab.note
  sensitive : u.composer.sensitive ≠ u.composer.text.isSome
  composer : ∀ text, u.composer.text = some text → text.utf8ByteSize = u.composer.byteLength
  screen_id : u.screen.tabId = u.id
  screen : u.screen.validate = .ok ()
  completeness : u.screen.truncated = !u.screen.complete

variable {after id : Nat} {batch : UiDeltaBatch} {events selected : List EventEnvelope}
  {tab : TerminalTab} {u : UiTabBootstrap}

variable {generation : Nat} {tabs : List TerminalTab} {us : List UiTabBootstrap}

lemma uiScreenSnapshot_eq_ok {u : UiScreenSnapshot} (h : uiScreenSnapshot tab generation = .ok u) :
    u = screenSnapshot tab generation ∧ u.validate = .ok () := by
  unfold uiScreenSnapshot at h
  dsimp only at h
  rw [ite_error_eq_ok, bind_unit_eq_ok] at h
  obtain ⟨-, hvalid, hu⟩ := h
  cases hu
  exact ⟨rfl, hvalid⟩

theorem uiTabBootstrap_eq_ok {collapsed : Bool}
    (h : uiTabBootstrap tab generation collapsed = .ok u) : Shows u tab := by
  unfold uiTabBootstrap at h
  obtain ⟨screen, hscreen, hu⟩ := bind_eq_ok.mp h
  obtain ⟨rfl, hvalid⟩ := uiScreenSnapshot_eq_ok hscreen
  cases hu
  refine ⟨rfl, rfl, rfl, rfl, rfl, ?_, ?_, rfl, hvalid, ?_⟩
  · unfold composerSnapshot
    cases tab.sensitiveComposer <;> simp
  · unfold composerSnapshot
    cases tab.sensitiveComposer with
    | none => intro text htext; rw [← Option.some.inj htext]
    | some secret => intro text htext; exact absurd htext (by simp)
  · simp [screenSnapshot]

/-- A projected tab is valid when its name and note are within the limits. -/
theorem Shows.valid_iff (h : Shows u tab) :
    u.Valid ↔ tab.title.utf8ByteSize ≤ uiTabTitleMaxBytes ∧
      tab.note.utf8ByteSize ≤ uiTabNoteMaxBytes := by
  constructor
  · intro hvalid
    exact ⟨h.title ▸ hvalid.title_le, h.note ▸ hvalid.note_le⟩
  · rintro ⟨htitle, hnote⟩
    exact ⟨by rw [h.id]; exact validStableTabId_stableTabId _, by rwa [h.title],
      by rwa [h.note], h.sensitive, h.composer, h.screen_id, h.screen⟩

lemma forall₂_shows_ids (h : List.Forall₂ (fun tab u => Shows u tab) tabs us) :
    us.map UiTabBootstrap.id = (tabs.map TerminalTab.id).map stableTabId := by
  rw [map_map]
  exact map_eq_of_forall₂ h fun _ _ hshow => hshow.id

/-- Distinct ids stay distinct on the wire. -/
lemma nodup_map_stableTabId {ids : List Nat} (h : ids.Nodup) :
    (ids.map stableTabId).Nodup := by
  rw [List.Nodup, pairwise_map]
  exact h.imp fun hne heq => hne (stableTabId_inj heq)

namespace ServerState
variable {s : ServerState}

/-! ## The bootstrap snapshot -/

lemma projectTabs_eq_ok (h : tabs.mapM s.projectTab = .ok us) :
    List.Forall₂ (fun tab u => Shows u tab) tabs us :=
  (mapM_eq_ok.mp h).imp fun _ _ hproject => uiTabBootstrap_eq_ok hproject

theorem uiBootstrapSnapshot_eq_ok {serverPid : Nat} {b : UiBootstrapSnapshot}
    (h : s.uiBootstrapSnapshot serverPid = .ok b) :
    List.Forall₂ (fun tab u => Shows u tab) s.tabs b.tabs ∧
      b.serverEpoch = s.eventJournal.epoch ∧ b.position.sequence = s.eventJournal.sequence ∧
      b.activeTabId = s.activeTabId ∧ b.Valid := by
  unfold uiBootstrapSnapshot at h
  obtain ⟨tabs, htabs, h⟩ := bind_eq_ok.mp h
  obtain ⟨hvalid, hb⟩ := bind_unit_eq_ok.mp h
  cases hb
  exact ⟨projectTabs_eq_ok htabs, rfl, rfl, rfl,
    UiBootstrapSnapshot.validate_eq_ok.mp hvalid⟩

/-! ## Delta batches -/

/-- The tabs that events name. -/
def names (events : List EventEnvelope) : List Nat := events.filterMap EventEnvelope.tabId

@[simp] lemma names_append (xs ys : List EventEnvelope) :
    names (xs ++ ys) = names xs ++ names ys := filterMap_append

lemma mem_names_iff : id ∈ names events ↔ some id ∈ events.map EventEnvelope.tabId := by
  simp [names, mem_filterMap, mem_map]

lemma mem_affectedIds : id ∈ affectedIds events ↔ id ∈ names events := by
  unfold affectedIds
  rw [mem_insertionSort, mem_dedup]
  rfl

/-- What the batch of the events `selected` contains. -/
structure BatchOf (s : ServerState) (after : Nat) (selected : List EventEnvelope)
    (batch : UiDeltaBatch) : Prop where
  epoch : batch.serverEpoch = s.eventJournal.epoch
  after_eq : batch.afterSequence = after
  through : batch.throughSequence = (selected.getLast?.map EventEnvelope.sequence).getD after
  current : batch.currentSequence = s.eventJournal.sequence
  complete : batch.complete = decide (batch.throughSequence = s.eventJournal.sequence)
  active : batch.activeTabId = s.activeTabId
  updates : (s.tabs.filter fun tab => (affectedIds selected).contains tab.id).mapM s.projectTab
    = .ok batch.tabUpdates
  closed : batch.closedTabIds
    = ((affectedIds selected).filter fun id => !s.isLive id).map stableTabId
  events : batch.events = selected.map uiDeltaEvent

theorem deltaBatchOf_eq_ok (h : s.deltaBatchOf after selected = .ok batch) :
    BatchOf s after selected batch := by
  unfold deltaBatchOf at h
  obtain ⟨updates, hupdates, hbatch⟩ := bind_eq_ok.mp h
  cases hbatch
  exact ⟨rfl, rfl, rfl, rfl, rfl, rfl, hupdates, rfl, rfl⟩

lemma BatchOf.shows (h : BatchOf s after selected batch) :
    List.Forall₂ (fun tab u => Shows u tab)
      (s.tabs.filter fun tab => (affectedIds selected).contains tab.id) batch.tabUpdates :=
  projectTabs_eq_ok h.updates

/-- The updates are the live tabs that the events name. -/
lemma BatchOf.mem_updates (h : BatchOf s after selected batch) (hu : u ∈ batch.tabUpdates) :
    ∃ tab ∈ s.tabs, tab.id ∈ names selected ∧ Shows u tab := by
  obtain ⟨tab, htab, hshows⟩ := exists_left_of_forall₂ h.shows hu
  obtain ⟨hmem, hnamed⟩ := mem_filter.mp htab
  exact ⟨tab, hmem, mem_affectedIds.mp (contains_iff_mem.mp hnamed), hshows⟩

lemma BatchOf.exists_update (h : BatchOf s after selected batch) (htab : tab ∈ s.tabs)
    (hnamed : tab.id ∈ names selected) : ∃ u ∈ batch.tabUpdates, Shows u tab :=
  exists_right_of_forall₂ h.shows (mem_filter.mpr
    ⟨htab, contains_iff_mem.mpr (mem_affectedIds.mpr hnamed)⟩)

lemma BatchOf.update_ids (h : BatchOf s after selected batch) :
    stableTabId id ∈ batch.tabUpdates.map UiTabBootstrap.id ↔
      s.Live id ∧ id ∈ names selected := by
  rw [forall₂_shows_ids h.shows]
  simp only [mem_map, mem_filter, contains_iff_mem, mem_affectedIds,
    stableTabId_eq_iff, exists_eq_right]
  constructor
  · rintro ⟨tab, ⟨htab, hnamed⟩, rfl⟩
    exact ⟨live_of_mem htab, hnamed⟩
  · rintro ⟨hlive, hnamed⟩
    obtain ⟨tab, htab, rfl⟩ := mem_map.mp hlive
    exact ⟨tab, ⟨htab, hnamed⟩, rfl⟩

lemma BatchOf.closed_ids (h : BatchOf s after selected batch) :
    stableTabId id ∈ batch.closedTabIds ↔ ¬ s.Live id ∧ id ∈ names selected := by
  rw [h.closed]
  simp only [mem_map, mem_filter, mem_affectedIds, stableTabId_eq_iff,
    exists_eq_right, Bool.not_eq_eq_eq_not, Bool.not_true]
  rw [← Bool.not_eq_true, isLive_iff, and_comm]

/-- The batch carries the first `n` of the events: their batch passes the check, and those of
more events are too large. -/
structure Carries (s : ServerState) (after : Nat) (events : List EventEnvelope) (n : Nat) :
    Prop where
  le_length : n ≤ events.length
  passes : ∃ batch, s.deltaBatchOf after (events.take n) = .ok batch ∧ batch.validate = .ok ()
  largest : ∀ m, n < m → m ≤ events.length →
    ∃ batch, s.deltaBatchOf after (events.take m) = .ok batch ∧
      batch.validate = .error "ui_delta_bytes_limit"

theorem Carries.unique {m n : Nat} (hm : Carries s after events m) (hn : Carries s after events n) :
    m = n := by
  have hlt : ∀ {m n}, Carries s after events m → Carries s after events n → ¬ m < n := by
    intro m n hm hn hlt
    obtain ⟨batch, hbatch, hok⟩ := hn.passes
    obtain ⟨batch', hbatch', herror⟩ := hm.largest n hlt hn.le_length
    obtain rfl := Except.ok.inj (hbatch.symm.trans hbatch')
    exact absurd (hok.symm.trans herror) (by simp)
  exact Nat.le_antisymm (Nat.le_of_not_lt (hlt hn hm)) (Nat.le_of_not_lt (hlt hm hn))

lemma deltaBatchLoop_eq_ok {count : Nat} (h : s.deltaBatchLoop after events count = .ok batch) :
    ∃ n ≤ count, s.deltaBatchOf after (events.take n) = .ok batch ∧ batch.validate = .ok () ∧
      ∀ m, n < m → m ≤ count →
        ∃ batch, s.deltaBatchOf after (events.take m) = .ok batch ∧
          batch.validate = .error "ui_delta_bytes_limit" := by
  induction count with
  | zero =>
    rw [deltaBatchLoop] at h
    obtain ⟨built, hbuilt, h⟩ := bind_eq_ok.mp h
    obtain ⟨hvalid, hbatch⟩ := bind_unit_eq_ok.mp h
    cases hbatch
    exact ⟨0, Nat.le_refl 0, hbuilt, hvalid, fun m hlt hle => by omega⟩
  | succ fewer ih =>
    rw [deltaBatchLoop] at h
    obtain ⟨built, hbuilt, h⟩ := bind_eq_ok.mp h
    split at h
    · rename_i hvalid
      cases h
      exact ⟨fewer + 1, Nat.le_refl _, hbuilt, hvalid, fun m hlt hle => by omega⟩
    · rename_i error herror
      split at h
      · rename_i hretry
        simp only [Bool.and_eq_true, decide_eq_true_eq] at hretry
        obtain ⟨n, hle, hok, hvalid, hlargest⟩ := ih h
        refine ⟨n, by omega, hok, hvalid, fun m hlt hm => ?_⟩
        rcases Nat.lt_or_eq_of_le hm with hm | rfl
        · exact hlargest m hlt (by omega)
        · exact ⟨built, hbuilt, hretry.1 ▸ herror⟩
      · exact absurd h (by simp)

/-- A batch that is returned carries the longest run of events that fits. -/
theorem uiDeltaBatch_eq_ok (h : s.uiDeltaBatch after events = .ok batch) :
    ∃ n, Carries s after events n ∧ s.deltaBatchOf after (events.take n) = .ok batch ∧
      batch.validate = .ok () := by
  obtain ⟨n, hle, hok, hvalid, hlargest⟩ := deltaBatchLoop_eq_ok h
  exact ⟨n, ⟨hle, ⟨batch, hok, hvalid⟩, hlargest⟩, hok, hvalid⟩

theorem uiDeltas_eq_ok {epoch : String} {limit : Nat}
    (h : s.uiDeltas epoch after limit = .ok batch) :
    ∃ events n, s.eventJournal.readAfter epoch after limit = .ok events ∧
      Carries s after events n ∧ s.deltaBatchOf after (events.take n) = .ok batch ∧
      batch.validate = .ok () := by
  unfold uiDeltas at h
  rw [ite_error_eq_ok] at h
  obtain ⟨-, h⟩ := h
  split at h
  · exact absurd h (by simp)
  · rename_i events hread
    obtain ⟨n, hcarries, hok, hvalid⟩ := uiDeltaBatch_eq_ok h
    exact ⟨events, n, hread, hcarries, hok, hvalid⟩

end ServerState

end Agenterm
