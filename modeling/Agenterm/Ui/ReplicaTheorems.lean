import Agenterm.Server.EvolutionTheorems
import Agenterm.Ui.Client
import Agenterm.Ui.ProjectionTheorems

/-!
# A client's copy converges to the server's tab list

`Tracks s committed c` is what holds between a server, the events it has committed and a
client's snapshot at any time, also after batches that the client rejected: every difference
between the two is announced by an event the client has not read yet, except that the client may
still show a parent that was closed. The invariant is kept by every step of the server
(`Tracks.evolve`), established by a bootstrap (`tracks_bootstrap`) and kept by applying a batch
(`Tracks.merge`).

When a batch that reaches the end of the journal is accepted, no event is unread and no closed
parent is shown, so the copy is exact (`Replica.replica_converges`).
-/

namespace Agenterm

open ServerState List Lib Machine

/-- The events the client has not read yet. -/
def UiBootstrapSnapshot.pending (c : UiBootstrapSnapshot) (committed : List EventEnvelope) :
    List EventEnvelope := committed.drop c.position.sequence

structure Tracks (s : ServerState) (committed : List EventEnvelope) (c : UiBootstrapSnapshot) :
    Prop where
  epoch : c.serverEpoch = s.eventJournal.epoch
  position_le : c.position.sequence ≤ committed.length
  ids_nodup : (c.tabs.map UiTabBootstrap.id).Nodup
  known : ∀ u ∈ c.tabs, ∃ k, u.id = stableTabId k ∧ k < s.nextId
  named_lt : ∀ k ∈ names (c.pending committed), k < s.nextId
  /-- A tab that is gone is announced. -/
  gone : ∀ u ∈ c.tabs, ∀ k, u.id = stableTabId k → ¬ s.Live k → k ∈ names (c.pending committed)
  index : ∀ u ∈ c.tabs, ∀ tab ∈ s.tabs, u.id = stableTabId tab.id → u.index = tab.index
  /-- A tab that is not announced is shown, perhaps under a parent that is gone. -/
  shown : ∀ tab ∈ s.tabs, tab.id ∉ names (c.pending committed) → ∃ u ∈ c.tabs,
    u.id = stableTabId tab.id ∧ u.title = tab.title ∧
      (u.parentId = tab.parentId.map stableTabId ∨
        ∃ p, u.parentId = some (stableTabId p) ∧ p < s.nextId ∧ ¬ s.Live p)
  /-- Before the unread events name a tab that took over an index, they name the tab that is
  gone from it. -/
  order : ∀ u ∈ c.tabs, ∀ k, u.id = stableTabId k → ¬ s.Live k → ∀ tab ∈ s.tabs,
    tab.index = u.index → ∀ n, tab.id ∈ names ((c.pending committed).take n) →
      k ∈ names ((c.pending committed).take n)

variable {batch : UiDeltaBatch} {limit : Nat} {r r' : Replica}

variable {events : List EventEnvelope} {m : Machine} {n : Nat} {op : MachineOp} {u : UiTabBootstrap}

namespace Tracks
variable {s s' : ServerState} {committed : List EventEnvelope} {c : UiBootstrapSnapshot}

/-! ## Steps of the server -/

/-- **A step of the server.** -/
theorem evolve {named : List (Option Nat)} (h : Tracks s committed c) (hs : s.Forest)
    (hs' : s'.Forest) (e : Evolves s s' named) (hevents : events.map EventEnvelope.tabId = named)
    (hepoch : s'.eventJournal.epoch = s.eventJournal.epoch) :
    Tracks s' (committed ++ events) c := by
  have hpending : c.pending (committed ++ events) = c.pending committed ++ events :=
    drop_append_of_le_length h.position_le
  have hnamed : ∀ k, k ∈ names events ↔ some k ∈ named := by
    intro k
    rw [mem_names_iff, hevents]
  have hnames : ∀ k, k ∈ names (c.pending (committed ++ events)) ↔
      k ∈ names (c.pending committed) ∨ some k ∈ named := by
    intro k
    rw [hpending, names_append, mem_append, hnamed]
  -- an id the client knows that is live now was live before
  have hback : ∀ k, k < s.nextId → s'.Live k → s.Live k := by
    intro k hlt hk
    exact Classical.byContradiction fun hdead => e.dead k hlt hdead hk
  refine ⟨h.epoch.trans hepoch.symm, ?_, h.ids_nodup, ?_, ?_, ?_, ?_, ?_, ?_⟩
  · rw [length_append]
    exact Nat.le_trans h.position_le (Nat.le_add_right _ _)
  · intro u hu
    obtain ⟨k, hid, hlt⟩ := h.known u hu
    exact ⟨k, hid, Nat.lt_of_lt_of_le hlt e.nextId_le⟩
  · intro k hk
    rcases (hnames k).mp hk with hk | hk
    · exact Nat.lt_of_lt_of_le (h.named_lt k hk) e.nextId_le
    · rcases e.names k hk with hlive | hlive
      · exact Nat.lt_of_lt_of_le (hs.ids_lt k hlive) e.nextId_le
      · exact hs'.ids_lt k hlive
  · intro u hu k hid hdead
    rw [hnames]
    by_cases hlive : s.Live k
    · exact .inr (Classical.byContradiction fun hnot => hdead (e.stays k hlive hnot))
    · exact .inl (h.gone u hu k hid hlive)
  · intro u hu tab' htab' hid
    obtain ⟨k, hk, hlt⟩ := h.known u hu
    obtain rfl := stableTabId_inj (hk.symm.trans hid)
    obtain ⟨tab, htab, hsame⟩ := mem_map.mp (hback _ hlt (live_of_mem htab'))
    rw [h.index u hu tab htab (by rw [hsame]; exact hid)]
    exact e.index tab htab tab' htab' hsame
  · intro tab' htab' hnot
    rw [hnames, not_or] at hnot
    obtain ⟨tab, htab, hid, htitle, hparent⟩ := e.kept tab' htab' hnot.2
    obtain ⟨u, hu, hu_id, hu_title, hu_parent⟩ := h.shown tab htab (hid ▸ hnot.1)
    refine ⟨u, hu, hid ▸ hu_id, hu_title.trans htitle, ?_⟩
    rcases hu_parent with hu_parent | ⟨p, hp, hlt, hdead⟩
    · rcases hparent with hparent | ⟨p, hp, hlive, hdead⟩
      · exact .inl (hparent ▸ hu_parent)
      · -- the parent was closed: the client goes on showing it
        rw [hp] at hu_parent
        exact .inr ⟨p, hu_parent, Nat.lt_of_lt_of_le (hs.ids_lt p hlive) e.nextId_le, hdead⟩
    · exact .inr ⟨p, hp, Nat.lt_of_lt_of_le hlt e.nextId_le, e.dead p hlt hdead⟩
  · intro u hu k hid hdead tab' htab' hindex n hn
    rw [hpending, take_append, names_append, mem_append] at hn ⊢
    obtain ⟨k₀, hk₀, hklt⟩ := h.known u hu
    obtain rfl := stableTabId_inj (hk₀.symm.trans hid)
    by_cases hlive : s.Live k₀
    · -- the step closed it, so every tab of the new state was there before
      have hdown : ∀ k, s'.Live k → s.Live k := by
        rcases e.one_way with hdown | hup
        · exact hdown
        · exact absurd (hup k₀ hlive) hdead
      obtain ⟨tab, htab, hsame⟩ := mem_map.mp (hdown _ (live_of_mem htab'))
      obtain ⟨old, hold, rfl⟩ := mem_map.mp hlive
      have hindices : old.index = tab.index := by
        rw [← h.index u hu old hold hid, e.index tab htab tab' htab' hsame, hindex]
      rw [hs.eq_of_index hold htab hindices, hsame] at hdead
      exact absurd (live_of_mem htab') hdead
    · have hannounced := h.gone u hu k₀ hid hlive
      have hlate : tab'.id ∈ names (events.take (n - (c.pending committed).length)) →
          k₀ ∈ names ((c.pending committed).take n) := by
        intro hmem
        have hlen : (c.pending committed).length ≤ n := by
          refine Nat.le_of_lt (Nat.lt_of_sub_pos (Nat.pos_of_ne_zero fun hzero => ?_))
          rw [hzero, take_zero] at hmem
          exact absurd hmem not_mem_nil
        rwa [take_of_length_le hlen]
      rcases hn with hn | hn
      · by_cases htlive : s.Live tab'.id
        · obtain ⟨tab, htab, hsame⟩ := mem_map.mp htlive
          have hindex' : tab.index = u.index := by
            rw [e.index tab htab tab' htab' hsame, hindex]
          exact .inl (h.order u hu k₀ hid hlive tab htab hindex' n (hsame ▸ hn))
        · -- a fresh id is in no event that was committed before
          have hlt := h.named_lt tab'.id (by
            obtain ⟨event, hevent, hname⟩ := mem_filterMap.mp hn
            exact mem_filterMap.mpr ⟨event, mem_of_mem_take hevent, hname⟩)
          exact absurd (live_of_mem htab') (e.dead _ hlt htlive)
      · exact .inl (hlate hn)

/-! ## Bootstraps -/

/-- **A bootstrap.** Nothing is unread, and the copy is exact. -/
theorem bootstrap {serverPid : Nat} {b : UiBootstrapSnapshot} (hs : s.Forest)
    (hrec : s.eventJournal.Records committed) (h : s.uiBootstrapSnapshot serverPid = .ok b) :
    Tracks s committed b := by
  obtain ⟨hshows, hepoch, hposition, -, hvalid⟩ := uiBootstrapSnapshot_eq_ok h
  have hlen : b.position.sequence = committed.length := hposition.trans hrec.sequence_eq
  have hpending : b.pending committed = [] := by
    unfold UiBootstrapSnapshot.pending
    rw [hlen, drop_length]
  have hlive : ∀ u ∈ b.tabs, ∀ k, u.id = stableTabId k → s.Live k := by
    intro u hu k hid
    obtain ⟨tab, htab, hshow⟩ := exists_left_of_forall₂ hshows hu
    rw [stableTabId_inj (hid.symm.trans hshow.id)]
    exact live_of_mem htab
  refine ⟨hepoch, Nat.le_of_eq hlen, hvalid.ids_nodup, ?_, ?_, ?_, ?_, ?_, ?_⟩
  · intro u hu
    obtain ⟨tab, htab, hshow⟩ := exists_left_of_forall₂ hshows hu
    exact ⟨tab.id, hshow.id, hs.ids_lt _ (live_of_mem htab)⟩
  · intro k hk
    rw [hpending] at hk
    exact absurd hk not_mem_nil
  · intro u hu k hid hdead
    exact absurd (hlive u hu k hid) hdead
  · intro u hu tab htab hid
    obtain ⟨shown, hshown, hshow⟩ := exists_left_of_forall₂ hshows hu
    have hsame := stableTabId_inj (hshow.id.symm.trans hid)
    rw [hshow.index, hs.eq_of_id hshown htab hsame]
  · intro tab htab _
    obtain ⟨u, hu, hshow⟩ := exists_right_of_forall₂ hshows htab
    exact ⟨u, hu, hshow.id, hshow.title, .inl hshow.parentId⟩
  · intro u hu k hid hdead
    exact absurd (hlive u hu k hid) hdead

/-! ## Batches -/

/-- The tabs after a batch: the updates, and the tabs that its events do not name. -/
theorem mem_mergedTabs {after : Nat} {selected : List EventEnvelope} (h : Tracks s committed c)
    (hs : s.Forest) (b : BatchOf s after selected batch) :
    u ∈ mergedTabs c.tabs batch ↔
      u ∈ batch.tabUpdates ∨ u ∈ c.tabs ∧ ∀ k ∈ names selected, u.id ≠ stableTabId k := by
  have hkept : ((c.tabs.filter fun tab => !batch.closedTabIds.contains tab.id).map
      UiTabBootstrap.id).Nodup := h.ids_nodup.sublist (filter_sublist.map _)
  have hupdates : (batch.tabUpdates.map UiTabBootstrap.id).Nodup := by
    rw [forall₂_shows_ids b.shows]
    exact nodup_map_stableTabId (hs.ids_nodup.sublist (filter_sublist.map _))
  have hmem := mem_foldl_upsert hkept hupdates (b := u)
  unfold mergedTabs
  rw [mem_insertionSort]
  refine hmem.trans (or_congr_right ?_)
  rw [mem_filter, and_assoc]
  refine and_congr_right fun hu => ?_
  obtain ⟨k, hid, -⟩ := h.known u hu
  rw [hid, Bool.not_eq_eq_eq_not, Bool.not_true, ← Bool.not_eq_true, contains_iff_mem,
    b.closed_ids, b.update_ids]
  constructor
  · rintro ⟨hclosed, hupdated⟩ k' hk' heq
    obtain rfl := stableTabId_inj heq
    by_cases hlive : s.Live k
    · exact hupdated ⟨hlive, hk'⟩
    · exact hclosed ⟨hlive, hk'⟩
  · intro hnot
    exact ⟨fun hk => hnot k hk.2 rfl, fun hk => hnot k hk.2 rfl⟩

theorem nodup_mergedTabs (h : Tracks s committed c) (batch : UiDeltaBatch) :
    ((mergedTabs c.tabs batch).map UiTabBootstrap.id).Nodup := by
  have hkept : ((c.tabs.filter fun tab => !batch.closedTabIds.contains tab.id).map
      UiTabBootstrap.id).Nodup := h.ids_nodup.sublist (filter_sublist.map _)
  unfold mergedTabs
  rw [((perm_insertionSort _ _).map _).nodup_iff]
  exact nodup_foldl_upsert hkept batch.tabUpdates

/-- The events a batch carries are the first of the unread ones, and it brings the client to the
last of them. -/
theorem batch_through (h : Tracks s committed c) (hrec : s.eventJournal.Records committed)
    (hread : s.eventJournal.readAfter c.serverEpoch c.position.sequence limit = .ok events)
    (hn : n ≤ events.length) (b : BatchOf s c.position.sequence (events.take n) batch) :
    events.take n = (c.pending committed).take n ∧
      batch.throughSequence = c.position.sequence + n ∧
      c.position.sequence + n ≤ committed.length := by
  rw [h.epoch, EventJournal.readAfter_of_records hrec] at hread
  split at hread
  · exact absurd hread (by simp)
  split at hread
  · exact absurd hread (by simp)
  have hevents := Except.ok.inj hread
  have hlen := congrArg List.length hevents
  rw [length_take, length_drop] at hlen
  have htake : events.take n = (c.pending committed).take n := by
    rw [← hevents, take_take]
    congr 1
    omega
  refine ⟨htake, ?_, by have := h.position_le; omega⟩
  have hlast := ReaderRun.getLast?_taken hrec c.position.sequence n
  rw [b.through, htake]
  unfold UiBootstrapSnapshot.pending
  rw [hlast]
  have := h.position_le
  omega

/-- **A batch.** Applying it keeps the invariant, whether or not the result passes the check. -/
theorem merge (h : Tracks s committed c) (hs : s.Forest)
    (b : BatchOf s c.position.sequence ((c.pending committed).take n) batch)
    (hthrough : batch.throughSequence = c.position.sequence + n)
    (hle : c.position.sequence + n ≤ committed.length) :
    Tracks s committed (mergedSnapshot c batch) := by
  have hpending : (mergedSnapshot c batch).pending committed
      = (c.pending committed).drop n := by
    unfold UiBootstrapSnapshot.pending mergedSnapshot
    rw [hthrough, drop_drop]
  have hnames : ∀ k, k ∈ names (c.pending committed) ↔
      k ∈ names ((c.pending committed).take n) ∨ k ∈ names ((c.pending committed).drop n) := by
    intro k
    rw [← mem_append, ← names_append, take_append_drop]
  have hmem : ∀ u, u ∈ (mergedSnapshot c batch).tabs ↔ u ∈ batch.tabUpdates ∨ u ∈ c.tabs ∧
      ∀ k ∈ names ((c.pending committed).take n), u.id ≠ stableTabId k :=
    fun u => h.mem_mergedTabs hs b
  have hupdated : ∀ u ∈ batch.tabUpdates, ∀ k, u.id = stableTabId k → s.Live k := by
    intro u hu k hid
    obtain ⟨tab, htab, -, hshow⟩ := b.mem_updates hu
    rw [stableTabId_inj (hid.symm.trans hshow.id)]
    exact live_of_mem htab
  refine ⟨h.epoch, ?_, h.nodup_mergedTabs batch, ?_, ?_, ?_, ?_, ?_, ?_⟩
  · unfold mergedSnapshot
    rw [hthrough]
    exact hle
  · intro u hu
    rcases (hmem u).mp hu with hu | ⟨hu, -⟩
    · obtain ⟨tab, htab, -, hshow⟩ := b.mem_updates hu
      exact ⟨tab.id, hshow.id, hs.ids_lt _ (live_of_mem htab)⟩
    · exact h.known u hu
  · intro k hk
    rw [hpending] at hk
    exact h.named_lt k ((hnames k).mpr (.inr hk))
  · intro u hu k hid hdead
    rw [hpending]
    rcases (hmem u).mp hu with hu | ⟨hu, hnot⟩
    · exact absurd (hupdated u hu k hid) hdead
    · exact ((hnames k).mp (h.gone u hu k hid hdead)).resolve_left fun hk => hnot k hk hid
  · intro u hu tab htab hid
    rcases (hmem u).mp hu with hu | ⟨hu, -⟩
    · obtain ⟨shown, hshown, -, hshow⟩ := b.mem_updates hu
      have hsame := stableTabId_inj (hshow.id.symm.trans hid)
      rw [hshow.index, hs.eq_of_id hshown htab hsame]
    · exact h.index u hu tab htab hid
  · intro tab htab hnot
    rw [hpending] at hnot
    by_cases hnamed : tab.id ∈ names ((c.pending committed).take n)
    · obtain ⟨u, hu, hshow⟩ := b.exists_update htab hnamed
      exact ⟨u, (hmem u).mpr (.inl hu), hshow.id, hshow.title, .inl hshow.parentId⟩
    · obtain ⟨u, hu, hid, htitle, hparent⟩ := h.shown tab htab fun hk =>
        ((hnames _).mp hk).elim hnamed hnot
      refine ⟨u, (hmem u).mpr (.inr ⟨hu, ?_⟩), hid, htitle, hparent⟩
      intro k hk heq
      rw [stableTabId_inj (hid.symm.trans heq)] at hnamed
      exact hnamed hk
  · intro u hu k hid hdead tab htab hindex m hm
    rw [hpending] at hm ⊢
    rcases (hmem u).mp hu with hu | ⟨hu, hnot⟩
    · exact absurd (hupdated u hu k hid) hdead
    · -- the first `n + m` unread events name `k`, and the first `n` do not
      have hsplit : (c.pending committed).take (n + m)
          = (c.pending committed).take n ++ ((c.pending committed).drop n).take m :=
        take_add
      have horder := h.order u hu k hid hdead tab htab hindex (n + m)
      rw [hsplit, names_append, mem_append, mem_append] at horder
      exact (horder (.inr hm)).resolve_left fun hk => hnot k hk hid

/-- What the answer to a poll is, and that the client goes on to apply it. -/
theorem answer (h : Tracks s committed c) (hrec : s.eventJournal.Records committed)
    (hanswer : s.answer c limit = .ok batch) :
    ∃ n, BatchOf s c.position.sequence ((c.pending committed).take n) batch ∧
      batch.throughSequence = c.position.sequence + n ∧
      c.position.sequence + n ≤ committed.length ∧
      receiveDelta c batch = applyDelta c batch := by
  obtain ⟨events, n, hread, hcarries, hbuilt, hvalid⟩ := uiDeltas_eq_ok hanswer
  have b := deltaBatchOf_eq_ok hbuilt
  obtain ⟨htake, hthrough, hle⟩ := h.batch_through hrec hread hcarries.le_length b
  refine ⟨n, htake ▸ b, hthrough, hle, ?_⟩
  unfold receiveDelta
  rw [hvalid, b.epoch, b.after_eq, h.epoch]
  simp

theorem poll (h : Tracks s committed c) (hs : s.Forest) (hrec : s.eventJournal.Records committed)
    (hanswer : s.answer c limit = .ok batch) : Tracks s committed (receiveDelta c batch).2 := by
  obtain ⟨n, b, hthrough, hle, hreceive⟩ := h.answer hrec hanswer
  rw [hreceive]
  exact h.merge hs b hthrough hle

/-! ## Exact copies -/

/-- What a copy has to get right: identity, place, parent and name of a tab. -/
def listing (u : UiTabBootstrap) : String × Nat × Option String × String :=
  (u.id, u.index, u.parentId, u.title)

/-- The same of a tab of the server, as the wire would show it. -/
def serverListing (tab : TerminalTab) : String × Nat × Option String × String :=
  (stableTabId tab.id, tab.index, tab.parentId.map stableTabId, tab.title)

lemma listing_of_shows {us : List UiTabBootstrap} {tabs : List TerminalTab}
    (h : List.Forall₂ (fun tab u => Shows u tab) tabs us) :
    us.map listing = tabs.map serverListing := by
  refine map_eq_of_forall₂ h fun tab u hshow => ?_
  rw [listing, hshow.id, hshow.index, hshow.parentId, hshow.title]
  rfl

/-- A valid copy without unread events shows every tab as it is. -/
lemma listing_eq (h : Tracks s committed c) (hvalid : c.Valid) (hread : c.pending committed = [])
    (hu : u ∈ c.tabs) : ∃ tab ∈ s.tabs, listing u = serverListing tab := by
  have hlive : ∀ u ∈ c.tabs, ∀ k, u.id = stableTabId k → s.Live k := by
    intro u hu k hid
    refine Classical.byContradiction fun hdead => ?_
    have hk := h.gone u hu k hid hdead
    rw [hread] at hk
    exact absurd hk not_mem_nil
  obtain ⟨k, hid, -⟩ := h.known u hu
  obtain ⟨tab, htab, rfl⟩ := mem_map.mp (hlive u hu k hid)
  obtain ⟨u', hu', hid', htitle, hparent⟩ :=
    h.shown tab htab (by rw [hread]; exact not_mem_nil)
  obtain rfl := inj_on_of_nodup_map h.ids_nodup hu hu' (hid.trans hid'.symm)
  refine ⟨tab, htab, ?_⟩
  rcases hparent with hparent | ⟨p, hp, -, hdead⟩
  · rw [listing, serverListing, hid, h.index u hu tab htab hid, hparent, htitle]
  · -- the check refuses a parent that is not shown, and what is shown is live
    obtain ⟨-, hmem⟩ := hvalid.parents u hu _ hp
    obtain ⟨shown, hshown, hsame⟩ := mem_map.mp hmem
    exact absurd (hlive shown hshown p hsame) hdead

/-- A valid sorted copy without unread events lists the tabs of the server. -/
theorem listings_eq (h : Tracks s committed c) (hs : s.Forest) (hvalid : c.Valid)
    (hread : c.pending committed = [])
    (hsorted : c.tabs.Pairwise fun a b => a.index ≤ b.index) :
    c.tabs.map listing = s.tabs.map serverListing := by
  have hinj : ∀ {l : List (String × Nat × Option String × String)},
      (l.map Prod.fst).Nodup → l.Nodup := fun hl => List.Nodup.of_map _ hl
  have hclient : (c.tabs.map listing).Nodup := by
    refine hinj ?_
    rw [map_map]
    exact h.ids_nodup
  have hserver : (s.tabs.map serverListing).Nodup := by
    refine hinj ?_
    have hids := nodup_map_stableTabId hs.ids_nodup
    rw [map_map] at hids ⊢
    exact hids
  have hperm : (c.tabs.map listing).Perm (s.tabs.map serverListing) := by
    rw [perm_ext_iff_of_nodup hclient hserver]
    intro row
    constructor
    · intro hrow
      obtain ⟨u, hu, rfl⟩ := mem_map.mp hrow
      obtain ⟨tab, htab, hsame⟩ := h.listing_eq hvalid hread hu
      exact hsame ▸ mem_map_of_mem htab
    · intro hrow
      obtain ⟨tab, htab, rfl⟩ := mem_map.mp hrow
      obtain ⟨u, hu, hid, -⟩ := h.shown tab htab (by rw [hread]; exact not_mem_nil)
      obtain ⟨tab', htab', hsame⟩ := h.listing_eq hvalid hread hu
      have hid' : stableTabId tab'.id = stableTabId tab.id :=
        (congrArg Prod.fst hsame).symm.trans hid
      rw [← hs.eq_of_id htab' htab (stableTabId_inj hid'), ← hsame]
      exact mem_map_of_mem hu
  refine @Lib.eq_of_perm_of_increasing _ (fun row => row.2.1) _ _ hperm ?_ ?_
  · rw [pairwise_map]
    exact hs.sorted
  · rw [pairwise_map]
    exact hsorted

end Tracks

/-! ## Runs -/

namespace Replica

/-- Tabs are created only while the id counter is below its maximum. -/
def FreshId (r : Replica) : ReplicaOp → Prop
  | .serve op => r.machine.FreshId op
  | _ => True

structure Sound (r : Replica) : Prop where
  machine : r.machine.Sound
  client : ∀ c, r.client = some c → ∃ committed,
    r.machine.server.eventJournal.Records committed ∧ Tracks r.machine.server committed c

/-- A step of the server that is no restart is one of the effects. -/
lemma effect_of_step {m' : Machine} (hfresh : m.FreshId op) (hstep : m.step op = some m') :
    (∃ startEmpty epoch spawn spawnFirst,
        op = .restart startEmpty epoch spawn spawnFirst) ∨
      ∃ done, m.server.Effect done m'.server := by
  cases op with
  | serve op =>
    obtain ⟨server, hserve, hm⟩ := Option.bind_eq_some_iff.mp hstep
    cases hm
    exact .inr ⟨op, step_effect hfresh hserve⟩
  | persistWorkspace =>
    obtain ⟨server, hcommit, hm⟩ := Option.bind_eq_some_iff.mp hstep
    cases hm
    exact .inr ⟨.commitEvent .workspaceSaved (.object []), step_effect trivial hcommit⟩
  | restart startEmpty epoch spawn spawnFirst =>
    exact .inl ⟨startEmpty, epoch, spawn, spawnFirst, rfl⟩

theorem serve_sound (h : r.Sound) (hfresh : r.machine.FreshId op)
    (hstep : r.step (.serve op) = some r') : r'.Sound := by
  obtain ⟨machine, hmachine, hr⟩ := Option.bind_eq_some_iff.mp hstep
  have hsound := step_sound h.machine hfresh hmachine
  rcases effect_of_step hfresh hmachine with
    ⟨startEmpty, epoch, spawn, spawnFirst, rfl⟩ | ⟨done, e⟩
  · cases hr
    exact ⟨hsound, by simp⟩
  · obtain ⟨client, rfl, hclient⟩ : ∃ client, r' = { machine, client } ∧
        (client = none ∨ client = r.client) := by
      cases op with
      | restart => exact ⟨none, (Option.some.inj hr).symm, .inl rfl⟩
      | _ => exact ⟨r.client, (Option.some.inj hr).symm, .inr rfl⟩
    refine ⟨hsound, fun c hc => ?_⟩
    rcases hclient with rfl | rfl
    · exact absurd hc (by simp)
    · obtain ⟨committed, hrec, htracks⟩ := h.client c hc
      obtain ⟨named, hjournal, hevolves⟩ := e.evolves h.machine.server
      obtain ⟨events, hevents, hrec'⟩ := hjournal.records committed hrec
      exact ⟨committed ++ events, hrec', htracks.evolve h.machine.server hsound.server hevolves
        hevents hjournal.epoch_eq⟩

/-- **One step of the system.** -/
theorem step_sound {op : ReplicaOp} (h : r.Sound) (hfresh : r.FreshId op)
    (hstep : r.step op = some r') : r'.Sound := by
  cases op with
  | serve op => exact serve_sound h hfresh hstep
  | bootstrap serverPid =>
    cases hstep
    refine ⟨h.machine, fun c hc => ?_⟩
    simp only [bootstrapped] at hc
    split at hc
    · rename_i snapshot hsnapshot
      cases hc
      obtain ⟨committed, hrec⟩ := h.machine.journal
      exact ⟨committed, hrec, .bootstrap h.machine.server hrec hsnapshot⟩
    · exact h.client c hc
  | poll limit =>
    cases hstep
    refine ⟨h.machine, fun c' hc' => ?_⟩
    obtain ⟨c, hc, hpolled⟩ := Option.map_eq_some_iff.mp hc'
    obtain ⟨committed, hrec, htracks⟩ := h.client c hc
    split at hpolled
    · rename_i batch hanswer
      obtain rfl := hpolled
      exact ⟨committed, hrec, htracks.poll h.machine.server hrec hanswer⟩
    · obtain rfl := hpolled
      exact ⟨committed, hrec, htracks⟩

theorem start_sound {startEmpty : Bool} {epoch : String}
    {spawn : SavedTab → Except String Spawned} {spawnFirst : Except String Spawned}
    (h : Machine.start startEmpty epoch spawn spawnFirst = some m) :
    (⟨m, none⟩ : Replica).Sound := ⟨Machine.start_sound h, by simp⟩

theorem run_sound {ops : List ReplicaOp} (h : r.Sound) (hfresh : Along step FreshId r ops)
    (hrun : exec step r ops = some r') : r'.Sound :=
  exec_invariant_along (fun _ _ _ h hok hstep => step_sound h hok hstep) h hfresh hrun

lemma mergedTabs_sorted (tabs : List UiTabBootstrap) (batch : UiDeltaBatch) :
    (mergedTabs tabs batch).Pairwise fun a b => a.index ≤ b.index :=
  pairwise_insertionSort_key UiTabBootstrap.index _

/-- **Convergence.** In every run of a server and a client, with tabs created below the maximum
of the id counter: when the client has applied a batch that reaches the end of the journal, its
list of tabs (ids, order, parents, names) and its active tab are those of the server, hence
those of a bootstrap snapshot taken at that moment. -/
theorem replica_converges {startEmpty : Bool} {epoch : String}
    {spawn : SavedTab → Except String Spawned} {spawnFirst : Except String Spawned}
    {m : Machine} {ops : List ReplicaOp} {r : Replica}
    (hstart : start startEmpty epoch spawn spawnFirst = some m)
    (hfresh : Along step FreshId ⟨m, none⟩ ops)
    (hrun : exec step ⟨m, none⟩ ops = some r)
    {c c' : UiBootstrapSnapshot} {limit : Nat} {batch : UiDeltaBatch} {changed : Bool}
    (hclient : r.client = some c) (hanswer : r.machine.server.answer c limit = .ok batch)
    (happlied : receiveDelta c batch = (.ok changed, c'))
    (hend : batch.throughSequence = r.machine.server.eventJournal.sequence) :
    c'.tabs.map Tracks.listing = r.machine.server.tabs.map Tracks.serverListing ∧
      c'.activeTabId = r.machine.server.active.map stableTabId ∧
      ∀ serverPid b, r.machine.server.uiBootstrapSnapshot serverPid = .ok b →
        c'.tabs.map Tracks.listing = b.tabs.map Tracks.listing ∧
          c'.activeTabId = b.activeTabId := by
  have h := run_sound (start_sound hstart) hfresh hrun
  have hs := h.machine.server
  obtain ⟨committed, hrec, htracks⟩ := h.client c hclient
  obtain ⟨n, b, hthrough, hle, hreceive⟩ := htracks.answer hrec hanswer
  have hc' : c' = mergedSnapshot c batch := by
    rw [hreceive] at happlied
    exact (congrArg Prod.snd happlied).symm
  have hvalid : c'.Valid := by
    refine UiBootstrapSnapshot.validate_eq_ok.mp ?_
    rw [hreceive] at happlied
    have hcheck := congrArg Prod.fst happlied
    rw [hc']
    simp only [applyDelta] at hcheck
    cases hmerged : (mergedSnapshot c batch).validate with
    | error error => rw [hmerged] at hcheck; exact absurd hcheck (by simp [Except.map])
    | ok _ => rfl
  have htracks' : Tracks r.machine.server committed c' := by
    rw [hc']
    exact htracks.merge hs b hthrough hle
  have hread : c'.pending committed = [] := by
    unfold UiBootstrapSnapshot.pending
    rw [hc', drop_eq_nil_iff]
    simp only [mergedSnapshot, hend, hrec.sequence_eq, Nat.le_refl]
  have hsorted : c'.tabs.Pairwise fun a b => a.index ≤ b.index := by
    rw [hc']
    exact mergedTabs_sorted _ _
  have hlist := htracks'.listings_eq hs hvalid hread hsorted
  have hactive : c'.activeTabId = r.machine.server.active.map stableTabId := by
    rw [hc']
    exact b.active
  refine ⟨hlist, hactive, fun serverPid snapshot hsnapshot => ?_⟩
  obtain ⟨hshows, -, -, hactive', -⟩ := uiBootstrapSnapshot_eq_ok hsnapshot
  exact ⟨by rw [hlist, Tracks.listing_of_shows hshows], hactive.trans hactive'.symm⟩

/-! ## Runs with given inputs -/

/-- What the client has before and after a poll that is accepted, and the batch. -/
def accepted (r : Replica) (limit : Nat) :
    Option (UiBootstrapSnapshot × UiDeltaBatch × Bool × UiBootstrapSnapshot) := do
  let c ← r.client
  let batch ← (r.machine.server.answer c limit).toOption
  match receiveDelta c batch with
  | (.ok changed, c') => some (c, batch, changed, c')
  | (.error _, _) => none

lemma toOption_eq_some {α : Type} {x : Except String α} {a : α} (h : x.toOption = some a) :
    x = .ok a := by
  cases x with
  | error error => exact absurd h (by simp [Except.toOption])
  | ok b => exact congrArg _ (Option.some.inj h)

lemma accepted_eq_some {c c' : UiBootstrapSnapshot} {changed : Bool}
    (h : r.accepted limit = some (c, batch, changed, c')) :
    r.client = some c ∧ r.machine.server.answer c limit = .ok batch ∧
      receiveDelta c batch = (.ok changed, c') := by
  obtain ⟨c₀, hclient, h⟩ := Option.bind_eq_some_iff.mp h
  obtain ⟨batch₀, hanswer, h⟩ := Option.bind_eq_some_iff.mp h
  have hbatch := toOption_eq_some hanswer
  split at h
  · rename_i changed₀ c₁ hreceive
    simp only [Option.some.injEq, Prod.mk.injEq] at h
    obtain ⟨rfl, rfl, rfl, rfl⟩ := h
    exact ⟨hclient, hbatch, hreceive⟩
  · exact absurd h (by simp)

/-- The first start, with a client that has no snapshot yet. -/
def plainReplica : Replica := ⟨plainMachine, none⟩

/-- A client bootstraps, then a child is created below the first tab. -/
def growingOps : List ReplicaOp :=
  [.bootstrap 9, .serve (.serve (.createTab none [] true (some 1) (.ok plainShell)))]

theorem replica_converges_growing :
    ∃ r c batch changed c', exec step plainReplica growingOps = some r ∧
      r.accepted 64 = some (c, batch, changed, c') ∧ c.tabs.length = 1 ∧
      c'.tabs.length = 2 ∧
      c'.tabs.map Tracks.listing = r.machine.server.tabs.map Tracks.serverListing := by
  have hcheck : ((exec step plainReplica growingOps).bind fun r =>
      (r.accepted 64).map fun a => (a.1.tabs.length, a.2.2.2.tabs.length,
        decide (a.2.1.throughSequence = r.machine.server.eventJournal.sequence)))
      = some (1, 2, true) := by decide +kernel
  obtain ⟨r, hrun, hcheck⟩ := Option.bind_eq_some_iff.mp hcheck
  obtain ⟨⟨c, batch, changed, c'⟩, haccepted, hfacts⟩ := Option.map_eq_some_iff.mp hcheck
  simp only [Prod.mk.injEq, decide_eq_true_eq] at hfacts
  obtain ⟨hclient, hanswer, happlied⟩ := accepted_eq_some haccepted
  have hstart : plainStart = some plainMachine := rfl
  have hfresh : Along step FreshId plainReplica growingOps := by
    refine ⟨trivial, fun r' hr' => ⟨?_, fun _ _ => trivial⟩⟩
    cases hr'
    show plainReplica.machine.server.nextId < u64Max
    decide
  exact ⟨r, c, batch, changed, c', hrun, haccepted, hfacts.1, hfacts.2.1,
    (replica_converges hstart hfresh hrun hclient hanswer happlied hfacts.2.2).1⟩

/-- Operations of a running server do not touch the client's snapshot. -/
lemma exec_serve (m : Machine) (client : Option UiBootstrapSnapshot) (ops : List ServerOp) :
    exec step ⟨m, client⟩ (ops.map fun op => .serve (.serve op)) =
      (exec Machine.step m (ops.map .serve)).map fun m' => ⟨m', client⟩ := by
  induction ops generalizing m with
  | nil => rfl
  | cons op ops ih =>
    rw [map_cons, map_cons, exec_cons, exec_cons]
    cases hstep : m.step (.serve op) with
    | none => simp [step, hstep]
    | some m' => simpa [step, hstep] using ih m'

/-- The server with its id counter at the maximum, and a client without a snapshot. -/
def saturatedReplica : Replica := ⟨saturatedMachine, none⟩

/-- Two tabs get the same id; the first of them, the parent of the first tab, is closed. -/
def staleOps : List ReplicaOp :=
  [.serve (create (.ok plainShell)),
    .serve (.serve (.setTabParent 1 (some u64Max))),
    .bootstrap 9,
    .serve (create (.ok plainShell)),
    .serve (.serve (.closeTab u64Max { nativeCleanup := none, workersComplete := true }))]

/-- After the id counter has stopped, an accepted batch that reaches the end of the journal can
leave a tab below a parent it no longer has. -/
theorem stale_parent_after_saturation :
    ∃ ops r c batch changed c' b, exec step plainReplica ops = some r ∧
      r.accepted 64 = some (c, batch, changed, c') ∧
      batch.throughSequence = r.machine.server.eventJournal.sequence ∧
      r.machine.server.uiBootstrapSnapshot 9 = .ok b ∧
      c'.tabs.map Tracks.listing ≠ b.tabs.map Tracks.listing := by
  have hfailed : exec step plainReplica
      ((List.replicate (u64Max - 2) (.createTab none [] false none (.error "spawn failed"))).map
        fun op => .serve (.serve op)) = some saturatedReplica := by
    have hmachine := exec_failed_creates (u64Max - 2) plainMachine
      (by decide) (by decide)
    rw [plainReplica, exec_serve, map_replicate]
    exact congrArg (Option.map fun m' => (⟨m', none⟩ : Replica)) hmachine
  obtain ⟨pre, hpre⟩ : ∃ pre, exec step plainReplica pre = some saturatedReplica :=
    ⟨_, hfailed⟩
  have hcheck : ((exec step saturatedReplica staleOps).bind fun r =>
      (r.accepted 64).bind fun a => (r.machine.server.uiBootstrapSnapshot 9).toOption.map fun b =>
        (decide (a.2.1.throughSequence = r.machine.server.eventJournal.sequence),
          decide (a.2.2.2.tabs.map Tracks.listing ≠ b.tabs.map Tracks.listing)))
      = some (true, true) := by decide +kernel
  obtain ⟨r, hrun, hcheck⟩ := Option.bind_eq_some_iff.mp hcheck
  obtain ⟨⟨c, batch, changed, c'⟩, haccepted, hcheck⟩ := Option.bind_eq_some_iff.mp hcheck
  obtain ⟨b, hb, hfacts⟩ := Option.map_eq_some_iff.mp hcheck
  simp only [Prod.mk.injEq, decide_eq_true_eq] at hfacts
  refine ⟨pre ++ staleOps, r, c, batch, changed, c', b, ?_, haccepted, hfacts.1,
    toOption_eq_some hb, hfacts.2⟩
  rw [exec_append, hpre, Option.bind_some]
  exact hrun

end Replica

end Agenterm
