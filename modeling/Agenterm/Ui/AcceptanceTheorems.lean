import Agenterm.Ui.ReplicaTheorems

/-!
# When a client accepts a batch

A batch carries the current state of the tabs its events name, so what it brings may refer to
tabs that neither the batch nor the client's snapshot has, and what it closes may still be
referred to. `Acceptable` is the exact condition on the server, the client's snapshot and the
carried events under which the result passes the client's check
(`Replica.deltas_accepted_iff`). Closing a tab that has children breaks it: the children move up
without an event (`Replica.closed_parent_rejected`).
-/

namespace Agenterm

open ServerState List Lib

/-! ## The snapshot a batch leads to -/

section
variable (s : ServerState) (c : UiBootstrapSnapshot) (selected : List EventEnvelope)

/-- The tabs of the client that the events do not name. -/
def keptTabs : List UiTabBootstrap :=
  c.tabs.filter fun u => ∀ k ∈ names selected, u.id ≠ stableTabId k

/-- The live tabs that the events name. -/
def sentTabs : List TerminalTab := s.tabs.filter fun tab => tab.id ∈ names selected

/-- The kept tabs with the current state of the sent ones, at the end of the events. -/
def assembled : UiBootstrapSnapshot :=
  let tabs := keptTabs c selected ++
    (sentTabs s selected).filterMap fun tab => (s.projectTab tab).toOption
  let complete := tabs.all fun tab => tab.screen.complete
  { c with
    tabs
    activeTabId := s.activeTabId
    position := { c.position with
      sequence := (selected.getLast?.map EventEnvelope.sequence).getD c.position.sequence }
    complete
    truncated := !complete }

/-- The client can take up the current state of the tabs that the events name. -/
structure Acceptable : Prop where
  /-- No tab that is kept has a parent that the events name and that is closed. -/
  orphans : ∀ u ∈ keptTabs c selected, ∀ p ∈ names selected,
    u.parentId = some (stableTabId p) → s.Live p
  /-- The parent of a tab that is sent is sent too, or known to the client. -/
  parents : ∀ tab ∈ sentTabs s selected, ∀ p, tab.parentId = some p →
    p ∈ names selected ∨ stableTabId p ∈ c.tabs.map UiTabBootstrap.id
  /-- So is the active tab. -/
  active : ∀ id, s.active = some id →
    id ∈ names selected ∨ stableTabId id ∈ c.tabs.map UiTabBootstrap.id
  /-- The limits of the bridge are kept. -/
  metadata : ∀ tab ∈ sentTabs s selected,
    tab.title.utf8ByteSize ≤ uiTabTitleMaxBytes ∧ tab.note.utf8ByteSize ≤ uiTabNoteMaxBytes
  count : (keptTabs c selected).length + (sentTabs s selected).length ≤ uiBootstrapMaxTabs
  bytes : (assembled s c selected).json.encodedLength ≤ uiBootstrapMaxBytes

end

lemma filterMap_toOption {α β : Type} {f : α → Except String β} {l : List α} {l' : List β}
    (h : l.mapM f = .ok l') : l.filterMap (fun a => (f a).toOption) = l' := by
  have hall := mapM_eq_ok.mp h
  clear h
  induction hall with
  | nil => rfl
  | cons hhead _ ih =>
    rw [filterMap_cons, hhead]
    exact congrArg _ ih

lemma map_index_of_shows {us : List UiTabBootstrap} {tabs : List TerminalTab}
    (h : List.Forall₂ (fun tab u => Shows u tab) tabs us) :
    us.map UiTabBootstrap.index = tabs.map TerminalTab.index :=
  map_eq_of_forall₂ h fun _ _ hshow => hshow.index

variable {k n : Nat} {op : ReplicaOp} {r : Replica} {tab : TerminalTab}

section
variable {s : ServerState} {committed : List EventEnvelope} {c : UiBootstrapSnapshot}
  {selected : List EventEnvelope} {batch : UiDeltaBatch}

lemma mem_keptTabs {u : UiTabBootstrap} :
    u ∈ keptTabs c selected ↔ u ∈ c.tabs ∧ ∀ k ∈ names selected, u.id ≠ stableTabId k := by
  unfold keptTabs
  rw [mem_filter, decide_eq_true_eq]

lemma mem_sentTabs : tab ∈ sentTabs s selected ↔ tab ∈ s.tabs ∧ tab.id ∈ names selected := by
  unfold sentTabs
  rw [mem_filter, decide_eq_true_eq]

lemma ServerState.BatchOf.sent (b : BatchOf s c.position.sequence selected batch) :
    (sentTabs s selected).mapM s.projectTab = .ok batch.tabUpdates := by
  have hfilter : sentTabs s selected
      = s.tabs.filter fun tab => (affectedIds selected).contains tab.id := by
    refine filter_congr fun tab _ => ?_
    rw [Bool.eq_iff_iff, decide_eq_true_eq, contains_iff_mem, mem_affectedIds]
  rw [hfilter]
  exact b.updates

lemma ServerState.BatchOf.shows_sent (b : BatchOf s c.position.sequence selected batch) :
    List.Forall₂ (fun tab u => Shows u tab) (sentTabs s selected) batch.tabUpdates :=
  projectTabs_eq_ok b.sent

/-- Kept and sent tabs have different ids. -/
lemma Tracks.nodup_kept_sent (h : Tracks s committed c) (hs : s.Forest)
    (b : BatchOf s c.position.sequence selected batch) :
    ((keptTabs c selected ++ batch.tabUpdates).map UiTabBootstrap.id).Nodup := by
  rw [map_append, nodup_append]
  refine ⟨h.ids_nodup.sublist (filter_sublist.map _), ?_, ?_⟩
  · rw [forall₂_shows_ids b.shows_sent]
    exact nodup_map_stableTabId (hs.ids_nodup.sublist (filter_sublist.map _))
  · intro x hx y hy hxy
    obtain ⟨u, hu, rfl⟩ := mem_map.mp hx
    obtain ⟨v, hv, rfl⟩ := mem_map.mp hy
    obtain ⟨tab, -, hnamed, hshow⟩ := b.mem_updates hv
    exact (mem_keptTabs.mp hu).2 tab.id hnamed (hxy.trans hshow.id)

/-- The tabs after the batch are the kept and the sent ones. -/
lemma Tracks.mergedTabs_perm (h : Tracks s committed c) (hs : s.Forest)
    (b : BatchOf s c.position.sequence selected batch) :
    (mergedTabs c.tabs batch).Perm (keptTabs c selected ++ batch.tabUpdates) := by
  have hmerged := List.Nodup.of_map _ (h.nodup_mergedTabs batch)
  have hparts := List.Nodup.of_map _ (h.nodup_kept_sent hs b)
  rw [perm_ext_iff_of_nodup hmerged hparts]
  intro u
  rw [h.mem_mergedTabs hs b, mem_append, mem_keptTabs, or_comm]

/-- **Indices stay distinct.** A tab that took over the index of a closed one is never sent
without closing that one. -/
lemma Tracks.nodup_indices (h : Tracks s committed c) (hs : s.Forest) (hvalid : c.Valid)
    (b : BatchOf s c.position.sequence ((c.pending committed).take n) batch) :
    ((mergedTabs c.tabs batch).map UiTabBootstrap.index).Nodup := by
  rw [((h.mergedTabs_perm hs b).map _).nodup_iff, map_append, nodup_append]
  refine ⟨hvalid.indices_nodup.sublist (filter_sublist.map _), ?_, ?_⟩
  · rw [map_index_of_shows b.shows_sent]
    exact hs.indices_nodup.sublist (filter_sublist.map _)
  · intro x hx y hy hxy
    obtain ⟨u, hu, rfl⟩ := mem_map.mp hx
    obtain ⟨v, hv, rfl⟩ := mem_map.mp hy
    obtain ⟨hmem, hkept⟩ := mem_keptTabs.mp hu
    obtain ⟨tab, htab, hnamed, hshow⟩ := b.mem_updates hv
    have hindex : tab.index = u.index := hshow.index.symm.trans hxy.symm
    obtain ⟨k, hid, -⟩ := h.known u hmem
    by_cases hlive : s.Live k
    · obtain ⟨own, hown, rfl⟩ := mem_map.mp hlive
      have hsame := hs.eq_of_index htab hown (hindex.trans (h.index u hmem own hown hid))
      exact hkept own.id (hsame ▸ hnamed) hid
    · exact hkept k (h.order u hmem k hid hlive tab htab hindex n hnamed) hid

/-- Which ids the merged snapshot has. -/
lemma Tracks.mem_merged_ids (h : Tracks s committed c) (hs : s.Forest)
    (b : BatchOf s c.position.sequence selected batch) :
    stableTabId k ∈ (mergedTabs c.tabs batch).map UiTabBootstrap.id ↔
      s.Live k ∧ k ∈ names selected ∨
        stableTabId k ∈ c.tabs.map UiTabBootstrap.id ∧ k ∉ names selected := by
  rw [((h.mergedTabs_perm hs b).map _).mem_iff, map_append, mem_append, b.update_ids,
    or_comm]
  refine or_congr_right ?_
  simp only [mem_map, mem_keptTabs]
  constructor
  · rintro ⟨u, ⟨hu, hkept⟩, hid⟩
    exact ⟨⟨u, hu, hid⟩, fun hk => hkept k hk hid⟩
  · rintro ⟨⟨u, hu, hid⟩, hk⟩
    refine ⟨u, ⟨hu, fun k' hk' heq => ?_⟩, hid⟩
    exact hk (stableTabId_inj (hid.symm.trans heq) ▸ hk')

/-- A live tab is in the merged snapshot when it is sent or known. -/
lemma Tracks.live_merged_iff (h : Tracks s committed c) (hs : s.Forest)
    (b : BatchOf s c.position.sequence selected batch) (hlive : s.Live k) :
    stableTabId k ∈ (mergedTabs c.tabs batch).map UiTabBootstrap.id ↔
      k ∈ names selected ∨ stableTabId k ∈ c.tabs.map UiTabBootstrap.id := by
  rw [h.mem_merged_ids hs b]
  by_cases hk : k ∈ names selected
  · simp [hk, hlive]
  · simp [hk]

/-! ## The check -/

/-- The merged snapshot and the assembled one differ in the order of their tabs only, which does
not show in their size. -/
lemma Tracks.encodedLength_merged (h : Tracks s committed c) (hs : s.Forest)
    (b : BatchOf s c.position.sequence selected batch) :
    (mergedSnapshot c batch).json.encodedLength
      = (assembled s c selected).json.encodedLength := by
  have hperm := h.mergedTabs_perm hs b
  have hsize : Value.fieldLength ("tabs", .array ((mergedTabs c.tabs batch).map
      UiTabBootstrap.json)) = Value.fieldLength ("tabs",
        .array ((keptTabs c selected ++ batch.tabUpdates).map UiTabBootstrap.json)) := by
    rw [Value.fieldLength, Value.fieldLength, encodedLength_array_perm _ hperm]
  have hcomplete : ((mergedTabs c.tabs batch).all fun tab => tab.screen.complete)
      = (keptTabs c selected ++ batch.tabUpdates).all fun tab => tab.screen.complete := by
    rw [Bool.eq_iff_iff, all_eq_true, all_eq_true]
    exact ⟨fun hall tab htab => hall tab (hperm.mem_iff.mpr htab),
      fun hall tab htab => hall tab (hperm.mem_iff.mp htab)⟩
  simp only [UiBootstrapSnapshot.json, mergedSnapshot, assembled, filterMap_toOption b.sent,
    b.active, b.through, hcomplete]
  simp only [Value.encodedLength, Value.fieldsLength, hsize, length_cons]

lemma ServerState.Forest.parent_ne (hs : s.Forest) (htab : tab ∈ s.tabs) {p : Nat}
    (hp : tab.parentId = some p) : p ≠ tab.id := by
  rintro rfl
  exact hs.tree.acyclic tab.id (Relation.TransGen.single
    ⟨tab.treeNode, mem_map_of_mem htab, rfl, hp⟩)

/-- A snapshot that passes the check meets the condition. -/
lemma Tracks.acceptable_of_valid (h : Tracks s committed c) (hs : s.Forest)
    (b : BatchOf s c.position.sequence selected batch)
    (hmerged : (mergedSnapshot c batch).Valid) : Acceptable s c selected := by
  have hperm := h.mergedTabs_perm hs b
  have hsent : ∀ tab ∈ sentTabs s selected, ∃ u ∈ mergedTabs c.tabs batch, Shows u tab := by
    intro tab htab
    obtain ⟨u, hu, hshow⟩ := exists_right_of_forall₂ b.shows_sent htab
    exact ⟨u, hperm.mem_iff.mpr (mem_append_right _ hu), hshow⟩
  refine ⟨?_, ?_, ?_, ?_, ?_, ?_⟩
  · intro u hu p hp hparent
    have hmem := hperm.mem_iff.mpr (mem_append_left batch.tabUpdates hu)
    obtain ⟨-, hknown⟩ := hmerged.parents u hmem _ hparent
    rcases (h.mem_merged_ids hs b).mp hknown with ⟨hlive, -⟩ | ⟨-, hnot⟩
    · exact hlive
    · exact absurd hp hnot
  · intro tab htab p hp
    obtain ⟨u, hu, hshow⟩ := hsent tab htab
    obtain ⟨-, hknown⟩ := hmerged.parents u hu (stableTabId p) (by rw [hshow.parentId, hp]; rfl)
    exact ((h.mem_merged_ids hs b).mp hknown).imp And.right And.left
  · intro id hid
    have hactive : (mergedSnapshot c batch).activeTabId = some (stableTabId id) := by
      rw [mergedSnapshot, b.active, activeTabId, hid]
      rfl
    exact ((h.mem_merged_ids hs b).mp (hmerged.active _ hactive)).imp And.right And.left
  · intro tab htab
    obtain ⟨u, hu, hshow⟩ := hsent tab htab
    exact hshow.valid_iff.mp (hmerged.tabs u hu)
  · have hcount := hmerged.tabs_le
    rw [mergedSnapshot, hperm.length_eq, length_append, ← b.shows_sent.length_eq] at hcount
    exact hcount
  · rw [← h.encodedLength_merged hs b]
    exact hmerged.bytes

/-- A snapshot that meets the condition passes the check, when the one before the batch did. -/
lemma Tracks.valid_of_acceptable (h : Tracks s committed c) (hs : s.Forest) (hvalid : c.Valid)
    (b : BatchOf s c.position.sequence ((c.pending committed).take n) batch)
    (ha : Acceptable s c ((c.pending committed).take n)) : (mergedSnapshot c batch).Valid := by
  have hperm := h.mergedTabs_perm hs b
  refine ⟨hvalid.schema, hvalid.pid, hvalid.epoch_nonempty, hvalid.epoch_le, hvalid.position,
    ?_, ?_, ?_, h.nodup_mergedTabs batch, h.nodup_indices hs hvalid b, ?_, ?_, ?_⟩
  · rw [mergedSnapshot, hperm.length_eq, length_append, ← b.shows_sent.length_eq]
    exact ha.count
  · simp [mergedSnapshot]
  · intro u hu
    rcases mem_append.mp (hperm.mem_iff.mp hu) with hu | hu
    · exact hvalid.tabs u (mem_keptTabs.mp hu).1
    · obtain ⟨tab, htab, hshow⟩ := exists_left_of_forall₂ b.shows_sent hu
      exact hshow.valid_iff.mpr (ha.metadata tab htab)
  · intro u hu parent hparent
    rcases mem_append.mp (hperm.mem_iff.mp hu) with hu | hu
    · obtain ⟨hne, hknown⟩ := hvalid.parents u (mem_keptTabs.mp hu).1 parent hparent
      obtain ⟨shown, hshown, rfl⟩ := mem_map.mp hknown
      obtain ⟨p, hp, -⟩ := h.known shown hshown
      rw [hp] at hparent hne hknown ⊢
      refine ⟨hne, (h.mem_merged_ids hs b).mpr ?_⟩
      by_cases hnamed : p ∈ names ((c.pending committed).take n)
      · exact .inl ⟨ha.orphans u hu p hnamed hparent, hnamed⟩
      · exact .inr ⟨hknown, hnamed⟩
    · obtain ⟨tab, htab, hshow⟩ := exists_left_of_forall₂ b.shows_sent hu
      have hmem := (mem_sentTabs.mp htab).1
      rw [hshow.parentId] at hparent
      obtain ⟨p, hp, rfl⟩ := Option.map_eq_some_iff.mp hparent
      refine ⟨?_, (h.live_merged_iff hs b (hs.parents hmem hp)).mpr (ha.parents tab htab p hp)⟩
      rw [hshow.id]
      exact fun heq => hs.parent_ne hmem hp (stableTabId_inj heq)
  · intro active hactive
    rw [mergedSnapshot, b.active, activeTabId] at hactive
    obtain ⟨id, hid, rfl⟩ := Option.map_eq_some_iff.mp hactive
    exact (h.live_merged_iff hs b (hs.active_live id hid)).mpr (ha.active id hid)
  · rw [h.encodedLength_merged hs b]
    exact ha.bytes

end

/-! ## Runs -/

namespace Replica

/-- A poll that the server answers is accepted by the client. -/
def Applies (r : Replica) : ReplicaOp → Prop
  | .poll limit => ∀ c batch, r.client = some c → r.machine.server.answer c limit = .ok batch →
      ∃ changed, (receiveDelta c batch).1 = .ok changed
  | _ => True

/-- A poll that the server answers finds a server and a client that meet the condition, for the
events that fit into the answer. -/
def Ready (r : Replica) : ReplicaOp → Prop
  | .poll limit => ∀ c events n, r.client = some c →
      (∃ batch, r.machine.server.answer c limit = .ok batch) →
      r.machine.server.eventJournal.readAfter c.serverEpoch c.position.sequence limit
        = .ok events →
      Carries r.machine.server c.position.sequence events n →
      Acceptable r.machine.server c (events.take n)
  | _ => True

/-- The client's snapshot tracks the server and has passed its check. -/
structure Checked (r : Replica) : Prop where
  sound : r.Sound
  valid : ∀ c, r.client = some c → c.Valid

lemma applyDelta_ok_iff {c : UiBootstrapSnapshot} {batch : UiDeltaBatch} :
    (∃ changed, (applyDelta c batch).1 = .ok changed) ↔ (mergedSnapshot c batch).Valid := by
  rw [← UiBootstrapSnapshot.validate_eq_ok]
  simp only [applyDelta]
  cases hmerged : (mergedSnapshot c batch).validate with
  | error error => simp [Except.map]
  | ok _ => exact ⟨fun _ => rfl, fun _ => ⟨_, rfl⟩⟩

/-- **One poll.** -/
theorem applies_iff_ready (h : r.Checked) : r.Applies op ↔ r.Ready op := by
  cases op with
  | serve op => exact Iff.rfl
  | bootstrap serverPid => exact Iff.rfl
  | poll limit =>
    have hs := h.sound.machine.server
    constructor
    · rintro happlies c events n hclient ⟨batch, hanswer⟩ hread hcarries
      obtain ⟨committed, hrec, htracks⟩ := h.sound.client c hclient
      obtain ⟨-, -, -, -, hreceive⟩ := htracks.answer hrec hanswer
      have happlied := happlies c batch hclient hanswer
      rw [hreceive, applyDelta_ok_iff] at happlied
      obtain ⟨events', n', hread', hcarries', hbuilt, -⟩ := uiDeltas_eq_ok hanswer
      obtain rfl := Except.ok.inj (hread.symm.trans hread')
      obtain rfl := hcarries.unique hcarries'
      exact htracks.acceptable_of_valid hs (deltaBatchOf_eq_ok hbuilt) happlied
    · intro hready c batch hclient hanswer
      obtain ⟨committed, hrec, htracks⟩ := h.sound.client c hclient
      obtain ⟨-, -, -, -, hreceive⟩ := htracks.answer hrec hanswer
      obtain ⟨events, n, hread, hcarries, hbuilt, -⟩ := uiDeltas_eq_ok hanswer
      have ha := hready c events n hclient ⟨batch, hanswer⟩ hread hcarries
      have b := deltaBatchOf_eq_ok hbuilt
      obtain ⟨htake, -, -⟩ := htracks.batch_through hrec hread hcarries.le_length b
      rw [htake] at ha b
      rw [hreceive, applyDelta_ok_iff]
      exact htracks.valid_of_acceptable hs (h.valid c hclient) b ha

/-- An accepted batch leaves a snapshot that has passed the check. -/
theorem step_checked {r' : Replica} (h : r.Checked) (hfresh : r.FreshId op)
    (happlies : r.Applies op) (hstep : r.step op = some r') : r'.Checked := by
  refine ⟨step_sound h.sound hfresh hstep, fun c' hc' => ?_⟩
  cases op with
  | serve op =>
    obtain ⟨machine, -, hr⟩ := Option.bind_eq_some_iff.mp hstep
    cases op with
    | restart =>
      cases hr
      exact absurd hc' (by simp)
    | _ =>
      cases hr
      exact h.valid c' hc'
  | bootstrap serverPid =>
    cases hstep
    simp only [bootstrapped] at hc'
    split at hc'
    · rename_i snapshot hsnapshot
      cases hc'
      exact (uiBootstrapSnapshot_eq_ok hsnapshot).2.2.2.2
    · exact h.valid c' hc'
  | poll limit =>
    cases hstep
    obtain ⟨c, hc, hpolled⟩ := Option.map_eq_some_iff.mp hc'
    split at hpolled
    · rename_i batch hanswer
      obtain rfl := hpolled
      obtain ⟨committed, hrec, htracks⟩ := h.sound.client c hc
      obtain ⟨-, -, -, -, hreceive⟩ := htracks.answer hrec hanswer
      have happlied := happlies c batch hc hanswer
      rw [hreceive] at happlied ⊢
      exact applyDelta_ok_iff.mp happlied
    · obtain rfl := hpolled
      exact h.valid c hc

/-- **Acceptance.** In every run of a server and a client, with tabs created below the maximum
of the id counter: the client accepts every batch it gets exactly when every poll of it meets the
condition. -/
theorem deltas_accepted_iff {startEmpty : Bool} {epoch : String}
    {spawn : SavedTab → Except String Spawned} {spawnFirst : Except String Spawned}
    {m : Machine} {ops : List ReplicaOp}
    (hstart : Machine.start startEmpty epoch spawn spawnFirst = some m)
    (hfresh : Along step FreshId ⟨m, none⟩ ops) :
    Along step Applies ⟨m, none⟩ ops ↔ Along step Ready ⟨m, none⟩ ops := by
  have hchecked : (⟨m, none⟩ : Replica).Checked := ⟨start_sound hstart, by simp⟩
  exact along_congr (P := Checked) (fun _ _ h _ => applies_iff_ready h)
    (fun _ _ _ h hok happlies hstep => step_checked h hok happlies hstep) hchecked hfresh

/-- A client bootstraps, a child is created below the first tab, and the client polls. -/
theorem growing_client_ready : Along step Applies plainReplica (growingOps ++ [.poll 64]) ∧
    Along step Ready plainReplica (growingOps ++ [.poll 64]) := by
  have hstart : Machine.plainStart = some Machine.plainMachine := rfl
  have hfresh : Along step FreshId plainReplica (growingOps ++ [.poll 64]) := by
    refine ⟨trivial, fun r' hr' => ⟨?_, fun _ _ => ⟨trivial, fun _ _ => trivial⟩⟩⟩
    cases hr'
    show plainReplica.machine.server.nextId < u64Max
    decide
  have happlies : Along step Applies plainReplica (growingOps ++ [.poll 64]) := by
    refine ⟨trivial, fun r₁ hr₁ => ⟨trivial, fun r₂ hr₂ => ⟨?_, fun _ _ => trivial⟩⟩⟩
    have hcheck : ((exec step plainReplica growingOps).bind fun r =>
        (r.accepted 64).map fun _ => ()) = some () := by decide +kernel
    obtain ⟨r, hrun, hcheck⟩ := Option.bind_eq_some_iff.mp hcheck
    have hr : r = r₂ := by
      have hexec : exec step plainReplica growingOps = some r₂ := by
        rw [growingOps, exec_cons, hr₁, Option.bind_some, exec_cons, hr₂]
        rfl
      exact Option.some.inj (hrun.symm.trans hexec)
    obtain ⟨⟨c, batch, changed, c'⟩, haccepted, -⟩ := Option.map_eq_some_iff.mp hcheck
    obtain ⟨hclient, hanswer, happlied⟩ := accepted_eq_some haccepted
    intro c₀ batch₀ hclient₀ hanswer₀
    rw [← hr] at hclient₀ hanswer₀
    obtain rfl := Option.some.inj (hclient.symm.trans hclient₀)
    obtain rfl := Except.ok.inj (hanswer.symm.trans hanswer₀)
    exact ⟨changed, by rw [happlied]⟩
  exact ⟨happlies, (deltas_accepted_iff hstart hfresh).mp happlies⟩

/-- A client bootstraps with a tab and its child, and the tab is closed. -/
def orphanOps : List ReplicaOp :=
  [.serve (.serve (.createTab none [] true (some 1) (.ok Machine.plainShell))),
    .bootstrap 9,
    .serve (.serve (.closeTab 1 { nativeCleanup := none, workersComplete := true }))]

/-- The child has moved up, but no event names it: the client still has it below the closed tab,
and refuses the batch. -/
theorem closed_parent_rejected :
    ∃ r c batch, exec step plainReplica orphanOps = some r ∧ r.client = some c ∧
      c.Valid ∧ r.machine.server.answer c 64 = .ok batch ∧
      (receiveDelta c batch).1 = .error "ui_bootstrap_parent_invalid" := by
  have hcheck : ((exec step plainReplica orphanOps).bind fun r => r.client.bind fun c =>
      (r.machine.server.answer c 64).toOption.map fun batch =>
        (decide (c.validate = .ok ()), decide ((receiveDelta c batch).1
          = .error "ui_bootstrap_parent_invalid"))) = some (true, true) := by decide +kernel
  obtain ⟨r, hrun, hcheck⟩ := Option.bind_eq_some_iff.mp hcheck
  obtain ⟨c, hclient, hcheck⟩ := Option.bind_eq_some_iff.mp hcheck
  obtain ⟨batch, hbatch, hfacts⟩ := Option.map_eq_some_iff.mp hcheck
  simp only [Prod.mk.injEq, decide_eq_true_eq] at hfacts
  exact ⟨r, c, batch, hrun, hclient, UiBootstrapSnapshot.validate_eq_ok.mp hfacts.1,
    toOption_eq_some hbatch, hfacts.2⟩

end Replica

end Agenterm
