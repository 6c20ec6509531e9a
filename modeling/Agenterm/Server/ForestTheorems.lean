import Agenterm.Server.Effects
import Agenterm.Server.TreeTheorems

/-!
# The tabs of a server form a forest

`ServerState.Forest` is the invariant of the tab list, the active tab and the id counter. Every
effect of an operation keeps it (`Effect.forest`), a start establishes it from a workspace file
that a server wrote (`new_forest`), and so it holds in every state of every run
(`Machine.tab_forest_invariant`), as long as tabs are created below the maximum of the id
counter.
-/

namespace Agenterm

open List Lib
open Option hiding map_map filter_map mem_map

variable {child closing tab : TerminalTab} {m : Machine} {named : List (Option Nat)}
  {parentId : Option Nat} {spawn : SavedTab → Except String Spawned}

variable {epoch : String} {m' : Machine} {op : ServerOp} {spawnFirst : Except String Spawned}
  {startEmpty : Bool}

namespace ServerState

structure Forest (s : ServerState) : Prop where
  tree : TabForest (s.tabs.map TerminalTab.treeNode)
  ids_lt : ∀ id, s.Live id → id < s.nextId
  active_live : ∀ id, s.active = some id → s.Live id
  nextId_le : s.nextId ≤ u64Max

lemma map_id_treeNode (tabs : List TerminalTab) :
    (tabs.map TerminalTab.treeNode).map TabTreeNode.id = tabs.map TerminalTab.id := by
  rw [map_map]
  rfl

variable {s s' : ServerState}

theorem Forest.ids_nodup (h : s.Forest) : (s.tabs.map TerminalTab.id).Nodup := by
  rw [← map_id_treeNode]
  exact h.tree.ids_nodup

theorem Forest.sorted (h : s.Forest) : s.tabs.Pairwise fun a b => a.index < b.index := by
  have hsorted := h.tree.sorted
  rw [pairwise_map] at hsorted
  exact hsorted

theorem Forest.indices_nodup (h : s.Forest) : (s.tabs.map TerminalTab.index).Nodup := by
  rw [List.Nodup, pairwise_map]
  exact h.sorted.imp fun hlt => Nat.ne_of_lt hlt

theorem Forest.parents (h : s.Forest) (htab : tab ∈ s.tabs) {p : Nat} (hp : tab.parentId = some p) :
    s.Live p := by
  have hlive := h.tree.parents _ (mem_map_of_mem htab) p hp
  rwa [map_id_treeNode] at hlive

/-! ## The effects keep the forest -/

theorem Edited.forest (h : s.Forest) (e : Edited s s' named) : s'.Forest := by
  have hnext : s.nextId ≤ s'.nextId ∧ s'.nextId ≤ u64Max := by
    have hle := h.nextId_le
    rcases e.nextId with heq | heq
    · rw [heq]
      exact ⟨Nat.le_refl _, hle⟩
    · rw [heq]
      unfold saturatingAdd
      omega
  refine ⟨?_, ?_, ?_, hnext.2⟩
  · rw [e.tabs.treeNodes]
    exact h.tree
  · intro id hlive
    have hlt := h.ids_lt id ((e.live_iff id).mp hlive)
    omega
  · intro id hactive
    rw [e.live_iff]
    rcases e.active with hsame | ⟨k, hk, hlive⟩
    · exact h.active_live id (hsame ▸ hactive)
    · rw [hk] at hactive
      exact some.inj hactive ▸ hlive

/-- The ids after a tab was created. -/
lemma Created.live_iff (e : Created s s' named tab) (id : Nat) :
    s'.Live id ↔ s.Live id ∨ id = tab.id := by
  unfold Live
  rw [e.tabs, ((sortByIndex_perm _).map _).mem_iff, map_append, mem_append]
  simp

theorem Created.forest (h : s.Forest) (e : Created s s' named tab) : s'.Forest := by
  have hnext : s'.nextId = s.nextId + 1 := by
    have := e.fresh
    rw [e.nextId, saturatingAdd_of_le (by omega)]
  have hfresh : ¬ s.Live tab.id := fun hlive => by
    have := h.ids_lt tab.id hlive
    have := e.id_eq
    omega
  have hindex : ((s.tabs ++ [tab]).map TerminalTab.index).Nodup := by
    rw [map_append, nodup_append]
    refine ⟨h.indices_nodup, by simp, ?_⟩
    intro i hi j hj hij
    obtain ⟨other, hother, rfl⟩ := mem_map.mp hi
    rw [map_singleton, mem_singleton, e.index_eq] at hj
    exact leastFreeIndex_free s.tabs other hother (hij.trans hj)
  refine ⟨?_, ?_, ?_, ?_⟩
  · rw [e.tabs]
    have hperm : ((sortByIndex (s.tabs ++ [tab])).map TerminalTab.treeNode).Perm
        (s.tabs.map TerminalTab.treeNode ++ [tab.treeNode]) := by
      have hsort := (sortByIndex_perm (s.tabs ++ [tab])).map TerminalTab.treeNode
      rwa [map_append, map_singleton] at hsort
    refine h.tree.insert hperm (sortByIndex_sorted hindex) ?_ ?_
    · rw [map_id_treeNode]
      exact hfresh
    · rw [map_id_treeNode]
      exact e.parent
  · intro id hlive
    rw [hnext]
    rcases (e.live_iff id).mp hlive with hold | rfl
    · exact Nat.lt_succ_of_lt (h.ids_lt id hold)
    · rw [e.id_eq]
      exact Nat.lt_succ_self _
  · intro id hactive
    rw [e.live_iff]
    rcases e.active with hsame | hself
    · exact .inl (h.active_live id (hsame ▸ hactive))
    · rw [hself] at hactive
      exact .inr (some.inj hactive).symm
  · rw [hnext]
    exact e.fresh

/-- The tabs after a new parent was set. -/
lemma Reparented.tabs_eq (h : s.Forest) (e : Reparented s s' child parentId) :
    s'.tabs = s.tabs.map fun tab =>
      if tab.id = child.id then tab.setParent parentId else tab := by
  rw [e.tabs, updateFirst_key h.ids_nodup]

lemma Reparented.live_iff (e : Reparented s s' child parentId) (id : Nat) :
    s'.Live id ↔ s.Live id := by
  unfold Live
  rw [e.tabs, map_updateFirst fun tab _ => tab.setParent_id parentId]

theorem Reparented.forest (h : s.Forest) (e : Reparented s s' child parentId) : s'.Forest := by
  refine ⟨?_, ?_, ?_, ?_⟩
  · have hnodes : s'.tabs.map TerminalTab.treeNode
        = (s.tabs.map TerminalTab.treeNode).map (TabTreeNode.moved child.id parentId) := by
      rw [e.tabs_eq h, map_map, map_map]
      refine map_congr_left fun tab _ => ?_
      by_cases hid : tab.id = child.id
      · simp [hid, TabTreeNode.moved, TerminalTab.treeNode, TerminalTab.setParent]
      · simp [hid, TabTreeNode.moved, TerminalTab.treeNode]
    rw [hnodes]
    refine h.tree.reparent fun p hp => ?_
    have hallowed := e.allowed
    rw [hp, parentRefusal] at hallowed
    split at hallowed
    · exact absurd hallowed (by simp)
    rename_i hlive
    split at hallowed
    · exact absurd hallowed (by simp)
    rename_i hcheck
    rw [map_id_treeNode]
    exact ⟨isLive_iff.mp (by simpa using hlive),
      not_path_of_wouldCreateCycle h.tree.ids_nodup (by simpa using hcheck)⟩
  · intro id hlive
    rw [e.nextId]
    exact h.ids_lt id ((e.live_iff id).mp hlive)
  · intro id hactive
    rw [e.live_iff]
    exact h.active_live id (e.active ▸ hactive)
  · rw [e.nextId]
    exact h.nextId_le

/-- The tabs after a tab was closed. -/
lemma Closed.tabs_eq (h : s.Forest) (e : Closed s s' closing) :
    s'.tabs = (s.tabs.filter fun tab => tab.id ≠ closing.id).map
      (TerminalTab.promote closing.id closing.parentId) := by
  have hids : (s.tabs.map (TerminalTab.promote closing.id closing.parentId)).map TerminalTab.id
      = s.tabs.map TerminalTab.id := by
    rw [map_map]
    exact map_congr_left fun tab _ => tab.promote_id _ _
  have herase := eraseIdx_key (by rw [hids]; exact h.ids_nodup) closing.id
  rw [findIdx_map, filter_map] at herase
  simp only [Function.comp_def, TerminalTab.promote_id] at herase
  rw [e.tabs, tabsAfterClose]
  exact herase

lemma Closed.live_iff (h : s.Forest) (e : Closed s s' closing) (id : Nat) :
    s'.Live id ↔ s.Live id ∧ id ≠ closing.id := by
  unfold Live
  rw [e.tabs_eq h, map_map]
  simp only [Function.comp_def, TerminalTab.promote_id, mem_map, mem_filter,
    decide_eq_true_eq]
  constructor
  · rintro ⟨tab, ⟨htab, hne⟩, rfl⟩
    exact ⟨⟨tab, htab, rfl⟩, hne⟩
  · rintro ⟨⟨tab, htab, rfl⟩, hne⟩
    exact ⟨tab, ⟨htab, hne⟩, rfl⟩

lemma Closed.closing_mem (e : Closed s s' closing) :
    closing ∈ s.tabs := mem_of_find?_eq_some e.found

lemma neighbourId_live {tabs : List TerminalTab} {position id : Nat}
    (h : neighbourId tabs position = some id) : id ∈ tabs.map TerminalTab.id := by
  unfold neighbourId at h
  obtain ⟨tab, htab, rfl⟩ := map_eq_some_iff.mp h
  refine mem_map_of_mem ?_
  rcases or_eq_some_iff.mp htab with hat | ⟨-, hbefore⟩
  · exact mem_of_getElem? hat
  · split at hbefore
    · exact absurd hbefore (by simp)
    · exact mem_of_getElem? hbefore

theorem Closed.forest (h : s.Forest) (e : Closed s s' closing) : s'.Forest := by
  refine ⟨?_, ?_, ?_, ?_⟩
  · have hnodes : s'.tabs.map TerminalTab.treeNode
        = ((s.tabs.map TerminalTab.treeNode).filter fun node =>
            node.id ≠ closing.treeNode.id).map closing.treeNode.promoted := by
      rw [e.tabs_eq h, filter_map, map_map, map_map]
      refine map_congr_left fun tab _ => ?_
      by_cases hchild : tab.parentId = some closing.id
      · simp [hchild, TabTreeNode.promoted, TerminalTab.treeNode, TerminalTab.promote,
          TerminalTab.setParent]
      · simp [hchild, TabTreeNode.promoted, TerminalTab.treeNode, TerminalTab.promote]
    rw [hnodes]
    exact h.tree.remove (mem_map_of_mem e.closing_mem)
  · intro id hlive
    rw [e.nextId]
    exact h.ids_lt id ((e.live_iff h id).mp hlive).1
  · intro id hactive
    rw [e.active] at hactive
    split at hactive
    · exact neighbourId_live hactive
    · rename_i hne
      refine (e.live_iff h id).mpr ⟨h.active_live id hactive, ?_⟩
      rintro rfl
      exact hne hactive
  · rw [e.nextId]
    exact h.nextId_le

/-- **One step.** Every effect keeps the forest. -/
theorem Effect.forest (h : s.Forest) (e : Effect s op s') : s'.Forest := by
  cases e with
  | edited named e => exact e.toEdited.forest h
  | polled inputs _ named e => exact e.forest h
  | created named tab e => exact e.forest h
  | reparented child parentId e => exact e.forest h
  | closed closing shutdown _ e => exact e.forest h

end ServerState

/-! ## Starting from a workspace file -/

def SavedTab.treeNode (tab : SavedTab) : TabTreeNode :=
  { id := tab.id, parentId := tab.parentId, sortKey := tab.index }

/-- The tabs of a workspace file form a forest, and their ids leave room for one more. -/
structure SavedWorkspace.Forest (w : SavedWorkspace) : Prop where
  tree : TabForest (w.tabs.map SavedTab.treeNode)
  ids_lt : ∀ tab ∈ w.tabs, tab.id < u64Max

theorem emptyWorkspace_forest : emptyWorkspace.Forest where
  tree := tabForest_nil
  ids_lt _ h := absurd h not_mem_nil

theorem defaultWorkspace_forest : defaultWorkspace.Forest where
  tree := by
    have hperm : [defaultTab.treeNode].Perm ([] ++ [defaultTab.treeNode]) := List.Perm.refl _
    refine tabForest_nil.insert hperm (pairwise_singleton _ _) not_mem_nil ?_
    intro p hp
    exact absurd hp (by simp [defaultTab, SavedTab.treeNode])
  ids_lt tab h := by
    rw [mem_singleton.mp h]
    decide

namespace ServerState
variable {s s' : ServerState}

/-- What a server writes is a forest again. -/
theorem Forest.savedWorkspace (h : s.Forest) : s.savedWorkspace.Forest where
  tree := by
    have hnodes : s.savedWorkspace.tabs.map SavedTab.treeNode
        = s.tabs.map TerminalTab.treeNode := by
      unfold ServerState.savedWorkspace
      rw [map_map]
      rfl
    rw [hnodes]
    exact h.tree
  ids_lt saved hsaved := by
    obtain ⟨tab, htab, rfl⟩ := mem_map.mp hsaved
    exact Nat.lt_of_lt_of_le (h.ids_lt tab.id (live_of_mem htab)) h.nextId_le

lemma restoreTab_eq_some {saved : SavedTab} {spawn : Except String Spawned}
    (h : s.restoreTab saved spawn = some s') :
    ∃ tab : TerminalTab, tab.treeNode = saved.treeNode ∧
      s'.tabs = sortByIndex (s.tabs ++ [tab]) ∧ s'.active = s.active ∧
      s'.nextId = s.nextId ∧ s'.controlAuthority = s.controlAuthority ∧
      s.eventJournal.Appends s'.eventJournal [some saved.id] := by
  cases spawn with
  | error error => exact absurd h (by simp [restoreTab])
  | ok spawned =>
    obtain ⟨hjournal, hrest⟩ := commit_eq_some h
    refine ⟨restoredTab saved spawned, rfl, ?_⟩
    rw [hrest]
    exact ⟨rfl, rfl, rfl, rfl, hjournal⟩

/-- After restoring, the tabs are those of the file. -/
lemma restoreTabs_eq_some {saved : List SavedTab} (h : s.restoreTabs spawn saved = some s')
    (hsorted : s.tabs.Pairwise fun a b => a.index ≤ b.index) :
    (s'.tabs.map TerminalTab.treeNode).Perm
        (s.tabs.map TerminalTab.treeNode ++ saved.map SavedTab.treeNode) ∧
      s'.tabs.Pairwise (fun a b => a.index ≤ b.index) ∧ s'.active = s.active ∧
      s'.nextId = s.nextId ∧ s'.controlAuthority = s.controlAuthority ∧
      ∃ named, s.eventJournal.Appends s'.eventJournal named := by
  induction saved generalizing s with
  | nil =>
    cases h
    refine ⟨?_, hsorted, rfl, rfl, rfl, [], .refl _⟩
    rw [map_nil, append_nil]
  | cons head saved ih =>
    unfold restoreTabs at h
    rw [foldlM_cons] at h
    obtain ⟨restored, hrestore, h⟩ := bind_eq_some_iff.mp h
    obtain ⟨tab, hnode, htabs, hactive, hnext, hcontrol, hjournal⟩ :=
      restoreTab_eq_some hrestore
    have hmid : restored.tabs.Pairwise fun a b => a.index ≤ b.index := by
      rw [htabs]
      exact sortByIndex_pairwise _
    obtain ⟨hperm, hend, hactive', hnext', hcontrol', named, hjournal'⟩ := ih h hmid
    refine ⟨?_, hend, hactive'.trans hactive, hnext'.trans hnext, hcontrol'.trans hcontrol, _,
      hjournal.trans hjournal'⟩
    refine hperm.trans ?_
    have hadded := (sortByIndex_perm (s.tabs ++ [tab])).map TerminalTab.treeNode
    rw [← htabs, map_append, map_singleton, hnode] at hadded
    rw [map_cons, append_cons]
    exact hadded.append_right _

lemma le_foldl_max {l : List Nat} {x init : Nat} (h : x ∈ l ∨ x ≤ init) :
    x ≤ l.foldl max init := by
  induction l generalizing init with
  | nil => simpa using h
  | cons a l ih =>
    rw [foldl_cons]
    apply ih
    rcases h with hmem | hle
    · rcases mem_cons.mp hmem with rfl | hmem
      · exact .inr (Nat.le_max_right _ _)
      · exact .inl hmem
    · exact .inr (Nat.le_trans hle (Nat.le_max_left _ _))

lemma foldl_max_lt {l : List Nat} {init bound : Nat} (hinit : init < bound)
    (h : ∀ x ∈ l, x < bound) : l.foldl max init < bound := by
  induction l generalizing init with
  | nil => exact hinit
  | cons a l ih =>
    rw [foldl_cons]
    refine ih ?_ fun x hx => h x (mem_cons_of_mem _ hx)
    have := h a mem_cons_self
    omega

/-- The id counter of a start is above all restored ids. -/
lemma unrestored_nextId {w : SavedWorkspace} (hw : w.Forest) (epoch : String) :
    (unrestored epoch w).nextId ≤ u64Max ∧
      ∀ tab ∈ w.tabs, tab.id < (unrestored epoch w).nextId := by
  refine ⟨saturatingAdd_le _ _, fun tab htab => ?_⟩
  have hle : tab.id ≤ (w.tabs.map SavedTab.id).foldl max 0 :=
    le_foldl_max (.inl (mem_map_of_mem htab))
  have hlt : (w.tabs.map SavedTab.id).foldl max 0 < u64Max := by
    refine foldl_max_lt (by decide) fun x hx => ?_
    obtain ⟨saved, hsaved, rfl⟩ := mem_map.mp hx
    exact hw.ids_lt saved hsaved
  have hnext : (unrestored epoch w).nextId = (w.tabs.map SavedTab.id).foldl max 0 + 1 :=
    saturatingAdd_of_le (by omega)
  omega

lemma settleActive_live {id : Nat} (h : s.settleActive.active = some id) :
    s.settleActive.Live id := by
  unfold settleActive at h ⊢
  split
  · rename_i hdead
    rw [if_pos hdead] at h
    obtain ⟨tab, hhead, rfl⟩ := map_eq_some_iff.mp h
    exact mem_map_of_mem (mem_of_head? hhead)
  · rename_i hlive
    rw [if_neg hlive] at h
    rw [h, all_some] at hlive
    exact isLive_iff.mp (by simpa using hlive)

lemma settleActive_tabs (s : ServerState) : s.settleActive.tabs = s.tabs ∧
    s.settleActive.nextId = s.nextId ∧ s.settleActive.eventJournal = s.eventJournal ∧
    s.settleActive.controlAuthority = s.controlAuthority := by
  unfold settleActive
  split <;> exact ⟨rfl, rfl, rfl, rfl⟩

/-- The workspace a start restores. -/
lemma restored_forest (startEmpty : Bool) {file : Option SavedWorkspace}
    (hfile : ∀ w, file = some w → w.Forest) :
    (if startEmpty then emptyWorkspace else (loadWorkspace file).getD defaultWorkspace).Forest ∧
      (startEmpty = false →
        (if startEmpty then emptyWorkspace
          else (loadWorkspace file).getD defaultWorkspace).tabs ≠ []) := by
  cases startEmpty with
  | true => exact ⟨emptyWorkspace_forest, by simp⟩
  | false =>
    cases hload : loadWorkspace file with
    | none => exact ⟨defaultWorkspace_forest, fun _ => by decide⟩
    | some w =>
      obtain ⟨hw, hcheck⟩ := filter_eq_some_iff.mp hload
      simp only [Bool.and_eq_true, decide_eq_true_eq, Bool.not_eq_eq_eq_not, Bool.not_true,
        isEmpty_eq_false_iff] at hcheck
      exact ⟨hfile w hw, fun _ => hcheck.2⟩

/-- A start from such a file gives a forest, a journal that records its events, and a new control
authority. -/
theorem new_forest {file : Option SavedWorkspace} (hfile : ∀ w, file = some w → w.Forest)
    (h : ServerState.new startEmpty file epoch spawn spawnFirst = some s) :
    s.Forest ∧ (∃ committed, s.eventJournal.Records committed) ∧
      s.controlAuthority = .default := by
  unfold ServerState.new at h
  obtain ⟨hw, hnonempty⟩ := restored_forest startEmpty hfile
  generalize (if startEmpty then emptyWorkspace
    else (loadWorkspace file).getD defaultWorkspace) = w at h hw hnonempty
  obtain ⟨restored, hrestore, h⟩ := bind_eq_some_iff.mp h
  obtain ⟨hperm, hsorted, -, hnext, hcontrol, named, hjournal⟩ :=
    restoreTabs_eq_some hrestore List.Pairwise.nil
  have hnodes : restored.tabs.map TerminalTab.treeNode = w.tabs.map SavedTab.treeNode := by
    refine eq_of_perm_of_increasing hperm hw.tree.sorted ?_
    rw [pairwise_map]
    exact hsorted
  split at h
  · -- the file had tabs, so the restored server has
    rename_i hempty
    simp only [Bool.and_eq_true, List.isEmpty_iff, Bool.not_eq_eq_eq_not, Bool.not_true] at hempty
    rw [hempty.1, List.map_nil] at hnodes
    exact absurd (List.map_eq_nil_iff.mp hnodes.symm) (hnonempty hempty.2)
  · cases h
    obtain ⟨htabs, hnextId, hevents, hsettled⟩ := settleActive_tabs restored
    obtain ⟨hle, hids⟩ := unrestored_nextId hw epoch
    refine ⟨⟨?_, ?_, fun id => settleActive_live, ?_⟩, ?_, hsettled.trans hcontrol⟩
    · rw [htabs, hnodes]
      exact hw.tree
    · intro id hlive
      rw [hnextId, hnext]
      have hmem : id ∈ (restored.tabs.map TerminalTab.treeNode).map TabTreeNode.id := by
        rw [map_id_treeNode, ← htabs]
        exact hlive
      rw [hnodes, map_map] at hmem
      obtain ⟨saved, hsaved, rfl⟩ := mem_map.mp hmem
      exact hids saved hsaved
    · rw [hnextId, hnext]
      exact hle
    · rw [hevents]
      obtain ⟨events, -, hrec⟩ := hjournal.records []
        (EventJournal.records_withEpoch epoch defaultEventCapacity)
      exact ⟨_, hrec⟩

end ServerState

/-! ## Runs -/

namespace Machine

/-- The server is a forest with a sound journal, and so is what it has written. -/
structure Sound (m : Machine) : Prop where
  server : m.server.Forest
  file : ∀ w, m.file = some w → w.Forest
  journal : ∃ committed, m.server.eventJournal.Records committed

/-- Tabs are created only while the id counter is below its maximum. -/
def FreshId (m : Machine) : MachineOp → Prop
  | .serve op => m.server.FreshId op
  | _ => True

theorem start_sound (h : start startEmpty epoch spawn spawnFirst = some m) : m.Sound := by
  obtain ⟨server, hnew, hm⟩ := bind_eq_some_iff.mp h
  cases hm
  obtain ⟨hforest, hjournal, -⟩ := ServerState.new_forest (by simp) hnew
  exact ⟨hforest, by simp, hjournal⟩

lemma journal_of_effect {s s' : ServerState} (e : s.Effect op s')
    (h : ∃ committed, s.eventJournal.Records committed) :
    ∃ committed, s'.eventJournal.Records committed := by
  obtain ⟨committed, hrec⟩ := h
  obtain ⟨named, hjournal⟩ : ∃ named, s.eventJournal.Appends s'.eventJournal named := by
    cases e with
    | edited named e => exact ⟨named, e.journal⟩
    | polled inputs _ named e => exact ⟨named, e.journal⟩
    | created named tab e => exact ⟨named, e.journal⟩
    | reparented child parentId e => exact ⟨_, e.journal⟩
    | closed closing shutdown _ e => exact ⟨_, e.journal⟩
  obtain ⟨events, -, hrec'⟩ := hjournal.records committed hrec
  exact ⟨_, hrec'⟩

/-- **One step of the machine.** -/
theorem step_sound {op : MachineOp} (h : m.Sound) (hfresh : m.FreshId op)
    (hstep : m.step op = some m') : m'.Sound := by
  cases op with
  | serve op =>
    obtain ⟨server, hserve, hm⟩ := bind_eq_some_iff.mp hstep
    cases hm
    have e := ServerState.step_effect hfresh hserve
    exact ⟨e.forest h.server, h.file, journal_of_effect e h.journal⟩
  | persistWorkspace =>
    obtain ⟨server, hcommit, hm⟩ := bind_eq_some_iff.mp hstep
    cases hm
    have e : m.server.Effect (.commitEvent .workspaceSaved (.object [])) server :=
      ServerState.step_effect trivial hcommit
    refine ⟨e.forest h.server, ?_, journal_of_effect e h.journal⟩
    intro w hw
    exact some.inj hw ▸ h.server.savedWorkspace
  | restart startEmpty epoch spawn spawnFirst =>
    obtain ⟨server, hnew, hm⟩ := bind_eq_some_iff.mp hstep
    cases hm
    obtain ⟨hforest, hjournal, -⟩ := ServerState.new_forest h.file hnew
    exact ⟨hforest, h.file, hjournal⟩

/-- **Every run.** -/
theorem run_sound {ops : List MachineOp} (h : m.Sound) (hfresh : Along step FreshId m ops)
    (hrun : exec step m ops = some m') : m'.Sound :=
  exec_invariant_along (fun _ _ _ h hok hstep => step_sound h hok hstep) h hfresh hrun

/-- **The tab forest.** In every state reached from a first start by any operations, saves and
restarts, with tabs created below the maximum of the id counter: ids are distinct and below the
counter, indices are distinct, parents are live, no tab is its own ancestor, and the active tab
is live. -/
theorem tab_forest_invariant {startEmpty : Bool} {epoch : String}
    {spawn : SavedTab → Except String Spawned} {spawnFirst : Except String Spawned}
    {m m' : Machine} {ops : List MachineOp}
    (hstart : start startEmpty epoch spawn spawnFirst = some m)
    (hfresh : Along step FreshId m ops) (hrun : exec step m ops = some m') :
    (m'.server.tabs.map TerminalTab.id).Nodup ∧
      (∀ tab ∈ m'.server.tabs, tab.id < m'.server.nextId) ∧
      (m'.server.tabs.map TerminalTab.index).Nodup ∧
      (∀ tab ∈ m'.server.tabs, ∀ p, tab.parentId = some p →
        ∃ parent ∈ m'.server.tabs, parent.id = p) ∧
      (∀ tab ∈ m'.server.tabs,
        ¬ Relation.TransGen (ParentLink (m'.server.tabs.map TerminalTab.treeNode))
          tab.id tab.id) ∧
      (m'.server.active = none ∨
        ∃ tab ∈ m'.server.tabs, m'.server.active = some tab.id) := by
  have h := (run_sound (start_sound hstart) hfresh hrun).server
  refine ⟨h.ids_nodup, ?_, h.indices_nodup, ?_, ?_, ?_⟩
  · intro tab htab
    exact h.ids_lt tab.id (ServerState.live_of_mem htab)
  · intro tab htab p hp
    exact mem_map.mp (h.parents htab hp)
  · intro tab _
    exact h.tree.acyclic tab.id
  · cases hactive : m'.server.active with
    | none => exact .inl rfl
    | some id =>
      obtain ⟨tab, htab, rfl⟩ := mem_map.mp (h.active_live id hactive)
      exact .inr ⟨tab, htab, rfl⟩

/-! ## The id counter at its maximum -/

def plainScreen : Screen :=
  { title := "", rows := 1, columns := 1, cells := [], alternateScreen := false,
    applicationCursor := false, bracketedPaste := false, mouseProtocolMode := .none,
    mouseProtocolEncoding := .default, scrollback := 0, maxScrollback := 0, cursorRow := 0,
    cursorColumn := 0, hideCursor := false }

/-- A shell that starts. -/
def plainShell : Spawned :=
  { program := "sh"
    commandName := "sh"
    processId := some 7
    shellKind := .bash
    cwd := { path := none, confirmedPath := none, source := .unknown, pending := false }
    proxy := { http := none, https := none, source := .off, applicationState := .off }
    proxyRedactionNeedles := []
    screen := plainScreen }

/-- The creation of a tab at the top, with this outcome of the start of its process. -/
def create (spawn : Except String Spawned) : MachineOp :=
  .serve (.createTab none [] false none spawn)

/-- The first start of the examples. -/
def plainStart : Option Machine :=
  start false "e" (fun _ => .ok plainShell) (.ok plainShell)

/-- The machine it gives. -/
def plainMachine : Machine := plainStart.get rfl

theorem tab_forest_invariant_two_tabs :
    ∃ m m', plainStart = some m ∧ Along step FreshId m [create (.ok plainShell)] ∧
      exec step m [create (.ok plainShell)] = some m' ∧
      m'.server.tabs.map TerminalTab.id = [1, 2] ∧
      (m'.server.tabs.map TerminalTab.id).Nodup := by
  have hstart : plainStart = some _ := rfl
  have hfresh : Along step FreshId _ [create (.ok plainShell)] :=
    ⟨show plainMachine.server.nextId < u64Max by decide, fun _ _ => trivial⟩
  have hrun : exec step plainMachine [create (.ok plainShell)] = some _ := rfl
  exact ⟨_, _, hstart, hfresh, hrun, rfl, (tab_forest_invariant hstart hfresh hrun).1⟩

/-- Creations that fail use up ids: after `n` of them the counter has moved on by `n`. -/
lemma exec_failed_creates (n : Nat) (m : Machine)
    (hparents : leastFreeIndex m.server.tabs ≤ u32Max) (hn : m.server.nextId + n ≤ u64Max) :
    exec step m (List.replicate n (create (.error "spawn failed"))) =
      some { m with server := { m.server with nextId := m.server.nextId + n } } := by
  induction n generalizing m with
  | zero => rfl
  | succ n ih =>
    have hstep : m.step (create (.error "spawn failed")) =
        some { m with server := { m.server with nextId := m.server.nextId + 1 } } := by
      have hsat := saturatingAdd_of_le (show m.server.nextId + 1 ≤ u64Max by omega)
      simp only [step, create, ServerState.step, ServerState.createTab, any_none,
        Bool.false_eq_true, if_false, if_pos hparents, hsat, map_some, bind_eq_bind,
        bind_some]
    rw [replicate_succ, exec_cons, hstep, bind_some, ih]
    · simp only [Nat.add_assoc, Nat.add_comm 1 n]
    · exact hparents
    · simp only
      omega

/-- The server after a first start and so many creations that fail. -/
def saturatedMachine : Machine :=
  { server := { plainMachine.server with nextId := u64Max }, file := none }

/-- At its maximum the counter stays, and the tabs created from then on share one id, which is
not below the counter. -/
theorem saturated_ids_repeat :
    ∃ m ops m', plainStart = some m ∧ exec step m ops = some m' ∧
      ¬ (m'.server.tabs.map TerminalTab.id).Nodup ∧
      ¬ ∀ tab ∈ m'.server.tabs, tab.id < m'.server.nextId := by
  have hfailed : exec step plainMachine
      (List.replicate (u64Max - 2) (create (.error "spawn failed"))) = some saturatedMachine :=
    exec_failed_creates (u64Max - 2) plainMachine (by decide) (by decide)
  have hcreate : exec step saturatedMachine
      [create (.ok plainShell), create (.ok plainShell)] = some _ := rfl
  have hrun : exec step plainMachine
      (List.replicate (u64Max - 2) (create (.error "spawn failed")) ++
        [create (.ok plainShell), create (.ok plainShell)]) =
      exec step saturatedMachine [create (.ok plainShell), create (.ok plainShell)] := by
    rw [exec_append, hfailed, bind_some]
  exact ⟨_, _, _, rfl, hrun.trans hcreate, by decide, by decide⟩

end Machine

end Agenterm
