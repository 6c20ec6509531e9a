import Agenterm.Server.ForestTheorems

/-!
# What the events of a step tell about it

A reader of the journal sees which tabs the events of a step name, not what the step did.
`Evolves s s' named` says what it may conclude: a tab that no event names keeps its index, its
name and its parent, except that a parent which was closed is replaced silently; ids and indices
are never reused for another living tab. `Effect.evolves` proves it of every effect.
-/

namespace Agenterm

open List

variable {named : List (Option Nat)} {tab tab' : TerminalTab}

namespace ServerState

structure Evolves (s s' : ServerState) (named : List (Option Nat)) : Prop where
  nextId_le : s.nextId ≤ s'.nextId
  names : ∀ k, some k ∈ named → s.Live k ∨ s'.Live k
  /-- Unnamed tabs keep what they show, up to a parent that is gone. -/
  kept : ∀ tab' ∈ s'.tabs, some tab'.id ∉ named → ∃ tab ∈ s.tabs, tab.id = tab'.id ∧
    tab.title = tab'.title ∧ (tab.parentId = tab'.parentId ∨
      ∃ p, tab.parentId = some p ∧ s.Live p ∧ ¬ s'.Live p)
  stays : ∀ k, s.Live k → some k ∉ named → s'.Live k
  dead : ∀ k, k < s.nextId → ¬ s.Live k → ¬ s'.Live k
  index : ∀ tab ∈ s.tabs, ∀ tab' ∈ s'.tabs, tab.id = tab'.id → tab.index = tab'.index
  /-- No step both closes and creates. -/
  one_way : (∀ k, s'.Live k → s.Live k) ∨ ∀ k, s.Live k → s'.Live k

variable {s s' : ServerState}

/-- With distinct ids, a tab is determined by its id. -/
lemma Forest.eq_of_id (h : s.Forest) (htab : tab ∈ s.tabs) (htab' : tab' ∈ s.tabs)
    (hid : tab.id = tab'.id) : tab = tab' :=
  inj_on_of_nodup_map h.ids_nodup htab htab' hid

lemma Forest.eq_of_index (h : s.Forest) (htab : tab ∈ s.tabs) (htab' : tab' ∈ s.tabs)
    (hindex : tab.index = tab'.index) : tab = tab' :=
  inj_on_of_nodup_map h.indices_nodup htab htab' hindex

theorem Edited.evolves (h : s.Forest) (e : Edited s s' named) : Evolves s s' named := by
  have hlive := e.live_iff
  refine ⟨?_, fun k hk => .inl (e.names k hk), ?_, fun k hk _ => (hlive k).mpr hk,
    fun k _ hk => fun hk' => hk ((hlive k).mp hk'), ?_, .inl fun k => (hlive k).mp⟩
  · have hle := h.nextId_le
    rcases e.nextId with heq | heq
    · exact Nat.le_of_eq heq.symm
    · rw [heq]
      unfold saturatingAdd
      omega
  · intro tab' htab' hnot
    obtain ⟨tab, htab, hnode, htitle⟩ := e.tabs.exists_old htab'
    have hid : tab'.id = tab.id := congrArg TabTreeNode.id hnode
    have hparent : tab'.parentId = tab.parentId := congrArg TabTreeNode.parentId hnode
    exact ⟨tab, htab, hid.symm, (htitle (hid ▸ hnot)).symm, .inl hparent.symm⟩
  · intro tab htab tab' htab' hid
    obtain ⟨old, hold, hnode, -⟩ := e.tabs.exists_old htab'
    have hid' : tab'.id = old.id := congrArg TabTreeNode.id hnode
    have hindex : tab'.index = old.index := congrArg TabTreeNode.sortKey hnode
    rw [hindex, h.eq_of_id htab hold (hid.trans hid')]

theorem Created.evolves (h : s.Forest) (e : Created s s' named tab) : Evolves s s' named := by
  have hlive := e.live_iff
  have hmem : ∀ t, t ∈ s'.tabs ↔ t ∈ s.tabs ∨ t = tab := by
    intro t
    rw [e.tabs, (sortByIndex_perm _).mem_iff, mem_append, mem_singleton]
  refine ⟨?_, ?_, ?_, fun k hk _ => (hlive k).mpr (.inl hk), ?_, ?_,
    .inr fun k hk => (hlive k).mpr (.inl hk)⟩
  · have := e.fresh
    rw [e.nextId, saturatingAdd_of_le (by omega)]
    omega
  · intro k hk
    rcases e.names k hk with rfl | hold
    · exact .inr ((hlive _).mpr (.inr rfl))
    · exact .inl hold
  · intro tab' htab' hnot
    rcases (hmem tab').mp htab' with hold | rfl
    · exact ⟨tab', hold, rfl, rfl, .inl rfl⟩
    · exact absurd e.named_self hnot
  · intro k hk hdead hk'
    rcases (hlive k).mp hk' with hold | rfl
    · exact hdead hold
    · rw [e.id_eq] at hk
      exact Nat.lt_irrefl _ hk
  · intro old hold tab' htab' hid
    rcases (hmem tab').mp htab' with hmem' | rfl
    · rw [h.eq_of_id hold hmem' hid]
    · have hlt := h.ids_lt old.id (live_of_mem hold)
      rw [hid, e.id_eq] at hlt
      exact absurd hlt (Nat.lt_irrefl _)

theorem Reparented.evolves {child : TerminalTab} {parentId : Option Nat} (h : s.Forest)
    (e : Reparented s s' child parentId) : Evolves s s' [some child.id] := by
  have hlive := e.live_iff
  have hold : ∀ tab' ∈ s'.tabs, ∃ tab ∈ s.tabs,
      tab' = if tab.id = child.id then tab.setParent parentId else tab := by
    intro tab' htab'
    rw [e.tabs_eq h] at htab'
    obtain ⟨tab, htab, rfl⟩ := mem_map.mp htab'
    exact ⟨tab, htab, rfl⟩
  have hchild : s.Live child.id := live_of_mem (mem_of_find?_eq_some e.found)
  refine ⟨Nat.le_of_eq e.nextId.symm, ?_, ?_, fun k hk _ => (hlive k).mpr hk,
    fun k _ hk => fun hk' => hk ((hlive k).mp hk'), ?_, .inl fun k => (hlive k).mp⟩
  · intro k hk
    rw [Option.some.inj (mem_singleton.mp hk)]
    exact .inl hchild
  · intro tab' htab' hnot
    obtain ⟨tab, htab, rfl⟩ := hold tab' htab'
    by_cases hid : tab.id = child.id
    · rw [if_pos hid] at hnot
      exact absurd (mem_singleton.mpr (congrArg some hid)) hnot
    · rw [if_neg hid]
      exact ⟨tab, htab, rfl, rfl, .inl rfl⟩
  · intro tab htab tab' htab' hid
    obtain ⟨old, hmem, rfl⟩ := hold tab' htab'
    have hkeep : (if old.id = child.id then old.setParent parentId else old).id = old.id ∧
        (if old.id = child.id then old.setParent parentId else old).index = old.index := by
      split <;> exact ⟨rfl, rfl⟩
    rw [hkeep.1] at hid
    rw [hkeep.2, h.eq_of_id htab hmem hid]

theorem Closed.evolves {closing : TerminalTab} (h : s.Forest) (e : Closed s s' closing) :
    Evolves s s' [some closing.id] := by
  have hlive := e.live_iff h
  have hold : ∀ tab' ∈ s'.tabs, ∃ tab ∈ s.tabs,
      tab' = tab.promote closing.id closing.parentId := by
    intro tab' htab'
    rw [e.tabs_eq h] at htab'
    obtain ⟨tab, htab, rfl⟩ := mem_map.mp htab'
    exact ⟨tab, (mem_filter.mp htab).1, rfl⟩
  refine ⟨Nat.le_of_eq e.nextId.symm, ?_, ?_, ?_, ?_, ?_, .inl fun k hk => ((hlive k).mp hk).1⟩
  · intro k hk
    rw [Option.some.inj (mem_singleton.mp hk)]
    exact .inl (live_of_mem e.closing_mem)
  · intro tab' htab' _
    obtain ⟨tab, htab, rfl⟩ := hold tab' htab'
    refine ⟨tab, htab, (tab.promote_id _ _).symm, (tab.promote_title _ _).symm, ?_⟩
    -- a child of the closed tab has moved up although no event names it
    by_cases hchild : tab.parentId = some closing.id
    · exact .inr ⟨closing.id, hchild, live_of_mem e.closing_mem,
        fun hk => ((hlive _).mp hk).2 rfl⟩
    · refine .inl ?_
      rw [TerminalTab.promote, if_neg hchild]
  · intro k hk hnot
    refine (hlive k).mpr ⟨hk, ?_⟩
    rintro rfl
    exact hnot (mem_singleton.mpr rfl)
  · intro k _ hk hk'
    exact hk ((hlive k).mp hk').1
  · intro tab htab tab' htab' hid
    obtain ⟨old, hmem, rfl⟩ := hold tab' htab'
    rw [TerminalTab.promote_id] at hid
    rw [TerminalTab.promote_index, h.eq_of_id htab hmem hid]

/-- **The events of a step.** Every effect commits events that name the tabs it changed, except
for the children of a tab that was closed. -/
theorem Effect.evolves {op : ServerOp} (h : s.Forest) (e : Effect s op s') :
    ∃ named, s.eventJournal.Appends s'.eventJournal named ∧ Evolves s s' named := by
  cases e with
  | edited named e => exact ⟨named, e.journal, e.toEdited.evolves h⟩
  | polled inputs _ named e => exact ⟨named, e.journal, e.evolves h⟩
  | created named tab e => exact ⟨named, e.journal, e.evolves h⟩
  | reparented child parentId e => exact ⟨_, e.journal, e.evolves h⟩
  | closed closing shutdown _ e => exact ⟨_, e.journal, e.evolves h⟩

end ServerState

end Agenterm
