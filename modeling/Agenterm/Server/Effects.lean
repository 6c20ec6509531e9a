import Agenterm.Journal.EventJournalTheorems
import Agenterm.Server.Workspace

/-!
# What an operation of the server can do

`Effect s op s'` says once what the operation `op` can do to the tabs and to the control
authority: it edits tabs in place, or polls them, or creates one, or gives one a new parent, or
closes one. `ServerState.step_effect` proves it of every operation; the invariants of the tab
tree, of the clients' copies of it and of the pending submissions are read off `Effect`.
-/

namespace Agenterm

open List Lib
open Option hiding map_map

/-! ## Terminals keep their place in the tree -/

variable {id now position tabId : Nat} {kind : EventKind} {parentId : Option Nat} {payload : Value}
  {result : Except String Unit} {select : Bool} {tab tab' : TerminalTab}
  {writeError : Option String}

variable {f : TerminalTab → TerminalTab} {input : PollInput} {p : TerminalTab → Bool}
  {path : String} {response : IpcResponse} {screen : Screen} {s₀ : ServerState}

namespace TerminalTab

/-- The place of a tab in the tree, and its name. -/
def face (tab : TerminalTab) : TabTreeNode × String := (tab.treeNode, tab.title)

@[simp] theorem send_face (tab : TerminalTab) (bytes : List UInt8) (error : Option String) :
    (tab.send bytes error).2.face = tab.face := by
  unfold send
  split
  · rfl
  · cases error <;> rfl

@[simp] theorem submit_face (tab : TerminalTab) (text : String) (now : Nat)
    (error : Option String) : (tab.submit text now error).2.face = tab.face := by
  unfold submit
  split
  · rfl
  · have hsend := tab.send_face text.toUTF8.toList error
    generalize tab.send text.toUTF8.toList error = result at hsend ⊢
    rcases result with ⟨written, sent⟩
    cases written <;> exact hsend

@[simp] theorem submitSensitive_face (tab : TerminalTab) (now : Nat) (error : Option String) :
    (tab.submitSensitive now error).2.face = tab.face := by
  unfold submitSensitive
  split
  · rfl
  · cases error <;> rfl

@[simp] theorem redactProxyOutput_face (tab : TerminalTab) (bytes : List UInt8) (flush : Bool) :
    (tab.redactProxyOutput bytes flush).2.face = tab.face := rfl

@[simp] theorem observeProxyConfirmation_face (tab : TerminalTab) (bytes : List UInt8) :
    (tab.observeProxyConfirmation bytes).face = tab.face := by
  unfold observeProxyConfirmation
  split
  · rfl
  · dsimp only
    split <;> rfl

@[simp] theorem finishOutputStream_face (tab : TerminalTab) :
    tab.finishOutputStream.face = tab.face := by
  unfold finishOutputStream
  split <;> rfl

@[simp] theorem receive_face (tab : TerminalTab) (event : PtyEvent) :
    (tab.receive event).face = tab.face := by
  cases event with
  | output bytes osc7 =>
    rw [receive]
    split
    · rfl
    · exact (observeProxyConfirmation_face _ _).trans (tab.redactProxyOutput_face bytes false)
  | readerClosed => exact tab.finishOutputStream_face
  | readerError error => exact tab.finishOutputStream_face
  | exited code => rfl
  | processError error => rfl

@[simp] theorem finishSubmission_face (tab : TerminalTab) (now : Nat) (error : Option String) :
    (tab.finishSubmission now error).face = tab.face := by
  unfold finishSubmission
  split
  · rfl
  · exact send_face _ _ _

@[simp] theorem expireProxyConfirmation_face (tab : TerminalTab) (now : Nat) :
    (tab.expireProxyConfirmation now).face = tab.face := by
  unfold expireProxyConfirmation
  split <;> rfl

/-- A poll keeps the place of the tab and its name. -/
theorem poll_face (tab : TerminalTab) (input : PollInput) : (tab.poll input).face = tab.face := by
  have hfold : ∀ (events : List PtyEvent) (tab : TerminalTab),
      (events.foldl receive tab).face = tab.face := by
    intro events
    induction events with
    | nil => intro _; rfl
    | cons event events ih => intro tab; exact (ih _).trans (tab.receive_face event)
  unfold poll
  rw [expireProxyConfirmation_face, finishSubmission_face]
  exact hfold input.events tab

theorem pollRound_face (tab : TerminalTab) (input : PollInput) :
    (tab.pollRound input).tab.face = tab.face := by
  unfold pollRound
  dsimp only
  split <;> exact tab.poll_face input

/-- The events of a poll name the tab that was polled. -/
theorem pollRound_events {event : EventKind × Nat × Value}
    (h : event ∈ (tab.pollRound input).events) : event.2.1 = tab.id := by
  have hone : ∀ (p : Prop) [Decidable p] (x : EventKind × Nat × Value), x.2.1 = tab.id →
      event ∈ (if p then [x] else []) → event.2.1 = tab.id := by
    intro p _ x hx hmem
    split at hmem
    · rw [mem_singleton.mp hmem, hx]
    · exact absurd hmem not_mem_nil
  have hrest : ∀ (cwd cwd' : CwdTracker) (facts facts' : ProxyFacts),
      event ∈ cwdEvents tab.id cwd cwd' ++ proxyEvents tab.id facts facts' →
      event.2.1 = tab.id := by
    intro cwd cwd' facts facts' hmem
    rcases mem_append.mp hmem with hmem | hmem
    · exact hone _ _ rfl hmem
    · exact hone _ _ rfl hmem
  unfold pollRound at h
  dsimp only at h
  split at h
  · rcases mem_append.mp h with h | h
    · rcases mem_append.mp h with h | h
      · exact hone _ _ rfl h
      · exact hone _ _ rfl h
    · exact hrest _ _ _ _ h
  · rcases mem_cons.mp h with rfl | h
    · rfl
    · exact hrest _ _ _ _ h

theorem pollRound_completed {c : Nat × Bool × Bool} (h : (tab.pollRound input).completed = some c) :
    c.1 = tab.id := by
  unfold pollRound at h
  dsimp only at h
  split at h
  · dsimp only at h
    split at h
    · rw [← some.inj h]
    · exact absurd h (by simp)
  · exact absurd h (by simp)

end TerminalTab

/-! ## Only a poll ends a submission -/

namespace TerminalTab

@[simp] theorem send_submission (tab : TerminalTab) (bytes : List UInt8)
    (error : Option String) : (tab.send bytes error).2.submission = tab.submission := by
  unfold send
  split
  · rfl
  · cases error <;> rfl

theorem submit_of_pending (h : tab.submission.isPending = true) (text : String) (now : Nat)
    (error : Option String) : tab.submit text now error = (false, tab) := by
  unfold submit
  rw [if_pos h]

theorem submit_keeps (tab : TerminalTab) (text : String) (now : Nat) (error : Option String)
    (h : tab.submission.isPending = true) :
    (tab.submit text now error).2.submission.isPending = true := by
  rw [submit_of_pending h]
  exact h

theorem submitSensitive_of_pending (h : tab.submission.isPending = true) (now : Nat)
    (error : Option String) : tab.submitSensitive now error = (false, tab) := by
  unfold submitSensitive
  rw [h]
  rfl

theorem submitSensitive_keeps (tab : TerminalTab) (now : Nat) (error : Option String)
    (h : tab.submission.isPending = true) :
    (tab.submitSensitive now error).2.submission.isPending = true := by
  rw [submitSensitive_of_pending h]
  exact h

end TerminalTab

/-! ## Edits in place -/

/-- The tabs keep their places in the tree; only the tabs in `named` may change their name. -/
def SameTree (named : List (Option Nat)) : List TerminalTab → List TerminalTab → Prop :=
  List.Forall₂ fun tab tab' =>
    tab'.treeNode = tab.treeNode ∧ (some tab.id ∉ named → tab'.title = tab.title)

namespace SameTree
variable {named : List (Option Nat)} {tabs tabs' tabs'' : List TerminalTab}

theorem refl (named : List (Option Nat)) (tabs : List TerminalTab) : SameTree named tabs tabs :=
  forall₂_same.mpr fun _ _ => ⟨rfl, fun _ => rfl⟩

theorem trans (h : SameTree named tabs tabs') (h' : SameTree named tabs' tabs'') :
    SameTree named tabs tabs'' := by
  induction h generalizing tabs'' with
  | nil => exact h'
  | cons hhead _ ih =>
    rcases h' with _ | ⟨hhead', htail'⟩
    refine List.Forall₂.cons ⟨hhead'.1.trans hhead.1, fun hnot => ?_⟩ (ih htail')
    have hid : ∀ {a b : TerminalTab}, b.treeNode = a.treeNode → b.id = a.id :=
      fun h => congrArg TabTreeNode.id h
    exact (hhead'.2 (by rwa [hid hhead.1])).trans (hhead.2 hnot)

/-- Replacing one tab by one with the same place. -/
theorem set (hget : tabs[position]? = some tab) (hnode : tab'.treeNode = tab.treeNode)
    (htitle : some tab.id ∉ named → tab'.title = tab.title) :
    SameTree named tabs (tabs.set position tab') := by
  induction tabs generalizing position with
  | nil => exact absurd hget (by simp)
  | cons head tabs ih =>
    cases position with
    | zero =>
      rw [List.getElem?_cons_zero, some.injEq] at hget
      subst hget
      exact List.Forall₂.cons ⟨hnode, htitle⟩ (refl named tabs)
    | succ position =>
      rw [List.getElem?_cons_succ] at hget
      exact List.Forall₂.cons ⟨rfl, fun _ => rfl⟩ (ih hget)

theorem set_face (hget : tabs[position]? = some tab) (hface : tab'.face = tab.face) :
    SameTree named tabs (tabs.set position tab') :=
  set hget (congrArg Prod.fst hface) fun _ => congrArg Prod.snd hface

theorem updateFirst (hface : ∀ tab, (f tab).face = tab.face) (tabs : List TerminalTab) :
    SameTree named tabs (updateFirst p f tabs) := by
  induction tabs with
  | nil => exact List.Forall₂.nil
  | cons tab tabs ih =>
    unfold Lib.updateFirst
    split
    · exact List.Forall₂.cons
        ⟨congrArg Prod.fst (hface tab), fun _ => congrArg Prod.snd (hface tab)⟩ (refl named tabs)
    · exact List.Forall₂.cons ⟨rfl, fun _ => rfl⟩ ih

theorem pollTabs (inputs : Nat → PollInput) (tabs : List TerminalTab) :
    SameTree named tabs ((Agenterm.pollTabs inputs tabs).map PolledTab.tab) := by
  induction tabs generalizing inputs with
  | nil => exact List.Forall₂.nil
  | cons tab tabs ih =>
    have hface := tab.pollRound_face (inputs 0)
    exact List.Forall₂.cons ⟨congrArg Prod.fst hface, fun _ => congrArg Prod.snd hface⟩ (ih _)

theorem mono {named' : List (Option Nat)} (h : SameTree named tabs tabs')
    (hsub : ∀ id, some id ∈ named → some id ∈ named') : SameTree named' tabs tabs' :=
  h.imp fun tab _ hkept => ⟨hkept.1, fun hnot => hkept.2 fun hmem => hnot (hsub tab.id hmem)⟩

theorem treeNodes (h : SameTree named tabs tabs') :
    tabs'.map TerminalTab.treeNode = tabs.map TerminalTab.treeNode :=
  map_eq_of_forall₂ h fun _ _ hkept => hkept.1

theorem ids (h : SameTree named tabs tabs') :
    tabs'.map TerminalTab.id = tabs.map TerminalTab.id := by
  have hnodes := congrArg (List.map TabTreeNode.id) h.treeNodes
  rwa [map_map, map_map] at hnodes

/-- Every tab comes from one with the same place, and the same name if no event names it. -/
theorem exists_old (h : SameTree named tabs tabs') (hmem : tab' ∈ tabs') :
    ∃ tab ∈ tabs, tab'.treeNode = tab.treeNode ∧
      (some tab.id ∉ named → tab'.title = tab.title) :=
  exists_left_of_forall₂ h hmem

end SameTree

/-! ## Effects -/

namespace ServerState

/-- Some tab has this id. -/
def Live (s : ServerState) (id : Nat) : Prop := id ∈ s.tabs.map TerminalTab.id

theorem isLive_iff {s : ServerState} : s.isLive id = true ↔ s.Live id := by
  simp [isLive, Live]

lemma live_of_mem {s : ServerState} (h : tab ∈ s.tabs) : s.Live tab.id :=
  mem_map_of_mem h

lemma live_of_getElem? {s : ServerState} (h : s.tabs[position]? = some tab) : s.Live tab.id :=
  live_of_mem (mem_of_getElem? h)

/-- The tabs are edited in place, and perhaps another one is selected. -/
structure Edited (s s' : ServerState) (named : List (Option Nat)) : Prop where
  journal : s.eventJournal.Appends s'.eventJournal named
  tabs : SameTree named s.tabs s'.tabs
  active : s'.active = s.active ∨ ∃ id, s'.active = some id ∧ s.Live id
  nextId : s'.nextId = s.nextId ∨ s'.nextId = saturatingAdd s.nextId 1
  names : ∀ id, some id ∈ named → s.Live id

/-- Some tab has this id and waits for its Enter. -/
def AwaitsEnter (s : ServerState) (id : Nat) : Prop :=
  ∃ tab ∈ s.tabs, tab.id = id ∧ tab.submission.isPending = true

/-- An edit that leaves the control authority alone and ends no submission. -/
structure Kept (s s' : ServerState) (named : List (Option Nat)) : Prop
    extends Edited s s' named where
  control : s'.controlAuthority = s.controlAuthority
  awaits : ∀ id, s.AwaitsEnter id → s'.AwaitsEnter id

/-- A tab is added under a fresh id, at a free index, below a live tab or at the top. -/
structure Created (s s' : ServerState) (named : List (Option Nat)) (tab : TerminalTab) :
    Prop where
  journal : s.eventJournal.Appends s'.eventJournal named
  fresh : s.nextId < u64Max
  id_eq : tab.id = s.nextId
  index_eq : tab.index = leastFreeIndex s.tabs
  parent : ∀ p, tab.parentId = some p → s.Live p
  tabs : s'.tabs = sortByIndex (s.tabs ++ [tab])
  active : s'.active = s.active ∨ s'.active = some tab.id
  nextId : s'.nextId = saturatingAdd s.nextId 1
  control : s'.controlAuthority = s.controlAuthority
  named_self : some tab.id ∈ named
  names : ∀ id, some id ∈ named → id = tab.id ∨ s.Live id

/-- A live tab gets a parent that is not refused. -/
structure Reparented (s s' : ServerState) (child : TerminalTab) (parentId : Option Nat) :
    Prop where
  journal : s.eventJournal.Appends s'.eventJournal [some child.id]
  found : s.tabs.find? (fun tab => tab.id = child.id) = some child
  allowed : s.parentRefusal child.id parentId = none
  tabs : s'.tabs = updateFirst (fun tab => tab.id = child.id)
    (TerminalTab.setParent parentId) s.tabs
  active : s'.active = s.active
  nextId : s'.nextId = s.nextId
  control : s'.controlAuthority = s.controlAuthority

/-- A tab is closed; only the closed tab is named, not the children it leaves behind. -/
structure Closed (s s' : ServerState) (closing : TerminalTab) : Prop where
  journal : s.eventJournal.Appends s'.eventJournal [some closing.id]
  found : s.tabs.find? (fun tab => tab.id = closing.id) = some closing
  tabs : s'.tabs = tabsAfterClose s.tabs closing.id closing.parentId
    (s.tabs.findIdx fun tab => tab.id = closing.id)
  active : s'.active =
    if s.active = some closing.id then
      neighbourId s'.tabs (s.tabs.findIdx fun tab => tab.id = closing.id)
    else
      s.active
  nextId : s'.nextId = s.nextId
  control : s'.controlAuthority = s.controlAuthority

/-- Everything one operation can do. -/
inductive Effect (s : ServerState) (op : ServerOp) (s' : ServerState) : Prop where
  | edited (named : List (Option Nat)) (h : Kept s s' named)
  | polled (inputs : Nat → PollInput) (hop : op = .pollTerminals inputs)
      (named : List (Option Nat)) (h : Edited s s' named)
  | created (named : List (Option Nat)) (tab : TerminalTab) (h : Created s s' named tab)
  | reparented (child : TerminalTab) (parentId : Option Nat) (h : Reparented s s' child parentId)
  | closed (closing : TerminalTab) (shutdown : TerminalShutdownReceipt)
      (hop : op = .closeTab closing.id shutdown) (h : Closed s s' closing)

/-- A commit changes the journal only. -/
theorem commit_eq_some {s s' : ServerState} {tabId : Option Nat}
    (h : s.commit kind tabId payload = some s') :
    s.eventJournal.Appends s'.eventJournal [tabId] ∧
      s' = { s with eventJournal := s'.eventJournal } := by
  unfold commit at h
  obtain ⟨⟨event, journal⟩, hcommit, hs'⟩ := bind_eq_some_iff.mp h
  cases hs'
  exact ⟨EventJournal.appends_commitCorrelated hcommit, rfl⟩

namespace Edited
variable {s s' s'' : ServerState} {named : List (Option Nat)}

theorem live_iff (h : Edited s s' named) (id : Nat) : s'.Live id ↔ s.Live id := by
  unfold Live
  rw [h.tabs.ids]

theorem updateFirst (h : Edited s s' named) (hface : ∀ tab, (f tab).face = tab.face) :
    Edited s { s' with tabs := updateFirst p f s'.tabs } named where
  journal := h.journal
  tabs := h.tabs.trans (.updateFirst hface s'.tabs)
  active := h.active
  nextId := h.nextId
  names := h.names

/-- A further event that names a live tab or none. -/
theorem commit (h : Edited s s' named) {tabId : Option Nat}
    (hcommit : s'.commit kind tabId payload = some s'')
    (hlive : ∀ id, tabId = some id → s.Live id) : Edited s s'' (named ++ [tabId]) := by
  obtain ⟨hjournal, hrest⟩ := commit_eq_some hcommit
  rw [hrest]
  refine ⟨h.journal.trans hjournal, ?_, h.active, h.nextId, ?_⟩
  · exact h.tabs.mono fun id hmem => mem_append_left _ hmem
  · intro id hmem
    rcases mem_append.mp hmem with hmem | hmem
    · exact h.names id hmem
    · exact hlive id (mem_singleton.mp hmem).symm

end Edited

/-- Replacing one tab keeps the submissions, when the new one keeps that of the old one. -/
lemma AwaitsEnter.setTab {s : ServerState} (hget : s.tabs[position]? = some tab)
    (hid : tab'.id = tab.id)
    (hkeep : tab.submission.isPending = true → tab'.submission.isPending = true)
    (h : s.AwaitsEnter id) : (s.setTab position tab').AwaitsEnter id := by
  obtain ⟨waiting, hmem, rfl, hpending⟩ := h
  obtain ⟨hlt, -⟩ := List.getElem?_eq_some_iff.mp hget
  obtain ⟨i, hi, hwaiting⟩ := getElem_of_mem hmem
  by_cases hsame : position = i
  · subst hsame
    rw [List.getElem?_eq_getElem hlt, hwaiting, some.injEq] at hget
    subst hget
    exact ⟨tab', mem_set hlt tab', hid, hkeep hpending⟩
  · refine ⟨waiting, ?_, rfl, hpending⟩
    have hkept : (s.tabs.set position tab')[i]? = some waiting := by
      rw [List.getElem?_set_ne hsame, List.getElem?_eq_getElem hi, hwaiting]
    exact mem_of_getElem? hkept

namespace Kept
variable {s s' s'' : ServerState} {named : List (Option Nat)}

theorem refl (s : ServerState) : Kept s s [] where
  journal := .refl _
  tabs := .refl _ _
  active := .inl rfl
  nextId := .inl rfl
  names _ hmem := absurd hmem not_mem_nil
  control := rfl
  awaits _ h := h

/-- The edit of one tab that keeps its place and its name. -/
theorem setTab (hget : s.tabs[position]? = some tab) (hface : tab'.face = tab.face)
    (hkeep : tab.submission.isPending = true → tab'.submission.isPending = true) :
    Kept s (s.setTab position tab') [] where
  journal := .refl _
  tabs := .set_face hget hface
  active := .inl rfl
  nextId := .inl rfl
  names _ hmem := absurd hmem not_mem_nil
  control := rfl
  awaits _ h := h.setTab hget (congrArg (fun face => face.1.id) hface) hkeep

/-- A further event that names a live tab or none. -/
theorem commit (h : Kept s s' named) {tabId : Option Nat}
    (hcommit : s'.commit kind tabId payload = some s'')
    (hlive : ∀ id, tabId = some id → s.Live id) : Kept s s'' (named ++ [tabId]) := by
  refine ⟨h.toEdited.commit hcommit hlive, ?_, ?_⟩
  · rw [(commit_eq_some hcommit).2]
    exact h.control
  · intro id hid
    rw [(commit_eq_some hcommit).2]
    exact h.awaits id hid

/-- The edit of one tab, under an event that names it. -/
theorem setTab_commit (hget : s.tabs[position]? = some tab)
    (hcommit : (s.setTab position tab').commit kind (some id) payload = some s')
    (hid : id = tab.id) (hnode : tab'.treeNode = tab.treeNode)
    (hkeep : tab.submission.isPending = true → tab'.submission.isPending = true) :
    Kept s s' [some id] := by
  subst hid
  obtain ⟨hjournal, hrest⟩ := commit_eq_some hcommit
  rw [hrest]
  refine ⟨⟨hjournal, ?_, .inl rfl, .inl rfl, ?_⟩, rfl, ?_⟩
  · exact .set hget hnode fun hnot => absurd (mem_singleton.mpr rfl) hnot
  · intro id hmem
    obtain rfl := some.inj (mem_singleton.mp hmem)
    exact live_of_getElem? hget
  · intro id hid
    exact hid.setTab hget (congrArg TabTreeNode.id hnode) hkeep

end Kept

lemma Effect.refl (s : ServerState) (op : ServerOp) : Effect s op s := .edited [] (.refl s)

/-! ## The operations on the tree -/

variable {s s' : ServerState} {op : ServerOp}

lemma expandParent_eq_some (h : s.expandParent parentId = some s') :
    s'.tabs = s.tabs ∧ s'.active = s.active ∧ s'.nextId = s.nextId ∧
      s'.controlAuthority = s.controlAuthority ∧
      ∃ named, s.eventJournal.Appends s'.eventJournal named ∧
        ∀ id, some id ∈ named → parentId = some id := by
  cases parentId with
  | none =>
    cases h
    exact ⟨rfl, rfl, rfl, rfl, [], .refl _, fun _ hmem => absurd hmem not_mem_nil⟩
  | some parent =>
    rw [expandParent] at h
    split at h
    · obtain ⟨hjournal, hrest⟩ := commit_eq_some h
      rw [hrest]
      exact ⟨rfl, rfl, rfl, rfl, _, hjournal, fun _ hmem => (mem_singleton.mp hmem).symm⟩
    · cases h
      exact ⟨rfl, rfl, rfl, rfl, [], .refl _, fun _ hmem => absurd hmem not_mem_nil⟩

lemma selectCreated_eq_some (h : s.selectCreated id select = some s') :
    s'.tabs = s.tabs ∧ (s'.active = s.active ∨ s'.active = some id) ∧ s'.nextId = s.nextId ∧
      s'.controlAuthority = s.controlAuthority ∧
      ∃ named, s.eventJournal.Appends s'.eventJournal named ∧
        ∀ k, some k ∈ named → k = id := by
  unfold selectCreated at h
  split at h
  · obtain ⟨hjournal, hrest⟩ := commit_eq_some h
    rw [hrest]
    exact ⟨rfl, .inr rfl, rfl, rfl, _, hjournal,
      fun _ hmem => some.inj (mem_singleton.mp hmem)⟩
  · cases h
    exact ⟨rfl, .inl rfl, rfl, rfl, [], .refl _, fun _ hmem => absurd hmem not_mem_nil⟩

/-- Adding a tab commits events that name it and perhaps its parent. -/
lemma addTab_eq_some (h : s.addTab tab select = some s') :
    s'.tabs = sortByIndex (s.tabs ++ [tab]) ∧
      (s'.active = s.active ∨ s'.active = some tab.id) ∧ s'.nextId = s.nextId ∧
      s'.controlAuthority = s.controlAuthority ∧
      ∃ named, s.eventJournal.Appends s'.eventJournal named ∧ some tab.id ∈ named ∧
        ∀ k, some k ∈ named → k = tab.id ∨ tab.parentId = some k := by
  unfold addTab at h
  obtain ⟨expanded, hexpand, h⟩ := bind_eq_some_iff.mp h
  obtain ⟨committed, hcommit, h⟩ := bind_eq_some_iff.mp h
  obtain ⟨htabs₁, hactive₁, hnext₁, hcontrol₁, named₁, hjournal₁, hnames₁⟩ :=
    expandParent_eq_some hexpand
  obtain ⟨hjournal₂, hrest₂⟩ := commit_eq_some hcommit
  obtain ⟨htabs₃, hactive₃, hnext₃, hcontrol₃, named₃, hjournal₃, hnames₃⟩ :=
    selectCreated_eq_some h
  rw [hrest₂] at htabs₃ hactive₃ hnext₃ hcontrol₃
  refine ⟨htabs₃.trans htabs₁, ?_, hnext₃.trans hnext₁, hcontrol₃.trans hcontrol₁,
    named₁ ++ [some tab.id] ++ named₃, (hjournal₁.trans hjournal₂).trans hjournal₃, ?_, ?_⟩
  · rcases hactive₃ with hsame | hself
    · exact .inl (hsame.trans hactive₁)
    · exact .inr hself
  · simp
  · intro k hmem
    rcases mem_append.mp hmem with hmem | hmem
    · rcases mem_append.mp hmem with hmem | hmem
      · exact .inr (hnames₁ k hmem)
      · exact .inl (some.inj (mem_singleton.mp hmem))
    · exact .inl (hnames₃ k hmem)

theorem createTab_effect {title : Option String} {commandLine : List String}
    {spawn : Except String Spawned} {result : Except String Nat} (hfresh : s.nextId < u64Max)
    (h : s.createTab title commandLine select parentId spawn = some (result, s')) :
    Effect s op s' := by
  unfold createTab at h
  split at h
  · cases h
    exact .refl s op
  rename_i hparent
  dsimp only at h
  split at h
  · cases spawn with
    | error error =>
      -- the id is used up although no tab was created
      cases h
      exact .edited [] ⟨⟨.refl _, .refl _ _, .inl rfl, .inr rfl,
        fun _ hmem => absurd hmem not_mem_nil⟩, rfl, fun _ hid => hid⟩
    | ok spawned =>
      obtain ⟨added, hadd, h⟩ := bind_eq_some_iff.mp h
      cases h
      obtain ⟨htabs, hactive, hnext, hcontrol, named, hjournal, hself, hnames⟩ :=
        addTab_eq_some hadd
      have hlive : ∀ p, parentId = some p → s.Live p := by
        intro p hp
        rw [hp, any_some] at hparent
        exact isLive_iff.mp (by simpa using hparent)
      exact .created named _ ⟨hjournal, hfresh, rfl, rfl, hlive, htabs, hactive, hnext,
        hcontrol, hself, fun k hk => (hnames k hk).imp id fun hp => hlive k hp⟩
  · exact absurd h (by simp)

theorem setTabParentOnHost_effect {childId : Nat}
    (h : s.setTabParentOnHost childId parentId = some (result, s')) : Effect s op s' := by
  unfold setTabParentOnHost at h
  split at h
  · cases h
    exact .refl s op
  rename_i child hfind
  have hid : child.id = childId := by simpa using List.find?_some hfind
  subst hid
  split at h
  · cases h
    exact .refl s op
  · rename_i hallowed
    obtain ⟨moved, hcommit, h⟩ := bind_eq_some_iff.mp h
    cases h
    obtain ⟨hjournal, hrest⟩ := commit_eq_some hcommit
    rw [hrest]
    exact .reparented child parentId ⟨hjournal, hfind, hallowed, rfl, rfl, rfl, rfl⟩

theorem closeTab_effect {shutdown : TerminalShutdownReceipt}
    {result : Except String TerminalShutdownReceipt}
    (h : s.closeTab id shutdown = some (result, s')) : Effect s (.closeTab id shutdown) s' := by
  unfold closeTab at h
  split at h
  · cases h
    exact .refl s _
  · rename_i closing hfind
    have hid : closing.id = id := by simpa using List.find?_some hfind
    subst hid
    obtain ⟨closed, hcommit, h⟩ := bind_eq_some_iff.mp h
    cases h
    obtain ⟨hjournal, hrest⟩ := commit_eq_some hcommit
    rw [hrest]
    exact .closed closing shutdown rfl ⟨hjournal, hfind, rfl, rfl, rfl, rfl⟩

theorem selectTabAt_effect (h : s.selectTabAt position = some (result, s')) : Effect s op s' := by
  unfold selectTabAt at h
  split at h
  · cases h
    exact .refl s op
  · rename_i tab hget
    obtain ⟨selected, hcommit, h⟩ := bind_eq_some_iff.mp h
    cases h
    obtain ⟨hjournal, hrest⟩ := commit_eq_some hcommit
    have hlive := live_of_getElem? hget
    rw [hrest]
    refine .edited _ ⟨⟨hjournal, .refl _ _, .inr ⟨tab.id, rfl, hlive⟩, .inl rfl, ?_⟩, rfl,
      fun _ hid => hid⟩
    intro id hmem
    obtain rfl := some.inj (mem_singleton.mp hmem)
    exact hlive

theorem toggleTabCollapsed_effect (h : s.toggleTabCollapsed tabId = some (result, s')) :
    Effect s op s' := by
  unfold toggleTabCollapsed at h
  split at h
  · cases h
    exact .refl s op
  rename_i hlive
  split at h
  · cases h
    exact .refl s op
  · obtain ⟨toggled, hcommit, h⟩ := bind_eq_some_iff.mp h
    cases h
    obtain ⟨hjournal, hrest⟩ := commit_eq_some hcommit
    rw [hrest]
    refine .edited _ ⟨⟨hjournal, .refl _ _, .inl rfl, .inl rfl, ?_⟩, rfl, fun _ hid => hid⟩
    intro id hmem
    obtain rfl := some.inj (mem_singleton.mp hmem)
    exact isLive_iff.mp (by simpa using hlive)

/-! ## The operations on one terminal -/

lemma id_of_findIdx (h : s.tabs[s.tabs.findIdx fun tab => tab.id = tabId]? = some tab) :
    tab.id = tabId := by
  obtain ⟨hlt, hget⟩ := List.getElem?_eq_some_iff.mp h
  have hp := findIdx_getElem (w := hlt)
  rw [hget] at hp
  simpa using hp

theorem renameWindow_effect {name : String} (h : s.renameWindow position name = some (result, s')) :
    Effect s op s' := by
  unfold renameWindow at h
  split at h
  · cases h
    exact .refl s op
  · rename_i tab hget
    obtain ⟨renamed, hcommit, h⟩ := bind_eq_some_iff.mp h
    cases h
    exact .edited _ (.setTab_commit hget hcommit rfl rfl fun h => h)

theorem setTabNote_effect {note : String} (h : s.setTabNote position note = some (result, s')) :
    Effect s op s' := by
  unfold setTabNote at h
  split at h
  · cases h
    exact .refl s op
  · rename_i tab hget
    obtain ⟨noted, hcommit, h⟩ := bind_eq_some_iff.mp h
    cases h
    exact .edited _ (.setTab_commit hget hcommit rfl rfl fun h => h)

theorem applySetComposer_effect {text : String}
    (h : s.applySetComposer position text = some (result, s')) : Effect s op s' := by
  unfold applySetComposer at h
  obtain ⟨tab, hget, h⟩ := bind_eq_some_iff.mp h
  split at h
  · cases h
    exact .refl s op
  · obtain ⟨drafted, hcommit, h⟩ := bind_eq_some_iff.mp h
    cases h
    exact .edited _ (.setTab_commit hget hcommit rfl rfl fun h => h)

theorem prepareCwd_effect {mode : String} (h : s.prepareCwd tabId path mode = some (result, s')) :
    Effect s op s' := by
  unfold prepareCwd at h
  split at h
  · cases h
    exact .refl s op
  dsimp only at h
  split at h
  · cases h
    exact .refl s op
  rename_i tab hget
  obtain rfl := id_of_findIdx hget
  split at h
  · cases h
    exact .refl s op
  split at h
  · cases h
    exact .edited _ (.setTab hget rfl fun h => h)
  · obtain ⟨requested, hrequest, h⟩ := bind_eq_some_iff.mp h
    obtain ⟨drafted, hdraft, h⟩ := bind_eq_some_iff.mp h
    cases h
    have hlive : ∀ id, some tab.id = some id → s.Live id := by
      intro id hid
      exact some.inj hid ▸ live_of_getElem? hget
    exact .edited _ ((Kept.setTab_commit hget hrequest rfl rfl fun h => h).commit hdraft hlive)

theorem sendCwdNow_effect (h : s.sendCwdNow tabId path now writeError = some (result, s')) :
    Effect s op s' := by
  unfold sendCwdNow at h
  split at h
  · cases h
    exact .refl s op
  dsimp only at h
  split at h
  · cases h
    exact .refl s op
  rename_i tab hget
  obtain rfl := id_of_findIdx hget
  split at h
  · cases h
    exact .refl s op
  rename_i command _
  have hface := tab.submit_face command now writeError
  have hkeep := tab.submit_keeps command now writeError
  generalize tab.submit command now writeError = submitted at h hface hkeep
  rcases submitted with ⟨accepted, tab'⟩
  cases accepted with
  | false =>
    cases h
    exact .edited _ (.setTab hget hface hkeep)
  | true =>
    dsimp only at h
    split at h
    · cases h
      exact .edited _ (.setTab hget hface hkeep)
    · obtain ⟨requested, hcommit, h⟩ := bind_eq_some_iff.mp h
      cases h
      exact .edited _ (.setTab_commit hget hcommit rfl (congrArg Prod.fst hface) hkeep)

lemma sendSensitive_kept (hget : s.tabs[position]? = some tab)
    (h : s.sendSensitive position tab now writeError = some (response, s')) :
    ∃ named, Kept s s' named := by
  unfold sendSensitive at h
  dsimp only at h
  have hface := ({ tab with sensitiveComposer := none, sensitiveProxyMarker := none } :
    TerminalTab).submitSensitive_face now writeError
  have hkeep := ({ tab with sensitiveComposer := none, sensitiveProxyMarker := none } :
    TerminalTab).submitSensitive_keeps now writeError
  generalize ({ tab with sensitiveComposer := none, sensitiveProxyMarker := none } :
    TerminalTab).submitSensitive now writeError = submitted at h hface hkeep
  rcases submitted with ⟨accepted, tab'⟩
  have hid : tab'.id = tab.id := congrArg (fun face => face.1.id) hface
  cases accepted with
  | false =>
    cases h
    exact ⟨_, .setTab hget hface hkeep⟩
  | true =>
    dsimp only at h
    split at h
    · cases h
      exact ⟨_, .setTab hget hface hkeep⟩
    split at h
    · cases h
      exact ⟨_, .setTab hget hface hkeep⟩
    · obtain ⟨submitted, hcommit, h⟩ := bind_eq_some_iff.mp h
      cases h
      exact ⟨_, .setTab_commit hget hcommit hid (congrArg Prod.fst hface) hkeep⟩

theorem sendComposerAtPosition_kept
    (h : s.sendComposerAtPosition position now writeError = some (response, s')) :
    ∃ named, Kept s s' named := by
  unfold sendComposerAtPosition at h
  obtain ⟨tab, hget, h⟩ := bind_eq_some_iff.mp h
  dsimp only at h
  split at h
  · exact sendSensitive_kept hget h
  split at h
  · cases h
    exact ⟨[], .refl s⟩
  have hface := ({ tab with composer := "" } : TerminalTab).submit_face tab.composer now
    writeError
  have hkeep := ({ tab with composer := "" } : TerminalTab).submit_keeps tab.composer now
    writeError
  generalize ({ tab with composer := "" } : TerminalTab).submit tab.composer now writeError
    = submitted at h hface hkeep
  rcases submitted with ⟨accepted, tab'⟩
  have hid : tab'.id = tab.id := congrArg (fun face => face.1.id) hface
  cases accepted with
  | false =>
    cases h
    exact ⟨_, .setTab hget hface hkeep⟩
  | true =>
    obtain ⟨sent, hcommit, h⟩ := bind_eq_some_iff.mp h
    cases h
    exact ⟨_, .setTab_commit hget hcommit hid (congrArg Prod.fst hface) hkeep⟩

theorem pasteInto_effect {textBytes characters : Nat} {bytes : List UInt8} {bracketed : Bool}
    (h : s.pasteInto tabId bytes textBytes characters bracketed writeError
      = some (result, s')) : Effect s op s' := by
  unfold pasteInto at h
  dsimp only at h
  split at h
  · cases h
    exact .refl s op
  rename_i tab hget
  obtain rfl := id_of_findIdx hget
  split at h
  · cases h
    exact .refl s op
  split at h
  · cases h
    exact .refl s op
  have hface := tab.send_face bytes writeError
  have hkeep : tab.submission.isPending = true →
      (tab.send bytes writeError).2.submission.isPending = true := by
    rw [tab.send_submission]
    exact id
  generalize tab.send bytes writeError = sent at h hface hkeep
  rcases sent with ⟨accepted, tab'⟩
  cases accepted with
  | false =>
    cases h
    exact .edited _ (.setTab hget hface hkeep)
  | true =>
    obtain ⟨pasted, hcommit, h⟩ := bind_eq_some_iff.mp h
    cases h
    exact .edited _ (.setTab_commit hget hcommit rfl (congrArg Prod.fst hface) hkeep)

theorem resizeTab_effect {rows columns : Nat} {native : Except String Unit}
    (h : s.resizeTab tabId rows columns native screen = some (result, s')) : Effect s op s' := by
  unfold resizeTab at h
  dsimp only at h
  split at h
  · cases h
    exact .refl s op
  rename_i tab hget
  obtain rfl := id_of_findIdx hget
  split at h
  · cases h
    exact .refl s op
  · rename_i resized hresized
    have hsame : resized.face = tab.face ∧ resized.submission = tab.submission := by
      split at hresized
      · rw [Except.ok.inj hresized]
        exact ⟨rfl, rfl⟩
      · cases native with
        | error error => exact absurd hresized (by simp [Except.map])
        | ok _ => rw [← Except.ok.inj hresized]; exact ⟨rfl, rfl⟩
    obtain ⟨hface, hsubmission⟩ := hsame
    have hkeep : tab.submission.isPending = true → resized.submission.isPending = true := by
      rw [hsubmission]
      exact id
    obtain ⟨committed, hcommit, h⟩ := bind_eq_some_iff.mp h
    cases h
    exact .edited _ (.setTab_commit hget hcommit rfl (congrArg Prod.fst hface) hkeep)

theorem scrollViewport_effect {source : String}
    (h : s.scrollViewport position screen source = some (result, s')) : Effect s op s' := by
  unfold scrollViewport at h
  split at h
  · cases h
    exact .refl s op
  · rename_i tab hget
    obtain ⟨scrolled, hcommit, h⟩ := bind_eq_some_iff.mp h
    cases h
    exact .edited _ (.setTab_commit hget hcommit rfl rfl fun h => h)

/-! ## Polling -/

lemma commitEvents_edited {named : List (Option Nat)} {events : List (EventKind × Nat × Value)}
    (hs : Edited s₀ s named) (hlive : ∀ event ∈ events, s₀.Live event.2.1)
    (h : s.commitEvents events = some s') : ∃ named', Edited s₀ s' named' := by
  induction events generalizing s named with
  | nil =>
    cases h
    exact ⟨named, hs⟩
  | cons event events ih =>
    obtain ⟨committed, hcommit, h⟩ := bind_eq_some_iff.mp h
    refine ih (hs.commit hcommit ?_) (fun e he => hlive e (mem_cons_of_mem _ he)) h
    intro id hid
    exact some.inj hid ▸ hlive event mem_cons_self

lemma finishSubmission_appends {a a' : ControlAuthority} {j j' : EventJournal}
    {enterWritten finalized : Bool} {result : Except CompletionError Bool}
    (h : a.finishSubmission j tabId enterWritten finalized = some (result, a', j')) :
    ∃ named, j.Appends j' named ∧ ∀ id, some id ∈ named → id = tabId := by
  unfold ControlAuthority.finishSubmission at h
  split at h
  · simp only [some.injEq, Prod.mk.injEq] at h
    obtain ⟨-, -, rfl⟩ := h
    exact ⟨[], .refl _, fun _ hmem => absurd hmem not_mem_nil⟩
  · obtain ⟨⟨event, journal⟩, hcommit, h⟩ := bind_eq_some_iff.mp h
    simp only [some.injEq, Prod.mk.injEq] at h
    obtain ⟨-, -, rfl⟩ := h
    exact ⟨_, EventJournal.appends_commitCorrelated hcommit,
      fun _ hmem => some.inj (mem_singleton.mp hmem)⟩

lemma finishSubmissions_edited {named : List (Option Nat)} {completed : List (Nat × Bool × Bool)}
    (hs : Edited s₀ s named) (hlive : ∀ c ∈ completed, s₀.Live c.1)
    (h : s.finishSubmissions completed = some s') : ∃ named', Edited s₀ s' named' := by
  induction completed generalizing s named with
  | nil =>
    cases h
    exact ⟨named, hs⟩
  | cons c completed ih =>
    obtain ⟨tabId, enterWritten, finalized⟩ := c
    obtain ⟨⟨finished, authority, journal⟩, hfinish, h⟩ := bind_eq_some_iff.mp h
    obtain ⟨named₁, hjournal, hnames⟩ := finishSubmission_appends hfinish
    have hrest : ∀ c ∈ completed, s₀.Live c.1 := fun c hc => hlive c (mem_cons_of_mem _ hc)
    have hmore : ∀ id, some id ∈ named ++ named₁ → s₀.Live id := by
      intro id hmem
      rcases mem_append.mp hmem with hmem | hmem
      · exact hs.names id hmem
      · exact hnames id hmem ▸ hlive _ mem_cons_self
    have hstep : Edited s₀ { s with controlAuthority := authority, eventJournal := journal }
        (named ++ named₁) :=
      ⟨hs.journal.trans hjournal, hs.tabs.mono fun id hmem => mem_append_left _ hmem,
        hs.active, hs.nextId, hmore⟩
    cases finished with
    | ok _ => exact ih hstep hrest h
    | error error =>
      have hmarked := hstep.updateFirst (p := fun tab => tab.id = tabId)
        (f := fun tab => { tab with error := some (finalizeError error) }) fun _ => rfl
      exact ih hmarked hrest h

lemma mem_pollTabs {inputs : Nat → PollInput} {tabs : List TerminalTab} {polled : PolledTab}
    (h : polled ∈ pollTabs inputs tabs) : ∃ tab ∈ tabs, ∃ input, polled = tab.pollRound input := by
  induction tabs generalizing inputs with
  | nil => exact absurd h not_mem_nil
  | cons tab tabs ih =>
    rcases mem_cons.mp h with rfl | h
    · exact ⟨tab, mem_cons_self, _, rfl⟩
    · obtain ⟨tab', htab, hinput⟩ := ih h
      exact ⟨tab', mem_cons_of_mem _ htab, hinput⟩

theorem pollTerminals_effect {inputs : Nat → PollInput}
    (h : s.pollTerminals inputs = some s') : Effect s (.pollTerminals inputs) s' := by
  unfold pollTerminals at h
  obtain ⟨committed, hcommit, h⟩ := bind_eq_some_iff.mp h
  have hpolled : Edited s { s with tabs := (pollTabs inputs s.tabs).map PolledTab.tab } [] :=
    ⟨.refl _, .pollTabs inputs s.tabs, .inl rfl, .inl rfl,
      fun _ hmem => absurd hmem not_mem_nil⟩
  have hevents : ∀ event ∈ (pollTabs inputs s.tabs).flatMap PolledTab.events,
      s.Live event.2.1 := by
    intro event hevent
    obtain ⟨polled, hmem, hevent⟩ := mem_flatMap.mp hevent
    obtain ⟨tab, htab, input, rfl⟩ := mem_pollTabs hmem
    exact TerminalTab.pollRound_events hevent ▸ live_of_mem htab
  have hcompleted : ∀ c ∈ (pollTabs inputs s.tabs).filterMap PolledTab.completed,
      s.Live c.1 := by
    intro c hc
    obtain ⟨polled, hmem, hc⟩ := mem_filterMap.mp hc
    obtain ⟨tab, htab, input, rfl⟩ := mem_pollTabs hmem
    exact TerminalTab.pollRound_completed hc ▸ live_of_mem htab
  obtain ⟨named, hmid⟩ := commitEvents_edited hpolled hevents hcommit
  obtain ⟨named', hend⟩ := finishSubmissions_edited hmid hcompleted h
  exact .polled inputs rfl named' hend

/-- A tab is created only while the id counter is below its maximum, where it would stay. -/
def FreshId (s : ServerState) : ServerOp → Prop
  | .createTab .. => s.nextId < u64Max
  | _ => True

/-- **Every operation has one of the effects.** -/
theorem step_effect (hfresh : s.FreshId op) (h : s.step op = some s') :
    Effect s op s' := by
  cases op with
  | pollTerminals inputs => exact pollTerminals_effect h
  | commitEvent kind payload =>
    exact .edited _ ((Kept.refl s).commit h (by simp))
  | createTab title commandLine select parentId spawn =>
    obtain ⟨⟨result, _⟩, hop, rfl⟩ := map_eq_some_iff.mp h
    exact createTab_effect hfresh hop
  | setTabParent childId parentId =>
    obtain ⟨⟨result, _⟩, hop, rfl⟩ := map_eq_some_iff.mp h
    exact setTabParentOnHost_effect hop
  | closeTab id shutdown =>
    obtain ⟨⟨result, _⟩, hop, rfl⟩ := map_eq_some_iff.mp h
    exact closeTab_effect hop
  | selectTabAt position =>
    obtain ⟨⟨result, _⟩, hop, rfl⟩ := map_eq_some_iff.mp h
    exact selectTabAt_effect hop
  | toggleTabCollapsed tabId =>
    obtain ⟨⟨result, _⟩, hop, rfl⟩ := map_eq_some_iff.mp h
    exact toggleTabCollapsed_effect hop
  | renameWindow position name =>
    obtain ⟨⟨result, _⟩, hop, rfl⟩ := map_eq_some_iff.mp h
    exact renameWindow_effect hop
  | setTabNote position note =>
    obtain ⟨⟨result, _⟩, hop, rfl⟩ := map_eq_some_iff.mp h
    exact setTabNote_effect hop
  | setComposer position text =>
    obtain ⟨⟨result, _⟩, hop, rfl⟩ := map_eq_some_iff.mp h
    exact applySetComposer_effect hop
  | prepareCwd tabId path mode =>
    obtain ⟨⟨result, _⟩, hop, rfl⟩ := map_eq_some_iff.mp h
    exact prepareCwd_effect hop
  | sendCwdNow tabId path now writeError =>
    obtain ⟨⟨result, _⟩, hop, rfl⟩ := map_eq_some_iff.mp h
    exact sendCwdNow_effect hop
  | sendComposer position now writeError =>
    obtain ⟨⟨response, _⟩, hop, rfl⟩ := map_eq_some_iff.mp h
    obtain ⟨named, hkept⟩ := sendComposerAtPosition_kept hop
    exact .edited named hkept
  | paste tabId bytes textBytes characters bracketed writeError =>
    obtain ⟨⟨result, _⟩, hop, rfl⟩ := map_eq_some_iff.mp h
    exact pasteInto_effect hop
  | resize tabId rows columns native screen =>
    obtain ⟨⟨result, _⟩, hop, rfl⟩ := map_eq_some_iff.mp h
    exact resizeTab_effect hop
  | scroll position screen source =>
    obtain ⟨⟨result, _⟩, hop, rfl⟩ := map_eq_some_iff.mp h
    exact scrollViewport_effect hop

end ServerState

end Agenterm
