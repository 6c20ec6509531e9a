import Mathlib.Order.Interval.Finset.Nat
import Agenterm.Cu.PrivilegeMembers

/-!
# The tree of a process

`signal_tree_ids` finds what descends from the root, with distances and parents, or reports that
this is too much (`signalTreeIds_exact`); `process.tree` of the door to the host finds the same
ids. What is observed of these ids, sorted as the plan has it, passes the check of the members
(`observed_valid`).
-/

namespace Agenterm.Cu.Privilege

open List Lib

open Lib (Walk Distance)
open BreadthFirst (Found rootEntry)

variable {δ : Type} {rows : List ProcessRow} {root limit : Nat}

/-- A process can be reached from the root through parents. -/
def Descends (rows : List ProcessRow) (root x : Nat) : Prop :=
  ∃ n, Walk (ParentOf rows) root n x

/-- More than `limit` processes descend from the root, besides itself. -/
def TooLarge (rows : List ProcessRow) (root limit : Nat) : Prop :=
  ∃ l : List Nat, l.Nodup ∧ limit < l.length ∧ ∀ x ∈ l, x ≠ root ∧ Descends rows root x

/-- The root and what descends from it, once each, with distances and parents. -/
structure TreeIds (rows : List ProcessRow) (root limit : Nat) (ids : List (Found Nat)) :
    Prop where
  nodup : (ids.map Found.node).Nodup
  mem_iff : ∀ x, x ∈ ids.map Found.node ↔ Descends rows root x
  distance : ∀ e ∈ ids, Distance (ParentOf rows) root e.node e.depth
  root_mem : rootEntry root ∈ ids
  parents : ∀ e ∈ ids, e = rootEntry root ∨ ∃ f ∈ ids, e.parent = some f.node ∧
    e.depth = f.depth + 1 ∧ ParentOf rows f.node e.node
  size : ids.length ≤ limit + 1
  depth_lt : ∀ e ∈ ids, e.depth < ids.length

lemma mem_childIds {parent child : Nat} :
    child ∈ childIds rows parent ↔ ParentOf rows parent child := by
  rw [childIds, mem_insertionSort, mem_map]
  simp only [mem_filter, decide_eq_true_eq, ParentOf]
  constructor
  · rintro ⟨row, ⟨hrow, hparent⟩, hid⟩
    exact ⟨row, hrow, hparent, hid⟩
  · rintro ⟨row, hrow, hparent, hid⟩
    exact ⟨row, ⟨hrow, hparent⟩, hid⟩

lemma walk_childIds {n x : Nat} :
    Walk (BreadthFirst.Child (childIds rows)) root n x ↔ Walk (ParentOf rows) root n x :=
  Walk.congr fun _ _ => mem_childIds

variable {ids : List (Found Nat)} {members : List ProcessSignalMember} {snapshot : Snapshot}

lemma treeIds_of_tree (h : BreadthFirst.Tree (childIds rows) root limit ids) :
    TreeIds rows root limit ids where
  nodup := h.nodup
  mem_iff x := by
    rw [h.mem_iff]
    simp only [walk_childIds]
    exact Iff.rfl
  distance e he := {
    walk := walk_childIds.mp (h.distance e he).walk
    shortest := fun m hm => (h.distance e he).shortest m (walk_childIds.mpr hm) }
  root_mem := h.root_mem
  parents e he := by
    rcases h.parents e he with hroot | ⟨f, hf, hparent, hdepth, hchild⟩
    · exact .inl hroot
    · exact .inr ⟨f, hf, hparent, hdepth, mem_childIds.mp hchild⟩
  size := h.size
  depth_lt := h.depth_lt

lemma tooLarge_iff :
    BreadthFirst.TooMany (childIds rows) root limit ↔ TooLarge rows root limit := by
  unfold BreadthFirst.TooMany TooLarge Descends
  simp only [walk_childIds]

/-- The error of a tree that is too large. -/
def treeTooLarge (limit : Nat) : CuError :=
  ⟨"privilege_target_too_large", s!"process signal tree exceeds {limit} descendants"⟩

/-- **The search ends**, with the tree or because it is too large. -/
theorem signalTreeIds_spec (limit : Nat) (hroot : ∃ row ∈ rows, row.id = root) :
    (∃ ids, signalTreeIds (.ok rows) root limit = some (.ok ids) ∧ TreeIds rows root limit ids ∧
        ¬ TooLarge rows root limit) ∨
      signalTreeIds (.ok rows) root limit = some (.error (treeTooLarge limit)) ∧
        TooLarge rows root limit := by
  have hany : (rows.any fun row => row.id = root) = true := by
    obtain ⟨row, hrow, hid⟩ := hroot
    exact any_eq_true.mpr ⟨row, hrow, by simpa using hid⟩
  have hall : ∀ x ∈ rows.map ProcessRow.id, ∀ y ∈ childIds rows x, y ∈ rows.map ProcessRow.id := by
    intro x _ y hy
    obtain ⟨row, hrow, -, hid⟩ := mem_childIds.mp hy
    exact mem_map.mpr ⟨row, hrow, hid⟩
  have hsearch := BreadthFirst.search_start limit (mem_map.mpr hroot) hall
  rw [length_map] at hsearch
  rcases hsearch with ⟨ids, hfound, htree⟩ | ⟨hfound, hmany⟩
  · refine .inl ⟨ids, ?_, treeIds_of_tree htree, fun hlarge => ?_⟩
    · simp [signalTreeIds, hany, hfound]
    · exact htree.not_tooMany (tooLarge_iff.mpr hlarge)
  · refine .inr ⟨?_, tooLarge_iff.mp hmany⟩
    simp [signalTreeIds, hany, hfound, treeTooLarge]

theorem signalTreeIds_ok {inventory : Except String (List ProcessRow)}
    (h : signalTreeIds inventory root limit = some (.ok ids)) :
    ∃ rows, inventory = .ok rows ∧ (∃ row ∈ rows, row.id = root) ∧ TreeIds rows root limit ids := by
  cases inventory with
  | error kind => simp [signalTreeIds] at h
  | ok rows =>
    have hroot : ∃ row ∈ rows, row.id = root := by
      by_contra hnone
      have hany : (rows.any fun row => row.id = root) = false := by
        rw [any_eq_false]
        exact fun row hrow hid => hnone ⟨row, hrow, by simpa using hid⟩
      simp [signalTreeIds, hany] at h
    refine ⟨rows, rfl, hroot, ?_⟩
    rcases signalTreeIds_spec limit hroot with ⟨ids', hids, htree, -⟩ | ⟨hlarge, -⟩
    · rw [hids, Option.some.injEq, Except.ok.injEq] at h
      exact h ▸ htree
    · rw [hlarge] at h
      cases h

/-- `process.tree` finds the same ids. -/
theorem treeIds_processTree {tree : List ProcessRow} (hroot : ∃ row ∈ rows, row.id = root)
    (hids : TreeIds rows root limit ids) (htree : processTree rows root = some tree) (x : Nat) :
    x ∈ ids.map Found.node ↔ x ∈ tree.map ProcessRow.id := by
  rw [hids.mem_iff, mem_map]
  constructor
  · intro hx
    -- a process that descends from the root has a row
    have hrow : ∃ row ∈ rows, row.id = x := by
      obtain ⟨n, hn⟩ := hx
      cases n with
      | zero =>
        rw [show x = root from hn]
        exact hroot
      | succ n =>
        obtain ⟨y, -, row, hrow, -, hid⟩ := hn
        exact ⟨row, hrow, hid⟩
    obtain ⟨row, hmem, rfl⟩ := hrow
    exact ⟨row, (mem_processTree htree row).mpr ⟨hmem, hx⟩, rfl⟩
  · rintro ⟨row, hrow, rfl⟩
    exact ((mem_processTree htree row).mp hrow).2

/-! ## The members that are observed -/

lemma liveStartIdentity_ok {observed : ProcessObservation} {identity : String}
    (h : liveStartIdentity observed = .ok identity) : observed = .live (some identity) := by
  unfold liveStartIdentity at h
  split at h
  · rw [Except.ok.injEq] at h
    rw [h]
  all_goals cases h

lemma observeSignalMember_ok {reads : MemberReads} {pid depth : Nat} {parentPid : Option Nat}
    {m : ProcessSignalMember} (h : observeSignalMember reads pid depth parentPid = .ok m) :
    m.pid = pid ∧ m.depth = depth ∧ m.parentPid = parentPid ∧
      reads.beforeIdentity = .live (some m.startIdentity) := by
  unfold observeSignalMember at h
  obtain ⟨identity, hidentity, h⟩ := bind_eq_ok.mp h
  obtain ⟨stopped, -, h⟩ := bind_eq_ok.mp h
  obtain ⟨stopped', -, h⟩ := bind_eq_ok.mp h
  obtain ⟨identity', -, h⟩ := bind_eq_ok.mp h
  split at h
  · cases h
  · rw [Except.ok.injEq] at h
    subst h
    exact ⟨rfl, rfl, rfl, liveStartIdentity_ok hidentity⟩

/-- A member stands for an id that was found. -/
structure StandsFor (snapshot : Snapshot) (e : Found Nat) (m : ProcessSignalMember) : Prop where
  pid : m.pid = e.node
  depth : m.depth = e.depth
  parent : m.parentPid = e.parent
  identity : (snapshot.reads e.node).beforeIdentity = .live (some m.startIdentity)

lemma observeIds_ok (h : observeIds snapshot ids = .ok members) :
    ∃ observed, List.Forall₂ (StandsFor snapshot) ids observed ∧
      members = sortMembers observed := by
  obtain ⟨observed, hobserved, h⟩ := bind_eq_ok.mp h
  refine ⟨observed, (mapM_eq_ok.mp hobserved).imp fun e m hm => ?_, (Except.ok.inj h).symm⟩
  obtain ⟨hpid, hdepth, hparent, hidentity⟩ := observeSignalMember_ok hm
  exact ⟨hpid, hdepth, hparent, hidentity⟩

lemma keyLt_total {a b : ProcessSignalMember} (hne : a.pid ≠ b.pid) (h : keyLt b a = false) :
    KeyLt a b := by
  have hnot : ¬ KeyLt b a := by
    rw [← keyLt_iff, h]
    simp
  unfold KeyLt at *
  omega

/-- Sorted members with different pids are in strict order. -/
lemma sortMembers_sorted (hnodup : (members.map ProcessSignalMember.pid).Nodup) :
    (sortMembers members).Pairwise KeyLt := by
  have hsorted : (sortMembers members).Pairwise fun a b => keyLt b a = false := by
    have htotal : Std.Total fun a b : ProcessSignalMember => keyLt b a = false :=
      ⟨fun a b => by
        by_contra h
        simp only [Bool.eq_false_iff, not_or, not_not, ne_eq, keyLt_iff] at h
        unfold KeyLt at h
        omega⟩
    have htrans : IsTrans ProcessSignalMember fun a b => keyLt b a = false :=
      ⟨fun a b c hab hbc => by
        simp only [Bool.eq_false_iff, ne_eq, keyLt_iff, KeyLt] at *
        omega⟩
    exact pairwise_insertionSort _ members
  have hnodup' : ((sortMembers members).map ProcessSignalMember.pid).Nodup :=
    ((perm_insertionSort _ members).map _).nodup_iff.mpr hnodup
  rw [nodup_iff_pairwise_ne, pairwise_map] at hnodup'
  exact (hsorted.and hnodup').imp fun h => keyLt_total h.2 h.1

/-- What is observed of a tree is in order, with a place for every member. -/
lemma observed_ordered (hids : TreeIds rows root limit ids)
    (hobserved : observeIds snapshot ids = .ok members) (hformed : ∀ m ∈ members, WellFormed m) :
    Ordered members ∧ (∀ m ∈ members, HasPlace members m) ∧ members.length = ids.length ∧
      (∀ m ∈ members, m.depth < ids.length) ∧
      ∃ r ∈ members, r.depth = 0 ∧ r.pid = root ∧ ∀ m ∈ members, m.depth = 0 → m = r := by
  obtain ⟨observed, hforall, rfl⟩ := observeIds_ok hobserved
  have hperm : (sortMembers observed).Perm observed := perm_insertionSort _ observed
  have hpids : observed.map ProcessSignalMember.pid = ids.map Found.node :=
    map_eq_of_forall₂ hforall fun e m hm => hm.pid
  have hnodup : (observed.map ProcessSignalMember.pid).Nodup := by
    rw [hpids]
    exact hids.nodup
  have hordered : Ordered (sortMembers observed) := {
    formed := hformed
    nodup := (hperm.map _).nodup_iff.mpr hnodup
    sorted := sortMembers_sorted hnodup }
  -- the entry of a member, and the member of an entry
  have hentry : ∀ m ∈ sortMembers observed, ∃ e ∈ ids, StandsFor snapshot e m := fun m hm =>
    exists_left_of_forall₂ hforall (hperm.mem_iff.mp hm)
  have hmember : ∀ e ∈ ids, ∃ m ∈ sortMembers observed, StandsFor snapshot e m := by
    intro e he
    obtain ⟨m, hm, hstands⟩ := exists_right_of_forall₂ hforall he
    exact ⟨m, hperm.mem_iff.mpr hm, hstands⟩
  refine ⟨hordered, fun m hm => ?_, ?_, fun m hm => ?_, ?_⟩
  · obtain ⟨e, he, hstands⟩ := hentry m hm
    rcases hids.parents e he with rfl | ⟨f, hf, hparent, hdepth, -⟩
    · exact .inl ⟨hstands.depth, hstands.parent⟩
    · obtain ⟨row, hrow, hfrow⟩ := hmember f hf
      refine .inr ⟨by rw [hstands.depth, hdepth]; exact Nat.succ_ne_zero _, f.node,
        hstands.parent.trans hparent, row, hrow, hfrow.pid, ?_⟩
      rw [hfrow.depth, hstands.depth, hdepth]
  · rw [hperm.length_eq, hforall.length_eq]
  · obtain ⟨e, he, hstands⟩ := hentry m hm
    rw [hstands.depth]
    exact hids.depth_lt e he
  · obtain ⟨r, hr, hstands⟩ := hmember (rootEntry root) hids.root_mem
    refine ⟨r, hr, hstands.depth, hstands.pid, fun m hm hzero => ?_⟩
    obtain ⟨e, he, hm'⟩ := hentry m hm
    have hroot : e = rootEntry root := by
      rcases hids.parents e he with hroot | ⟨f, -, -, hdepth, -⟩
      · exact hroot
      · have hdepth' := hm'.depth
        omega
    refine inj_on_of_nodup_map hordered.nodup hm hr ?_
    rw [hm'.pid, hroot, hstands.pid]

/-- Different ids above one that fit 32 bits are fewer than the maximal depth. -/
lemma length_le_of_ids {l : List Nat} (hnodup : l.Nodup) (hpos : ∀ x ∈ l, 1 < x)
    (hmax : ∀ x ∈ l, x ≤ u32Max) : l.length < u32Max := by
  have hsub : l.toFinset ⊆ Finset.Icc 2 u32Max := by
    intro x hx
    rw [mem_toFinset] at hx
    exact Finset.mem_Icc.mpr ⟨hpos x hx, hmax x hx⟩
  have hcard := Finset.card_le_card hsub
  rw [toFinset_card_of_nodup hnodup, Nat.card_Icc] at hcard
  have hu32 : u32Max = 4294967295 := rfl
  omega

/-- **The members of a tree pass the check**, when their identities and ids are well formed. -/
theorem observed_valid (hids : TreeIds rows root limit ids)
    (hwidth : ∀ row ∈ rows, row.id ≤ u32Max) (hrow : ∃ row ∈ rows, row.id = root)
    (hobserved : observeIds snapshot ids = .ok members) (hformed : ∀ m ∈ members, WellFormed m)
    {plan : ProcessSignalPlan δ} (hmembers : plan.members = members) (hscope : plan.scope = .tree)
    (hlimit : plan.maxDescendants = limit) (htarget : plan.target.pid = root)
    (hidentity : ∀ m ∈ members, m.depth = 0 → plan.target.startIdentity = m.startIdentity)
    (checks : Bool) : validSignalMembers checks plan = some true := by
  obtain ⟨hordered, hplaces, hlength, hdepths, r, hr, hzero, hpid, honly⟩ :=
    observed_ordered hids hobserved hformed
  have hids' : ∀ m ∈ members, m.pid ≤ u32Max := by
    intro m hm
    obtain ⟨observed, hforall, rfl⟩ := observeIds_ok hobserved
    have hm' := (perm_insertionSort _ observed).mem_iff.mp hm
    obtain ⟨e, he, hstands⟩ := exists_left_of_forall₂ hforall hm'
    rw [hstands.pid]
    obtain ⟨n, hn⟩ := (hids.mem_iff e.node).mp (mem_map_of_mem he)
    cases n with
    | zero =>
      obtain ⟨row, hrow, hid⟩ := hrow
      rw [show e.node = root from hn, ← hid]
      exact hwidth row hrow
    | succ n =>
      obtain ⟨y, -, row, hrow, -, hid⟩ := hn
      rw [← hid]
      exact hwidth row hrow
  have hlt : members.length < u32Max := by
    have hlt := length_le_of_ids hordered.nodup
      (fun x hx => by
        obtain ⟨m, hm, rfl⟩ := mem_map.mp hx
        exact (hformed m hm).pid_gt)
      (fun x hx => by
        obtain ⟨m, hm, rfl⟩ := mem_map.mp hx
        exact hids' m hm)
    rwa [length_map] at hlt
  subst hmembers
  have hsize := hids.size
  refine valid_of_ordered ⟨ne_nil_of_mem hr, ?_, ?_⟩ hordered hplaces ?_ ?_ checks
  · rw [hlimit, hlength]
    rw [hlength] at hlt
    exact Nat.le_min.mpr ⟨hsize, hlt.le⟩
  · rw [hscope]
    exact fun h => by cases h
  · intro m hm
    have hdepth := hdepths m hm
    omega
  · exact rootFits_of_ordered hordered hr hzero (hpid.trans htarget.symm)
      (hidentity r hr hzero).symm honly

/-- **Process trees are exact.** For every inventory with the root: the search reports that the
tree is too large exactly when it is, and otherwise finds it; the ids are those of `process.tree`;
and what is observed of them passes the check of the members. -/
theorem signalTreeIds_exact (limit : Nat) (hroot : ∃ row ∈ rows, row.id = root)
    (hwidth : ∀ row ∈ rows, row.id ≤ u32Max) :
    (signalTreeIds (.ok rows) root limit = some (.error (treeTooLarge limit)) ↔
      TooLarge rows root limit) ∧
    (¬ TooLarge rows root limit → ∃ ids, signalTreeIds (.ok rows) root limit = some (.ok ids)) ∧
    ∀ ids, signalTreeIds (.ok rows) root limit = some (.ok ids) →
      TreeIds rows root limit ids ∧
      (∃ tree, processTree rows root = some tree ∧
        ∀ x, x ∈ ids.map Found.node ↔ x ∈ tree.map ProcessRow.id) ∧
      ∀ (snapshot : Snapshot) (members : List ProcessSignalMember) (plan : ProcessSignalPlan δ),
        observeIds snapshot ids = .ok members → (∀ m ∈ members, WellFormed m) →
        plan.members = members → plan.scope = .tree → plan.maxDescendants = limit →
        plan.target.pid = root →
        (∀ m ∈ members, m.depth = 0 → plan.target.startIdentity = m.startIdentity) →
        ∀ checks, validSignalMembers checks plan = some true := by
  refine ⟨?_, ?_, fun ids hids => ?_⟩
  · rcases signalTreeIds_spec limit hroot with ⟨ids, hids, -, hnot⟩ | ⟨hlarge, htoo⟩
    · rw [hids]
      exact iff_of_false (by simp) hnot
    · exact iff_of_true hlarge htoo
  · intro hnot
    rcases signalTreeIds_spec limit hroot with ⟨ids, hids, -⟩ | ⟨-, htoo⟩
    · exact ⟨ids, hids⟩
    · exact absurd htoo hnot
  · obtain ⟨rows', hrows, -, htree⟩ := signalTreeIds_ok hids
    rw [Except.ok.injEq] at hrows
    subst hrows
    obtain ⟨tree, hprocess⟩ := Option.isSome_iff_exists.mp (processTree_isSome rows root)
    refine ⟨htree, ⟨tree, hprocess, treeIds_processTree hroot htree hprocess⟩, ?_⟩
    intro snapshot members plan hobserved hformed hmembers hscope hlimit htarget hidentity
    exact observed_valid htree hwidth hroot hobserved hformed hmembers hscope hlimit htarget
      hidentity

/-- Two children below a root that is its own grandparent, and a process on its own. -/
def loopedRows : List ProcessRow :=
  [⟨43, 41, "child"⟩, ⟨41, 47, "root"⟩, ⟨47, 43, "grandchild"⟩, ⟨50, 50, "alone"⟩]

theorem signalTreeIds_exact_looped :
    ¬ TooLarge loopedRows 41 2 ∧
    TreeIds loopedRows 41 2 [⟨41, 0, none⟩, ⟨43, 1, some 41⟩, ⟨47, 2, some 43⟩] ∧
    ∃ tree, processTree loopedRows 41 = some tree ∧
      ∀ x, x ∈ [41, 43, 47] ↔ x ∈ tree.map ProcessRow.id := by
  have h := @signalTreeIds_exact String loopedRows 41 2 (by decide) (by decide)
  have hids : signalTreeIds (.ok loopedRows) 41 2 =
      some (.ok [⟨41, 0, none⟩, ⟨43, 1, some 41⟩, ⟨47, 2, some 43⟩]) := by decide
  refine ⟨fun hlarge => ?_, (h.2.2 _ hids).1, (h.2.2 _ hids).2.1⟩
  have hreport := h.1.mpr hlarge
  rw [hids] at hreport
  cases hreport

end Agenterm.Cu.Privilege
