import Agenterm.Common
import Agenterm.Lib.Maps
import Mathlib.Data.List.Induction
import Mathlib.Data.List.Nodup
import Mathlib.Tactic.Tauto

/-!
# The difference of two walks

`changed_fields` and `diff_nodes` of `snapshot.rs`: two walks of a window are compared by the
identifiers of their nodes, and the answer names positions.
-/

namespace Agenterm.Cu.Snapshot

open Std List

structure A11yBounds where
  x : Int
  y : Int
  width : Int
  height : Int
deriving DecidableEq

structure A11yNode where
  id : String
  parentId : Option String
  role : String
  subrole : Option String
  name : String
  states : List String
  bounds : A11yBounds
  actions : List String
  text : Option String
  identifier : Option String
deriving DecidableEq

/-- The names of the fields in which two nodes differ, in a fixed order. -/
def changedFields (before after : A11yNode) : List String :=
  (if before.role ≠ after.role then ["role"] else [])
    ++ (if before.name ≠ after.name then ["name"] else [])
    ++ (if before.parentId ≠ after.parentId then ["parent_id"] else [])
    ++ (if before.states ≠ after.states then ["states"] else [])
    ++ (if before.bounds ≠ after.bounds then ["bounds"] else [])
    ++ (if before.actions ≠ after.actions then ["actions"] else [])
    ++ (if before.text ≠ after.text then ["text"] else [])
    ++ (if before.identifier ≠ after.identifier then ["identifier"] else [])

structure NodeDiff where
  /-- Positions in the later walk. -/
  added : List Nat
  /-- Positions in the earlier walk. -/
  removed : List Nat
  /-- Positions in the later walk, with the fields that differ. -/
  changed : List (Nat × List String)
deriving DecidableEq

def NodeDiff.isEmpty (diff : NodeDiff) : Bool :=
  diff.added.isEmpty && diff.removed.isEmpty && diff.changed.isEmpty

/-- The map from identifiers to positions in the earlier walk. -/
def previousPositions (before : List A11yNode) : TreeMap String Nat :=
  before.zipIdx.foldl (fun previous entry => previous.insert entry.1.id entry.2) ∅

/-- One node of the later walk. Every position in the map is one of the earlier walk. -/
def compareNode (before : List A11yNode) (previous : TreeMap String Nat)
    (state : NodeDiff × List Bool) (entry : A11yNode × Nat) : NodeDiff × List Bool :=
  match previous[entry.1.id]? with
  | some was =>
    let fields := before[was]?.elim [] fun node => changedFields node entry.1
    ({ state.1 with
        changed := if fields.isEmpty then state.1.changed
          else state.1.changed ++ [(entry.2, fields)] },
      state.2.set was true)
  | none => ({ state.1 with added := state.1.added ++ [entry.2] }, state.2)

def diffNodes (before after : List A11yNode) : NodeDiff :=
  let (diff, seen) := after.zipIdx.foldl (compareNode before (previousPositions before))
    (⟨[], [], []⟩, List.replicate before.length false)
  { diff with removed := (seen.zipIdx.filter fun entry => !entry.1).map Prod.snd }

/-!
Every node of the later walk is looked up in the earlier one, and every position that was found is
marked, so that what is added and what is removed is exact (`mem_added`, `mem_removed`). A node is
compared in eight of its fields (`changedFields_eq_nil`): one that differs in its subrole alone is
passed over.
-/

open Std Lib

/-! ## Positions -/

variable {before : List A11yNode} {position : Nat}

/-- The map finds the position of every node by its id. -/
lemma previousPositions_eq_some (hids : (before.map A11yNode.id).Nodup) {id : String} :
    (previousPositions before)[id]? = some position ↔
      ∃ node, before[position]? = some node ∧ node.id = id := by
  unfold previousPositions
  -- the last node is the last that is inserted
  induction before using List.reverseRecOn with
  | nil => simp
  | append_singleton nodes node ih =>
    rw [map_append, map_singleton, nodup_append] at hids
    have hnew : ∀ old ∈ nodes, old.id ≠ node.id := fun old hold =>
      hids.2.2 old.id (mem_map_of_mem hold) node.id (by simp)
    rw [zipIdx_append, foldl_append]
    simp only [zipIdx_singleton, Nat.zero_add, foldl_cons, foldl_nil]
    by_cases hid : node.id = id
    · subst hid
      rw [TreeMap.getElem?_insert_self]
      constructor
      · intro h
        cases h
        exact ⟨node, List.getElem?_concat_length, rfl⟩
      · rintro ⟨found, hfound, hid⟩
        by_cases hlt : position < nodes.length
        · rw [List.getElem?_append_left hlt] at hfound
          exact absurd hid (hnew found (mem_of_getElem? hfound))
        · have hbound := (List.getElem?_eq_some_iff.mp hfound).1
          rw [length_append, length_singleton] at hbound
          rw [show nodes.length = position by omega]
    · rw [getElem?_insert_of_ne hid, ih hids.1]
      constructor
      · rintro ⟨found, hfound, hfoundId⟩
        have hlt := (List.getElem?_eq_some_iff.mp hfound).1
        exact ⟨found, (List.getElem?_append_left hlt).trans hfound, hfoundId⟩
      · rintro ⟨found, hfound, hfoundId⟩
        by_cases hlt : position < nodes.length
        · rw [List.getElem?_append_left hlt] at hfound
          exact ⟨found, hfound, hfoundId⟩
        · rw [List.getElem?_append_right (Nat.le_of_not_lt hlt), List.getElem?_singleton] at hfound
          split at hfound
          · cases hfound
            exact absurd hfoundId hid
          · cases hfound

lemma previousPositions_eq_none (hids : (before.map A11yNode.id).Nodup) {id : String} :
    (previousPositions before)[id]? = none ↔ ∀ node ∈ before, node.id ≠ id := by
  constructor
  · intro h node hmem hid
    obtain ⟨position, hposition⟩ := List.getElem?_of_mem hmem
    rw [(previousPositions_eq_some hids).mpr ⟨node, hposition, hid⟩] at h
    cases h
  · intro h
    rw [Option.eq_none_iff_forall_ne_some]
    intro position hposition
    obtain ⟨node, hnode, hid⟩ := (previousPositions_eq_some hids).mp hposition
    exact h node (mem_of_getElem? hnode) hid

/-! ## Fields -/

/-- All fields but the subrole are compared. -/
lemma changedFields_eq_nil {before after : A11yNode} (hid : before.id = after.id) :
    changedFields before after = [] ↔ { before with subrole := after.subrole } = after := by
  unfold changedFields
  obtain ⟨id, parentId, role, subrole, name, states, bounds, actions, text, identifier⟩ := before
  obtain ⟨id', parentId', role', subrole', name', states', bounds', actions', text',
    identifier'⟩ := after
  obtain rfl : id = id' := hid
  simp only [append_eq_nil_iff, ite_eq_right_iff, cons_ne_self, imp_false, ne_eq,
    not_not, A11yNode.mk.injEq, true_and]
  tauto

/-! ## The loop -/

section
variable {before : List A11yNode} {previous : TreeMap String Nat}

/-- What a node of the later walk adds to the changes. -/
def changeOf (before : List A11yNode) (previous : TreeMap String Nat) (entry : A11yNode × Nat) :
    Option (Nat × List String) :=
  previous[entry.1.id]?.bind fun was =>
    let fields := before[was]?.elim [] fun node => changedFields node entry.1
    if fields.isEmpty then none else some (entry.2, fields)

lemma added_foldl (entries : List (A11yNode × Nat)) (state : NodeDiff × List Bool) :
    (entries.foldl (compareNode before previous) state).1.added =
      state.1.added ++ (entries.filter fun entry => previous[entry.1.id]?.isNone).map Prod.snd := by
  induction entries generalizing state with
  | nil => simp
  | cons entry entries ih =>
    rw [foldl_cons, ih]
    cases hprevious : previous[entry.1.id]? with
    | none => simp [compareNode, hprevious]
    | some was => simp [compareNode, hprevious]

lemma changed_foldl (entries : List (A11yNode × Nat)) (state : NodeDiff × List Bool) :
    (entries.foldl (compareNode before previous) state).1.changed =
      state.1.changed ++ entries.filterMap (changeOf before previous) := by
  induction entries generalizing state with
  | nil => simp
  | cons entry entries ih =>
    rw [foldl_cons, ih, filterMap_cons]
    cases hprevious : previous[entry.1.id]? with
    | none => simp [compareNode, changeOf, hprevious]
    | some was =>
      simp only [compareNode, changeOf, hprevious, Option.bind_some]
      split
      · rfl
      · simp

/-- A position is marked when a node of the later walk was found there. -/
lemma seen_foldl (entries : List (A11yNode × Nat)) (state : NodeDiff × List Bool)
    (position : Nat) :
    (entries.foldl (compareNode before previous) state).2[position]? =
      state.2[position]?.map fun seen =>
        seen || entries.any fun entry => previous[entry.1.id]? == some position := by
  induction entries generalizing state with
  | nil => simp
  | cons entry entries ih =>
    rw [foldl_cons, ih, any_cons]
    cases hprevious : previous[entry.1.id]? with
    | none => simp [compareNode, hprevious]
    | some was =>
      simp only [compareNode, hprevious, List.getElem?_set]
      by_cases hwas : was = position
      · subst hwas
        by_cases hlt : was < state.2.length
        · simp [hlt]
        · simp [hlt]
      · simp [hwas, beq_eq_false_iff_ne.mpr hwas]

lemma map_fst_changes (entries : List (A11yNode × Nat)) :
    ((entries.filterMap (changeOf before previous)).map Prod.fst).Sublist
      (entries.map Prod.snd) := by
  induction entries with
  | nil => exact List.Sublist.refl _
  | cons entry entries ih =>
    rw [filterMap_cons]
    split
    · exact ih.cons _
    · rename_i change hchange
      have hposition : change.1 = entry.2 := by
        obtain ⟨was, -, hfields⟩ := Option.bind_eq_some_iff.mp hchange
        simp only [Option.ite_none_left_eq_some] at hfields
        rw [← Option.some.inj hfields.2]
      rw [map_cons, map_cons, hposition]
      exact ih.cons_cons _

end

/-! ## What the difference names -/

section
variable {before after : List A11yNode}

lemma added_eq (before after : List A11yNode) :
    (diffNodes before after).added = (after.zipIdx.filter fun entry =>
      (previousPositions before)[entry.1.id]?.isNone).map Prod.snd :=
  added_foldl _ _

lemma changed_eq (before after : List A11yNode) :
    (diffNodes before after).changed =
      after.zipIdx.filterMap (changeOf before (previousPositions before)) :=
  changed_foldl _ _

lemma mem_added (hids : (before.map A11yNode.id).Nodup) :
    position ∈ (diffNodes before after).added ↔
      ∃ node, after[position]? = some node ∧ ∀ old ∈ before, old.id ≠ node.id := by
  rw [added_eq, mem_map]
  constructor
  · rintro ⟨⟨node, index⟩, hmem, rfl⟩
    obtain ⟨hmem, hnone⟩ := mem_filter.mp hmem
    exact ⟨node, mem_zipIdx_iff_getElem?.mp hmem,
      (previousPositions_eq_none hids).mp (Option.isNone_iff_eq_none.mp hnone)⟩
  · rintro ⟨node, hnode, hnew⟩
    refine ⟨(node, position), mem_filter.mpr ⟨mem_zipIdx_iff_getElem?.mpr hnode, ?_⟩, rfl⟩
    exact Option.isNone_iff_eq_none.mpr ((previousPositions_eq_none hids).mpr hnew)

/-- The removed nodes are those whose id is in no later node. -/
lemma mem_removed (hids : (before.map A11yNode.id).Nodup) :
    position ∈ (diffNodes before after).removed ↔
      ∃ old, before[position]? = some old ∧ ∀ node ∈ after, node.id ≠ old.id := by
  have hseen := fun index => @seen_foldl before (previousPositions before)
    after.zipIdx (⟨[], [], []⟩, List.replicate before.length false) index
  have hfound : ∀ old, before[position]? = some old →
      ((after.zipIdx.any fun entry => (previousPositions before)[entry.1.id]? == some position) =
        false ↔ ∀ node ∈ after, node.id ≠ old.id) := by
    intro old hold
    rw [any_eq_false]
    constructor
    · intro h node hmem hid
      obtain ⟨index, hindex⟩ := List.getElem?_of_mem hmem
      refine h (node, index) (mem_zipIdx_iff_getElem?.mpr hindex) ?_
      rw [(previousPositions_eq_some hids).mpr ⟨old, hold, hid.symm⟩]
      exact beq_self_eq_true _
    · rintro h ⟨node, index⟩ hmem hsome
      obtain ⟨found, hfound, hid⟩ := (previousPositions_eq_some hids).mp (eq_of_beq hsome)
      rw [hold] at hfound
      cases hfound
      exact h node (mem_of_getElem? (mem_zipIdx_iff_getElem?.mp hmem)) hid.symm
  show position ∈ ((List.zipIdx _).filter _).map _ ↔ _
  rw [mem_map]
  constructor
  · rintro ⟨⟨seen, index⟩, hmem, rfl⟩
    obtain ⟨hmem, hunseen⟩ := mem_filter.mp hmem
    have hentry := mem_zipIdx_iff_getElem?.mp hmem
    rw [hseen, Option.map_eq_some_iff] at hentry
    obtain ⟨start, hstart, hany⟩ := hentry
    rw [List.getElem?_replicate, Option.ite_none_right_eq_some] at hstart
    obtain ⟨hlt, hstart⟩ := hstart
    cases hstart
    have hold : before[index]? = some before[index] := List.getElem?_eq_getElem hlt
    refine ⟨before[index], hold, (hfound _ hold).mp ?_⟩
    rw [Bool.false_or] at hany
    rw [hany]
    simpa using hunseen
  · rintro ⟨old, hold, hgone⟩
    refine ⟨(false, position), mem_filter.mpr ⟨mem_zipIdx_iff_getElem?.mpr ?_, rfl⟩, rfl⟩
    have hlt := (List.getElem?_eq_some_iff.mp hold).1
    rw [hseen, List.getElem?_replicate_of_lt hlt, Option.map_some, (hfound old hold).mpr hgone]
    rfl

lemma mem_changed (hids : (before.map A11yNode.id).Nodup) :
    position ∈ (diffNodes before after).changed.map Prod.fst ↔
      ∃ node, after[position]? = some node ∧ ∃ old ∈ before, old.id = node.id ∧
        { old with subrole := node.subrole } ≠ node := by
  rw [changed_eq, mem_map]
  constructor
  · rintro ⟨change, hmem, rfl⟩
    obtain ⟨⟨node, index⟩, hentry, hchange⟩ := mem_filterMap.mp hmem
    obtain ⟨was, hwas, hfields⟩ := Option.bind_eq_some_iff.mp hchange
    obtain ⟨old, hold, hid⟩ := (previousPositions_eq_some hids).mp hwas
    simp only [hold, Option.elim_some, Option.ite_none_left_eq_some] at hfields
    obtain ⟨hfields, hsome⟩ := hfields
    rw [← Option.some.inj hsome]
    refine ⟨node, List.mem_zipIdx_iff_getElem?.mp hentry, old, List.mem_of_getElem? hold, hid, ?_⟩
    rw [ne_eq, ← changedFields_eq_nil hid, ← List.isEmpty_iff]
    exact hfields
  · rintro ⟨node, hnode, old, hold, hid, hdiffers⟩
    obtain ⟨was, hwas⟩ := List.getElem?_of_mem hold
    refine ⟨(position, changedFields old node), mem_filterMap.mpr
      ⟨(node, position), List.mem_zipIdx_iff_getElem?.mpr hnode, ?_⟩, rfl⟩
    rw [ne_eq, ← changedFields_eq_nil hid, ← List.isEmpty_iff] at hdiffers
    simp only [changeOf, (previousPositions_eq_some hids).mpr ⟨old, hwas, hid⟩, Option.bind_some,
      hwas, Option.elim_some, if_neg hdiffers]

end

/-! ## Exactness -/

/-- What a difference of two walks is to say. -/
structure Exact (before after : List A11yNode) (diff : NodeDiff) : Prop where
  added : ∀ position, position ∈ diff.added ↔
    ∃ node, after[position]? = some node ∧ ∀ old ∈ before, old.id ≠ node.id
  removed : ∀ position, position ∈ diff.removed ↔
    ∃ old, before[position]? = some old ∧ ∀ node ∈ after, node.id ≠ old.id
  changed : ∀ position, position ∈ diff.changed.map Prod.fst ↔
    ∃ node, after[position]? = some node ∧ ∃ old ∈ before, old.id = node.id ∧ old ≠ node
  /-- Nothing is named twice. -/
  once : diff.added.Nodup ∧ diff.removed.Nodup ∧ (diff.changed.map Prod.fst).Nodup
  empty : diff.isEmpty = true → ∀ node, node ∈ before ↔ node ∈ after

lemma nodup_positions {α : Type} (entries : List α) : (entries.zipIdx.map Prod.snd).Nodup := by
  rw [zipIdx_map_snd]
  exact nodup_range'

lemma named_once (before after : List A11yNode) :
    (diffNodes before after).added.Nodup ∧ (diffNodes before after).removed.Nodup ∧
      ((diffNodes before after).changed.map Prod.fst).Nodup := by
  refine ⟨?_, ?_, ?_⟩
  · rw [added_eq]
    exact (nodup_positions after).sublist (filter_sublist.map _)
  · exact (nodup_positions _).sublist (filter_sublist.map _)
  · rw [changed_eq]
    exact (nodup_positions after).sublist (map_fst_changes _)

/-- Walks of which nothing is added, removed or changed have the same nodes. -/
lemma mem_iff_of_unchanged {after : List A11yNode}
    (hadded : ∀ node ∈ after, ∃ old ∈ before, old.id = node.id)
    (hremoved : ∀ old ∈ before, ∃ node ∈ after, node.id = old.id)
    (hchanged : ∀ node ∈ after, ∀ old ∈ before, old.id = node.id → old = node) (node : A11yNode) :
    node ∈ before ↔ node ∈ after := by
  constructor
  · intro hold
    obtain ⟨later, hlater, hid⟩ := hremoved node hold
    rwa [hchanged later hlater node hold hid.symm]
  · intro hnew
    obtain ⟨old, hold, hid⟩ := hadded node hnew
    rwa [← hchanged node hnew old hold hid]

lemma empty_of_exact {after : List A11yNode} {diff : NodeDiff}
    (hadded : ∀ position, position ∈ diff.added ↔
      ∃ node, after[position]? = some node ∧ ∀ old ∈ before, old.id ≠ node.id)
    (hremoved : ∀ position, position ∈ diff.removed ↔
      ∃ old, before[position]? = some old ∧ ∀ node ∈ after, node.id ≠ old.id)
    (hchanged : ∀ position, position ∈ diff.changed.map Prod.fst ↔
      ∃ node, after[position]? = some node ∧ ∃ old ∈ before, old.id = node.id ∧ old ≠ node)
    (hempty : diff.isEmpty = true) (node : A11yNode) : node ∈ before ↔ node ∈ after := by
  simp only [NodeDiff.isEmpty, Bool.and_eq_true, List.isEmpty_iff] at hempty
  obtain ⟨⟨hnoAdded, hnoRemoved⟩, hnoChanged⟩ := hempty
  refine mem_iff_of_unchanged ?_ ?_ ?_ node
  · intro node hmem
    obtain ⟨position, hposition⟩ := List.getElem?_of_mem hmem
    by_contra hnone
    have hin := (hadded position).mpr ⟨node, hposition, fun old hold hid => hnone ⟨old, hold, hid⟩⟩
    rw [hnoAdded] at hin
    exact absurd hin List.not_mem_nil
  · intro old hmem
    obtain ⟨position, hposition⟩ := List.getElem?_of_mem hmem
    by_contra hnone
    have hin := (hremoved position).mpr
      ⟨old, hposition, fun node hnode hid => hnone ⟨node, hnode, hid⟩⟩
    rw [hnoRemoved] at hin
    exact absurd hin List.not_mem_nil
  · intro node hmem old hold hid
    obtain ⟨position, hposition⟩ := List.getElem?_of_mem hmem
    by_contra hne
    have hin := (hchanged position).mpr ⟨node, hposition, old, hold, hid, hne⟩
    rw [hnoChanged] at hin
    exact absurd hin List.not_mem_nil

/-- The difference is exact when no node changes in its subrole alone. -/
theorem diffNodes_exact_iff {before after : List A11yNode}
    (hbefore : (before.map A11yNode.id).Nodup) :
    Exact before after (diffNodes before after) ↔
      ∀ old ∈ before, ∀ node ∈ after, old.id = node.id →
        { old with subrole := node.subrole } = node → old = node := by
  constructor
  · intro h old hold node hnode hid hsame
    by_contra hne
    obtain ⟨position, hposition⟩ := List.getElem?_of_mem hnode
    have hin := (h.changed position).mpr ⟨node, hposition, old, hold, hid, hne⟩
    obtain ⟨node', hnode', old', hold', hid', hdiffers⟩ := (mem_changed hbefore).mp hin
    rw [hposition] at hnode'
    cases hnode'
    have heq : old' = old := inj_on_of_nodup_map hbefore hold' hold (hid'.trans hid.symm)
    exact hdiffers (heq ▸ hsame)
  · intro h
    have hchanged : ∀ position, position ∈ (diffNodes before after).changed.map Prod.fst ↔
        ∃ node, after[position]? = some node ∧ ∃ old ∈ before, old.id = node.id ∧ old ≠ node := by
      intro position
      rw [mem_changed hbefore]
      constructor
      · rintro ⟨node, hnode, old, hold, hid, hdiffers⟩
        refine ⟨node, hnode, old, hold, hid, fun heq => hdiffers ?_⟩
        rw [heq]
      · rintro ⟨node, hnode, old, hold, hid, hne⟩
        exact ⟨node, hnode, old, hold, hid, fun hsame =>
          hne (h old hold node (mem_of_getElem? hnode) hid hsame)⟩
    exact ⟨fun _ => mem_added hbefore, fun _ => mem_removed hbefore, hchanged,
      named_once before after,
      empty_of_exact (fun _ => mem_added hbefore) (fun _ => mem_removed hbefore) hchanged⟩

def windowNode (subrole : Option String) (name : String) : A11yNode where
  id := "/0"
  parentId := none
  role := "AXWindow"
  subrole := subrole
  name := name
  states := []
  bounds := ⟨0, 0, 10, 10⟩
  actions := []
  text := none
  identifier := none

/-- A part of the window. -/
def buttonNode (id : String) : A11yNode :=
  { windowNode none "button" with id, parentId := some "/0", role := "AXButton" }

/-- A window with another name, and one button in place of another: one change, one removal and one
addition. -/
theorem diffNodes_exact_iff_replaced :
    Exact [windowNode none "a", buttonNode "/0/0"] [windowNode none "b", buttonNode "/0/1"]
        (diffNodes [windowNode none "a", buttonNode "/0/0"]
          [windowNode none "b", buttonNode "/0/1"]) ∧
      (diffNodes [windowNode none "a", buttonNode "/0/0"]
        [windowNode none "b", buttonNode "/0/1"]).isEmpty = false := by
  refine ⟨(diffNodes_exact_iff (by decide)).mpr fun old hold node hnode hid hsame => ?_, by decide⟩
  rcases mem_pair.mp hold with rfl | rfl <;> rcases mem_pair.mp hnode with rfl | rfl
  · exact absurd hsame (by decide)
  all_goals exact absurd hid (by decide)

/-- A window that becomes a dialog is not named. -/
theorem subrole_not_named :
    ([windowNode none "a"].map A11yNode.id).Nodup ∧
      ([windowNode (some "AXDialog") "a"].map A11yNode.id).Nodup ∧
      ¬ Exact [windowNode none "a"] [windowNode (some "AXDialog") "a"]
        (diffNodes [windowNode none "a"] [windowNode (some "AXDialog") "a"]) := by
  refine ⟨by decide, by decide, fun h => ?_⟩
  have hempty : (diffNodes [windowNode none "a"] [windowNode (some "AXDialog") "a"]).isEmpty =
      true := by decide
  have hmem := (h.empty hempty (windowNode none "a")).mp mem_cons_self
  exact absurd (mem_singleton.mp hmem) (by decide)

end Agenterm.Cu.Snapshot
