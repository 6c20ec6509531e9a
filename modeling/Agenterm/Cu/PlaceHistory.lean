import Agenterm.Cu.Geometry
import Agenterm.Lib.Maps
import Agenterm.Lib.Timeline

/-!
# The history of placements

`place/history.rs`: for each application, the rectangles that its windows were placed at, with a
cursor. The windows of an application share the stack, and an undo goes to the window that is
selected then. A stack that holds anything is a timeline (`AppStack.Shows`), on which recording,
undoing and redoing are those of the timeline.
-/

namespace Agenterm.Cu.Place

open Lib Std List

structure Item where
  handle : Int
  x : ℚ
  y : ℚ
  width : ℚ
  height : ℚ
deriving DecidableEq

def item (handle : Int) (rect : Rect) : Item :=
  ⟨handle, rect.x, rect.y, rect.width, rect.height⟩

def fromItem (item : Item) : Int × Rect :=
  (item.handle, ⟨item.x, item.y, item.width, item.height⟩)

structure AppStack where
  items : List Item := []
  index : Nat := 0
deriving DecidableEq

structure Store where
  apps : TreeMap String AppStack := {}

/-! ## Stacks -/

/-- The loop at the end of `record`: the oldest items go while there are more than 40. -/
def evict : List Item → Nat → AppStack
  | [], index => ⟨[], index⟩
  | oldest :: items, index =>
    if 40 < (oldest :: items).length then evict items (index - 1) else ⟨oldest :: items, index⟩

/-- What `record` keeps: the rectangle before it on an empty stack, and else what stands up to the
cursor. -/
def AppStack.kept (stack : AppStack) (handle : Int) (before : Rect) : AppStack :=
  if stack.items.isEmpty then ⟨[item handle before], 0⟩
  else if stack.index + 1 < stack.items.length then
    { stack with items := stack.items.take (stack.index + 1) }
  else stack

def AppStack.record (stack : AppStack) (handle : Int) (before after : Rect) : AppStack :=
  let items := (stack.kept handle before).items ++ [item handle after]
  evict items (items.length - 1)

def AppStack.undo (stack : AppStack) : Option (AppStack × Int × Rect) :=
  if stack.index = 0 || stack.items.isEmpty then none
  else
    stack.items[stack.index - 1]?.map fun item =>
      ({ stack with index := stack.index - 1 }, fromItem item)

def AppStack.redo (stack : AppStack) : Option (AppStack × Int × Rect) :=
  if stack.items.length ≤ stack.index + 1 then none
  else
    stack.items[stack.index + 1]?.map fun item =>
      ({ stack with index := stack.index + 1 }, fromItem item)

/-- `validate_store` on one application, whose name stands in the message as `debug` quotes it. -/
def AppStack.validate (debug : String → String) (app : String) (stack : AppStack) :
    Except String Unit :=
  if 40 < stack.items.length then
    .error s!"application {debug app} has {stack.items.length} items; maximum is 40"
  else if stack.items.isEmpty then
    if stack.index ≠ 0 then
      .error s!"application {debug app} has index {stack.index} for an empty stack"
    else .ok ()
  else if stack.items.length ≤ stack.index then
    .error s!"application {debug app} has index {stack.index} outside {stack.items.length} items"
  else .ok ()

/-! ## The store -/

def validateStore (debug : String → String) (store : Store) : Except String Unit :=
  store.apps.toList.forM fun (app, stack) => stack.validate debug app

namespace Store

def planRecord (store : Store) (appKey : String) (handle : Int) (before after : Rect) : Store :=
  { apps := store.apps.insert appKey
      (((store.apps[appKey]?).getD {}).record handle before after) }

/-- The plans for an undo and a redo, which leave the window of the item out. -/
def planWith (move : AppStack → Option (AppStack × Int × Rect)) (store : Store) (appKey : String) :
    Option (Store × Rect) :=
  ((store.apps[appKey]?).bind move).map fun (stack, _, rect) =>
    ({ apps := store.apps.insert appKey stack }, rect)

def planUndo : Store → String → Option (Store × Rect) := planWith AppStack.undo

def planRedo : Store → String → Option (Store × Rect) := planWith AppStack.redo

/-- The rectangle at the cursor of an application. -/
def shown (store : Store) (appKey : String) : Option Rect :=
  (store.apps[appKey]?).bind fun stack =>
    (stack.items[stack.index]?).map fun item => (fromItem item).2

end Store

/-- What is open or planned in a run of the history, from a file that `open_at` accepts. -/
inductive Reachable (debug : String → String) : Store → Prop
  | opened {store : Store} : validateStore debug store = .ok () → Reachable debug store
  | recorded {store : Store} (appKey : String) (handle : Int) (before after : Rect) :
    Reachable debug store → Reachable debug (store.planRecord appKey handle before after)
  | undone {store store' : Store} {appKey : String} {rect : Rect} :
    Reachable debug store → store.planUndo appKey = some (store', rect) → Reachable debug store'
  | redone {store store' : Store} {appKey : String} {rect : Rect} :
    Reachable debug store → store.planRedo appKey = some (store', rect) → Reachable debug store'

/-! ## Stacks as timelines -/

/-- A stack that holds something, as a timeline. -/
structure AppStack.Shows (stack : AppStack) (t : Timeline Item) : Prop where
  items : stack.items = t.toList
  index : stack.index = t.past.length

/-- The cursor is inside the items, of which there are at most 40. -/
structure AppStack.Valid (stack : AppStack) : Prop where
  length_le : stack.items.length ≤ 40
  empty : stack.items = [] → stack.index = 0
  inside : stack.items ≠ [] → stack.index < stack.items.length

variable {debug : String → String} {move : AppStack → Option (AppStack × Int × Rect)}
  {other : String} {stack' : AppStack} {target : Int × Rect}

section
variable {stack : AppStack} {t t' : Timeline Item} {handle : Int} {before after : Rect}

lemma evict_eq (items : List Item) (index : Nat) :
    evict items index = ⟨items.drop (items.length - 40), index - (items.length - 40)⟩ := by
  induction items generalizing index with
  | nil => rfl
  | cons oldest items ih =>
    rw [evict]
    split
    next hmore =>
      have hlength : (oldest :: items).length - 40 = items.length - 40 + 1 := by
        rw [length_cons] at hmore ⊢
        omega
      rw [ih, hlength, drop_succ_cons]
      congr 1
      omega
    next hfits =>
      rw [Nat.sub_eq_zero_of_le (Nat.le_of_not_lt hfits)]
      rfl

/-- A record on a stack with items: those up to the cursor stay, less the oldest beyond 40. -/
lemma AppStack.Shows.record (h : stack.Shows t) :
    (stack.record handle before after).Shows (t.record 40 (item handle after)) := by
  have hlength := t.length_toList
  have hnonempty : stack.items.isEmpty = false := by
    rw [h.items, isEmpty_eq_false_iff, ← length_pos_iff]
    omega
  have hkept : stack.items.take (stack.index + 1) = t.past.reverse ++ [t.present] := by
    have hplace : t.past.reverse.length = t.past.length := length_reverse
    rw [h.items, h.index, Timeline.toList, ← hplace, take_length_add_append]
    rfl
  have hitems : (stack.kept handle before).items = t.past.reverse ++ [t.present] := by
    rw [AppStack.kept, hnonempty, if_neg Bool.false_ne_true, ← hkept]
    split
    · rfl
    · exact (take_of_length_le (by omega)).symm
  unfold AppStack.record
  dsimp only
  rw [hitems, evict_eq]
  have hcount : (t.past.reverse ++ [t.present] ++ [item handle after]).length
      = t.past.length + 2 := by
    simp only [length_append, length_reverse, length_singleton]
  constructor
  · rw [Timeline.toList_record (by omega), hcount, append_assoc]
    rfl
  · show _ - 1 - (_ - 40) = ((t.present :: t.past).take (40 - 1)).length
    rw [hcount, length_take, length_cons]
    omega

/-- The first record keeps the rectangle before it. -/
lemma AppStack.record_empty (h : stack.items = []) :
    (stack.record handle before after).Shows
      ((Timeline.single (item handle before)).record 40 (item handle after)) := by
  unfold AppStack.record AppStack.kept
  rw [h]
  exact ⟨rfl, rfl⟩

lemma AppStack.Shows.undo (h : stack.Shows t) (hundo : t.undo = some t') :
    ∃ stack', stack.undo = some (stack', fromItem t'.present) ∧ stack'.Shows t' := by
  obtain ⟨hsame, hcursor⟩ := Timeline.undo_eq_some hundo
  have hnonempty : stack.items.isEmpty = false := by
    rw [h.items, isEmpty_eq_false_iff, ← length_pos_iff, t.length_toList]
    omega
  have hindex : stack.index = t'.past.length + 1 := h.index.trans hcursor
  refine ⟨⟨stack.items, stack.index - 1⟩, ?_, ⟨h.items.trans hsame.symm, ?_⟩⟩
  · rw [AppStack.undo, hnonempty, hindex, if_neg (by simp), h.items, ← hsame,
      Nat.add_sub_cancel, Timeline.toList_past_length]
    rfl
  · show stack.index - 1 = _
    rw [hindex, Nat.add_sub_cancel]

lemma AppStack.Shows.redo (h : stack.Shows t) (hredo : t.redo = some t') :
    ∃ stack', stack.redo = some (stack', fromItem t'.present) ∧ stack'.Shows t' := by
  obtain ⟨hsame, hcursor⟩ := Timeline.redo_eq_some hredo
  have hlength := t'.length_toList
  have hindex : stack.index + 1 = t'.past.length := by rw [h.index, hcursor]
  refine ⟨⟨stack.items, stack.index + 1⟩, ?_, ⟨h.items.trans hsame.symm, hindex⟩⟩
  rw [AppStack.redo, hindex, h.items, ← hsame, if_neg (by omega), Timeline.toList_past_length]
  rfl

/-! ## Validity -/

lemma AppStack.valid_of_shows (h : stack.Shows t) (hlength : t.toList.length ≤ 40) :
    stack.Valid := by
  have hcount := t.length_toList
  have hitems := congrArg List.length h.items
  have hindex := h.index
  refine ⟨by omega, fun hempty => ?_, fun _ => by omega⟩
  rw [hempty, length_nil] at hitems
  omega

lemma AppStack.Valid.exists_shows (h : stack.Valid) (hne : stack.items ≠ []) :
    ∃ t : Timeline Item, stack.Shows t :=
  let ⟨t, hitems, hindex⟩ := Timeline.exists_toList (h.inside hne)
  ⟨t, hitems.symm, hindex.symm⟩

/-- What `open_at` accepts. -/
lemma AppStack.validate_eq_ok {app : String} : stack.validate debug app = .ok () ↔ stack.Valid := by
  unfold AppStack.validate
  rw [ite_error_eq_ok]
  by_cases hempty : stack.items = []
  · rw [hempty, isEmpty_nil, if_pos rfl, ite_error_eq_ok]
    exact ⟨fun h => ⟨by simp [hempty], fun _ => of_not_not h.2.1, fun hne => absurd hempty hne⟩,
      fun h => ⟨by simp, not_not.mpr (h.empty hempty), rfl⟩⟩
  · rw [isEmpty_eq_false_iff.mpr hempty, if_neg Bool.false_ne_true, ite_error_eq_ok]
    exact ⟨fun h => ⟨by omega, fun h' => absurd h' hempty, fun _ => by omega⟩,
      fun h => ⟨Nat.not_lt.mpr h.length_le, Nat.not_le.mpr (h.inside hempty), rfl⟩⟩

lemma AppStack.Valid.record (h : stack.Valid) : (stack.record handle before after).Valid := by
  by_cases hempty : stack.items = []
  · exact valid_of_shows (record_empty hempty) (Timeline.length_record_le (by omega))
  · obtain ⟨t, ht⟩ := h.exists_shows hempty
    exact valid_of_shows ht.record (Timeline.length_record_le (by omega))

lemma AppStack.Valid.undo (h : stack.Valid) (hundo : stack.undo = some (stack', target)) :
    stack'.Valid := by
  unfold AppStack.undo at hundo
  split at hundo
  · cases hundo
  · obtain ⟨item, -, heq⟩ := Option.map_eq_some_iff.mp hundo
    cases heq
    refine ⟨h.length_le, fun hempty => ?_, fun hne => ?_⟩
    · show stack.index - 1 = 0
      rw [h.empty hempty]
    · exact Nat.lt_of_le_of_lt (Nat.sub_le _ _) (h.inside hne)

lemma AppStack.Valid.redo (h : stack.Valid) (hredo : stack.redo = some (stack', target)) :
    stack'.Valid := by
  unfold AppStack.redo at hredo
  split at hredo
  · cases hredo
  · rename_i hmore
    obtain ⟨item, -, heq⟩ := Option.map_eq_some_iff.mp hredo
    cases heq
    have hroom : stack.index + 1 < stack.items.length := Nat.not_le.mp hmore
    refine ⟨h.length_le, fun hempty => ?_, fun _ => hroom⟩
    rw [show stack.items = [] from hempty] at hroom
    exact absurd hroom (Nat.not_lt_zero _)

end

/-- The cursor of every application is inside its items. -/
def Store.Valid (store : Store) : Prop :=
  ∀ (appKey : String) (stack : AppStack), store.apps[appKey]? = some stack → stack.Valid

section
variable {store store' : Store} {appKey : String} {rect : Rect}

lemma Store.Valid.insert (h : store.Valid) {stack : AppStack} (hstack : stack.Valid) :
    Store.Valid { apps := store.apps.insert appKey stack } := by
  intro key found hfound
  rcases insert_eq_some hfound with ⟨-, hsame⟩ | ⟨-, hkept⟩
  · exact hsame ▸ hstack
  · exact h key found hkept

lemma Store.Valid.getD (h : store.Valid) (appKey : String) :
    ((store.apps[appKey]?).getD {}).Valid := by
  cases hfound : store.apps[appKey]? with
  | none => exact ⟨by simp, fun _ => rfl, fun hne => absurd rfl hne⟩
  | some stack => exact h appKey stack hfound

lemma Store.Valid.planRecord (h : store.Valid) (appKey : String) (handle : Int)
    (before after : Rect) :
    (store.planRecord appKey handle before after).Valid :=
  h.insert (h.getD appKey).record

lemma Store.planWith_eq_some (h : store.planWith move appKey = some (store', rect)) :
    ∃ stack stack' target, store.apps[appKey]? = some stack ∧ move stack = some (stack', target) ∧
      rect = target.2 ∧ store' = { apps := store.apps.insert appKey stack' } := by
  obtain ⟨⟨stack', target⟩, hbind, heq⟩ := Option.map_eq_some_iff.mp h
  obtain ⟨stack, hfound, hmove⟩ := Option.bind_eq_some_iff.mp hbind
  cases heq
  exact ⟨stack, stack', target, hfound, hmove, rfl, rfl⟩

lemma Store.Valid.planUndo (h : store.Valid) (hplan : store.planUndo appKey = some (store', rect)) :
    store'.Valid := by
  obtain ⟨stack, stack', target, hfound, hmove, -, rfl⟩ := planWith_eq_some hplan
  exact h.insert ((h appKey stack hfound).undo hmove)

lemma Store.Valid.planRedo (h : store.Valid) (hplan : store.planRedo appKey = some (store', rect)) :
    store'.Valid := by
  obtain ⟨stack, stack', target, hfound, hmove, -, rfl⟩ := planWith_eq_some hplan
  exact h.insert ((h appKey stack hfound).redo hmove)

lemma validateStore_eq_ok : validateStore debug store = .ok () ↔ store.Valid := by
  rw [validateStore, forM_toList_eq_ok]
  exact forall_congr' fun _ => forall_congr' fun _ =>
    imp_congr_right fun _ => AppStack.validate_eq_ok

/-- Every history that is open or planned would be accepted again. -/
theorem Reachable.valid (h : Reachable debug store) : store.Valid := by
  induction h with
  | opened hvalid => exact validateStore_eq_ok.mp hvalid
  | recorded appKey handle before after _ ih => exact ih.planRecord appKey handle before after
  | undone _ hplan ih => exact ih.planUndo hplan
  | redone _ hplan ih => exact ih.planRedo hplan

/-- A store in which one application has a stack that shows `t`. -/
structure Store.Shows (store : Store) (appKey : String) (t : Timeline Item) : Prop where
  exists_stack : ∃ stack, store.apps[appKey]? = some stack ∧ stack.Shows t

/-- A record leads to a timeline whose undo shows what the cursor stood at, or the rectangle
before. -/
lemma Store.Valid.record_shows (h : store.Valid) (appKey : String) (handle : Int)
    (before after : Rect) :
    ∃ t : Timeline Item, (fromItem t.present).2 = (store.shown appKey).getD before ∧
      (store.planRecord appKey handle before after).Shows appKey
        (t.record 40 (item handle after)) := by
  have hkept := h.getD appKey
  have hfound : (store.planRecord appKey handle before after).apps[appKey]? =
      some (((store.apps[appKey]?).getD {}).record handle before after) :=
    TreeMap.getElem?_insert_self
  by_cases hempty : ((store.apps[appKey]?).getD {}).items = []
  · refine ⟨Timeline.single (item handle before), ?_, ⟨_, hfound, AppStack.record_empty hempty⟩⟩
    have hnone : store.shown appKey = none := by
      unfold Store.shown
      cases happ : store.apps[appKey]? with
      | none => rfl
      | some stack =>
        rw [happ, Option.getD_some] at hempty
        rw [Option.bind_some, hempty, List.getElem?_nil, Option.map_none]
    rw [hnone]
    rfl
  · obtain ⟨t, ht⟩ := hkept.exists_shows hempty
    refine ⟨t, ?_, ⟨_, hfound, ht.record⟩⟩
    have hsome : store.shown appKey = some (fromItem t.present).2 := by
      unfold Store.shown
      cases happ : store.apps[appKey]? with
      | none => exact absurd (by rw [happ]; rfl) hempty
      | some stack =>
        rw [happ, Option.getD_some] at ht
        rw [Option.bind_some, ht.items, ht.index, Timeline.toList_past_length, Option.map_some]
    rw [hsome, Option.getD_some]

variable {t t' : Timeline Item}

lemma Store.Shows.planUndo (h : store.Shows appKey t) (hundo : t.undo = some t') :
    ∃ undone, store.planUndo appKey = some (undone, (fromItem t'.present).2) ∧
      undone.Shows appKey t' := by
  obtain ⟨stack, hfound, hshows⟩ := h.exists_stack
  obtain ⟨stack', hmove, hshows'⟩ := hshows.undo hundo
  refine ⟨{ apps := store.apps.insert appKey stack' }, ?_,
    ⟨stack', TreeMap.getElem?_insert_self, hshows'⟩⟩
  rw [Store.planUndo, Store.planWith, hfound, Option.bind_some, hmove]
  rfl

lemma Store.Shows.planRedo (h : store.Shows appKey t) (hredo : t.redo = some t') :
    ∃ redone, store.planRedo appKey = some (redone, (fromItem t'.present).2) ∧
      redone.Shows appKey t' := by
  obtain ⟨stack, hfound, hshows⟩ := h.exists_stack
  obtain ⟨stack', hmove, hshows'⟩ := hshows.redo hredo
  refine ⟨{ apps := store.apps.insert appKey stack' }, ?_,
    ⟨stack', TreeMap.getElem?_insert_self, hshows'⟩⟩
  rw [Store.planRedo, Store.planWith, hfound, Option.bind_some, hmove]
  rfl

lemma planRecord_other (store : Store) (hother : appKey ≠ other) (handle : Int)
    (before after : Rect) :
    (store.planRecord appKey handle before after).apps[other]? = store.apps[other]? :=
  getElem?_insert_of_ne hother

lemma planWith_other (h : store.planWith move appKey = some (store', rect))
    (hother : appKey ≠ other) : store'.apps[other]? = store.apps[other]? := by
  obtain ⟨-, stack', -, -, -, -, rfl⟩ := Store.planWith_eq_some h
  exact getElem?_insert_of_ne hother

/-- An undo after a record goes back to what the cursor of the application stood at, which is the
rectangle before it only where the stack is empty or the last placement left that rectangle. A redo
comes back to the rectangle after it. -/
theorem undo_of_record {debug : String → String} (h : Reachable debug store) (appKey : String)
    (handle : Int) (before after : Rect) :
    ∃ undone redone, (store.planRecord appKey handle before after).planUndo appKey =
        some (undone, (store.shown appKey).getD before) ∧
      undone.planRedo appKey = some (redone, after) ∧
      (∀ other : String, appKey ≠ other →
        (store.planRecord appKey handle before after).apps[other]? = store.apps[other]? ∧
        undone.apps[other]? = store.apps[other]? ∧ redone.apps[other]? = store.apps[other]?) ∧
      store.Valid ∧ (store.planRecord appKey handle before after).Valid ∧ undone.Valid ∧
      redone.Valid := by
  have hvalid := h.valid
  obtain ⟨t, hpresent, hshows⟩ := hvalid.record_shows appKey handle before after
  obtain ⟨t', hundo, hback⟩ := t.undo_record (show 2 ≤ 40 by omega) (item handle after)
  obtain ⟨undone, hundone, hshows'⟩ := hshows.planUndo hundo
  obtain ⟨redone, hredone, -⟩ := hshows'.planRedo (Timeline.redo_of_undo hundo)
  have hvalid' := hvalid.planRecord appKey handle before after
  rw [hback, hpresent] at hundone
  refine ⟨undone, redone, hundone, hredone, fun other hother => ?_, hvalid, hvalid',
    hvalid'.planUndo hundone, (hvalid'.planUndo hundone).planRedo hredone⟩
  have hrecorded := planRecord_other store hother handle before after
  have hafter := (planWith_other hundone hother).trans hrecorded
  exact ⟨hrecorded, hafter, (planWith_other hredone hother).trans hafter⟩

/-- Two placements of an application are on record, and one of another application. -/
theorem undo_of_record_third :
    ∃ store undone redone, Reachable id store ∧
      (store.planRecord "editor" 7 ⟨9, 0, 10, 10⟩ ⟨20, 0, 10, 10⟩).planUndo "editor" =
        some (undone, ⟨9, 0, 10, 10⟩) ∧
      undone.planRedo "editor" = some (redone, ⟨20, 0, 10, 10⟩) ∧
      undone.apps["terminal"]? = store.apps["terminal"]? := by
  have hopened : Reachable id {} := .opened rfl
  have hrecorded : Reachable id _ := .recorded "editor" 7 ⟨5, 0, 10, 10⟩ ⟨9, 0, 10, 10⟩
    (.recorded "terminal" 3 ⟨1, 1, 10, 10⟩ ⟨2, 2, 10, 10⟩
      (.recorded "editor" 7 ⟨0, 0, 10, 10⟩ ⟨5, 0, 10, 10⟩ hopened))
  obtain ⟨undone, redone, hundo, hredo, hothers, -⟩ := undo_of_record hrecorded "editor" 7
    ⟨9, 0, 10, 10⟩ ⟨20, 0, 10, 10⟩
  exact ⟨_, undone, redone, hrecorded, hundo, hredo, (hothers "terminal" (by decide)).2.1⟩

/-- A window that was moved by hand between two placements is put back to the first placement, not
to where it was moved. -/
theorem undo_skips_move :
    ∃ store undone, Reachable id store ∧
      (store.planRecord "editor" 7 ⟨70, 0, 10, 10⟩ ⟨90, 0, 10, 10⟩).planUndo "editor" =
        some (undone, ⟨5, 0, 10, 10⟩) :=
  ⟨_, _, .recorded "editor" 7 ⟨0, 0, 10, 10⟩ ⟨5, 0, 10, 10⟩ (@Reachable.opened id {} rfl), rfl⟩

end

end Agenterm.Cu.Place
