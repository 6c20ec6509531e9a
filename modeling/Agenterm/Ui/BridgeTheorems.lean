import Agenterm.Lib.Checks
import Agenterm.Lib.Digits
import Agenterm.Ui.Bridge

/-!
# What the checks of the UI bridge accept

`UiBootstrapSnapshot.Valid` lists what a snapshot must be to pass the check
(`UiBootstrapSnapshot.validate_eq_ok`); the order of the tabs does not matter to it, except
through the size of the text, which does not depend on the order either
(`encodedLength_array_perm`). Tab ids on the wire are valid and determine the id
(`stableTabId_inj`).
-/

namespace Agenterm

open Lib List

/-! ## Tab ids on the wire -/

lemma toList_stableTabId (id : Nat) : (stableTabId id).toList = '@' :: Nat.toDigits 10 id := by
  simp [stableTabId, String.toList_append, Nat.toString_eq_repr, Nat.toList_repr]

variable {ids : List String} {indices : List Nat} {m n : Nat} {tabs : List UiTabBootstrap}

theorem stableTabId_inj (h : stableTabId m = stableTabId n) : m = n := by
  have hlist := congrArg String.toList h
  rw [toList_stableTabId, toList_stableTabId, List.cons.injEq] at hlist
  exact toDigits_inj (by decide) (by decide) hlist.2

@[simp] theorem stableTabId_eq_iff : stableTabId m = stableTabId n ↔ m = n :=
  ⟨stableTabId_inj, congrArg stableTabId⟩

theorem validStableTabId_stableTabId (id : Nat) : validStableTabId (stableTabId id) = true := by
  have hpos : (Nat.toDigits 10 id).isEmpty = false := by
    have hlen : 0 < (Nat.toDigits 10 id).length := Nat.length_toDigits_pos
    cases hdigits : Nat.toDigits 10 id with
    | nil => rw [hdigits] at hlen; exact absurd hlen (by simp)
    | cons c cs => rfl
  have hdigit : (Nat.toDigits 10 id).all Char.isDigit = true := by
    rw [all_eq_true]
    exact fun c hc => Nat.isDigit_of_mem_toDigits (by decide) (by decide) hc
  rw [validStableTabId, toList_stableTabId]
  simp only [hpos, hdigit, Bool.not_false, Bool.and_self]

/-! ## Sizes -/

/-- The size of an array does not depend on the order of its items. -/
theorem encodedLength_array_perm {α : Type} (f : α → Value) {l l' : List α} (h : l.Perm l') :
    (Value.array (l.map f)).encodedLength = (Value.array (l'.map f)).encodedLength := by
  simp only [Value.encodedLength, itemsLength_map, length_map, h.length_eq]
  rw [(h.map fun a => (f a).encodedLength).sum_nat]

/-! ## Snapshots -/

/-- What a tab of a snapshot must be, apart from the other tabs. -/
structure UiTabBootstrap.Valid (tab : UiTabBootstrap) : Prop where
  id_valid : validStableTabId tab.id = true
  title_le : tab.title.utf8ByteSize ≤ uiTabTitleMaxBytes
  note_le : tab.note.utf8ByteSize ≤ uiTabNoteMaxBytes
  sensitive : tab.composer.sensitive ≠ tab.composer.text.isSome
  composer : ∀ text, tab.composer.text = some text →
    text.utf8ByteSize = tab.composer.byteLength
  screen_id : tab.screen.tabId = tab.id
  screen : tab.screen.validate = .ok ()

/-- What a snapshot must be to pass the check. -/
structure UiBootstrapSnapshot.Valid (s : UiBootstrapSnapshot) : Prop where
  schema : s.schemaVersion = uiBootstrapSchemaVersion
  pid : s.serverPid ≠ 0
  epoch_nonempty : s.serverEpoch.isEmpty = false
  epoch_le : s.serverEpoch.utf8ByteSize ≤ 128
  position : s.position.serverEpoch = s.serverEpoch
  tabs_le : s.tabs.length ≤ uiBootstrapMaxTabs
  completeness : ¬ (s.complete = true ∧ s.truncated = true)
  tabs : ∀ tab ∈ s.tabs, tab.Valid
  ids_nodup : (s.tabs.map UiTabBootstrap.id).Nodup
  indices_nodup : (s.tabs.map UiTabBootstrap.index).Nodup
  parents : ∀ tab ∈ s.tabs, ∀ parent, tab.parentId = some parent →
    parent ≠ tab.id ∧ parent ∈ s.tabs.map UiTabBootstrap.id
  active : ∀ active, s.activeTabId = some active → active ∈ s.tabs.map UiTabBootstrap.id
  bytes : s.json.encodedLength ≤ uiBootstrapMaxBytes

theorem UiTabBootstrap.validate_eq_ok {tab : UiTabBootstrap} :
    tab.validate ids indices = .ok () ↔
      tab.Valid ∧ tab.id ∉ ids ∧ tab.index ∉ indices := by
  unfold UiTabBootstrap.validate
  simp only [ite_error_eq_ok, Bool.or_eq_true, decide_eq_true_eq, contains_iff_mem,
    Bool.not_eq_eq_eq_not, Bool.not_true, not_or, ne_eq, Decidable.not_not, Nat.not_lt,
    Bool.not_eq_false, Option.any_eq_true, not_exists, not_and]
  constructor
  · rintro ⟨⟨⟨hid, hfresh⟩, hindex⟩, ⟨htitle, hnote⟩, ⟨hsensitive, hcomposer⟩, hscreen, hvalid⟩
    exact ⟨⟨hid, htitle, hnote, hsensitive, hcomposer, hscreen, hvalid⟩, hfresh, hindex⟩
  · rintro ⟨h, hfresh, hindex⟩
    exact ⟨⟨⟨h.id_valid, hfresh⟩, hindex⟩, ⟨h.title_le, h.note_le⟩, ⟨h.sensitive, h.composer⟩,
      h.screen_id, h.screen⟩

namespace UiBootstrapSnapshot

lemma validateTabs_eq_ok :
    validateTabs ids indices tabs = .ok () ↔
      (∀ tab ∈ tabs, tab.Valid) ∧ (tabs.map UiTabBootstrap.id).Nodup ∧
        (tabs.map UiTabBootstrap.index).Nodup ∧
        (∀ tab ∈ tabs, tab.id ∉ ids) ∧ ∀ tab ∈ tabs, tab.index ∉ indices := by
  induction tabs generalizing ids indices with
  | nil => simp [validateTabs]
  | cons tab tabs ih =>
    rw [validateTabs, bind_unit_eq_ok]
    simp only [UiTabBootstrap.validate_eq_ok, ih, map_cons, nodup_cons,
      mem_cons, forall_eq_or_imp, not_or, mem_map, not_exists, not_and]
    constructor
    · rintro ⟨⟨hvalid, hid, hindex⟩, htabs, hids, hindices, hfresh, hfree⟩
      exact ⟨⟨hvalid, htabs⟩, ⟨fun t ht => (hfresh t ht).1, hids⟩,
        ⟨fun t ht => (hfree t ht).1, hindices⟩, ⟨hid, fun t ht => (hfresh t ht).2⟩, hindex,
        fun t ht => (hfree t ht).2⟩
    · rintro ⟨⟨hvalid, htabs⟩, ⟨hnew, hids⟩, ⟨hnewIndex, hindices⟩, ⟨hid, hfresh⟩, hindex,
        hfree⟩
      exact ⟨⟨hvalid, hid, hindex⟩, htabs, hids, hindices,
        fun t ht => ⟨hnew t ht, hfresh t ht⟩, fun t ht => ⟨hnewIndex t ht, hfree t ht⟩⟩

lemma parentsKnown_eq_true :
    parentsKnown ids tabs = true ↔
      ∀ tab ∈ tabs, ∀ parent, tab.parentId = some parent → parent ≠ tab.id ∧ parent ∈ ids := by
  simp [parentsKnown, Option.all_eq_true]

/-- **The check accepts exactly the valid snapshots.** -/
theorem validate_eq_ok {s : UiBootstrapSnapshot} : s.validate = .ok () ↔ s.Valid := by
  unfold validate
  simp only [ite_error_eq_ok, bind_unit_eq_ok, validateTabs_eq_ok,
    parentsKnown_eq_true, Bool.or_eq_true, Bool.and_eq_true, decide_eq_true_eq, ne_eq,
    Decidable.not_not, not_or, Nat.not_lt, Bool.not_eq_eq_eq_not, Bool.not_true,
    Bool.not_eq_false, Bool.not_eq_true, Option.any_eq_true, not_exists, not_and,
    contains_iff_mem, and_true]
  constructor
  · rintro ⟨hschema, ⟨⟨⟨hpid, hempty⟩, hepoch⟩, hposition⟩, hlen, hcomplete,
      ⟨htabs, hids, hindices, -, -⟩, hparents, hactive, hbytes⟩
    exact ⟨hschema, hpid, hempty, hepoch, hposition, hlen, fun hc => by simp [hcomplete hc.1] at hc,
      htabs, hids, hindices, hparents, hactive, hbytes⟩
  · intro h
    refine ⟨h.schema, ⟨⟨⟨h.pid, h.epoch_nonempty⟩, h.epoch_le⟩, h.position⟩, h.tabs_le, ?_,
      ⟨h.tabs, h.ids_nodup, h.indices_nodup, by simp, by simp⟩, h.parents, h.active, h.bytes⟩
    intro hc
    cases htruncated : s.truncated with
    | false => rfl
    | true => exact absurd ⟨hc, htruncated⟩ h.completeness

end UiBootstrapSnapshot

end Agenterm
