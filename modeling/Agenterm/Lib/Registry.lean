import Agenterm.Lib.Run
import Mathlib.Logic.Relation

/-!
# Tables whose keys are drawn

A machine that keeps records under keys. An operation may draw a key for a new record; otherwise it
changes records in the ways that a relation allows, or removes them. When no key is drawn twice, a
key stands for one record through a whole run:

* `mem_drawn`: a record of a machine that started empty is under a key that was drawn;
* `absent_of_drawn`: there is no record under a key that is about to be drawn;
* `path`: between two states that have a record under a key, the record has only gone through
  allowed changes.
-/

namespace Agenterm.Lib

open List

/-- A machine with a table of records. -/
structure Registry (σ ι κ ρ : Type) where
  step : σ → ι → σ
  record : σ → κ → Option ρ
  /-- The key that an operation draws. -/
  drawn : ι → Option κ

namespace Registry

section
variable {σ ι κ ρ : Type}

/-- The keys that the operations draw. -/
def draws (m : Registry σ ι κ ρ) (ops : List ι) : List κ := ops.filterMap m.drawn

/-- In states with the invariant, a record is new under a key just drawn, or it comes from the one
before by a change that is allowed. -/
structure Changes (m : Registry σ ι κ ρ) (invariant : σ → Prop) (allowed : ρ → ρ → Prop) :
    Prop where
  step_invariant : ∀ s op, invariant s → invariant (m.step s op)
  step_record : ∀ s op key record', invariant s → m.record (m.step s op) key = some record' →
    m.drawn op = some key ∨ ∃ record, m.record s key = some record ∧ allowed record record'

variable {m : Registry σ ι κ ρ} {invariant : σ → Prop} {allowed : ρ → ρ → Prop}
  (h : m.Changes invariant allowed)
include h

/-- Calls that do not draw a key take the record under it through allowed changes only. -/
theorem path_of_notMem {ops : List ι} {key : κ} (hkey : key ∉ m.draws ops) {s : σ}
    (hs : invariant s) {record' : ρ} (hrecord' : m.record (run m.step s ops) key = some record') :
    ∃ record, m.record s key = some record ∧ Relation.ReflTransGen allowed record record' := by
  induction ops generalizing s with
  | nil => exact ⟨record', hrecord', .refl⟩
  | cons op ops ih =>
    have hnot : m.drawn op ≠ some key := by
      intro hdrawn
      exact hkey (mem_filterMap.mpr ⟨op, mem_cons_self, hdrawn⟩)
    have hrest : key ∉ m.draws ops := by
      intro hmem
      obtain ⟨other, hother, hdrawn⟩ := mem_filterMap.mp hmem
      exact hkey (mem_filterMap.mpr ⟨other, mem_cons_of_mem _ hother, hdrawn⟩)
    obtain ⟨middle, hmiddle, hpath⟩ := ih hrest (h.step_invariant s op hs) hrecord'
    rcases h.step_record s op key middle hs hmiddle with hdrawn | ⟨record, hrecord, hchange⟩
    · exact absurd hdrawn hnot
    · exact ⟨record, hrecord, .head hchange hpath⟩

/-- A record of a machine that started empty is under a key that was drawn. -/
theorem mem_drawn {s : σ} (hs : invariant s) (hempty : ∀ key, m.record s key = none)
    {ops : List ι} {key : κ} {record : ρ}
    (hrecord : m.record (run m.step s ops) key = some record) : key ∈ m.draws ops := by
  by_contra hkey
  obtain ⟨first, hfirst, -⟩ := path_of_notMem h hkey hs hrecord
  rw [hempty key] at hfirst
  cases hfirst

/-- When no key is drawn twice, there is no record under a key that is about to be drawn. -/
theorem absent_of_drawn {s : σ} (hs : invariant s) (hempty : ∀ key, m.record s key = none)
    {before later : List ι} {op : ι} (hfresh : (m.draws (before ++ op :: later)).Nodup) {key : κ}
    (hdrawn : m.drawn op = some key) : m.record (run m.step s before) key = none := by
  cases hrecord : m.record (run m.step s before) key with
  | none => rfl
  | some record =>
    have hbefore := mem_drawn h hs hempty hrecord
    have hmem : key ∈ m.draws (op :: later) :=
      mem_filterMap.mpr ⟨op, mem_cons_self, hdrawn⟩
    unfold draws at *
    rw [filterMap_append] at hfresh
    exact absurd rfl ((nodup_append.mp hfresh).2.2 key hbefore key hmem)

/-- When no key is drawn twice, a record that is there at two moments of a run has gone through
allowed changes between them. -/
theorem path {s : σ} (hs : invariant s) (hempty : ∀ key, m.record s key = none)
    {before between : List ι} (hfresh : (m.draws (before ++ between)).Nodup) {key : κ}
    {record record' : ρ} (hrecord : m.record (run m.step s before) key = some record)
    (hrecord' : m.record (run m.step s (before ++ between)) key = some record') :
    Relation.ReflTransGen allowed record record' := by
  have hbefore := mem_drawn h hs hempty hrecord
  have hbetween : key ∉ m.draws between := by
    unfold draws at *
    rw [filterMap_append] at hfresh
    intro hmem
    exact (nodup_append.mp hfresh).2.2 key hbefore key hmem rfl
  have hmiddle : invariant (run m.step s before) := run_invariant h.step_invariant hs before
  rw [run_append] at hrecord'
  obtain ⟨found, hfound, hpath⟩ := path_of_notMem h hbetween hmiddle hrecord'
  obtain rfl := Option.some.inj (hrecord.symm.trans hfound)
  exact hpath

end

end Registry

end Agenterm.Lib
