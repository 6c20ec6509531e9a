import Agenterm.Lib.Checks
import Std.Data.TreeMap.Lemmas

/-!
# Entries of ordered maps

What the entries of a map are after one was replaced (`insert_eq_some`, `getElem?_insert_of_ne`) or
some were dropped (`filter_eq_some`, `erase_eq_some`, `foldl_erase_eq_some`), and checks on all entries
(`forM_toList_eq_ok`), for the maps of the standard library.
-/

namespace Agenterm.Lib

open Std

section
variable {κ α : Type} [Ord κ] [TransOrd κ] {m : TreeMap κ α}

/-- Replacing an entry keeps the number of entries. -/
lemma size_insert_of_some {k : κ} {v held : α} (h : m[k]? = some held) :
    (m.insert k v).size = m.size := by
  rw [TreeMap.size_insert, TreeMap.contains_eq_isSome_getElem?, h]
  rfl

lemma size_insert_le_of_lt {k : κ} {v : α} {n : Nat} (h : m.size < n) :
    (m.insert k v).size ≤ n :=
  Nat.le_trans TreeMap.size_insert_le h

variable [LawfulEqOrd κ]

lemma getElem?_insert_of_ne {k a : κ} {v : α} (h : k ≠ a) : (m.insert k v)[a]? = m[a]? := by
  rw [TreeMap.getElem?_insert, if_neg (by rwa [LawfulEqOrd.compare_eq_iff_eq])]

/-- An entry of a map in which one was replaced. -/
lemma insert_eq_some {k a : κ} {v found : α} (h : (m.insert k v)[a]? = some found) :
    (a = k ∧ found = v) ∨ (a ≠ k ∧ m[a]? = some found) := by
  by_cases heq : k = a
  · subst heq
    rw [TreeMap.getElem?_insert_self] at h
    exact .inl ⟨rfl, (Option.some.inj h).symm⟩
  · rw [getElem?_insert_of_ne heq] at h
    exact .inr ⟨Ne.symm heq, h⟩

lemma filter_eq_some {p : κ → α → Bool} {k : κ} {v : α} :
    (m.filter p)[k]? = some v ↔ m[k]? = some v ∧ p k v = true := by
  rw [TreeMap.getElem?_filter', Option.filter_eq_some_iff]

/-- An entry of a map from which one was removed. -/
lemma erase_eq_some {k a : κ} {v : α} :
    (m.erase k)[a]? = some v ↔ a ≠ k ∧ m[a]? = some v := by
  rw [TreeMap.getElem?_erase]
  by_cases hkey : k = a
  · rw [if_pos (LawfulEqOrd.compare_eq_iff_eq.mpr hkey)]
    exact ⟨fun h => absurd h nofun, fun h => absurd hkey.symm h.1⟩
  · rw [if_neg (mt LawfulEqOrd.compare_eq_iff_eq.mp hkey)]
    exact ⟨fun h => ⟨Ne.symm hkey, h⟩, fun h => h.2⟩

/-- An entry of a map from which keys were removed one after the other. -/
lemma foldl_erase_eq_some {keys : List κ} {k : κ} {v : α} :
    (keys.foldl (fun m key => m.erase key) m)[k]? = some v ↔ k ∉ keys ∧ m[k]? = some v := by
  induction keys generalizing m with
  | nil => simp
  | cons key keys ih =>
    rw [List.foldl_cons, ih, erase_eq_some, List.mem_cons, not_or]
    exact ⟨fun h => ⟨⟨h.2.1, h.1⟩, h.2.2⟩, fun h => ⟨h.1.2, h.1.1, h.2⟩⟩

/-- A check on every entry. -/
lemma forM_toList_eq_ok {ε : Type} {f : κ × α → Except ε Unit} :
    m.toList.forM f = .ok () ↔ ∀ k v, m[k]? = some v → f (k, v) = .ok () := by
  rw [forM_eq_ok]
  constructor
  · intro h k v hv
    exact h (k, v) (TreeMap.mem_toList_iff_getElem?_eq_some.mpr hv)
  · rintro h ⟨k, v⟩ hmem
    exact h k v (TreeMap.mem_toList_iff_getElem?_eq_some.mp hmem)

end

end Agenterm.Lib
