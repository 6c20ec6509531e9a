import Mathlib.Algebra.Ring.Nat
import Mathlib.Data.List.Induction
import Mathlib.Data.List.Nodup
import Mathlib.Logic.Function.Basic

/-!
# Caches whose entries are paid for

A cache answers a key with a value. The first answer for a key is paid for at the price of the
value, later ones are free; other amounts are spent from the same purse, which stops at a `cap`.
`firsts` is the list of answers without the repeated ones, and `Account` says what a cache has
spent and what it holds in terms of the events so far: `Account.step` is its step rule.
-/

namespace Agenterm.Lib

open List

section
variable {κ ν : Type} [DecidableEq κ]

/-- The first answer for each key, in order. -/
def firsts (answers : List (κ × ν)) : List (κ × ν) :=
  answers.foldl (fun kept answer =>
    if answer.1 ∈ kept.map Prod.fst then kept else kept ++ [answer]) []

theorem firsts_concat (answers : List (κ × ν)) (answer : κ × ν) :
    firsts (answers ++ [answer]) =
      if answer.1 ∈ (firsts answers).map Prod.fst then firsts answers
      else firsts answers ++ [answer] := by
  unfold firsts
  rw [foldl_append]
  rfl

/-- Each key occurs once. -/
theorem nodup_firsts (answers : List (κ × ν)) : ((firsts answers).map Prod.fst).Nodup := by
  induction answers using List.reverseRecOn with
  | nil => exact nodup_nil
  | append_singleton answers answer ih =>
    rw [firsts_concat]
    split
    · exact ih
    · rename_i hnew
      rw [map_append, map_singleton, ← concat_eq_append]
      exact ih.concat hnew

end

/-! ## The cache -/

/-- What a cache has spent, how many entries it counts, and what it holds. -/
structure PricedCache (κ ν : Type) where
  spent : Nat
  entries : Nat
  held : κ → Option ν

namespace PricedCache

inductive Event (κ ν : Type) where
  | spend (amount : Nat)
  | answer (key : κ) (value : ν)
  | idle

section
variable {κ ν : Type}

def Event.answered : Event κ ν → Option (κ × ν)
  | .answer key value => some (key, value)
  | _ => none

def Event.amount : Event κ ν → Nat
  | .spend amount => amount
  | _ => 0

/-- The answers among the events. -/
def answers (events : List (Event κ ν)) : List (κ × ν) := events.filterMap Event.answered

/-- The amounts that were spent other than for answers. -/
def spending (events : List (Event κ ν)) : Nat := (events.map Event.amount).sum

theorem answers_concat (events : List (Event κ ν)) (event : Event κ ν) :
    answers (events ++ [event]) = answers events ++ answers [event] :=
  filterMap_append

theorem spending_concat (events : List (Event κ ν)) (event : Event κ ν) :
    spending (events ++ [event]) = spending events + spending [event] := by
  unfold spending
  rw [map_append, sum_append]

variable [DecidableEq κ] (cap : Nat) (price : ν → Nat)

/-- What one event does to a cache. -/
inductive Step : PricedCache κ ν → Event κ ν → PricedCache κ ν → Prop where
  | spend (cache : PricedCache κ ν) (amount : Nat) :
      Step cache (.spend amount) { cache with spent := min (cache.spent + amount) cap }
  | idle (cache : PricedCache κ ν) : Step cache .idle cache
  | again {cache : PricedCache κ ν} {key : κ} {value : ν} (hheld : cache.held key = some value) :
      Step cache (.answer key value) cache
  | new {cache : PricedCache κ ν} {key : κ} (value : ν) (hheld : cache.held key = none) :
      Step cache (.answer key value)
        { spent := min (cache.spent + price value) cap
          entries := cache.entries + 1
          held := Function.update cache.held key (some value) }

/-- What a cache that started empty has spent, counts and holds after some events. -/
structure Account (spent entries : Nat) (events : List (Event κ ν)) (cache : PricedCache κ ν) :
    Prop where
  spent_eq : cache.spent =
    min (spent + spending events + ((firsts (answers events)).map fun a => price a.2).sum) cap
  entries_eq : cache.entries = entries + (firsts (answers events)).length
  held_iff : ∀ key value, cache.held key = some value ↔ (key, value) ∈ firsts (answers events)
  answers_held : ∀ key value, (key, value) ∈ answers events → cache.held key = some value

variable {cap price} {spent entries : Nat} {events : List (Event κ ν)}
variable {cache cache' : PricedCache κ ν}

theorem account_nil (hspent : cache.spent = spent) (hcap : spent ≤ cap)
    (hentries : cache.entries = entries) (hheld : ∀ key, cache.held key = none) :
    Account cap price spent entries [] cache where
  spent_eq := by
    rw [hspent]
    exact (Nat.min_eq_left hcap).symm
  entries_eq := hentries
  held_iff key value := by
    rw [hheld key]
    exact ⟨fun h => absurd h nofun, fun h => absurd h not_mem_nil⟩
  answers_held key value h := absurd h not_mem_nil

/-- A key that is not held has no answer so far. -/
theorem Account.notMem (h : Account cap price spent entries events cache) {key : κ}
    (hheld : cache.held key = none) : key ∉ (firsts (answers events)).map Prod.fst := by
  intro hmem
  obtain ⟨answer, hanswer, rfl⟩ := mem_map.mp hmem
  have hsome := (h.held_iff answer.1 answer.2).mpr hanswer
  rw [hheld] at hsome
  cases hsome

/-- An event that leaves the answers, their first ones and the entries as they are. -/
theorem Account.of_unchanged {event : Event κ ν}
    (h : Account cap price spent entries events cache) (hentries : cache'.entries = cache.entries)
    (hheld : cache'.held = cache.held)
    (hfirsts : firsts (answers (events ++ [event])) = firsts (answers events))
    (hanswered : ∀ key value, event.answered = some (key, value) → cache.held key = some value)
    (hspent : cache'.spent = min (cache.spent + event.amount) cap) :
    Account cap price spent entries (events ++ [event]) cache' where
  spent_eq := by
    have hbefore := h.spent_eq
    have hspending : spending [event] = event.amount := Nat.add_zero _
    rw [hspent, hfirsts, spending_concat, hspending]
    omega
  entries_eq := by
    rw [hentries, hfirsts]
    exact h.entries_eq
  held_iff key value := by
    rw [hheld, hfirsts]
    exact h.held_iff key value
  answers_held key value hmem := by
    rw [answers_concat] at hmem
    rw [hheld]
    rcases mem_append.mp hmem with hold | hlast
    · exact h.answers_held key value hold
    · obtain ⟨last, hlast, hanswer⟩ := mem_filterMap.mp hlast
      obtain rfl := mem_singleton.mp hlast
      exact hanswered key value hanswer

/-- An answer that is new. -/
theorem Account.of_new (h : Account cap price spent entries events cache) {key : κ} (value : ν)
    (hheld : cache.held key = none) :
    Account cap price spent entries (events ++ [.answer key value])
      { spent := min (cache.spent + price value) cap
        entries := cache.entries + 1
        held := Function.update cache.held key (some value) } := by
  have hanswers : answers (events ++ [.answer key value]) = answers events ++ [(key, value)] := by
    rw [answers_concat]
    rfl
  have hspending : spending (events ++ [.answer key value]) = spending events := by
    rw [spending_concat]
    rfl
  have hfirsts : firsts (answers (events ++ [.answer key value])) =
      firsts (answers events) ++ [(key, value)] := by
    rw [hanswers, firsts_concat, if_neg (h.notMem hheld)]
  refine ⟨?_, ?_, ?_, ?_⟩
  · rw [hfirsts, hspending, map_append, sum_append]
    show min (cache.spent + price value) cap = min (_ + (_ + (price value + 0))) cap
    have hspent := h.spent_eq
    omega
  · rw [hfirsts, length_append]
    have hentries := h.entries_eq
    show cache.entries + 1 = _ + (_ + 1)
    omega
  · intro key' value'
    rw [hfirsts, mem_append, mem_singleton, Prod.mk.injEq, ← h.held_iff]
    show Function.update cache.held key (some value) key' = some value' ↔ _
    by_cases hkey : key' = key
    · subst hkey
      rw [Function.update_self, hheld]
      constructor
      · intro heq
        exact .inr ⟨rfl, (Option.some.inj heq).symm⟩
      · rintro (heq | ⟨-, rfl⟩)
        · cases heq
        · rfl
    · rw [Function.update_of_ne hkey]
      exact ⟨.inl, fun hor => hor.elim id fun heq => absurd heq.1 hkey⟩
  · intro key' value' hmem
    rw [hanswers] at hmem
    show Function.update cache.held key (some value) key' = some value'
    rcases mem_append.mp hmem with hold | hlast
    · have hkept := h.answers_held key' value' hold
      have hkey : key' ≠ key := by
        rintro rfl
        rw [hheld] at hkept
        cases hkept
      rw [Function.update_of_ne hkey]
      exact hkept
    · obtain ⟨rfl, rfl⟩ := Prod.mk.inj (mem_singleton.mp hlast)
      rw [Function.update_self]

theorem Account.spent_le (h : Account cap price spent entries events cache) :
    cache.spent ≤ cap := by
  rw [h.spent_eq]
  exact Nat.min_le_right _ _

theorem Account.step {event : Event κ ν} (h : Account cap price spent entries events cache)
    (hstep : Step cap price cache event cache') :
    Account cap price spent entries (events ++ [event]) cache' := by
  have hle := h.spent_le
  cases hstep with
  | spend amount =>
    have hanswers : answers (events ++ [.spend amount]) = answers events := by
      rw [answers_concat]
      exact append_nil _
    exact h.of_unchanged rfl rfl (congrArg firsts hanswers) nofun rfl
  | idle =>
    have hanswers : answers (events ++ [.idle]) = answers events := by
      rw [answers_concat]
      exact append_nil _
    exact h.of_unchanged rfl rfl (congrArg firsts hanswers) nofun (Nat.min_eq_left hle).symm
  | @again key value hheld =>
    have hfirsts : firsts (answers (events ++ [.answer key value])) = firsts (answers events) := by
      have hmem := (h.held_iff key value).mp hheld
      rw [answers_concat]
      show firsts (answers events ++ [(key, value)]) = _
      rw [firsts_concat, if_pos (mem_map_of_mem hmem)]
    refine h.of_unchanged rfl rfl hfirsts ?_ (Nat.min_eq_left hle).symm
    intro key' value' hanswer
    cases hanswer
    exact hheld
  | new value hheld => exact h.of_new value hheld

end

end PricedCache

end Agenterm.Lib
