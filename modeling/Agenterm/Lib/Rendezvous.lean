import Mathlib.Data.List.Nodup

/-!
# A slot with one offer

One party puts an offer into a slot and waits; the other takes it out and either delivers to the one
that waits or puts the offer back. The party that waits may give up at any time and then clears the
slot. Every offer is made once.

* `Tickets.step`: an offer is in one place at a time, and nothing is delivered to it twice;
* `Fresh.step`: as long as nobody gives up while an offer is about to be put back, what is in the
  slot is the offer of the party that waits (`Fresh.slot_eq_none`: when nobody waits, it is empty).
-/

namespace Agenterm.Lib

open List

/-- `hand` is the offer that was taken out, and whether it is to be put back. -/
structure Rendezvous (α : Type) where
  slot : Option α
  hand : Option (α × Bool)
  waiting : Option α
  delivered : List α
  used : List α

namespace Rendezvous

section
variable {α : Type}

def empty : Rendezvous α := ⟨none, none, none, [], []⟩

/-- What may happen. When it is `settled`, nobody gives up while an offer is to be put back. -/
inductive Step (settled : Bool) : Rendezvous α → Rendezvous α → Prop where
  | offer {r : Rendezvous α} (x : α) (hslot : r.slot = none) (hwaiting : r.waiting = none)
      (hfresh : x ∉ r.used) :
    Step settled r { r with slot := some x, waiting := some x, used := x :: r.used }
  | giveUp {r : Rendezvous α} (hsettled : settled = true → ∀ x, r.hand ≠ some (x, true)) :
    Step settled r { r with slot := none, waiting := none }
  | served {r : Rendezvous α} (x : α) (hwaiting : r.waiting = some x)
      (hdelivered : x ∈ r.delivered) :
    Step settled r { r with waiting := none }
  | take {r : Rendezvous α} (x : α) (back : Bool) (hslot : r.slot = some x)
      (hhand : r.hand = none) :
    Step settled r { r with slot := none, hand := some (x, back) }
  | putBack {r : Rendezvous α} (x : α) (hhand : r.hand = some (x, true)) :
    Step settled r { r with slot := some x, hand := none }
  | deliver {r : Rendezvous α} (x : α) (hhand : r.hand = some (x, false))
      (hwaiting : r.waiting = some x) :
    Step settled r { r with hand := none, delivered := r.delivered ++ [x] }
  | drop {r : Rendezvous α} (x : α) (hhand : r.hand = some (x, false))
      (hwaiting : r.waiting ≠ some x) : Step settled r { r with hand := none }

/-- The places where offers are. -/
def places (r : Rendezvous α) : List α :=
  r.slot.toList ++ (r.hand.toList.map Prod.fst ++ r.delivered)

/-- Every offer that is somewhere was made, and is in one place. -/
structure Tickets (r : Rendezvous α) : Prop where
  nodup : r.places.Nodup
  used : ∀ x ∈ r.places, x ∈ r.used
  waiting : ∀ x, r.waiting = some x → x ∈ r.used

lemma tickets_empty : (empty : Rendezvous α).Tickets where
  nodup := .nil
  used _ hx := absurd hx not_mem_nil
  waiting _ hx := by injection hx

variable {settled : Bool} {r r' : Rendezvous α}

/-- Fewer offers, in the same order. -/
lemma Tickets.of_sublist (h : r.Tickets) (hplaces : r'.places.Sublist r.places)
    (hused : r'.used = r.used) (hwaiting : ∀ x, r'.waiting = some x → r.waiting = some x) :
    r'.Tickets where
  nodup := h.nodup.sublist hplaces
  used x hx := by
    rw [hused]
    exact h.used x (hplaces.subset hx)
  waiting x hx := by
    rw [hused]
    exact h.waiting x (hwaiting x hx)

/-- No step makes a second copy of an offer. -/
theorem Tickets.step (h : r.Tickets) (hstep : Step settled r r') : r'.Tickets := by
  cases hstep with
  | offer x hslot hwaiting hfresh =>
    have hplaces : r.places = r.hand.toList.map Prod.fst ++ r.delivered := by
      unfold places
      rw [hslot]
      rfl
    have hnodup := h.nodup
    have hused := h.used
    rw [hplaces] at hnodup hused
    refine ⟨?_, ?_, ?_⟩
    · exact nodup_cons.mpr ⟨fun hx => hfresh (hused x hx), hnodup⟩
    · intro y hy
      rcases mem_cons.mp hy with rfl | hy
      · exact mem_cons_self
      · exact mem_cons_of_mem _ (hused y hy)
    · intro y hy
      rw [← Option.some.inj hy]
      exact mem_cons_self
  | giveUp hsettled =>
    exact h.of_sublist (sublist_append_right _ _) rfl fun _ hnone => by injection hnone
  | served x hwaiting hdelivered =>
    exact h.of_sublist (List.Sublist.refl _) rfl fun _ hnone => by injection hnone
  | take x back hslot hhand =>
    refine h.of_sublist ?_ rfl fun _ hsame => hsame
    unfold places
    rw [hslot, hhand]
    exact List.Sublist.refl _
  | putBack x hhand =>
    refine h.of_sublist ?_ rfl fun _ hsame => hsame
    unfold places
    rw [hhand]
    exact sublist_append_right _ _
  | deliver x hhand hwaiting =>
    have hold : r.places = r.slot.toList ++ ([x] ++ r.delivered) := by
      unfold places
      rw [hhand]
      rfl
    have hperm : (r.slot.toList ++ (r.delivered ++ [x])).Perm r.places := by
      rw [hold]
      exact perm_append_comm.append_left _
    exact ⟨hperm.nodup_iff.mpr h.nodup, fun y hy => h.used y (hperm.mem_iff.mp hy), h.waiting⟩
  | drop x hhand hwaiting =>
    refine h.of_sublist ?_ rfl fun _ hsame => hsame
    unfold places
    rw [hhand]
    exact (sublist_append_right _ _).append_left _

/-- Nothing is delivered to an offer twice. -/
lemma Tickets.delivered_nodup (h : r.Tickets) : r.delivered.Nodup :=
  h.nodup.sublist ((sublist_append_right _ _).trans (sublist_append_right _ _))

lemma Tickets.delivered_used (h : r.Tickets) {x : α} (hx : x ∈ r.delivered) : x ∈ r.used :=
  h.used x (mem_append_right _ (mem_append_right _ hx))

/-- What is in the slot, or is to be put back, is the offer of the party that waits. -/
structure Fresh (r : Rendezvous α) : Prop where
  slot : ∀ x, r.slot = some x → r.waiting = some x ∧ x ∉ r.delivered
  back : ∀ x, r.hand = some (x, true) → r.slot = none ∧ r.waiting = some x ∧ x ∉ r.delivered
  taken : ∀ x, r.hand = some (x, false) → r.waiting = some x → r.slot = none

lemma fresh_empty : (empty : Rendezvous α).Fresh where
  slot _ hx := by injection hx
  back _ hx := by injection hx
  taken _ hx := by injection hx

/-- The slot stays the offer of the party that waits, as long as no party gives up on what is to be
put back. -/
theorem Fresh.step (h : r.Fresh) (htickets : r.Tickets) (hstep : Step true r r') : r'.Fresh := by
  cases hstep with
  | offer x hslot hwaiting hfresh =>
    refine ⟨?_, ?_, ?_⟩
    · intro y hy
      rw [← Option.some.inj hy]
      exact ⟨rfl, fun hx => hfresh (htickets.delivered_used hx)⟩
    · intro y hy
      have hsome := (h.back y hy).2.1
      rw [hwaiting] at hsome
      injection hsome
    · intro y hy hsame
      rw [Option.some.inj hsame] at hfresh
      have hplace : y ∈ r.places := by
        unfold places
        rw [show r.hand = some (y, false) from hy]
        exact mem_append_right _ mem_cons_self
      exact absurd (htickets.used y hplace) hfresh
  | giveUp hsettled =>
    exact ⟨fun _ hnone => by injection hnone, fun y hy => absurd hy (hsettled rfl y),
      fun _ _ _ => rfl⟩
  | served x hwaiting hdelivered =>
    refine ⟨?_, ?_, ?_⟩
    · intro y hy
      obtain ⟨hsome, hnot⟩ := h.slot y hy
      rw [hwaiting] at hsome
      rw [← Option.some.inj hsome] at hnot
      exact absurd hdelivered hnot
    · intro y hy
      obtain ⟨-, hsome, hnot⟩ := h.back y hy
      rw [hwaiting] at hsome
      rw [← Option.some.inj hsome] at hnot
      exact absurd hdelivered hnot
    · intro y hy hnone
      injection hnone
  | take x back hslot hhand =>
    obtain ⟨hwaiting, hnot⟩ := h.slot x hslot
    refine ⟨fun _ hnone => by injection hnone, ?_, fun _ _ _ => rfl⟩
    intro y hy
    obtain ⟨rfl, -⟩ := Prod.mk.inj (Option.some.inj hy)
    exact ⟨rfl, hwaiting, hnot⟩
  | putBack x hhand =>
    obtain ⟨-, hwaiting, hnot⟩ := h.back x hhand
    refine ⟨?_, fun _ hnone => by injection hnone, fun _ hnone => by injection hnone⟩
    intro y hy
    rw [← Option.some.inj hy]
    exact ⟨hwaiting, hnot⟩
  | deliver x hhand hwaiting =>
    have hslot := h.taken x hhand hwaiting
    refine ⟨?_, fun _ hnone => by injection hnone, fun _ hnone => by injection hnone⟩
    intro y hy
    have hsome : r.slot = some y := hy
    rw [hslot] at hsome
    injection hsome
  | drop x hhand hwaiting =>
    exact ⟨h.slot, fun _ hnone => by injection hnone, fun _ hnone => by injection hnone⟩

/-- When nobody waits, the slot is empty. -/
theorem Fresh.slot_eq_none (h : r.Fresh) (hwaiting : r.waiting = none) : r.slot = none := by
  cases hslot : r.slot with
  | none => rfl
  | some x =>
    have hsome := (h.slot x hslot).1
    rw [hwaiting] at hsome
    injection hsome

end

end Rendezvous

end Agenterm.Lib
