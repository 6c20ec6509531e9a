import Agenterm.Common

/-!
# The length of JSON texts

`Value.encodedLength` is the length of the text `serde_json` writes for a document. Texts of plain
characters take their own bytes (`stringLength_plain`), numbers their digits
(`encodedLength_number_le`), and an object the sum of its fields.
-/

namespace Agenterm

open List

/-- The bytes a character takes in a JSON string. -/
def escapedLength (c : Char) : Nat :=
  if c = '"' || c = '\\' || c.toNat = 0x08 || c.toNat = 0x09 || c.toNat = 0x0a ||
      c.toNat = 0x0c || c.toNat = 0x0d then
    2
  else if c.toNat < 0x20 then
    6
  else
    c.utf8Size

/-- The bytes of a JSON string, quotes included. -/
def stringLength (s : String) : Nat := 2 + (s.toList.map escapedLength).sum

mutual

/-- The length of the compact text of a document. -/
def Value.encodedLength : Value → Nat
  | .null => 4
  | .bool b => if b then 4 else 5
  | .number n => (toString n).length
  | .string s => stringLength s
  | .array items => 2 + Value.itemsLength items + (items.length - 1)
  | .object fields => 2 + Value.fieldsLength fields + (fields.length - 1)

def Value.itemsLength : List Value → Nat
  | [] => 0
  | item :: items => item.encodedLength + Value.itemsLength items

def Value.fieldsLength : List (String × Value) → Nat
  | [] => 0
  | field :: fields => Value.fieldLength field + Value.fieldsLength fields

def Value.fieldLength : String × Value → Nat
  | (name, value) => stringLength name + 1 + value.encodedLength

end

lemma itemsLength_map {α : Type} (f : α → Value) (l : List α) :
    Value.itemsLength (l.map f) = (l.map fun a => (f a).encodedLength).sum := by
  induction l with
  | nil => rfl
  | cons a l ih => rw [List.map_cons, Value.itemsLength, ih, List.map_cons, List.sum_cons]

/-! ## Bounds -/

lemma utf8ByteSize_eq_sum (s : String) : s.utf8ByteSize = (s.toList.map Char.utf8Size).sum := by
  have hchars : ∀ l : List Char, (String.ofList l).utf8ByteSize = (l.map Char.utf8Size).sum := by
    intro l
    induction l with
    | nil => rfl
    | cons c l ih =>
      rw [String.ofList_cons, String.utf8ByteSize_append, String.utf8ByteSize_singleton, ih,
        List.map_cons, List.sum_cons]
  have hs := hchars s.toList
  rwa [String.ofList_toList] at hs

/-- A character that is written as it is. -/
def Plain (c : Char) : Prop := 0x20 ≤ c.toNat ∧ c ≠ '"' ∧ c ≠ '\\'

lemma escapedLength_plain {c : Char} (h : Plain c) : escapedLength c = c.utf8Size := by
  obtain ⟨hprintable, hquote, hbackslash⟩ := h
  unfold escapedLength
  rw [if_neg (by simp [hquote, hbackslash]; omega), if_neg (by omega)]

lemma stringLength_plain {s : String} (h : ∀ c ∈ s.toList, Plain c) :
    stringLength s = 2 + s.utf8ByteSize := by
  unfold stringLength
  rw [utf8ByteSize_eq_sum, map_congr_left fun c hc => escapedLength_plain (h c hc)]

lemma encodedLength_number_le {n : Int} {digits : Nat} (hpos : 0 < digits) (hn : 0 ≤ n)
    (hlt : n < 10 ^ digits) : (Value.number n).encodedLength ≤ digits := by
  obtain ⟨m, rfl⟩ := Int.eq_ofNat_of_zero_le hn
  have hm : m < 10 ^ digits := by exact_mod_cast hlt
  exact (Nat.length_repr_le_iff hpos).mpr hm

/-- Fields of a bounded length each. -/
lemma fieldsLength_map_le {α : Type} {f : α → String × Value} {l : List α} {bound : Nat}
    (h : ∀ a ∈ l, Value.fieldLength (f a) ≤ bound) :
    Value.fieldsLength (l.map f) ≤ bound * l.length := by
  induction l with
  | nil => exact Nat.zero_le _
  | cons a l ih =>
    have ha := h a mem_cons_self
    have hl := ih fun b hb => h b (mem_cons_of_mem _ hb)
    rw [map_cons, Value.fieldsLength, length_cons, Nat.mul_succ]
    omega

end Agenterm
