import Mathlib.Algebra.Order.Ring.Nat
import Mathlib.Data.List.Basic

/-!
# Common vocabulary

Fixed-width limits, JSON values and the small string predicates that the wire formats of
the server share. Counters of type `u64`, `u32` and `usize` are naturals; where the source
clamps, wraps or aborts at the width, the definitions say so with the constants below.
-/

namespace Agenterm

/-- `u64::MAX`. -/
def u64Max : Nat := 2 ^ 64 - 1

/-- `u32::MAX`. -/
def u32Max : Nat := 2 ^ 32 - 1

/-- `u64::saturating_add`. -/
def saturatingAdd (a b : Nat) : Nat := min (a + b) u64Max

lemma saturatingAdd_of_le {a b : Nat} (h : a + b ≤ u64Max) : saturatingAdd a b = a + b :=
  Nat.min_eq_left h

lemma saturatingAdd_le (a b : Nat) : saturatingAdd a b ≤ u64Max := Nat.min_le_right _ _

/-- A JSON document (`serde_json::Value`); numbers are the integers the server writes. -/
inductive Value where
  | null
  | bool (b : Bool)
  | number (n : Int)
  | string (s : String)
  | array (items : List Value)
  | object (fields : List (String × Value))
deriving BEq, Inhabited

namespace Value

/-- `json!` of a natural number. -/
def nat (n : Nat) : Value := .number n

/-- `json!` of an `Option`, `None` being `null`. -/
def option {α : Type} (f : α → Value) : Option α → Value
  | none => .null
  | some a => f a

end Value

/-- `char::is_control`: the Unicode category `Cc`. -/
def isControl (c : Char) : Bool :=
  c.toNat < 0x20 || (0x7f ≤ c.toNat && c.toNat ≤ 0x9f)

end Agenterm
