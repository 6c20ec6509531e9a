import Mathlib
import Mathlib.Order.Lattice
import Mathlib.Tactic.SplitIfs

/-!
# Signed 32-bit arithmetic that may overflow

`I32` carries the proof that its value fits. The operators of the machine are partial: `add`, `sub`
and `clamp` give nothing where the program would stop. `Returns x P` says that the computation `x`
gives a value and that `P` holds of it; `Returns.bind` composes it, one rule for each operator says
what has to fit.
-/

namespace Agenterm.Lib

/-- The computation gives a value, and the property holds of it. -/
def Returns {α : Type} (x : Option α) (P : α → Prop) : Prop := ∃ a, x = some a ∧ P a

namespace Returns

variable {α β : Type} {x : Option α} {P Q : α → Prop}

lemma pure {a : α} (h : P a) : Returns (some a) P := ⟨a, rfl, h⟩

lemma bind {f : α → Option β} {R : β → Prop} (hx : Returns x P)
    (hf : ∀ a, P a → Returns (f a) R) : Returns (x >>= f) R := by
  obtain ⟨a, rfl, ha⟩ := hx
  exact hf a ha

lemma imp (h : Returns x P) (hPQ : ∀ a, P a → Q a) : Returns x Q := by
  obtain ⟨a, ha, hP⟩ := h
  exact ⟨a, ha, hPQ a hP⟩

lemma ite {c : Prop} [Decidable c] {y : Option α} (hx : c → Returns x P) (hy : ¬c → Returns y P) :
    Returns (if c then x else y) P := by
  split_ifs with hc
  · exact hx hc
  · exact hy hc

/-- A computation gives the one value with the property. -/
lemma eq_some {a : α} (h : Returns x P) (ha : ∀ b, P b → b = a) : x = some a := by
  obtain ⟨b, hb, hP⟩ := h
  rw [hb, ha b hP]

end Returns

/-- The values of a signed integer of 32 bits. -/
abbrev FitsI32 (x : Int) : Prop := -2147483648 ≤ x ∧ x ≤ 2147483647

/-- A signed integer of 32 bits. -/
@[ext] structure I32 where
  val : Int
  fits : FitsI32 val
deriving DecidableEq

variable {a b : I32} {n : Nat}

namespace I32

lemma low (a : I32) : -2147483648 ≤ a.val := a.fits.1

lemma high (a : I32) : a.val ≤ 2147483647 := a.fits.2

/-- A constant of the program. -/
def lit (n : Nat) (h : decide (n ≤ 2147483647) = true := by exact Eq.refl true) : I32 :=
  -- the default proof is closed, so a definition that writes a literal holds it as it is
  ⟨n, by have hle := of_decide_eq_true h; omega⟩

@[simp] lemma val_lit (n : Nat) (h : decide (n ≤ 2147483647) = true) : (lit n h).val = n := rfl

instance : Zero I32 := ⟨lit 0⟩

@[simp] lemma val_zero : (0 : I32).val = 0 := rfl

instance : Max I32 :=
  ⟨fun a b => ⟨max a.val b.val, by have ha := a.fits; have hb := b.fits; omega⟩⟩

instance : Min I32 :=
  ⟨fun a b => ⟨min a.val b.val, by have ha := a.fits; have hb := b.fits; omega⟩⟩

@[simp] lemma val_max (a b : I32) : (max a b).val = max a.val b.val := rfl

@[simp] lemma val_min (a b : I32) : (min a b).val = min a.val b.val := rfl

/-- The value where it fits. -/
def checked (x : Int) : Option I32 := if h : FitsI32 x then some ⟨x, h⟩ else none

def add (a b : I32) : Option I32 := checked (a.val + b.val)

def sub (a b : I32) : Option I32 := checked (a.val - b.val)

def mul (a b : I32) : Option I32 := checked (a.val * b.val)

/-- Division rounds towards zero; there is none by zero. -/
def div (a b : I32) : Option I32 := if b.val = 0 then none else checked (a.val.tdiv b.val)

/-- Subtraction that stops at the ends of the range. -/
def saturatingSub (a b : I32) : I32 :=
  ⟨max (-2147483648) (min (a.val - b.val) 2147483647), by omega⟩

/-- Between values that are not negative nothing is cut off. -/
lemma val_saturatingSub (ha : 0 ≤ a.val) (hb : 0 ≤ b.val) :
    (a.saturatingSub b).val = a.val - b.val := by
  have hahigh := a.high
  have hbhigh := b.high
  show max (-2147483648) (min (a.val - b.val) 2147483647) = a.val - b.val
  omega

/-- The nearest value between two bounds, which have to be in order. -/
def clamp (a lowest highest : I32) : Option I32 :=
  if lowest.val ≤ highest.val then some (max lowest (min a highest)) else none

lemma checked_returns {x : Int} (h : FitsI32 x) : Returns (checked x) fun c => c.val = x := by
  unfold checked
  rw [dif_pos h]
  exact Returns.pure rfl

lemma add_returns (h : FitsI32 (a.val + b.val)) :
    Returns (a.add b) fun c => c.val = a.val + b.val := checked_returns h

lemma sub_returns (h : FitsI32 (a.val - b.val)) :
    Returns (a.sub b) fun c => c.val = a.val - b.val := checked_returns h

/-- Addition and subtraction of a constant. -/
lemma add_lit_returns {hn : decide (n ≤ 2147483647) = true} (h : FitsI32 (a.val + n)) :
    Returns (a.add (lit n hn)) fun c => c.val = a.val + n := add_returns h

lemma sub_lit_returns {hn : decide (n ≤ 2147483647) = true} (h : FitsI32 (a.val - n)) :
    Returns (a.sub (lit n hn)) fun c => c.val = a.val - n := sub_returns h

/-- The difference of two values that are not negative. -/
lemma sub_returns_of_nonneg (ha : 0 ≤ a.val) (hb : 0 ≤ b.val) :
    Returns (a.sub b) fun c => c.val = a.val - b.val := by
  have hahigh := a.high
  have hbhigh := b.high
  apply sub_returns
  omega

/-- A part of a value that is not negative. -/
lemma div_returns (ha : 0 ≤ a.val) (hb : 0 < b.val) :
    Returns (a.div b) fun c => c.val = a.val / b.val := by
  have hhigh := a.high
  have hlow : 0 ≤ a.val / b.val := Int.ediv_nonneg ha hb.le
  have hself : a.val / b.val ≤ a.val := Int.ediv_le_self b.val ha
  have hdiv : a.val.tdiv b.val = a.val / b.val := Int.tdiv_eq_ediv_of_nonneg ha
  unfold div
  rw [if_neg (by omega), hdiv]
  apply checked_returns
  omega

lemma mul_returns (h : FitsI32 (a.val * b.val)) :
    Returns (a.mul b) fun c => c.val = a.val * b.val := checked_returns h

/-- Half of a value that is not negative. -/
lemma half_returns (ha : 0 ≤ a.val) : Returns (a.div (lit 2)) fun c => c.val = a.val / 2 :=
  div_returns ha (by decide)

lemma clamp_returns {lowest highest : I32} (h : lowest.val ≤ highest.val) :
    Returns (a.clamp lowest highest) fun c => c.val = max lowest.val (min a.val highest.val) := by
  unfold clamp
  rw [if_pos h]
  exact Returns.pure rfl

end I32

/-! ## 64 bits, and casts -/

/-- The values of a signed integer of 64 bits. -/
abbrev FitsI64 (x : Int) : Prop := -9223372036854775808 ≤ x ∧ x ≤ 9223372036854775807

/-- The result of an operation on 64 bits, where it fits. -/
def checkedI64 (x : Int) : Option Int := if FitsI64 x then some x else none

/-- Division rounds towards zero; there is none by zero. -/
def divI64 (a b : Int) : Option Int := if b = 0 then none else checkedI64 (a.tdiv b)

/-- A cast keeps the low 64 bits. -/
def castI64 (x : Int) : Int := x.bmod (2 ^ 64)

/-- A cast keeps the low 32 bits. -/
def castI32 (x : Int) : I32 := ⟨x.bmod (2 ^ 32), by
  have hlow : -(2 ^ 32 : Int) / 2 ≤ x.bmod (2 ^ 32) := Int.le_bmod (by decide)
  have hhigh : x.bmod (2 ^ 32) < ((2 ^ 32 : Int) + 1) / 2 := Int.bmod_lt (by decide)
  omega⟩

/-- A cast to an unsigned integer of 64 bits. -/
def castUsize (x : Int) : Nat := (x % 2 ^ 64).toNat

lemma checkedI64_returns {x : Int} (h : FitsI64 x) : Returns (checkedI64 x) fun c => c = x := by
  unfold checkedI64
  rw [if_pos h]
  exact Returns.pure rfl

/-- Division of values that are not negative. -/
lemma divI64_returns {a b : Int} (ha : 0 ≤ a) (hfits : FitsI64 a) (hb : 0 < b) :
    Returns (divI64 a b) fun c => c = a / b := by
  have hdiv : a.tdiv b = a / b := Int.tdiv_eq_ediv_of_nonneg ha
  have hlow : 0 ≤ a / b := Int.ediv_nonneg ha hb.le
  have hhigh : a / b ≤ a := Int.ediv_le_self b ha
  unfold divI64
  rw [if_neg (by omega), hdiv]
  exact checkedI64_returns (by omega)

lemma castI64_of_fits {x : Int} (hlow : 0 ≤ x) (hhigh : x ≤ 9223372036854775807) :
    castI64 x = x := by
  unfold castI64
  exact Int.bmod_eq_of_le (by omega) (by omega)

lemma castI32_of_fits {x : Int} (h : FitsI32 x) : (castI32 x).val = x := by
  show x.bmod (2 ^ 32) = x
  exact Int.bmod_eq_of_le (by omega) (by omega)

lemma castUsize_of_fits {x : Int} (hlow : 0 ≤ x) (hhigh : x ≤ 9223372036854775807) :
    (castUsize x : Int) = x := by
  unfold castUsize
  rw [Int.emod_eq_of_lt hlow (by omega)]
  exact Int.toNat_of_nonneg hlow

end Agenterm.Lib
