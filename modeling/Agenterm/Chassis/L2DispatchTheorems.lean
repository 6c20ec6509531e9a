import Agenterm.Chassis.L2Dispatch
import Agenterm.Lib.Keyed

/-!
# What the dispatcher lets through

`PropertyContract.Allows` says what a property of a signature declares: a type, as a set of values,
and a range. The checks of the dispatcher agree with it (`validateProperty_iff`) up to gaps on both
sides: values that are let through (`LetsThrough`) and values that are turned away (`TurnsAway`).
In an accepted document a name belongs to one capability (`Catalogued`), so that a call reaches the
host exactly when it is declared and checked.
-/

namespace Agenterm.Chassis

open Lib List
open Option hiding or_assoc

/-! ## The declared schema -/

/-- The number a JSON number stands for. -/
def JsonNumber.value : JsonNumber → ℚ
  | .posInt n => n.toNat
  | .negInt n => n.toInt
  | .float x => x

/-- The integer a value is written as. -/
def Json.integer? : Json → Option Int
  | .number (.posInt n) => some n.toNat
  | .number (.negInt n) => some n.toInt
  | _ => none

/-- A range with open ends. -/
structure Range where
  lower : Option Int
  upper : Option Int

def Range.Holds (range : Range) (n : Int) : Prop :=
  (∀ low ∈ range.lower, low ≤ n) ∧ ∀ high ∈ range.upper, n ≤ high

def Range.HoldsNumber (range : Range) (x : ℚ) : Prop :=
  (∀ low ∈ range.lower, (low : ℚ) ≤ x) ∧ ∀ high ∈ range.upper, x ≤ (high : ℚ)

namespace PropertyContract

/-- The bound that a property names. -/
def named (bounds : Entries NumericBound) (contract : PropertyContract) : Option NumericBound :=
  contract.bound.bind fun name => bounds.lookup name

/-- The values of a property with a number: a named bound takes the place of its own. -/
def range (bounds : Entries NumericBound) (contract : PropertyContract) : Range :=
  match contract.named bounds with
  | some bound => { lower := some bound.minimum.toInt, upper := some bound.maximum.toInt }
  | none =>
    { lower := contract.minimum.map Int64.toInt, upper := contract.maximum.map Int64.toInt }

/-- The sizes of a property with a text: its own limits take the place of a named bound. -/
def sizes (bounds : Entries NumericBound) (contract : PropertyContract) : Range where
  lower := (contract.minimumUtf8Bytes.map fun n => (n.toNat : Int)).or
    ((contract.named bounds).map (·.minimum.toInt))
  upper := (contract.maximumUtf8Bytes.map fun n => (n.toNat : Int)).or
    ((contract.named bounds).map (·.maximum.toInt))

/-- The integers of a type. -/
def types (kind : String) (n : Int) : Prop :=
  (kind = "integer" ∧ -2 ^ 63 ≤ n ∧ n < 2 ^ 63) ∨ (kind = "uint32" ∧ 0 ≤ n ∧ n < 2 ^ 32) ∨
    (kind = "uint64" ∧ 0 ≤ n ∧ n < 2 ^ 64)

/-- A text no longer than any text is. -/
def AllowsText (bounds : Entries NumericBound) (contract : PropertyContract) (value : Json) :
    Prop :=
  ∃ text, value = .string text ∧ (contract.sizes bounds).Holds text.utf8ByteSize ∧
    text.utf8ByteSize ≤ u64Max

def AllowsInteger (bounds : Entries NumericBound) (contract : PropertyContract) (value : Json) :
    Prop :=
  ∃ n, value.integer? = some n ∧ types contract.kind n ∧ (contract.range bounds).Holds n

def AllowsNumber (bounds : Entries NumericBound) (contract : PropertyContract) (value : Json) :
    Prop :=
  ∃ x, value = .number x ∧ (contract.range bounds).HoldsNumber x.value

/-- What a property declares of its values. -/
def Allows (bounds : Entries NumericBound) (contract : PropertyContract) (value : Json) : Prop :=
  (isTextKind contract.kind = true ∧ contract.AllowsText bounds value) ∨
    (isIntegerKind contract.kind = true ∧ contract.AllowsInteger bounds value) ∨
      (contract.kind = "number" ∧ contract.AllowsNumber bounds value)

/-- The gaps that let values through: the upper end of `uint32`, the range of a `number`, and a
size that is bounded by a negative number. -/
def LetsThrough (bounds : Entries NumericBound) (contract : PropertyContract) (value : Json) :
    Prop :=
  (contract.kind = "uint32" ∧ ∃ n, value.integer? = some n ∧ 2 ^ 32 ≤ n ∧ n < 2 ^ 63 ∧
      (contract.range bounds).Holds n) ∨
    (contract.kind = "number" ∧ ∃ x, value = .number x ∧
      ¬ (contract.range bounds).HoldsNumber x.value) ∨
    (isTextKind contract.kind = true ∧ contract.maximumUtf8Bytes = none ∧
      (∃ bound, contract.named bounds = some bound ∧ bound.maximum.toInt < 0) ∧
      ∃ text, value = .string text ∧ text.utf8ByteSize ≤ u64Max ∧
        ∀ low ∈ (contract.sizes bounds).lower, low ≤ text.utf8ByteSize)

/-- The gap that turns values away: the upper half of `uint64`. -/
def TurnsAway (bounds : Entries NumericBound) (contract : PropertyContract) (value : Json) :
    Prop :=
  contract.kind = "uint64" ∧ ∃ n, value.integer? = some n ∧ 2 ^ 63 ≤ n ∧ n < 2 ^ 64 ∧
    (contract.range bounds).Holds n

end PropertyContract

/-! ## One property -/

variable {canonical kind name : String} {capability : CapabilityContract} {n : Int}

section
variable {bounds : Entries NumericBound} {contract : PropertyContract} {name : String}
  {value : Json}

/-- The bound a property names is there. -/
def BoundKnown (bounds : Entries NumericBound) (contract : PropertyContract) : Prop :=
  ∀ bound ∈ contract.bound, (bounds.lookup bound).isSome = true

lemma namedBound_eq (h : BoundKnown bounds contract) :
    namedBound bounds contract = .ok (contract.named bounds) := by
  unfold namedBound PropertyContract.named
  cases hbound : contract.bound with
  | none => rfl
  | some bound =>
    obtain ⟨found, hfound⟩ := isSome_iff_exists.mp (h bound hbound)
    simp only [bind_some, hfound]

lemma asI64_eq_some : value.asI64 = some n ↔ value.integer? = some n ∧ n < 2 ^ 63 := by
  cases value with
  | number x =>
    cases x with
    | posInt m =>
      simp only [Json.asI64, Json.integer?, some.injEq]
      constructor
      · intro h
        split at h
        · injection h with h
          omega
        · cases h
      · rintro ⟨hm, hlt⟩
        rw [if_pos (by omega), hm]
    | negInt m =>
      have hlt := m.toInt_lt
      simp only [Json.asI64, Json.integer?, some.injEq]
      constructor
      · intro h
        exact ⟨h, by omega⟩
      · exact fun h => h.1
    | float x => simp [Json.asI64, Json.integer?]
  | _ => simp [Json.asI64, Json.integer?]

lemma integer_low (h : value.integer? = some n) : -2 ^ 63 ≤ n ∧ n < 2 ^ 64 := by
  cases value with
  | number x =>
    cases x with
    | posInt m =>
      have hm := m.toNat_lt
      simp only [Json.integer?, some.injEq] at h
      omega
    | negInt m =>
      have hlow := m.le_toInt
      have hlt := m.toInt_lt
      simp only [Json.integer?, some.injEq] at h
      omega
    | float x => simp [Json.integer?] at h
  | _ => simp [Json.integer?] at h

lemma validateRange_eq_ok {number minimum maximum : Int} :
    validateRange name number minimum maximum = .ok () ↔ minimum ≤ number ∧ number ≤ maximum := by
  unfold validateRange
  rw [ite_error_eq_ok]
  simp only [Bool.or_eq_true, decide_eq_true_eq, not_or, and_true]
  omega

lemma validateSize_eq_ok {size minimum maximum : Nat} :
    validateSize name size minimum maximum = .ok () ↔ minimum ≤ size ∧ size ≤ maximum := by
  unfold validateSize
  rw [ite_error_eq_ok]
  simp only [Bool.or_eq_true, decide_eq_true_eq, not_or, and_true]
  omega

/-- The lower end of the size is checked as declared: a negative one is no limit. -/
lemma size_lower (size : Nat) :
    (∀ low ∈ (contract.sizes bounds).lower, low ≤ (size : Int)) ↔
      (contract.minimumUtf8Bytes.map UInt64.toNat).getD
        (((contract.named bounds).bind (usizeOf ·.minimum)).getD 0) ≤ size := by
  unfold PropertyContract.sizes
  cases contract.minimumUtf8Bytes with
  | some n => simp
  | none =>
    cases contract.named bounds with
    | none => simp
    | some bound =>
      simp only [map_none, map_some, none_or, mem_def,
        some.injEq, forall_eq', bind_some, getD_none]
      unfold usizeOf
      split
      · rw [getD_some]
        omega
      · rw [getD_none]
        omega

/-- So is the upper end, but for a negative one. -/
lemma size_upper (size : Nat) (hsize : size ≤ u64Max)
    (hgap : contract.maximumUtf8Bytes = none → ∀ bound, contract.named bounds = some bound →
      0 ≤ bound.maximum.toInt) :
    (∀ high ∈ (contract.sizes bounds).upper, (size : Int) ≤ high) ↔
      size ≤ (contract.maximumUtf8Bytes.map UInt64.toNat).getD
        (((contract.named bounds).bind (usizeOf ·.maximum)).getD u64Max) := by
  unfold PropertyContract.sizes
  cases hmaximum : contract.maximumUtf8Bytes with
  | some n => simp
  | none =>
    cases hnamed : contract.named bounds with
    | none => simpa using hsize
    | some bound =>
      have hpos := hgap hmaximum bound hnamed
      simp only [map_none, map_some, none_or, mem_def,
        some.injEq, forall_eq', bind_some, getD_none]
      unfold usizeOf
      rw [if_pos hpos, getD_some]
      omega

/-- No text is longer than `usize::MAX`, so neither is one that was checked. -/
lemma size_limit (size : Nat)
    (h : size ≤ (contract.maximumUtf8Bytes.map UInt64.toNat).getD
      (((contract.named bounds).bind (usizeOf ·.maximum)).getD u64Max)) : size ≤ u64Max := by
  cases hmaximum : contract.maximumUtf8Bytes with
  | some n =>
    rw [hmaximum] at h
    have hn := n.toNat_lt
    simp only [map_some, getD_some] at h
    simp only [u64Max]
    omega
  | none =>
    rw [hmaximum] at h
    cases hnamed : contract.named bounds with
    | none =>
      rw [hnamed] at h
      simpa using h
    | some bound =>
      rw [hnamed] at h
      have hlt := bound.maximum.toInt_lt
      simp only [map_none, getD_none, bind_some] at h
      unfold usizeOf at h
      split at h
      · rw [getD_some] at h
        simp only [u64Max]
        omega
      · exact h

lemma validateText_iff (h : BoundKnown bounds contract) :
    validateText name value contract bounds = .ok () ↔
      ∃ text, value = .string text ∧
        (contract.minimumUtf8Bytes.map UInt64.toNat).getD
          (((contract.named bounds).bind (usizeOf ·.minimum)).getD 0) ≤ text.utf8ByteSize ∧
        text.utf8ByteSize ≤ (contract.maximumUtf8Bytes.map UInt64.toNat).getD
          (((contract.named bounds).bind (usizeOf ·.maximum)).getD u64Max) := by
  unfold validateText
  cases value with
  | string text =>
    simp only [Json.asStr, namedBound_eq h]
    rw [bind_eq_ok]
    simp only [Except.ok.injEq, exists_eq_left', validateSize_eq_ok, Json.string.injEq]
  | _ => simp [Json.asStr]

/-- A checked text is one that is declared, or one behind the gap. -/
lemma validateText_gap (h : BoundKnown bounds contract) :
    validateText name value contract bounds = .ok () ↔
      contract.AllowsText bounds value ∨
        (contract.maximumUtf8Bytes = none ∧
          (∃ bound, contract.named bounds = some bound ∧ bound.maximum.toInt < 0) ∧
          ∃ text, value = .string text ∧ text.utf8ByteSize ≤ u64Max ∧
            ∀ low ∈ (contract.sizes bounds).lower, low ≤ (text.utf8ByteSize : Int)) := by
  rw [validateText_iff h]
  by_cases hgap : contract.maximumUtf8Bytes = none ∧
      ∃ bound, contract.named bounds = some bound ∧ bound.maximum.toInt < 0
  · -- a negative upper end: nothing is declared, and every size is let through
    obtain ⟨hmaximum, bound, hnamed, hneg⟩ := hgap
    have hcode : (contract.maximumUtf8Bytes.map UInt64.toNat).getD
        (((contract.named bounds).bind (usizeOf ·.maximum)).getD u64Max) = u64Max := by
      rw [hmaximum, hnamed]
      simp only [map_none, getD_none, bind_some]
      unfold usizeOf
      rw [if_neg (by omega)]
      rfl
    have hnone : ¬ contract.AllowsText bounds value := by
      intro ⟨text, _, hsizes, _⟩
      have hupper := hsizes.2 bound.maximum.toInt (by
        unfold PropertyContract.sizes
        rw [hmaximum, hnamed]
        rfl)
      omega
    rw [hcode]
    constructor
    · intro ⟨text, hvalue, hlow, hhigh⟩
      exact .inr ⟨hmaximum, ⟨bound, hnamed, hneg⟩, text, hvalue, hhigh,
        (size_lower _).mpr hlow⟩
    · intro hor
      rcases hor with hallows | ⟨-, -, text, hvalue, hhigh, hlow⟩
      · exact absurd hallows hnone
      · exact ⟨text, hvalue, (size_lower _).mp hlow, hhigh⟩
  · have hpos : contract.maximumUtf8Bytes = none → ∀ bound, contract.named bounds = some bound →
        0 ≤ bound.maximum.toInt := by
      intro hmaximum bound hnamed
      by_contra hneg
      exact hgap ⟨hmaximum, bound, hnamed, by omega⟩
    constructor
    · intro ⟨text, hvalue, hlow, hhigh⟩
      have hlimit := size_limit _ hhigh
      exact .inl ⟨text, hvalue, ⟨(size_lower _).mpr hlow,
        (size_upper _ hlimit hpos).mpr hhigh⟩, hlimit⟩
    · intro hor
      rcases hor with ⟨text, hvalue, hsizes, hlimit⟩ | ⟨hmaximum, hneg, -⟩
      · exact ⟨text, hvalue, (size_lower _).mp hsizes.1, (size_upper _ hlimit hpos).mp hsizes.2⟩
      · exact absurd ⟨hmaximum, hneg⟩ hgap

/-! ## Integers -/

lemma range_named {bound : NumericBound} (hnamed : contract.named bounds = some bound) (n : Int) :
    (contract.range bounds).Holds n ↔ bound.minimum.toInt ≤ n ∧ n ≤ bound.maximum.toInt := by
  unfold PropertyContract.range
  rw [hnamed]
  simp [Range.Holds]

/-- Without a named bound an end that is not declared is the end of `i64`. -/
lemma range_own (hnamed : contract.named bounds = none) (hlow : -2 ^ 63 ≤ n) (hhigh : n < 2 ^ 63) :
    (contract.range bounds).Holds n ↔
      (contract.minimum.map Int64.toInt).getD (-2 ^ 63) ≤ n ∧
        n ≤ (contract.maximum.map Int64.toInt).getD (2 ^ 63 - 1) := by
  unfold PropertyContract.range
  rw [hnamed]
  unfold Range.Holds
  apply and_congr
  · cases contract.minimum with
    | some m => simp
    | none => simpa using hlow
  · cases contract.maximum with
    | some m => simp
    | none =>
      simp only [map_none, mem_def, reduceCtorEq, false_implies, implies_true,
        getD_none, true_iff]
      omega

lemma validateInteger_iff (h : BoundKnown bounds contract) :
    validateInteger name value contract bounds = .ok () ↔
      ∃ n, value.integer? = some n ∧ n < 2 ^ 63 ∧
        (contract.kind.toList.head? = some 'u' → 0 ≤ n) ∧ (contract.range bounds).Holds n := by
  unfold validateInteger
  cases hvalue : value.asI64 with
  | none =>
    constructor
    · intro hok
      cases hok
    · intro ⟨n, hn, hlt, _⟩
      have hsome := asI64_eq_some.mpr ⟨hn, hlt⟩
      rw [hvalue] at hsome
      cases hsome
  | some n =>
    obtain ⟨hn, hlt⟩ := asI64_eq_some.mp hvalue
    have hlow := (integer_low hn).1
    have hsingle : (∃ m, value.integer? = some m ∧ m < 2 ^ 63 ∧
        (contract.kind.toList.head? = some 'u' → 0 ≤ m) ∧ (contract.range bounds).Holds m) ↔
        (contract.kind.toList.head? = some 'u' → 0 ≤ n) ∧ (contract.range bounds).Holds n := by
      simp only [hn, some.injEq, exists_eq_left', hlt, true_and]
    rw [hsingle]
    dsimp only
    rw [ite_error_eq_ok]
    apply and_congr
    · simp only [Bool.and_eq_true, decide_eq_true_eq, not_and, Int.not_lt]
    · rw [namedBound_eq h]
      cases hnamed : contract.named bounds with
      | some bound =>
        rw [range_named hnamed, ← @validateRange_eq_ok name]
        rfl
      | none =>
        rw [range_own hnamed hlow hlt, ← @validateRange_eq_ok name]
        rfl

/-! ## All types -/

lemma isTextKind_iff : isTextKind kind = true ↔ kind = "string" ∨ kind = "stable_tab_id" := by
  unfold isTextKind
  simp only [Bool.or_eq_true, decide_eq_true_eq]

lemma isIntegerKind_iff :
    isIntegerKind kind = true ↔ kind = "integer" ∨ kind = "uint32" ∨ kind = "uint64" := by
  unfold isIntegerKind
  simp only [Bool.or_eq_true, decide_eq_true_eq, or_assoc]

/-- The type of a text is no other type. -/
lemma isTextKind_alone (h : isTextKind kind = true) :
    isIntegerKind kind = false ∧ kind ≠ "number" ∧ kind ≠ "uint32" ∧ kind ≠ "uint64" := by
  rcases isTextKind_iff.mp h with rfl | rfl <;> decide

lemma isIntegerKind_alone (h : isIntegerKind kind = true) :
    isTextKind kind = false ∧ kind ≠ "number" := by
  rcases isIntegerKind_iff.mp h with rfl | rfl | rfl <;> decide

lemma types_integer (n : Int) : PropertyContract.types "integer" n ↔ -2 ^ 63 ≤ n ∧ n < 2 ^ 63 := by
  simp [PropertyContract.types]

lemma types_uint32 (n : Int) : PropertyContract.types "uint32" n ↔ 0 ≤ n ∧ n < 2 ^ 32 := by
  simp [PropertyContract.types]

lemma types_uint64 (n : Int) : PropertyContract.types "uint64" n ↔ 0 ≤ n ∧ n < 2 ^ 64 := by
  simp [PropertyContract.types]

section
variable (hinteger : isIntegerKind contract.kind = true)

include hinteger in
lemma allows_integer :
    contract.Allows bounds value ↔ contract.AllowsInteger bounds value := by
  obtain ⟨htext, hnumber⟩ := isIntegerKind_alone hinteger
  unfold PropertyContract.Allows
  simp only [htext, hinteger, hnumber, Bool.false_eq_true, false_and, true_and, or_false, false_or]

include hinteger in
lemma letsThrough_integer :
    contract.LetsThrough bounds value ↔
      contract.kind = "uint32" ∧ ∃ n, value.integer? = some n ∧ 2 ^ 32 ≤ n ∧ n < 2 ^ 63 ∧
        (contract.range bounds).Holds n := by
  obtain ⟨htext, hnumber⟩ := isIntegerKind_alone hinteger
  unfold PropertyContract.LetsThrough
  simp only [htext, hnumber, Bool.false_eq_true, false_and, or_false]

end

/-- The integers that are let through, one type after the other. -/
lemma validateInteger_gap (h : BoundKnown bounds contract)
    (hinteger : isIntegerKind contract.kind = true) :
    validateInteger name value contract bounds = .ok () ↔
      (contract.Allows bounds value ∧ ¬ contract.TurnsAway bounds value) ∨
        contract.LetsThrough bounds value := by
  rw [validateInteger_iff h, allows_integer hinteger, letsThrough_integer hinteger]
  unfold PropertyContract.AllowsInteger PropertyContract.TurnsAway
  cases hvalue : value.integer? with
  | none => simp
  | some n =>
    obtain ⟨hlow, hhigh⟩ := integer_low hvalue
    simp only [some.injEq, exists_eq_left']
    rcases isIntegerKind_iff.mp hinteger with hkind | hkind | hkind
    · have hsign : ("integer" : String).toList.head? ≠ some 'u' := by decide
      have hother : ("integer" : String) ≠ "uint32" ∧ ("integer" : String) ≠ "uint64" := by decide
      rw [hkind, types_integer]
      simp only [hsign, hother, false_implies, true_and, false_and, not_false_eq_true, and_true,
        or_false, hlow]
    · have hsign : ("uint32" : String).toList.head? = some 'u' := by decide
      have hother : ("uint32" : String) ≠ "uint64" := by decide
      rw [hkind, types_uint32]
      simp only [hsign, hother, true_implies, true_and, false_and, not_false_eq_true, and_true]
      -- below 2 ^ 32 it is declared, above it is let through
      constructor
      · intro ⟨hlt, hpos, hrange⟩
        by_cases hsmall : n < 2 ^ 32
        · exact .inl ⟨⟨hpos, hsmall⟩, hrange⟩
        · exact .inr ⟨by omega, hlt, hrange⟩
      · intro hor
        rcases hor with ⟨⟨hpos, hsmall⟩, hrange⟩ | ⟨hlarge, hlt, hrange⟩
        · exact ⟨by omega, hpos, hrange⟩
        · exact ⟨hlt, by omega, hrange⟩
    · have hsign : ("uint64" : String).toList.head? = some 'u' := by decide
      have hother : ("uint64" : String) ≠ "uint32" := by decide
      rw [hkind, types_uint64]
      simp only [hsign, hother, true_implies, true_and, false_and, or_false]
      -- from 2 ^ 63 on it is turned away
      constructor
      · intro ⟨hlt, hpos, hrange⟩
        exact ⟨⟨⟨hpos, hhigh⟩, hrange⟩, fun hgap => by omega⟩
      · intro ⟨⟨⟨hpos, _⟩, hrange⟩, hgap⟩
        refine ⟨?_, hpos, hrange⟩
        by_contra hlarge
        exact hgap ⟨by omega, hhigh, hrange⟩

/-- The check of a property lets through what is declared and what is in a gap on one side, and
turns away what is in the gap on the other. -/
theorem validateProperty_iff (h : BoundKnown bounds contract) :
    validateProperty name value contract bounds = .ok () ↔
      (contract.Allows bounds value ∧ ¬ contract.TurnsAway bounds value) ∨
        contract.LetsThrough bounds value := by
  unfold validateProperty
  by_cases htext : isTextKind contract.kind = true
  · obtain ⟨hinteger, hnumber, h32, h64⟩ := isTextKind_alone htext
    rw [if_pos htext, validateText_gap h]
    unfold PropertyContract.Allows PropertyContract.TurnsAway PropertyContract.LetsThrough
    simp only [htext, hinteger, hnumber, h32, h64, Bool.false_eq_true, true_and, false_and,
      or_false, false_or, not_false_eq_true, and_true]
  · rw [if_neg htext]
    by_cases hinteger : isIntegerKind contract.kind = true
    · rw [if_pos hinteger]
      exact validateInteger_gap h hinteger
    · rw [if_neg hinteger]
      have h32 : contract.kind ≠ "uint32" := fun hkind =>
        hinteger (isIntegerKind_iff.mpr (.inr (.inl hkind)))
      have h64 : contract.kind ≠ "uint64" := fun hkind =>
        hinteger (isIntegerKind_iff.mpr (.inr (.inr hkind)))
      unfold PropertyContract.Allows PropertyContract.TurnsAway PropertyContract.LetsThrough
        PropertyContract.AllowsNumber
      simp only [htext, hinteger, h32, h64, Bool.false_eq_true, false_and, false_or, or_false,
        not_false_eq_true, and_true]
      by_cases hnumber : contract.kind = "number"
      · rw [if_pos hnumber]
        simp only [hnumber, true_and]
        cases value with
        | number x =>
          -- every number passes, within the range or not
          simp only [Json.isNumber, if_true, Json.number.injEq, exists_eq_left', true_iff]
          exact em _
        | _ => simp [Json.isNumber]
      · rw [if_neg hnumber]
        simp [hnumber]

lemma not_letsThrough_of_allows (h : contract.Allows bounds value) :
    ¬ contract.LetsThrough bounds value := by
  intro hgap
  rcases hgap with ⟨hkind, n, hn, hlarge, -, -⟩ | ⟨hkind, x, hx, hrange⟩ |
    ⟨htext, hmaximum, ⟨bound, hnamed, hneg⟩, -⟩
  · have hinteger : isIntegerKind contract.kind = true := by
      rw [hkind]
      rfl
    rw [allows_integer hinteger] at h
    obtain ⟨m, hm, htypes, -⟩ := h
    rw [hn] at hm
    rw [hkind, types_uint32] at htypes
    injection hm with hm
    omega
  · unfold PropertyContract.Allows at h
    rw [hkind] at h
    rcases h with ⟨hother, -⟩ | ⟨hother, -⟩ | ⟨-, y, hy, hholds⟩
    · exact absurd hother (by decide)
    · exact absurd hother (by decide)
    · rw [hx] at hy
      injection hy with hy
      exact hrange (hy ▸ hholds)
  · obtain ⟨hinteger, hnumber, -, -⟩ := isTextKind_alone htext
    rcases h with ⟨-, text, -, hsizes, -⟩ | ⟨hother, -⟩ | ⟨hother, -⟩
    · have hupper := hsizes.2 bound.maximum.toInt (by
        unfold PropertyContract.sizes
        rw [hmaximum, hnamed]
        rfl)
      omega
    · rw [hinteger] at hother
      cases hother
    · exact absurd hother hnumber

lemma allows_of_turnsAway (h : contract.TurnsAway bounds value) :
    contract.Allows bounds value := by
  obtain ⟨hkind, n, hn, hlow, hhigh, hrange⟩ := h
  have hinteger : isIntegerKind contract.kind = true := by
    rw [hkind]
    rfl
  rw [allows_integer hinteger]
  refine ⟨n, hn, ?_, hrange⟩
  rw [hkind, types_uint64]
  omega

end

/-! ## All parameters -/

namespace ParameterObject

/-- An object with the required fields, each of which a property knows. -/
def Fields (P : PropertyContract → Json → Prop) (contract : ParameterObject) (value : Json) :
    Prop :=
  ∃ fields, value = .object fields ∧
    (∀ required ∈ contract.required, (fields.lookup required).isSome = true) ∧
      ∀ field ∈ fields, ∃ property, contract.properties.lookup field.1 = some property ∧
        P property field.2

/-- One of the fields is of this kind. -/
def SomeField (P : PropertyContract → Json → Prop) (contract : ParameterObject) (value : Json) :
    Prop :=
  ∃ fields, value = .object fields ∧ ∃ field ∈ fields, ∃ property,
    contract.properties.lookup field.1 = some property ∧ P property field.2

/-- The arguments satisfy the schema. -/
def Allows (bounds : Entries NumericBound) (contract : ParameterObject) (value : Json) : Prop :=
  contract.Fields (PropertyContract.Allows bounds) value

/-- The arguments satisfy the schema but for the gaps that let values through. -/
def InOrder (bounds : Entries NumericBound) (contract : ParameterObject) (value : Json) : Prop :=
  contract.Fields (fun property value =>
    property.Allows bounds value ∨ property.LetsThrough bounds value) value

end ParameterObject

section
variable {P Q R : PropertyContract → Json → Prop} {contract : ParameterObject} {value : Json}

/-- Fields of one kind are fields of another of which none is of a third. -/
lemma fields_iff (h : ∀ property value, P property value ↔ Q property value ∧ ¬ R property value) :
    contract.Fields P value ↔ contract.Fields Q value ∧ ¬ contract.SomeField R value := by
  constructor
  · intro ⟨fields, hvalue, hrequired, hall⟩
    refine ⟨⟨fields, hvalue, hrequired, fun field hfield => ?_⟩, ?_⟩
    · obtain ⟨property, hlookup, hP⟩ := hall field hfield
      exact ⟨property, hlookup, ((h _ _).mp hP).1⟩
    · intro ⟨fields', hvalue', field, hfield, property, hlookup, hR⟩
      rw [hvalue] at hvalue'
      injection hvalue' with hfields
      subst hfields
      obtain ⟨property', hlookup', hP⟩ := hall field hfield
      rw [hlookup] at hlookup'
      injection hlookup' with hproperty
      subst hproperty
      exact ((h _ _).mp hP).2 hR
  · intro ⟨⟨fields, hvalue, hrequired, hall⟩, hnone⟩
    refine ⟨fields, hvalue, hrequired, fun field hfield => ?_⟩
    obtain ⟨property, hlookup, hQ⟩ := hall field hfield
    refine ⟨property, hlookup, (h _ _).mpr ⟨hQ, fun hR => hnone ?_⟩⟩
    exact ⟨fields, hvalue, field, hfield, property, hlookup, hR⟩

variable {bounds : Entries NumericBound}

/-- The bounds that the properties name are there. -/
def BoundsKnown (bounds : Entries NumericBound) (contract : ParameterObject) : Prop :=
  ∀ name property, contract.properties.lookup name = some property → BoundKnown bounds property

lemma allowsObject_iff :
    contract.Allows bounds value ↔ contract.InOrder bounds value ∧
      ¬ contract.SomeField (PropertyContract.LetsThrough bounds) value := by
  apply fields_iff
  intro property value
  constructor
  · exact fun h => ⟨.inl h, not_letsThrough_of_allows h⟩
  · exact fun ⟨hor, hnone⟩ => hor.resolve_right hnone

/-- The parameters are checked field by field. -/
lemma validateParameters_fields (h : BoundsKnown bounds contract) :
    validateParameters value contract bounds = .ok () ↔
      contract.Fields (fun property value =>
        (property.Allows bounds value ∧ ¬ property.TurnsAway bounds value) ∨
          property.LetsThrough bounds value) value := by
  cases value with
  | object fields =>
    unfold validateParameters ParameterObject.Fields
    simp only [Json.object.injEq, exists_eq_left']
    rw [bind_unit_eq_ok, forM_eq_ok, forM_eq_ok]
    apply and_congr
    · apply forall_congr'
      intro required
      unfold requireField
      rw [ite_error_eq_ok]
      simp
    · apply forall_congr'
      intro field
      unfold validateField
      cases hlookup : contract.properties.lookup field.1 with
      | none => simp
      | some property =>
        simp only [validateProperty_iff (h _ _ hlookup), some.injEq, exists_eq_left']
  | _ => simp [validateParameters, ParameterObject.Fields]

lemma validateParameters_iff (h : BoundsKnown bounds contract) :
    validateParameters value contract bounds = .ok () ↔ contract.InOrder bounds value ∧
      ¬ contract.SomeField (PropertyContract.TurnsAway bounds) value := by
  rw [validateParameters_fields h]
  apply fields_iff
  intro property value
  constructor
  · intro hor
    rcases hor with ⟨hallows, hnot⟩ | hgap
    · exact ⟨.inl hallows, hnot⟩
    · exact ⟨.inr hgap, fun haway =>
        not_letsThrough_of_allows (allows_of_turnsAway haway) hgap⟩
  · intro ⟨hor, hnot⟩
    exact hor.imp_left fun hallows => ⟨hallows, hnot⟩

end

/-! ## Accepted documents -/

/-- The name or the alias of a capability of the document. -/
def HostAbiDocument.Operation (document : HostAbiDocument) (name : String)
    (capability : CapabilityContract) : Prop :=
  capability ∈ document.capabilities ∧ (name = capability.id ∨ capability.facade = some name)

/-- The tables after some capabilities: each name stands for one of them. -/
structure Catalogued (document : HostAbiDocument) (done : List CapabilityContract)
    (tables : CapabilityTables) : Prop where
  aliases : ∀ name canonical, tables.aliases.lookup name = some canonical ↔
    ∃ capability ∈ done, (name = capability.id ∨ capability.facade = some name) ∧
      capability.id = canonical
  capabilities : ∀ id capability, tables.capabilities.lookup id = some capability ↔
    capability ∈ done ∧ capability.id = id
  signatures : ∀ capability ∈ done, (document.signatures.lookup capability.signature).isSome = true

variable {aliases aliases' : Entries String} {other : CapabilityContract}

/-- A name that is inserted stands for what it is inserted for, and no other name changes. -/
lemma insertAlias_lookup (h : insertAlias aliases name canonical = .ok aliases')
    (other found : String) :
    aliases'.lookup other = some found ↔
      aliases.lookup other = some found ∨ other = name ∧ canonical = found := by
  unfold insertAlias at h
  cases hlookup : aliases.lookup name with
  | none =>
    rw [hlookup] at h
    injection h with h
    subst h
    rw [lookup_append]
    by_cases hother : other = name
    · subst hother
      simp [hlookup]
    · have hbeq : (other == name) = false := beq_eq_false_iff_ne.mpr hother
      simp [lookup_cons, hbeq, hother]
  | some previous =>
    rw [hlookup] at h
    dsimp only at h
    rw [ite_error_eq_ok] at h
    obtain ⟨hsame, h⟩ := h
    rw [not_not] at hsame
    injection h with h
    subst h
    constructor
    · exact .inl
    · intro hor
      rcases hor with hfound | ⟨rfl, rfl⟩
      · exact hfound
      · rw [hlookup, hsame]

lemma insertFacade_lookup (h : insertFacade aliases capability = .ok aliases')
    (other found : String) :
    aliases'.lookup other = some found ↔
      aliases.lookup other = some found ∨
        capability.facade = some other ∧ capability.id = found := by
  unfold insertFacade at h
  cases hfacade : capability.facade with
  | none =>
    rw [hfacade] at h
    injection h with h
    subst h
    simp
  | some facade =>
    rw [hfacade] at h
    dsimp only at h
    rw [bind_unit_eq_ok] at h
    rw [insertAlias_lookup h.2, some.injEq, @eq_comm _ facade other]

section
variable {document : HostAbiDocument} {tables tables' : CapabilityTables}
  {done : List CapabilityContract} {capability : CapabilityContract}

/-- A capability whose names are free joins the tables. -/
lemma Catalogued.add (hdone : Catalogued document done tables)
    (h : addCapability document tables capability = .ok tables') :
    Catalogued document (done ++ [capability]) tables' := by
  unfold addCapability at h
  rw [bind_unit_eq_ok] at h
  obtain ⟨_, h⟩ := h
  rw [ite_error_eq_ok] at h
  obtain ⟨_, h⟩ := h
  rw [ite_error_eq_ok] at h
  obtain ⟨hsignature, h⟩ := h
  obtain ⟨own, hown, h⟩ := bind_eq_ok.mp h
  obtain ⟨aliases, haliases, h⟩ := bind_eq_ok.mp h
  unfold CapabilityTables.insert at h
  rw [ite_error_eq_ok] at h
  obtain ⟨hnew, h⟩ := h
  injection h with h
  subst h
  refine ⟨fun name canonical => ?_, fun id found => ?_, fun found hfound => ?_⟩
  · dsimp only
    rw [insertFacade_lookup haliases, insertAlias_lookup hown, hdone.aliases]
    simp only [mem_append, mem_singleton]
    constructor
    · intro hor
      rcases hor with (⟨c, hc, hname, hid⟩ | ⟨hname, hid⟩) | ⟨hfacade, hid⟩
      · exact ⟨c, .inl hc, hname, hid⟩
      · exact ⟨capability, .inr rfl, .inl hname, hid⟩
      · exact ⟨capability, .inr rfl, .inr hfacade, hid⟩
    · intro ⟨c, hc, hname, hid⟩
      rcases hc with hc | rfl
      · exact .inl (.inl ⟨c, hc, hname, hid⟩)
      · rcases hname with hname | hfacade
        · exact .inl (.inr ⟨hname, hid⟩)
        · exact .inr ⟨hfacade, hid⟩
  · dsimp only
    rw [lookup_append]
    simp only [mem_append, mem_singleton]
    by_cases hid : id = capability.id
    · -- the id was not there before
      subst hid
      have hnone : tables.capabilities.lookup capability.id = none :=
        not_isSome_iff_eq_none.mp hnew
      rw [hnone]
      constructor
      · intro hfound
        simp only [lookup_cons, beq_self_eq_true, none_or, some.injEq] at hfound
        exact ⟨.inr hfound.symm, hfound ▸ rfl⟩
      · intro ⟨hor, hsame⟩
        rcases hor with hold | rfl
        · have hlookup := (hdone.capabilities _ _).mpr ⟨hold, hsame⟩
          rw [hnone] at hlookup
          cases hlookup
        · simp
    · have hbeq : (id == capability.id) = false := beq_eq_false_iff_ne.mpr hid
      simp only [lookup_cons, hbeq, lookup_nil, or_none, hdone.capabilities]
      constructor
      · exact fun ⟨hold, hsame⟩ => ⟨.inl hold, hsame⟩
      · intro ⟨hor, hsame⟩
        rcases hor with hold | rfl
        · exact ⟨hold, hsame⟩
        · exact absurd hsame.symm hid
  · rcases mem_append.mp hfound with hold | hlast
    · exact hdone.signatures found hold
    · rw [mem_singleton.mp hlast]
      simpa [isNone_iff_eq_none, isSome_iff_ne_none] using hsignature

lemma Catalogued.addAll {rest : List CapabilityContract} (hdone : Catalogued document done tables)
    (h : addCapabilities document tables rest = .ok tables') :
    Catalogued document (done ++ rest) tables' := by
  induction rest generalizing done tables with
  | nil =>
    injection h with h
    subst h
    rw [append_nil]
    exact hdone
  | cons capability rest ih =>
    obtain ⟨next, hnext, hrest⟩ := bind_eq_ok.mp h
    have hall := ih (hdone.add hnext) hrest
    rw [append_assoc] at hall
    exact hall

end

/-- What is known of a dispatcher that was built from a document. -/
structure BuiltFrom (document : HostAbiDocument) (declarations : List String) (d : Dispatcher) :
    Prop where
  catalogued : Catalogued document document.capabilities
    { aliases := d.aliases, capabilities := d.capabilities }
  signatures : d.signatures = document.signatures
  bounds : d.bounds = document.bounds
  declared : ∀ canonical, canonical ∈ d.declared ↔
    ∃ name ∈ declarations, d.aliases.lookup name = some canonical
  boundsKnown : ∀ name signature, document.signatures.lookup name = some signature →
    BoundsKnown document.bounds signature.parameters

lemma mem_of_lookup {α : Type} {a : α} {entries : Entries α} (h : entries.lookup name = some a) :
    (name, a) ∈ entries := by
  obtain ⟨front, back, rfl, -⟩ := lookup_eq_some_iff.mp h
  exact mem_append_right _ mem_cons_self

lemma boundsKnown_of_validate {signatures : Entries Signature} {bounds : Entries NumericBound}
    (h : validateSignatures signatures bounds = .ok ()) {signature : Signature}
    (hlookup : signatures.lookup name = some signature) :
    BoundsKnown bounds signature.parameters := by
  have hsignature := forM_eq_ok.mp h (name, signature) (mem_of_lookup hlookup)
  unfold validateSignature at hsignature
  rw [ite_error_eq_ok, bind_unit_eq_ok] at hsignature
  have hproperties := forM_eq_ok.mp hsignature.2.2
  intro property contract hproperty bound hbound
  have hbounds := hproperties (property, contract) (mem_of_lookup hproperty)
  unfold validateBoundName at hbounds
  dsimp only at hbounds
  rw [hbound] at hbounds
  dsimp only at hbounds
  rw [ite_error_eq_ok] at hbounds
  simpa [isSome_iff_ne_none] using hbounds.1

lemma builtFrom {document : HostAbiDocument} {declarations : List String} {d : Dispatcher}
    (h : Dispatcher.fromHostAbi document declarations = .ok d) :
    BuiltFrom document declarations d := by
  unfold Dispatcher.fromHostAbi at h
  rw [bind_unit_eq_ok] at h
  obtain ⟨_, h⟩ := h
  obtain ⟨tables, htables, h⟩ := bind_eq_ok.mp h
  rw [ite_error_eq_ok] at h
  obtain ⟨_, h⟩ := h
  rw [bind_unit_eq_ok] at h
  obtain ⟨hsignatures, h⟩ := h
  obtain ⟨declared, hdeclared, h⟩ := bind_eq_ok.mp h
  injection h with h
  subst h
  have hempty : Catalogued document [] {} := by
    refine ⟨fun name canonical => ?_, fun id capability => ?_, fun capability hmem => ?_⟩
    · simp
    · simp
    · exact absurd hmem not_mem_nil
  have hcatalogued := hempty.addAll htables
  refine ⟨hcatalogued, rfl, rfl, fun canonical => ?_, fun name signature hlookup =>
    boundsKnown_of_validate hsignatures hlookup⟩
  have hall := mapM_eq_ok.mp hdeclared
  have hone : ∀ name found, declareCapability tables.aliases name = .ok found ↔
      tables.aliases.lookup name = some found := by
    intro name found
    unfold declareCapability
    cases tables.aliases.lookup name with
    | none => simp
    | some canonical => simp
  dsimp only
  constructor
  · intro hmem
    obtain ⟨name, hname, hok⟩ := exists_left_of_forall₂ hall hmem
    exact ⟨name, hname, (hone _ _).mp hok⟩
  · intro ⟨name, hname, hlookup⟩
    obtain ⟨found, hfound, hok⟩ := exists_right_of_forall₂ hall hname
    rw [hone, hlookup] at hok
    injection hok with hok
    exact hok ▸ hfound

/-! ## Dispatch -/

/-- A call of a capability that the app declared, by its name or its alias, and the parameters of
the signature of the capability. -/
def DeclaredCall (document : HostAbiDocument) (declarations : List String) (name : String)
    (capability : CapabilityContract) (contract : ParameterObject) : Prop :=
  document.Operation name capability ∧
    (∃ declaration ∈ declarations, document.Operation declaration capability) ∧
      ∃ signature, document.signatures.lookup capability.signature = some signature ∧
        signature.parameters = contract

/-- The host is called once, by the canonical name and with the arguments as they are, when the
call is declared and the arguments satisfy the schema, and never otherwise. -/
def Gated (document : HostAbiDocument) (declarations : List String) (name : String)
    (parameters : Json) (calls : List (String × Json)) : Prop :=
  (∀ capability contract, DeclaredCall document declarations name capability contract →
    (contract.Allows document.bounds parameters → calls = [(capability.id, parameters)]) ∧
      (¬ contract.Allows document.bounds parameters → calls = [])) ∧
    ((¬ ∃ capability contract, DeclaredCall document declarations name capability contract) →
      calls = [])

/-- The call is not declared, or its arguments are out of order apart from the gaps, or there are
arguments in the gaps of one side exactly when there are in that of the other. -/
def NoGap (document : HostAbiDocument) (declarations : List String) (name : String)
    (parameters : Json) : Prop :=
  ∀ capability contract, DeclaredCall document declarations name capability contract →
    contract.InOrder document.bounds parameters →
      (contract.SomeField (PropertyContract.LetsThrough document.bounds) parameters ↔
        contract.SomeField (PropertyContract.TurnsAway document.bounds) parameters)

section
variable {document : HostAbiDocument} {declarations : List String} {d : Dispatcher}
  {name : String}

lemma BuiltFrom.lookup_iff (h : BuiltFrom document declarations d) :
    d.aliases.lookup name = some canonical ↔
      ∃ capability, document.Operation name capability ∧ capability.id = canonical := by
  rw [h.catalogued.aliases]
  constructor
  · intro ⟨capability, hmem, hname, hid⟩
    exact ⟨capability, ⟨hmem, hname⟩, hid⟩
  · intro ⟨capability, ⟨hmem, hname⟩, hid⟩
    exact ⟨capability, hmem, hname, hid⟩

/-- A name belongs to one capability. -/
lemma BuiltFrom.unique (h : BuiltFrom document declarations d)
    (hone : document.Operation name capability) (hother : document.Operation name other) :
    other = capability := by
  have hid := h.lookup_iff.mpr ⟨capability, hone, rfl⟩
  have hid' := h.lookup_iff.mpr ⟨other, hother, rfl⟩
  rw [hid] at hid'
  injection hid' with hsame
  have hfound := (h.catalogued.capabilities _ _).mpr ⟨hone.1, rfl⟩
  have hfound' := (h.catalogued.capabilities _ _).mpr ⟨hother.1, rfl⟩
  rw [← hsame, hfound] at hfound'
  injection hfound' with heq
  exact heq.symm

variable {contract : ParameterObject}

/-- A name resolves exactly when it belongs to a capability that was declared. -/
lemma BuiltFrom.resolve_iff (h : BuiltFrom document declarations d) :
    d.resolve name = .ok (canonical, contract) ↔
      ∃ capability, DeclaredCall document declarations name capability contract ∧
        capability.id = canonical := by
  unfold Dispatcher.resolve DeclaredCall
  constructor
  · intro hok
    cases hlookup : d.aliases.lookup name with
    | none =>
      rw [hlookup] at hok
      cases hok
    | some found =>
      rw [hlookup] at hok
      dsimp only at hok
      rw [ite_error_eq_ok, not_not] at hok
      obtain ⟨hdeclared, hok⟩ := hok
      obtain ⟨capability, hoperation, rfl⟩ := h.lookup_iff.mp hlookup
      have hfound := (h.catalogued.capabilities _ _).mpr ⟨hoperation.1, rfl⟩
      dsimp only at hfound
      rw [hfound, h.signatures] at hok
      dsimp only at hok
      cases hsignature : document.signatures.lookup capability.signature with
      | none =>
        rw [hsignature] at hok
        cases hok
      | some signature =>
        rw [hsignature] at hok
        injection hok with hok
        injection hok with hcanonical hcontract
        obtain ⟨declaration, hmem, hresolves⟩ := (h.declared _).mp hdeclared
        obtain ⟨other, hother, hsame⟩ := h.lookup_iff.mp hresolves
        -- the declaration names the same capability
        have hfound' := (h.catalogued.capabilities _ _).mpr ⟨hother.1, hsame⟩
        dsimp only at hfound'
        rw [hfound] at hfound'
        injection hfound' with heq
        subst heq
        exact ⟨capability, ⟨hoperation, ⟨declaration, hmem, hother⟩, signature, hsignature, hcontract⟩,
          hcanonical⟩
  · intro ⟨capability, ⟨hoperation, ⟨declaration, hmem, hdeclaration⟩, signature, hsignature,
      hcontract⟩, hcanonical⟩
    have hlookup := h.lookup_iff.mpr ⟨capability, hoperation, rfl⟩
    have hdeclared := (h.declared _).mpr
      ⟨declaration, hmem, h.lookup_iff.mpr ⟨capability, hdeclaration, rfl⟩⟩
    have hfound := (h.catalogued.capabilities _ _).mpr ⟨hoperation.1, rfl⟩
    dsimp only at hfound
    rw [hlookup]
    dsimp only
    rw [if_neg (not_not.mpr hdeclared), hfound, h.signatures]
    dsimp only
    rw [hsignature, ← hcontract, ← hcanonical]

lemma BuiltFrom.prepare_iff (h : BuiltFrom document declarations d) {parameters : Json} :
    d.prepare name parameters = .ok canonical ↔
      ∃ capability contract, DeclaredCall document declarations name capability contract ∧
        capability.id = canonical ∧ contract.InOrder document.bounds parameters ∧
          ¬ contract.SomeField (PropertyContract.TurnsAway document.bounds) parameters := by
  unfold Dispatcher.prepare
  rw [bind_eq_ok]
  constructor
  · intro ⟨⟨found, contract⟩, hresolve, hok⟩
    dsimp only at hok
    rw [bind_unit_eq_ok] at hok
    obtain ⟨hvalid, hfound⟩ := hok
    injection hfound with hfound
    obtain ⟨capability, hcall, hid⟩ := h.resolve_iff.mp hresolve
    obtain ⟨signature, hsignature, hcontract⟩ := hcall.2.2
    have hbounds := h.boundsKnown _ _ hsignature
    rw [hcontract, ← h.bounds] at hbounds
    rw [validateParameters_iff hbounds, h.bounds] at hvalid
    exact ⟨capability, contract, hcall, hid.trans hfound, hvalid⟩
  · intro ⟨capability, contract, hcall, hid, hvalid⟩
    obtain ⟨signature, hsignature, hcontract⟩ := hcall.2.2
    have hbounds := h.boundsKnown _ _ hsignature
    rw [hcontract, ← h.bounds] at hbounds
    rw [← h.bounds, ← validateParameters_iff hbounds] at hvalid
    refine ⟨(canonical, contract), h.resolve_iff.mpr ⟨capability, hcall, hid⟩, ?_⟩
    dsimp only
    rw [bind_unit_eq_ok]
    exact ⟨hvalid, rfl⟩

/-- A declared call is one of one capability with one signature. -/
lemma BuiltFrom.call_unique (h : BuiltFrom document declarations d) {contract' : ParameterObject}
    (hone : DeclaredCall document declarations name capability contract)
    (hother : DeclaredCall document declarations name other contract') :
    other = capability ∧ contract' = contract := by
  have hsame := h.unique hone.1 hother.1
  subst hsame
  obtain ⟨signature, hsignature, hcontract⟩ := hone.2.2
  obtain ⟨signature', hsignature', hcontract'⟩ := hother.2.2
  rw [hsignature] at hsignature'
  injection hsignature' with heq
  subst heq
  exact ⟨rfl, hcontract'.symm.trans hcontract⟩

end

/-- The calls of a dispatch are decided by what is checked before. -/
lemma dispatch_calls {σ : Type} (d : Dispatcher)
    (call : σ → String → Json → Except String Json × σ) (textBytes : Json → Nat) (host : σ)
    (name : String) (parameters : Json) (calls : List (String × Json)) :
    (d.dispatch call textBytes host name parameters).calls = calls ↔
      (∃ canonical, d.prepare name parameters = .ok canonical ∧
        calls = [(canonical, parameters)]) ∨
      ((¬ ∃ canonical, d.prepare name parameters = .ok canonical) ∧ calls = []) := by
  unfold Dispatcher.dispatch
  cases d.prepare name parameters with
  | error error => simp [eq_comm]
  | ok canonical => simp [eq_comm]

/-- In an accepted document every name belongs to one capability. A dispatch calls the host as
declared exactly when no argument is in a gap, or none is but for others on the other side. -/
theorem dispatch_gated_iff {σ : Type} (document : HostAbiDocument) (declarations : List String)
    (d : Dispatcher) (haccepted : Dispatcher.fromHostAbi document declarations = .ok d)
    (call : σ → String → Json → Except String Json × σ) (textBytes : Json → Nat) (host : σ)
    (name : String) (parameters : Json) :
    (Gated document declarations name parameters
        (d.dispatch call textBytes host name parameters).calls ↔
      NoGap document declarations name parameters) ∧
      ∀ name capability, document.Operation name capability →
        d.aliases.lookup name = some capability.id ∧
          ∀ other, document.Operation name other → other = capability := by
  have hbuilt := builtFrom haccepted
  refine ⟨?_, fun name capability hoperation =>
    ⟨hbuilt.lookup_iff.mpr ⟨capability, hoperation, rfl⟩,
      fun other hother => hbuilt.unique hoperation hother⟩⟩
  have hcalls := dispatch_calls d call textBytes host name parameters
  generalize (d.dispatch call textBytes host name parameters).calls = calls at hcalls
  have hcases := (hcalls calls).mp rfl
  by_cases hdeclared : ∃ capability contract,
      DeclaredCall document declarations name capability contract
  · obtain ⟨capability, contract, hcall⟩ := hdeclared
    -- what the checks let through, for this call
    have hprepare : ∀ canonical, d.prepare name parameters = .ok canonical ↔
        capability.id = canonical ∧ contract.InOrder document.bounds parameters ∧
          ¬ contract.SomeField (PropertyContract.TurnsAway document.bounds) parameters := by
      intro canonical
      rw [hbuilt.prepare_iff]
      constructor
      · intro ⟨other, contract', hother, hid, hvalid⟩
        obtain ⟨rfl, rfl⟩ := hbuilt.call_unique hcall hother
        exact ⟨hid, hvalid⟩
      · exact fun ⟨hid, hvalid⟩ => ⟨capability, contract, hcall, hid, hvalid⟩
    have hgated : Gated document declarations name parameters calls ↔
        (contract.Allows document.bounds parameters → calls = [(capability.id, parameters)]) ∧
          (¬ contract.Allows document.bounds parameters → calls = []) := by
      constructor
      · exact fun h => h.1 capability contract hcall
      · intro h
        refine ⟨fun other contract' hother => ?_, fun hnone => ?_⟩
        · obtain ⟨rfl, rfl⟩ := hbuilt.call_unique hcall hother
          exact h
        · exact absurd ⟨capability, contract, hcall⟩ hnone
    have hnoGap : NoGap document declarations name parameters ↔
        (contract.InOrder document.bounds parameters →
          (contract.SomeField (PropertyContract.LetsThrough document.bounds) parameters ↔
            contract.SomeField (PropertyContract.TurnsAway document.bounds) parameters)) := by
      constructor
      · exact fun h => h capability contract hcall
      · intro h other contract' hother
        obtain ⟨rfl, rfl⟩ := hbuilt.call_unique hcall hother
        exact h
    rw [hgated, hnoGap, allowsObject_iff]
    simp only [hprepare, exists_and_right, exists_eq'] at hcases
    rcases hcases with ⟨canonical, ⟨rfl, hvalid⟩, rfl⟩ | ⟨hinvalid, rfl⟩
    · -- the host was called: the arguments are in order, and none was turned away
      simp [hvalid]
    · -- the host was not called: what is in order has an argument that is turned away
      simp only [reduceCtorEq, imp_false, implies_true, and_true]
      rw [true_and, not_and_not_right] at hinvalid
      rw [not_and_not_right]
      constructor
      · exact fun hthrough horder => iff_of_true (hthrough horder) (hinvalid horder)
      · exact fun hiff horder => (hiff horder).mpr (hinvalid horder)
  · -- an undeclared call is refused, whatever its arguments
    have hnone : ¬ ∃ canonical, d.prepare name parameters = .ok canonical := by
      intro ⟨canonical, hok⟩
      obtain ⟨capability, contract, hcall, -⟩ := hbuilt.prepare_iff.mp hok
      exact hdeclared ⟨capability, contract, hcall⟩
    have hempty : calls = [] := by
      rcases hcases with ⟨canonical, hok, -⟩ | ⟨-, hempty⟩
      · exact absurd ⟨canonical, hok⟩ hnone
      · exact hempty
    constructor
    · exact fun _ capability contract hcall => absurd ⟨capability, contract, hcall⟩ hdeclared
    · exact fun _ => ⟨fun capability contract hcall =>
        absurd ⟨capability, contract, hcall⟩ hdeclared, fun _ => hempty⟩

/-! ## A range without an upper end -/

/-- One of the ranges of `protocol-range`: a `uint32` from 1 on. -/
def helloContract : PropertyContract := { kind := "uint32", minimum := some 1 }

def helloParameters : ParameterObject where
  kind := "object"
  required := ["minimum"]
  additionalProperties := false
  properties := [("minimum", helloContract)]

def helloCapability : CapabilityContract where
  id := "ui.hello"
  facade := some "fleet.ui.hello"
  hostAbi := 3
  signature := "protocol-range"

def helloDocument : HostAbiDocument where
  schema := 2
  version := 3
  maximumResultBytes := 8388608
  bounds := []
  signatures := [("protocol-range", { parameters := helloParameters })]
  capabilities := [helloCapability]

def helloDispatcher : Dispatcher where
  aliases := [("ui.hello", "ui.hello"), ("fleet.ui.hello", "ui.hello")]
  capabilities := [("ui.hello", helloCapability)]
  signatures := helloDocument.signatures
  bounds := []
  declared := ["ui.hello"]
  maximumResultBytes := 8388608

def helloArguments (n : UInt64) : Json := .object [("minimum", .number (.posInt n))]

/-- A host that answers nothing. -/
def silentHost (_ : Unit) (_ : String) (_ : Json) : Except String Json × Unit := (.ok .null, ())

/-- The alias of a capability is as good as its name. -/
theorem dispatch_gated_hello :
    (Gated helloDocument ["ui.hello"] "fleet.ui.hello" (helloArguments 1)
        (helloDispatcher.dispatch silentHost (fun _ => 4) () "fleet.ui.hello"
          (helloArguments 1)).calls ↔
      NoGap helloDocument ["ui.hello"] "fleet.ui.hello" (helloArguments 1)) ∧
      ∀ name capability, helloDocument.Operation name capability →
        helloDispatcher.aliases.lookup name = some capability.id ∧
          ∀ other, helloDocument.Operation name other → other = capability :=
  dispatch_gated_iff helloDocument ["ui.hello"] helloDispatcher rfl silentHost (fun _ => 4) ()
    "fleet.ui.hello" (helloArguments 1)

/-- A number that is no `uint32` reaches the host. -/
theorem dispatch_not_gated :
    Dispatcher.fromHostAbi helloDocument ["ui.hello"] = .ok helloDispatcher ∧
      ¬ Gated helloDocument ["ui.hello"] "ui.hello" (helloArguments 4294967296)
        (helloDispatcher.dispatch silentHost (fun _ => 4) () "ui.hello"
          (helloArguments 4294967296)).calls := by
  refine ⟨rfl, fun hgated => ?_⟩
  have hoperation : helloDocument.Operation "ui.hello" helloCapability :=
    ⟨mem_singleton_self _, .inl rfl⟩
  have hcall : DeclaredCall helloDocument ["ui.hello"] "ui.hello" helloCapability
      helloParameters :=
    ⟨hoperation, ⟨"ui.hello", mem_singleton_self _, hoperation⟩, _, rfl, rfl⟩
  have hnot : ¬ helloParameters.Allows helloDocument.bounds (helloArguments 4294967296) := by
    intro ⟨fields, hfields, _, hall⟩
    injection hfields with hfields
    subst hfields
    obtain ⟨property, hproperty, hallows⟩ := hall _ (mem_singleton_self _)
    injection hproperty with hproperty
    subst hproperty
    -- the type ends below the number
    rw [allows_integer rfl] at hallows
    obtain ⟨n, hn, htypes, -⟩ := hallows
    injection hn with hn
    rw [show helloContract.kind = "uint32" from rfl, types_uint32, ← hn] at htypes
    exact absurd htypes (by decide)
  exact absurd ((hgated.1 _ _ hcall).2 hnot) (by
    show [("ui.hello", helloArguments 4294967296)] ≠ []
    exact cons_ne_nil _ _)

end Agenterm.Chassis
