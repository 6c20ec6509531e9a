import Agenterm.Chassis.AssemblerTheorems

/-!
# The tab next to the active one

Which tab is next is decided twice: by `builtin_adjacent_tab_position`, and by the program
`adjacent-tab.json` when a chassis image is loaded. The program may ask for three facts, and its
answer is refused when it is not a position.
-/

namespace Agenterm

open Lib Int64

namespace Chassis

/-! ## The built-in rule

`none` is a panic: an overflow, or a division by zero. -/

/-- `current as i32`. -/
def asI32 (n : Nat) : Int := Int.bmod n (2 ^ 32)

/-- `a + b` of two `i32`. -/
def addI32 (a b : Int) : Option Int :=
  if -2 ^ 31 ≤ a + b ∧ a + b < 2 ^ 31 then some (a + b) else none

/-- `a.rem_euclid(b)` of two `i32`. -/
def remEuclidI32 (a b : Int) : Option Int :=
  if b = 0 ∨ a = -2 ^ 31 ∧ b = -1 then none else some (a % b)

def builtinAdjacentTabPosition (current count : Nat) (direction : Int) : Option Nat := do
  let sum ← addI32 (asI32 current) direction
  let position ← remEuclidI32 sum (asI32 count)
  some position.toNat

/-! ## The program -/

def adjacentTabCaps : List String := ["tabs.active-position", "tabs.step", "tabs.count"]

/-- The operations of `adjacent-tab.json`. -/
def adjacentTabCells : List (List Value) :=
  [ [.string "call", .string "tabs.active-position"],
    [.string "call", .string "tabs.step"],
    [.string "add"],
    [.string "call", .string "tabs.count"],
    [.string "eq"],
    [.string "jump_if_zero", .number 8],
    [.string "push", .number 0],
    [.string "halt"],
    [.string "call", .string "tabs.active-position"],
    [.string "call", .string "tabs.step"],
    [.string "add"],
    [.string "push", .number (-1)],
    [.string "eq"],
    [.string "jump_if_zero", .number 18],
    [.string "call", .string "tabs.count"],
    [.string "push", .number 1],
    [.string "sub"],
    [.string "halt"],
    [.string "call", .string "tabs.active-position"],
    [.string "call", .string "tabs.step"],
    [.string "add"],
    [.string "halt"] ]

def adjacentTabSource : Except String L2Source := do
  let ops ← adjacentTabCells.mapM parseIrOp
  .ok { caps := adjacentTabCaps, ops }

/-- The three facts the program may read, and nothing else. -/
structure AdjacentTabFacts where
  activePosition : Int64
  count : Int64
  step : Int64

def AdjacentTabFacts.call (facts : AdjacentTabFacts) : CapHost Unit := fun _ capability =>
  match capability with
  | "tabs.active-position" => (.ok facts.activePosition, ())
  | "tabs.count" => (.ok facts.count, ())
  | "tabs.step" => (.ok facts.step, ())
  | other => (.error ("unsupported adjacent-tab call `" ++ other ++ "`"), ())

/-- `i64::try_from` of a `usize`. -/
def tryI64 (n : Nat) : Except String Int64 :=
  if n < 2 ^ 63 then .ok (ofNat n) else .error "too many tabs"

/-- `usize::try_from` of an `i64`. -/
def tryUsize (value : Int64) : Option Nat := if value < 0 then none else some value.toInt.toNat

/-- The answer of the program, if it is a position; `none` is a panic of the interpreter. -/
def evalAdjacentTab (program : Program) (activePosition count : Nat) (step : Int) :
    Option (Except String Nat) :=
  match tryI64 activePosition, tryI64 count with
  | .error error, _ => some (.error error)
  | _, .error error => some (.error error)
  | .ok activePosition, .ok count64 => do
    let facts : AdjacentTabFacts := { activePosition, count := count64, step := ofInt step }
    match ← run program facts.call () defaultMaxSteps with
    | (.error error, ()) => some (.error ("chassis_l2_adjacent_tab_failed: " ++ error))
    | (.ok value, ()) =>
      match (tryUsize value).filter fun position => position < count with
      | some position => some (.ok position)
      | none =>
        some (.error ("chassis_l2_adjacent_tab_failed: program answered " ++ toString value
          ++ " for " ++ toString count ++ " tabs"))

end Chassis

/-!
The program has two branches for the two ends and one for everything between, the built-in rule a
remainder. The three paths of the program are followed through its operations
(`runSource_adjacentTab`); each of them gives the remainder (`remainder_eq`). The program is run as
bytes, by the correctness of the assembler (`Assembles.run_eq`).
-/

open Std

namespace Chassis

open Lib (Reaches)

/-! ## Assembling against a list -/

/-- A list that covers the capability table changes nothing. -/
lemma assemble_covered {source : L2Source} {program : Program}
    (h : assemble source none = .ok program) {allow : List String}
    (hcovers : ∀ name ∈ source.caps, name ∈ allow) : assemble source (some allow) = .ok program := by
  obtain ⟨parsed, chunks, hassembles⟩ := assembles_of_ok h
  have hallowed : unknownCap (some allow) source.caps = none := by
    refine List.find?_eq_none.mpr fun name hname => ?_
    simpa using hcovers name hname
  have hcovered : Assembles source (some allow) program parsed chunks := by
    refine { hassembles with allowed := hallowed, parse := ?_ }
    refine mapM_eq_ok.mpr ((mapM_eq_ok.mp hassembles.parse).imp ?_)
    rintro ⟨op, i⟩ parsed hop
    cases op with
    | call name =>
      -- a call that is in the table is on the list
      change parseOp none (capIndex source.caps) i (.call name) = .ok parsed at hop
      change parseOp (some allow) (capIndex source.caps) i (.call name) = .ok parsed
      cases hidx : (capIndex source.caps)[name]? with
      | none => simp [parseOp, hidx] at hop
      | some idx =>
        have hmem := hcovers name (List.mem_of_getElem? (capIndex_eq_some hassembles.caps_le hidx))
        simpa [parseOp, hidx, hmem] using hop
    | _ => exact hop
  exact hcovered.assemble_eq

/-! ## The paths of the program -/

def adjacentTabOps : List IrOp :=
  [ .call "tabs.active-position", .call "tabs.step", .add, .call "tabs.count", .eq,
    .jumpIfZero 8, .push 0, .halt,
    .call "tabs.active-position", .call "tabs.step", .add, .push (-1), .eq,
    .jumpIfZero 18, .call "tabs.count", .push 1, .sub, .halt,
    .call "tabs.active-position", .call "tabs.step", .add, .halt ]

lemma adjacentTabSource_eq :
    adjacentTabSource = .ok { caps := adjacentTabCaps, ops := adjacentTabOps } := by
  decide

/-- What the program answers. -/
def adjacentTabAnswer (facts : AdjacentTabFacts) : Int64 :=
  if facts.activePosition + facts.step = facts.count then 0
  else if facts.activePosition + facts.step = -1 then facts.count - 1
  else facts.activePosition + facts.step

section
variable (facts : AdjacentTabFacts)

/-- The state of the program before operation `pc`. -/
def adjacentTabAt (stack : List Int64) (pc : Nat) : VmState Unit := { stack, pc, host := () }

lemma reaches_upperTest :
    Reaches (sourceStep adjacentTabOps facts.call) 5 (VmState.start ())
      (adjacentTabAt [truth (facts.activePosition + facts.step = facts.count)] 5) :=
  .head rfl (.head rfl (.head rfl (.head rfl (.head rfl (.refl _)))))

lemma reaches_lowerTest :
    Reaches (sourceStep adjacentTabOps facts.call) 5 (adjacentTabAt [] 8)
      (adjacentTabAt [truth (facts.activePosition + facts.step = -1)] 13) :=
  .head rfl (.head rfl (.head rfl (.head rfl (.head rfl (.refl _)))))

lemma reaches_upperEnd :
    Reaches (sourceStep adjacentTabOps facts.call) 2 (adjacentTabAt [truth true] 5)
      (adjacentTabAt [0] 7) :=
  .head rfl (.head rfl (.refl _))

lemma reaches_lowerEnd :
    Reaches (sourceStep adjacentTabOps facts.call) 4 (adjacentTabAt [truth true] 13)
      (adjacentTabAt [facts.count - 1] 17) :=
  .head rfl (.head rfl (.head rfl (.head rfl (.refl _))))

lemma reaches_between :
    Reaches (sourceStep adjacentTabOps facts.call) 4 (adjacentTabAt [truth false] 13)
      (adjacentTabAt [facts.activePosition + facts.step] 21) :=
  .head rfl (.head rfl (.head rfl (.head rfl (.refl _))))

lemma reaches_belowUpperEnd :
    Reaches (sourceStep adjacentTabOps facts.call) 1 (adjacentTabAt [truth false] 5)
      (adjacentTabAt [] 8) :=
  .head rfl (.refl _)

/-- The program comes to its answer, along one of its three paths. -/
lemma runSource_adjacentTab (maxSteps : Nat) (hsteps : 15 < maxSteps) :
    runSource { caps := adjacentTabCaps, ops := adjacentTabOps } facts.call () maxSteps
      = (.ok (adjacentTabAnswer facts), ()) := by
  have hupper := reaches_upperTest facts
  have hlower := reaches_lowerTest facts
  unfold runSource adjacentTabAnswer
  by_cases hcount : facts.activePosition + facts.step = facts.count
  · rw [if_pos hcount]
    rw [decide_eq_true hcount] at hupper
    exact runFor_of_reaches (hupper.trans (reaches_upperEnd facts)) rfl (by omega)
  · rw [if_neg hcount]
    rw [decide_eq_false hcount] at hupper
    have hbelow := (hupper.trans (reaches_belowUpperEnd facts)).trans hlower
    by_cases hminus : facts.activePosition + facts.step = -1
    · rw [if_pos hminus]
      rw [decide_eq_true hminus] at hbelow
      exact runFor_of_reaches (hbelow.trans (reaches_lowerEnd facts)) rfl (by omega)
    · rw [if_neg hminus]
      rw [decide_eq_false hminus] at hbelow
      exact runFor_of_reaches (hbelow.trans (reaches_between facts)) rfl (by omega)

end

/-! ## The two rules -/

section
variable {count current : Nat} {step : Int}

/-- The position the built-in rule gives, without machine integers. -/
def adjacentTabPosition (current count : Nat) (step : Int) : Nat :=
  (((current : Int) + step) % count).toNat

lemma asI32_eq {n : Nat} (h : n < 2 ^ 31) : asI32 n = n := by
  unfold asI32
  rw [Int.bmod_eq_of_le (by omega) (by omega)]

lemma builtinAdjacentTabPosition_eq (hpos : 1 ≤ count) (hsmall : count < 2 ^ 31)
    (hcurrent : current < count) (hstep : step = 1 ∨ step = -1) :
    builtinAdjacentTabPosition current count step = some (adjacentTabPosition current count step) := by
  have hsum : addI32 current step = some (current + step) := by
    unfold addI32
    rw [if_pos ⟨by omega, by omega⟩]
  have hrem : remEuclidI32 (current + step) count = some ((current + step) % count) := by
    unfold remEuclidI32
    rw [if_neg (by omega)]
  unfold builtinAdjacentTabPosition adjacentTabPosition
  rw [asI32_eq (by omega), asI32_eq hsmall, hsum, Option.bind_eq_bind, Option.bind_some, hrem]
  rfl

/-- The remainder, as the three cases of the program. -/
lemma adjacentTabPosition_cases (hcurrent : current < count) (hstep : step = 1 ∨ step = -1) :
    (adjacentTabPosition current count step : Int)
      = if (current : Int) + step = count then 0
        else if (current : Int) + step = -1 then (count : Int) - 1
        else (current : Int) + step := by
  have hpos : (0 : Int) < count := by omega
  have hnonneg := Int.emod_nonneg ((current : Int) + step) (by omega : (count : Int) ≠ 0)
  unfold adjacentTabPosition
  rw [Int.toNat_of_nonneg hnonneg]
  split
  · rename_i h
    rw [h, Int.emod_self]
  · split
    · rename_i h
      -- one below zero is the last position
      rw [h, show (-1 : Int) = (count - 1) + count * (-1) by omega, Int.add_mul_emod_self_left]
      exact Int.emod_eq_of_lt (by omega) (by omega)
    · exact Int.emod_eq_of_lt (by omega) (by omega)

/-- The facts the program reads, as 64-bit numbers. -/
def adjacentTabFacts (current count : Nat) (step : Int) : AdjacentTabFacts where
  activePosition := ofNat current
  count := ofNat count
  step := ofInt step

lemma toInt_adjacentTabAnswer (hsmall : count < 2 ^ 31) (hcurrent : current < count)
    (hstep : step = 1 ∨ step = -1) :
    (adjacentTabAnswer (adjacentTabFacts current count step)).toInt
      = adjacentTabPosition current count step := by
  have hcurrent' : (ofNat current).toInt = current := toInt_ofNat_of_lt (by omega)
  have hcount' : (ofNat count).toInt = count := toInt_ofNat_of_lt (by omega)
  have hstep' : (ofInt step).toInt = step :=
    toInt_ofInt_of_le (by omega) (by omega)
  have hsum : (ofNat current + ofInt step).toInt = current + step := by
    rw [toInt_add, hcurrent', hstep', Int.bmod_eq_of_le (by omega) (by omega)]
  have hpred : (ofNat count - 1).toInt = count - 1 := by
    rw [toInt_sub, hcount', toInt_one, Int.bmod_eq_of_le (by omega) (by omega)]
  have hminus : (-1 : Int64).toInt = -1 := by decide
  rw [adjacentTabPosition_cases hcurrent hstep]
  unfold adjacentTabAnswer adjacentTabFacts
  simp only [← toInt_inj, hsum, hcount', hminus]
  split
  · rfl
  · split
    · exact hpred
    · exact hsum

lemma adjacentTabPosition_lt (hpos : 1 ≤ count) :
    adjacentTabPosition current count step < count := by
  have hlt := Int.emod_lt_of_pos ((current : Int) + step) (by omega : (0 : Int) < count)
  unfold adjacentTabPosition
  omega

lemma tryI64_eq {n : Nat} (h : n < 2 ^ 31) : tryI64 n = .ok (ofNat n) := by
  unfold tryI64
  rw [if_pos (by omega)]

lemma tryUsize_eq {value : Int64} {position : Nat} (h : value.toInt = position) :
    tryUsize value = some position := by
  have hnonneg : ¬ value < 0 := by
    rw [lt_iff_toInt_lt, h]
    exact Int.not_lt.mpr (Int.natCast_nonneg position)
  unfold tryUsize
  rw [if_neg hnonneg, h, Int.toNat_natCast]

/-- The program of `adjacent-tab.json`, with or without a list of capabilities to check it against,
answers what the built-in rule says. -/
theorem adjacentTab_refines (hpos : 1 ≤ count) (hsmall : count < 2 ^ 31)
    (hcurrent : current < count) (hstep : step = 1 ∨ step = -1) :
    ∃ source program position,
      adjacentTabSource = .ok source ∧
      assemble source none = .ok program ∧
      (∀ allow, (∀ name ∈ source.caps, name ∈ allow) →
        assemble source (some allow) = .ok program) ∧
      builtinAdjacentTabPosition current count step = some position ∧
      run program (adjacentTabFacts current count step).call () defaultMaxSteps
        = some (.ok (ofNat position), ()) ∧
      evalAdjacentTab program current count step = some (.ok position) := by
  obtain ⟨program, hprogram⟩ : ∃ program,
      assemble { caps := adjacentTabCaps, ops := adjacentTabOps } none = .ok program :=
    ⟨_, by rfl⟩
  obtain ⟨parsed, chunks, hassembles⟩ := assembles_of_ok hprogram
  have hanswer := toInt_adjacentTabAnswer hsmall hcurrent hstep
  have hrun : run program (adjacentTabFacts current count step).call () defaultMaxSteps
      = some (.ok (adjacentTabAnswer (adjacentTabFacts current count step)), ()) := by
    rw [hassembles.run_eq, runSource_adjacentTab _ defaultMaxSteps (by decide)]
  have hlt := @adjacentTabPosition_lt count current step hpos
  refine ⟨_, program, adjacentTabPosition current count step, adjacentTabSource_eq, hprogram,
    fun allow hallow => assemble_covered hprogram hallow,
    builtinAdjacentTabPosition_eq hpos hsmall hcurrent hstep, ?_, ?_⟩
  · rw [hrun, ← ofInt_toInt (adjacentTabAnswer _), hanswer]
    rfl
  · unfold evalAdjacentTab
    rw [tryI64_eq (by omega), tryI64_eq hsmall]
    unfold adjacentTabFacts at hrun hanswer
    simp only [hrun, Option.bind_eq_bind, Option.bind_some]
    simp only [tryUsize_eq hanswer, Option.filter_some, decide_eq_true hlt, if_true]

theorem adjacentTab_refines_wrap :
    ∃ source program position,
      adjacentTabSource = .ok source ∧
      assemble source none = .ok program ∧
      (∀ allow, (∀ name ∈ source.caps, name ∈ allow) →
        assemble source (some allow) = .ok program) ∧
      builtinAdjacentTabPosition 0 3 (-1) = some position ∧
      run program (adjacentTabFacts 0 3 (-1)).call () defaultMaxSteps
        = some (.ok (ofNat position), ()) ∧
      evalAdjacentTab program 0 3 (-1) = some (.ok position) :=
  adjacentTab_refines (by decide) (by decide) (by decide) (by decide)

end

end Chassis

end Agenterm
