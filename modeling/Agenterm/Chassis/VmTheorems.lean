import Agenterm.Chassis.AssemblerTheorems

/-!
# The interpreter is contained

Whatever bytes are offered as code, a run ends within its budget and cannot panic
(`decode_ne_none`), the operand stack stays within its limit (`vmStep_stack`), and each step makes
at most one call, of a capability of the table (`vmStep_calls`). No call is made before the whole
of the code was decoded. `run_contained` puts these together; it also says which capabilities are
called when the table was checked against a list.
-/

namespace Agenterm

open List Option Lib

variable {caps : List String} {insts : List Inst} {program : Program} {stack stack' : List Int64}

namespace Chassis

open Lib (Progress Reaches)

/-! ## Decoding does not panic -/

/-- A place where a whole instruction stands. -/
def WholeAt (code : List UInt8) (start : Nat) : Prop :=
  ∃ byte op, code[start]? = some byte ∧ Op.fromU8 byte = some op ∧
    start + op.encodedLen ≤ code.length

/-- The first loop of the decoder only finds places where whole instructions stand. -/
lemma wholeAt_of_instructionStarts {code : List UInt8} {i : Nat} {starts : List Nat}
    (h : instructionStarts code i = .ok starts) : ∀ start ∈ starts, WholeAt code start := by
  induction hn : code.length - i using Nat.strongRecOn generalizing i starts with
  | ind n ih =>
    rw [instructionStarts] at h
    split at h
    · cases h
      exact fun start hstart => absurd hstart not_mem_nil
    · rename_i byte hbyte
      split at h
      · exact absurd h (by simp)
      · rename_i op hop
        rw [ite_error_eq_ok] at h
        obtain ⟨hle, h⟩ := h
        obtain ⟨rest, hrest, h⟩ := bind_eq_ok.mp h
        cases h
        have hlt := (List.getElem?_eq_some_iff.mp hbyte).1
        have hpos := op.encodedLen_pos
        have hwhole := ih (code.length - (i + op.encodedLen)) (by omega) hrest rfl
        intro start hstart
        rcases mem_cons.mp hstart with rfl | hstart
        · exact ⟨byte, op, hbyte, hop, by omega⟩
        · exact hwhole start hstart

section
variable {code : List UInt8} {start : Nat}

lemma slice_ne_none (hle : start + 9 ≤ code.length) :
    ∃ operand, slice code (start + 1) (start + 9) = some operand := by
  unfold slice
  rw [if_pos ⟨by omega, hle⟩]
  exact ⟨_, rfl⟩

lemma readJumpTarget_ne_none (starts : List Nat) (hle : start + 9 ≤ code.length) :
    ∃ target, readJumpTarget code start starts = some target := by
  obtain ⟨operand, hoperand⟩ := slice_ne_none hle
  unfold readJumpTarget
  rw [hoperand, bind_eq_bind, bind_some]
  dsimp only
  split
  · exact ⟨_, rfl⟩
  · split <;> exact ⟨_, rfl⟩

lemma decodeInst_ne_none (starts : List Nat) (h : WholeAt code start) :
    ∃ inst, decodeInst code starts start = some inst := by
  obtain ⟨byte, op, hbyte, hop, hle⟩ := h
  unfold decodeInst
  rw [hbyte, bind_eq_bind, bind_some, hop]
  cases op with
  | pushI64 =>
    obtain ⟨operand, hoperand⟩ := slice_ne_none hle
    exact ⟨_, by rw [hoperand]; rfl⟩
  | jump =>
    obtain ⟨target, htarget⟩ := readJumpTarget_ne_none starts hle
    exact ⟨_, by rw [htarget]; rfl⟩
  | jumpIfZero =>
    obtain ⟨target, htarget⟩ := readJumpTarget_ne_none starts hle
    exact ⟨_, by rw [htarget]; rfl⟩
  | callCap =>
    -- the operand is one byte, and the instruction is whole
    have hlt : start + 1 < code.length := by
      change start + 2 ≤ code.length at hle
      omega
    exact ⟨_, by rw [List.getElem?_eq_getElem hlt]; rfl⟩
  | add | sub | eq | not | ret | halt => exact ⟨_, rfl⟩

lemma decodeInsts_ne_none (starts : List Nat) {rounds : List Nat} (h : ∀ start ∈ rounds, WholeAt code start) :
    ∃ insts, decodeInsts code starts rounds = some insts := by
  induction rounds with
  | nil => exact ⟨_, rfl⟩
  | cons start rounds ih =>
    obtain ⟨inst, hinst⟩ := decodeInst_ne_none starts (h start mem_cons_self)
    obtain ⟨insts, hinsts⟩ := ih fun s hs => h s (mem_cons_of_mem _ hs)
    rw [decodeInsts, hinst, bind_eq_bind, bind_some]
    cases inst with
    | error error => exact ⟨_, rfl⟩
    | ok inst => exact ⟨_, by rw [hinsts]; rfl⟩

end

/-- The decoder reads no byte outside the code. -/
lemma decode_ne_none (code : List UInt8) : ∃ insts, decode code = some insts := by
  unfold decode
  cases hstarts : instructionStarts code 0 with
  | error error => exact ⟨_, rfl⟩
  | ok starts => exact decodeInsts_ne_none starts (wholeAt_of_instructionStarts hstarts)

/-! ## The operand stack -/

section
variable {η : Type}

lemma push_length {value : Int64} (h : push stack value = .ok stack') :
    stack'.length ≤ maxStack := by
  rw [push, ite_error_eq_ok] at h
  obtain ⟨hlt, h⟩ := h
  cases h
  rw [length_cons]
  omega

lemma binary_length {f : Int64 → Int64 → Int64} (h : binary f stack = .ok stack') :
    stack'.length ≤ maxStack := by
  obtain ⟨_, _, h⟩ := bind_eq_ok.mp h
  obtain ⟨_, _, h⟩ := bind_eq_ok.mp h
  exact push_length h

lemma unary_length {f : Int64 → Int64} (h : unary f stack = .ok stack') :
    stack'.length ≤ maxStack := by
  obtain ⟨_, _, h⟩ := bind_eq_ok.mp h
  exact push_length h

lemma withStack_eq_next {s s' : VmState η} {stack : Except String (List Int64)} {pc : Nat}
    (h : s.withStack stack pc = .next s') : stack = .ok s'.stack := by
  unfold VmState.withStack at h
  split at h
  · exact absurd h (by simp)
  · obtain rfl := Progress.next.inj h
    rfl

lemma branch_stack {s s' : VmState η} {target : Nat} (h : s.branch target = .next s') :
    s'.stack.length ≤ s.stack.length := by
  unfold VmState.branch at h
  cases hstack : s.stack with
  | nil =>
    rw [hstack] at h
    exact absurd h (by simp [pop])
  | cons a rest =>
    rw [hstack] at h
    obtain rfl := Progress.next.inj h
    exact Nat.le_succ _

lemma callHost_stack {s s' : VmState η} {host : CapHost η} {name : String}
    (h : s.callHost host name = .next s') : s'.stack.length ≤ maxStack := by
  unfold VmState.callHost at h
  split at h
  · exact absurd h (by simp)
  · exact push_length (withStack_eq_next h)

/-- A step keeps the stack within its limit. -/
lemma vmStep_stack {host : CapHost η} {s s' : VmState η} (hstack : s.stack.length ≤ maxStack)
    (h : vmStep insts caps host s = .next s') : s'.stack.length ≤ maxStack := by
  unfold vmStep at h
  split at h
  · exact absurd h (by simp)
  · rename_i inst _
    cases inst with
    | pushI64 v => exact push_length (withStack_eq_next h)
    | add | sub | eq => exact binary_length (withStack_eq_next h)
    | not => exact unary_length (withStack_eq_next h)
    | jump target =>
      obtain rfl := Progress.next.inj h
      exact hstack
    | jumpIfZero target => exact Nat.le_trans (branch_stack h) hstack
    | callCap idx =>
      rw [execInst] at h
      split at h
      · exact absurd h (by simp)
      · exact callHost_stack h
    | ret | halt => exact absurd h (by simp [execInst, VmState.answer])

/-! ## Calls -/

/-- The calls made by the end of a step. -/
def callsAfter : VmProgress (η × List String) → List String
  | .next s => s.host.2
  | .stop r => r.2.2

lemma callsAfter_withStack (s : VmState (η × List String)) (stack : Except String (List Int64))
    (pc : Nat) : callsAfter (s.withStack stack pc) = s.host.2 := by
  cases stack <;> rfl

lemma callsAfter_branch (s : VmState (η × List String)) (target : Nat) :
    callsAfter (s.branch target) = s.host.2 := by
  unfold VmState.branch
  split <;> rfl

lemma callsAfter_callHost (s : VmState (η × List String)) (host : CapHost η) (name : String) :
    callsAfter (s.callHost (recording host) name) = name :: s.host.2 := by
  obtain ⟨stack, pc, h, calls⟩ := s
  obtain ⟨answer, h', hcall⟩ : ∃ answer h', host h name = (answer, h') := ⟨_, _, rfl⟩
  simp only [VmState.callHost, recording, hcall]
  cases answer with
  | error error => rfl
  | ok value => exact callsAfter_withStack _ _ _

/-- A step makes at most one call, and only of a capability of the table. -/
lemma vmStep_calls (insts : List Inst) (caps : List String) (host : CapHost η)
    (s : VmState (η × List String)) :
    callsAfter (vmStep insts caps (recording host) s) = s.host.2 ∨
      ∃ name ∈ caps, callsAfter (vmStep insts caps (recording host) s) = name :: s.host.2 := by
  unfold vmStep
  split
  · exact .inl rfl
  · rename_i inst _
    cases inst with
    | pushI64 v => exact .inl (callsAfter_withStack _ _ _)
    | add | sub | eq | not => exact .inl (callsAfter_withStack _ _ _)
    | jumpIfZero target => exact .inl (callsAfter_branch _ _)
    | jump | ret | halt => exact .inl rfl
    | callCap idx =>
      rw [execInst]
      split
      · exact .inl rfl
      · rename_i name hname
        exact .inr ⟨name, mem_of_getElem? hname, callsAfter_callHost s host name⟩

/-- What the calls of the first `taken` steps are like. -/
structure CallsWithin (caps : List String) (taken : Nat) (calls : List String) : Prop where
  length_le : calls.length ≤ taken
  mem_caps : ∀ name ∈ calls, name ∈ caps

lemma CallsWithin.step {taken : Nat} {s : VmState (η × List String)}
    (h : CallsWithin caps taken s.host.2) (insts : List Inst) (host : CapHost η) :
    CallsWithin caps (taken + 1) (callsAfter (vmStep insts caps (recording host) s)) := by
  have hlength := h.length_le
  rcases vmStep_calls insts caps host s with heq | ⟨name, hname, heq⟩
  · rw [heq]
    exact ⟨by omega, h.mem_caps⟩
  · rw [heq]
    refine ⟨by rw [length_cons]; omega, fun called hcalled => ?_⟩
    rcases mem_cons.mp hcalled with rfl | hcalled
    · exact hname
    · exact h.mem_caps called hcalled

/-- A run makes at most one call for each step of its budget. -/
lemma callsWithin_runFor (insts : List Inst) (caps : List String) (host : CapHost η) (start : η)
    (maxSteps : Nat) :
    CallsWithin caps maxSteps (runFor (vmStep insts caps (recording host))
      (budgetExceeded maxSteps) maxSteps (VmState.start (start, []))).2.2 := by
  obtain ⟨count, s, hle, hreaches, hend⟩ := @Lib.runFor_eq _ _
    (vmStep insts caps (recording host)) (budgetExceeded maxSteps) maxSteps
    (VmState.start (start, []))
  have hs : CallsWithin caps (0 + count) s.host.2 := by
    refine hreaches.invariant (P := fun taken s => CallsWithin caps taken s.host.2)
      (fun taken s s' h hstep => ?_) ⟨Nat.le_refl 0, fun _ h => absurd h not_mem_nil⟩
    have hcalls := h.step insts host
    rw [hstep] at hcalls
    exact hcalls
  rw [Nat.zero_add] at hs
  rcases hend with ⟨hlt, hstop⟩ | ⟨rfl, hexhausted⟩
  · have hcalls := hs.step insts host
    rw [hstop] at hcalls
    exact ⟨Nat.le_trans hcalls.length_le hlt, hcalls.mem_caps⟩
  · rw [hexhausted]
    exact hs

/-! ## Recording is passive -/

def VmState.withoutCalls (s : VmState (η × List String)) : VmState η :=
  { stack := s.stack, pc := s.pc, host := s.host.1 }

def VmResult.withoutCalls (r : VmResult (η × List String)) : VmResult η := (r.1, r.2.1)

lemma withStack_withoutCalls (s : VmState (η × List String)) (stack : Except String (List Int64))
    (pc : Nat) :
    s.withoutCalls.withStack stack pc
      = (s.withStack stack pc).map VmState.withoutCalls VmResult.withoutCalls := by
  cases stack <;> rfl

lemma branch_withoutCalls (s : VmState (η × List String)) (target : Nat) :
    s.withoutCalls.branch target
      = (s.branch target).map VmState.withoutCalls VmResult.withoutCalls := by
  obtain ⟨stack, pc, h⟩ := s
  cases stack <;> rfl

lemma callHost_withoutCalls (s : VmState (η × List String)) (host : CapHost η) (name : String) :
    s.withoutCalls.callHost host name
      = (s.callHost (recording host) name).map VmState.withoutCalls VmResult.withoutCalls := by
  obtain ⟨stack, pc, h, calls⟩ := s
  obtain ⟨answer, h', hcall⟩ : ∃ answer h', host h name = (answer, h') := ⟨_, _, rfl⟩
  simp only [VmState.callHost, recording, VmState.withoutCalls, hcall]
  cases answer with
  | error error => rfl
  | ok value => exact withStack_withoutCalls ⟨stack, pc, h', name :: calls⟩ _ _

lemma vmStep_withoutCalls (insts : List Inst) (caps : List String) (host : CapHost η)
    (s : VmState (η × List String)) :
    vmStep insts caps host s.withoutCalls
      = (vmStep insts caps (recording host) s).map VmState.withoutCalls VmResult.withoutCalls := by
  have hpc : s.withoutCalls.pc = s.pc := rfl
  unfold vmStep
  rw [hpc]
  cases insts[s.pc]? with
  | none => rfl
  | some inst =>
    cases inst with
    | pushI64 | add | sub | eq | not => exact withStack_withoutCalls _ _ _
    | jumpIfZero target => exact branch_withoutCalls _ _
    | jump | ret | halt => rfl
    | callCap idx =>
      simp only [execInst]
      cases caps[idx.toNat]? with
      | none => rfl
      | some name => exact callHost_withoutCalls s host name

/-! ## The whole run -/

/-- How the loop of a run ends: within its budget, by a stop or by exhaustion. -/
def EndsWithin (insts : List Inst) (caps : List String) (host : CapHost η) (start : η)
    (maxSteps : Nat) (result : VmResult η) : Prop :=
  ∃ count s, count ≤ maxSteps ∧ Reaches (vmStep insts caps host) count (VmState.start start) s ∧
    (count < maxSteps ∧ vmStep insts caps host s = .stop result ∨
      count = maxSteps ∧ result = budgetExceeded maxSteps s)

/-- The whole code was decoded, and every capability index is in range. -/
structure Checked (program : Program) (insts : List Inst) : Prop where
  decodes : decode program.code = some (.ok insts)
  in_range : ∀ idx, .callCap idx ∈ insts → idx.toNat < program.caps.length

lemma capIndexError_eq_none_iff :
    capIndexError insts caps = none ↔ ∀ idx, .callCap idx ∈ insts → idx.toNat < caps.length := by
  unfold capIndexError
  rw [List.findSome?_eq_none_iff]
  constructor
  · intro h idx hidx
    have hnone := h _ hidx
    by_contra hge
    simp [Nat.not_lt.mp hge] at hnone
  · intro h inst hinst
    cases inst with
    | callCap idx =>
      have hlt := h idx hinst
      simp [hlt]
    | _ => rfl

lemma run_checked (h : Checked program insts) (host : CapHost η) (start : η) (maxSteps : Nat) :
    run program host start maxSteps = some (runFor (vmStep insts program.caps host)
      (budgetExceeded maxSteps) maxSteps (VmState.start start)) := by
  unfold run
  rw [h.decodes, bind_eq_bind, bind_some]
  simp only [capIndexError_eq_none_iff.mpr h.in_range]

/-- Code that is not accepted as a whole gives an error, the same for every host. -/
lemma run_unchecked (h : ∀ insts, ¬ Checked program insts) :
    ∃ error, ∀ (η : Type) (host : CapHost η) (start : η) (maxSteps : Nat),
      run program host start maxSteps = some (.error error, start) := by
  obtain ⟨decoded, hdecode⟩ := decode_ne_none program.code
  cases decoded with
  | error error =>
    refine ⟨error, fun η host start maxSteps => ?_⟩
    unfold run
    rw [hdecode, bind_eq_bind, bind_some]
  | ok insts =>
    cases hcaps : capIndexError insts program.caps with
    | none => exact absurd ⟨hdecode, capIndexError_eq_none_iff.mp hcaps⟩ (h insts)
    | some error =>
      refine ⟨error, fun η host start maxSteps => ?_⟩
      unfold run
      rw [hdecode, bind_eq_bind, bind_some]
      simp only [hcaps]

/-- The run of a program is its recorded run without the record. -/
lemma run_withoutCalls (h : Checked program insts) (host : CapHost η) (start : η) (maxSteps : Nat) :
    run program host start maxSteps
      = (run program (recording host) (start, []) maxSteps).map VmResult.withoutCalls := by
  rw [run_checked h, run_checked h, map_some]
  exact congrArg some
    (runFor_map (vmStep_withoutCalls insts program.caps host) (fun _ => rfl) maxSteps
      (VmState.start (start, [])))

lemma stack_le_of_reaches {host : CapHost η} {start : η} {count : Nat} {s : VmState η}
    (h : Reaches (vmStep insts caps host) count (VmState.start start) s) :
    s.stack.length ≤ maxStack := by
  have hempty : (VmState.start start).stack.length ≤ maxStack := Nat.zero_le maxStack
  exact @Reaches.invariant _ _ _ (fun _ s => s.stack.length ≤ maxStack)
    (fun _ _ _ hstack hstep => vmStep_stack hstack hstep) count 0 _ _ h hempty

/-- A program that was assembled against a list of capabilities has only those in its table. -/
lemma mem_of_assemble {source : L2Source} {allow : List String}
    (h : assemble source (some allow) = .ok program) : ∀ name ∈ program.caps, name ∈ allow := by
  obtain ⟨parsed, chunks, hassembles⟩ := assembles_of_ok h
  rw [hassembles.caps_eq]
  intro name hname
  have hall := List.find?_eq_none.mp hassembles.allowed name hname
  simpa using hall

/-- Every run, of any bytes, is contained: it ends within its budget, without a panic; it makes at
most as many calls as the budget has steps, all of them of capabilities of the table, and none
unless the whole code was decoded and its indices are in range; its stack stays within the limit.
The list the program was assembled against covers the calls. -/
theorem run_contained (program : Program) (host : CapHost η) (start : η) (maxSteps : Nat) :
    ∃ result final calls,
      run program host start maxSteps = some (result, final) ∧
      run program (recording host) (start, []) maxSteps = some (result, final, calls) ∧
      calls.length ≤ maxSteps ∧
      (∀ name ∈ calls, name ∈ program.caps) ∧
      ((∃ insts, Checked program insts) ∨
        calls = [] ∧ final = start ∧ ∃ error, result = .error error) ∧
      (∀ insts, Checked program insts →
        EndsWithin insts program.caps host start maxSteps (result, final) ∧
        ∀ count s, Reaches (vmStep insts program.caps host) count (VmState.start start) s →
          s.stack.length ≤ maxStack) ∧
      ∀ source allow, assemble source (some allow) = .ok program → ∀ name ∈ calls, name ∈ allow := by
  by_cases hchecked : ∃ insts, Checked program insts
  · obtain ⟨insts, hinsts⟩ := hchecked
    have hcalls := callsWithin_runFor insts program.caps host start maxSteps
    have hrecorded := run_checked hinsts (recording host) (start, []) maxSteps
    have hplain := run_withoutCalls hinsts host start maxSteps
    rw [hrecorded] at hplain
    refine ⟨_, _, _, hplain, hrecorded, hcalls.length_le, hcalls.mem_caps, .inl ⟨insts, hinsts⟩,
      fun insts' hinsts' => ⟨?_, fun count s hs => stack_le_of_reaches hs⟩,
      fun source allow hassemble name hname =>
        mem_of_assemble hassemble name (hcalls.mem_caps name hname)⟩
    -- the result of the plain run is what its loop returns
    rw [run_checked hinsts'] at hplain
    have hresult := some.inj hplain
    obtain ⟨count, s, hle, hreaches, hend⟩ := @Lib.runFor_eq _ _
      (vmStep insts' program.caps host) (budgetExceeded maxSteps) maxSteps (VmState.start start)
    rw [hresult] at hend
    exact ⟨count, s, hle, hreaches, hend⟩
  · obtain ⟨error, herror⟩ := run_unchecked fun insts hinsts => hchecked ⟨insts, hinsts⟩
    exact ⟨.error error, start, [], herror η host start maxSteps,
      herror _ (recording host) (start, []) maxSteps, Nat.zero_le _,
      fun _ h => absurd h not_mem_nil, .inr ⟨rfl, rfl, error, rfl⟩,
      fun insts hinsts => absurd ⟨insts, hinsts⟩ hchecked,
      fun _ _ _ _ h => absurd h not_mem_nil⟩

end

/-- The interpreter itself is given no list: it calls what the table names. -/
theorem run_calls_unlisted :
    ¬ ∀ (program : Program) (allow : List String) (host : CapHost Unit) (maxSteps : Nat)
      (result : Except String Int64) (calls : List String),
      run program (recording host) ((), []) maxSteps = some (result, (), calls) →
        ∀ name ∈ calls, name ∈ allow := by
  intro h
  have hrun : run { code := [7, 0, 9], caps := ["tabs.step"] }
      (recording fun _ _ => (.ok 1, ())) ((), []) 10 = some (.ok 1, (), ["tabs.step"]) := by
    decide +kernel
  have hlisted := h _ ["tabs.count"] _ _ _ _ hrun "tabs.step" mem_cons_self
  exact absurd hlisted (by decide)

end Chassis

end Agenterm
