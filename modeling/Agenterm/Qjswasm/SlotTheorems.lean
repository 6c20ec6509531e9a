import Agenterm.Lib.Run
import Agenterm.Qjswasm.Slot

/-!
# The evidence of a call is its own

What a guest produces is a list of uses of the door, and what the door holds stands for such a
list (`Holds`). `perform_holds` says what one use adds, `performAll_holds` what a run of the guest
adds, and `drain_holds` that draining leaves nothing. `call_evidence` follows for every sequence of
calls: each one starts with a drained door and reports its own uses, when nothing was produced at
load and no counter failed after a call that had produced something.
-/

namespace Agenterm.Qjswasm

open Lib List

/-! ## What uses of the door produce -/

/-- What a guest produced: the bytes it printed, the lines of the receipt, and the bill. -/
structure Produced where
  written : List UInt8
  calls : List String
  ops : Nat
  bytes : Nat
deriving DecidableEq

namespace Produced

def nothing : Produced := ⟨[], [], 0, 0⟩

def and (p q : Produced) : Produced :=
  ⟨p.written ++ q.written, p.calls ++ q.calls, p.ops + q.ops, p.bytes + q.bytes⟩

@[simp] lemma nothing_and (p : Produced) : nothing.and p = p := by
  cases p
  simp only [and, nothing, nil_append, Nat.zero_add]

@[simp] lemma and_nothing (p : Produced) : p.and nothing = p := by
  cases p
  simp only [and, nothing, append_nil, Nat.add_zero]

lemma and_assoc (p q r : Produced) : (p.and q).and r = p.and (q.and r) := by
  simp only [and, append_assoc, Nat.add_assoc]

/-- A bill of bytes. -/
def billed (bytes : Nat) : Produced := ⟨[], [], 0, bytes⟩

/-- A charged operation. -/
def charged (bytes : Nat) : Produced := ⟨[], [], 1, bytes⟩

/-- A line of the receipt. -/
def line (text : String) : Produced := ⟨[], [text], 0, 0⟩

/-- Printed bytes. -/
def printed (text : List UInt8) : Produced := ⟨text, [], 0, 0⟩

end Produced

/-- The length of what `askBridge` hands on, when the guest is not trapped there. -/
def bridgePayload (unreadable absent : String) (use : BridgeUse) (stopped : Bool) : Option Nat :=
  match use.utf8, use.bridge with
  | false, _ => some unreadable.utf8ByteSize
  | true, none => some absent.utf8ByteSize
  | true, some bridged =>
    match bridged.answer with
    | .error _ => none
    | .ok bytes => if stopped then none else some bytes

/-- The bytes that the end of a text operation bills. -/
def ToolEnd.answerBytes (budget : Budget) : ToolEnd → Option Nat
  | .answer bytes => some (capped budget toolResultTooLarge bytes)
  | .message bytes => some (capped budget toolResultTooLarge bytes)
  | .cancelled _ => none
  | .panicked _ => none

/-- The bytes that the end of a number operation bills. -/
def ToolEnd.directBytes (budget : Budget) : ToolEnd → Option Nat
  | .answer _ => some 0
  | .message bytes => some (capped budget toolResultTooLarge bytes)
  | .cancelled _ => none
  | .panicked _ => none

/-- The bytes that a use bills after it was charged and its arguments were read; `none` when
nothing is and the guest is trapped. -/
def Use.finish (budget : Budget) : Use → Option Nat
  | .print _ | .toolArgCount _ => some 0
  | .fleetCall use =>
    if use.cancelAfter then none
    else (bridgePayload notUtf8 noBridge use false).map (capped budget resultTooLarge)
  | .acuCall use acknowledged =>
    (bridgePayload acuNotUtf8 noAcuBridge use acknowledged).map (capped budget acuResultTooLarge)
  | .nativeCall use =>
    match use.result with
    | .error _ => none
    | .ok _ => some 8
  | .nativeInvoke use =>
    match use.result with
    | .error _ => none
    | .ok bytes =>
      if use.cancelAfter then none else some (capped budget nativeResultTooLarge bytes)
  | .toolAnswer use => use.finish.answerBytes budget
  | .toolDirect use => use.finish.directBytes budget

/-- The use traps the guest. -/
def Use.traps (budget : Budget) (use : Use) : Bool :=
  match use with
  | .nativeCall native => (use.finish budget).isNone || native.cancelAfter
  | .toolAnswer tool | .toolDirect tool => tool.unreadable.isSome || (use.finish budget).isNone
  | _ => (use.finish budget).isNone

/-- What a use produces when it is not refused. -/
def Use.produced (budget : Budget) (use : Use) : Produced :=
  match use with
  | .print text => .printed (text ++ [10])
  | .fleetCall bridge | .acuCall bridge _ =>
    (Produced.charged bridge.argumentBytes).and (.billed ((use.finish budget).getD 0))
  | .nativeCall native | .nativeInvoke native =>
    (Produced.charged native.argumentBytes).and (.billed ((use.finish budget).getD 0))
  | .toolAnswer tool | .toolDirect tool =>
    match tool.unreadable with
    | some _ => .charged tool.argumentBytes
    | none =>
      (Produced.charged tool.argumentBytes).and
        ((Produced.line tool.line).and (.billed ((use.finish budget).getD 0)))
  | .toolArgCount _ => .charged 0

/-- The use traps before anything is billed: the cancel flag is set, the allowance is spent, or
the slot has no such door. -/
def Use.refused (budget : Budget) (toolDoor : Bool) (used : Nat) : Use → Bool
  | .print _ => false
  | .fleetCall use | .acuCall use _ => use.cancelBefore || decide (used ≥ budget.maxHostOps)
  | .nativeCall use =>
    use.positions.isSome || use.cancelBefore || decide (used ≥ budget.maxHostOps)
  | .nativeInvoke use => use.cancelBefore || decide (used ≥ budget.maxHostOps)
  | .toolAnswer use | .toolDirect use =>
    !toolDoor || use.cancelBefore || decide (used ≥ budget.maxHostOps)
  | .toolArgCount cancelBefore =>
    !toolDoor || cancelBefore || decide (used ≥ budget.maxHostOps)

/-- What uses produce together. -/
def produced (budget : Budget) (uses : List Use) : Produced :=
  uses.foldr (fun use p => (use.produced budget).and p) .nothing

@[simp] lemma produced_nil (budget : Budget) : produced budget [] = .nothing := rfl

lemma produced_cons (budget : Budget) (use : Use) (uses : List Use) :
    produced budget (use :: uses) = (use.produced budget).and (produced budget uses) := rfl

lemma produced_append (budget : Budget) (uses uses' : List Use) :
    produced budget (uses ++ uses') = (produced budget uses).and (produced budget uses') := by
  induction uses with
  | nil => rw [nil_append, produced_nil, Produced.nothing_and]
  | cons use uses ih =>
    rw [cons_append, produced_cons, produced_cons, ih, Produced.and_assoc]

/-- What a computation of the guest performs when `used` operations were billed before, and
whether it goes through. -/
abbrev Story : Type := Nat → List Use × Bool

namespace Story

/-- The second computation happens when the first goes through. -/
def followedBy (budget : Budget) (first second : Story) : Story := fun used =>
  let before := first used
  if before.2 then
    let behind := second (used + (produced budget before.1).ops)
    (before.1 ++ behind.1, behind.2)
  else before

/-- Nothing is performed. -/
def nothing (through : Bool) : Story := fun _ => ([], through)

/-- One use of the door. -/
def use (budget : Budget) (toolDoor : Bool) (use : Use) : Story := fun used =>
  if use.refused budget toolDoor used then ([], false) else ([use], !use.traps budget)

/-- Uses in order, up to the first trap. -/
def uses (budget : Budget) (toolDoor : Bool) : List Use → Story
  | [] => .nothing true
  | first :: rest => (Story.use budget toolDoor first).followedBy budget (uses budget toolDoor rest)

/-- One run of a function of the guest. -/
def activation (budget : Budget) (toolDoor : Bool) (activation : Activation) : Story :=
  (Story.uses budget toolDoor activation.uses).followedBy budget (.nothing activation.result.isOk)

/-- The reading of a counter. -/
def probe (budget : Budget) (toolDoor : Bool) (convention : Convention) (probe : Probe) : Story :=
  if convention ≠ .jsV1 then .nothing true
  else
    match probe with
    | .error _ => .nothing false
    | .ok none => .nothing true
    | .ok (some reading) =>
      (Story.activation budget toolDoor reading).followedBy budget
        (.nothing (match reading.result with
          | .ok values => (counter values).isSome
          | .error _ => false))

/-- The counters in order. -/
def probes (budget : Budget) (toolDoor : Bool) (convention : Convention) : List Probe → Story
  | [] => .nothing true
  | first :: rest =>
    (Story.probe budget toolDoor convention first).followedBy budget
      (probes budget toolDoor convention rest)

end Story

/-! ## What the door holds -/

/-- The door holds what was produced since it was drained, in the limits of the budget. -/
structure Holds (budget : Budget) (toolDoor : Bool) (p : Produced) (s : HostState) : Prop where
  maxStdout : s.maxStdout = budget.maxStdoutBytes
  maxOps : s.meter.maxOps = budget.maxHostOps
  tool : s.tool.isSome = toolDoor
  stdout : s.stdout = p.written.take budget.maxStdoutBytes
  truncated : s.stdoutTruncated = decide (budget.maxStdoutBytes < p.written.length)
  calls : (s.tool.elim [] ToolState.calls) = p.calls
  ops : s.meter.ops = p.ops
  bytes : s.meter.bytes = p.bytes

variable {convention : Convention} {flag : Bool} {p q : Produced} {s : HostState}

/-- Writing appends to what was written, and the door keeps what fits. -/
lemma Holds.write {budget : Budget} {toolDoor : Bool} (h : Holds budget toolDoor p s)
    (text : List UInt8) : Holds budget toolDoor (p.and (.printed text)) (s.writeStdout text) := by
  have hstdout := h.stdout
  have htruncated := h.truncated
  have hlen : s.stdout.length = min budget.maxStdoutBytes p.written.length := by
    rw [hstdout, length_take]
  have hand : (p.and (.printed text)).written = p.written ++ text := rfl
  unfold HostState.writeStdout
  dsimp only
  by_cases hroom : text.length > s.maxStdout - s.stdout.length
  · rw [if_pos hroom]
    rw [h.maxStdout, hlen] at hroom
    refine ⟨h.maxStdout, h.maxOps, h.tool, ?_, ?_, ?_, h.ops, h.bytes⟩
    · -- what fits of the new text behind what fitted before
      show s.stdout ++ text.take (s.maxStdout - s.stdout.length) = _
      rw [hand, take_append, h.maxStdout, hlen, hstdout]
      congr 2
      omega
    · show true = _
      rw [hand, length_append, eq_comm, decide_eq_true_eq]
      omega
    · show _ = p.calls ++ []
      rw [append_nil]
      exact h.calls
  · rw [if_neg hroom]
    rw [h.maxStdout, hlen] at hroom
    refine ⟨h.maxStdout, h.maxOps, h.tool, ?_, ?_, ?_, h.ops, h.bytes⟩
    · show s.stdout ++ text = _
      rw [hand, take_append, hstdout, take_of_length_le (l := text) (by omega)]
    · show s.stdoutTruncated = _
      rw [htruncated, hand, length_append, decide_eq_decide]
      constructor <;> intro <;> omega
    · show _ = p.calls ++ []
      rw [append_nil]
      exact h.calls

/-! ## What host functions add -/

section
variable (budget : Budget) (toolDoor : Bool)

/-- On a door that holds something, the computation ends with `r` and adds `p`. -/
def Steady {α : Type} (m : Fallible HostState WasmError α) (p : Produced)
    (r : Except WasmError α) : Prop :=
  ∀ q s, Holds budget toolDoor q s → (m s).1 = r ∧ Holds budget toolDoor (q.and p) (m s).2

variable {budget toolDoor} {α β : Type}

lemma steady_pure (x : α) :
    Steady budget toolDoor (pure x : Fallible HostState WasmError α) .nothing (.ok x) := by
  intro q s h
  rw [Produced.and_nothing]
  exact ⟨rfl, h⟩

lemma steady_fail (e : WasmError) :
    Steady budget toolDoor (.fail e : Fallible HostState WasmError α) .nothing (.error e) := by
  intro q s h
  rw [Produced.and_nothing]
  exact ⟨rfl, h⟩

lemma Steady.bind {m : Fallible HostState WasmError α} {f : α → Fallible HostState WasmError β}
    {p' : Produced} {x : α} {r : Except WasmError β} (hm : Steady budget toolDoor m p (.ok x))
    (hf : Steady budget toolDoor (f x) p' r) : Steady budget toolDoor (m >>= f) (p.and p') r := by
  intro q s h
  obtain ⟨hresult, hholds⟩ := hm q s h
  have hrun : m s = (.ok x, (m s).2) := by rw [← hresult]
  rw [Fallible.bind_ok hrun, ← Produced.and_assoc]
  exact hf _ _ hholds

lemma Steady.bind_error {m : Fallible HostState WasmError α} {e : WasmError}
    (hm : Steady budget toolDoor m p (.error e)) (f : α → Fallible HostState WasmError β) :
    Steady budget toolDoor (m >>= f) p (.error e) := by
  intro q s h
  obtain ⟨hresult, hholds⟩ := hm q s h
  have hrun : m s = (.error e, (m s).2) := by rw [← hresult]
  rw [Fallible.bind_error hrun]
  exact ⟨rfl, hholds⟩

/-- Behind a computation that adds nothing. -/
lemma Steady.step {m : Fallible HostState WasmError α} {f : α → Fallible HostState WasmError β}
    {x : α} {r : Except WasmError β} (hm : Steady budget toolDoor m .nothing (.ok x))
    (hf : Steady budget toolDoor (f x) p r) : Steady budget toolDoor (m >>= f) p r := by
  have h := hm.bind hf
  rwa [Produced.nothing_and] at h

lemma steady_checkCancel : Steady budget toolDoor (checkCancel false) .nothing (.ok ()) := by
  intro q s h
  rw [Produced.and_nothing]
  exact ⟨rfl, h⟩

lemma steady_cancelled :
    Steady budget toolDoor (checkCancel true) .nothing (.error (.trap cancelledByHost)) := by
  intro q s h
  rw [Produced.and_nothing]
  exact ⟨rfl, h.maxStdout, h.maxOps, h.tool, h.stdout, h.truncated, h.calls, h.ops, h.bytes⟩

lemma steady_answered (bytes : Nat) :
    Steady budget toolDoor (answered bytes) (.billed bytes) (.ok ()) := by
  intro q s h
  refine ⟨rfl, h.maxStdout, h.maxOps, h.tool, ?_, ?_, ?_, h.ops, congrArg (· + bytes) h.bytes⟩
  · show s.stdout = (q.written ++ []).take _
    rw [append_nil]
    exact h.stdout
  · show s.stdoutTruncated = decide (_ < (q.written ++ []).length)
    rw [append_nil]
    exact h.truncated
  · show _ = q.calls ++ []
    rw [append_nil]
    exact h.calls

lemma steady_waited (duration : Nat) :
    Steady budget toolDoor (waited duration) .nothing (.ok ()) := by
  intro q s h
  rw [Produced.and_nothing]
  exact ⟨rfl, h.maxStdout, h.maxOps, h.tool, h.stdout, h.truncated, h.calls, h.ops, h.bytes⟩

lemma steady_failWith (fault text : String) :
    Steady budget toolDoor (failWith fault text) .nothing (.error (.trap text)) := by
  intro q s h
  rw [Produced.and_nothing]
  exact ⟨rfl, h.maxStdout, h.maxOps, h.tool, h.stdout, h.truncated, h.calls, h.ops, h.bytes⟩

lemma steady_toolCancelled (flag : Bool) :
    Steady budget toolDoor (toolCancelled flag) .nothing (.error (.trap cancelledByHost)) := by
  intro q s h
  rw [Produced.and_nothing]
  exact ⟨rfl, h.maxStdout, h.maxOps, h.tool, h.stdout, h.truncated, h.calls, h.ops, h.bytes⟩

lemma steady_toolFailWith (fault : String) :
    Steady budget toolDoor (toolFailWith fault) .nothing (.error (.trap toolPanicked)) := by
  intro q s h
  rw [Produced.and_nothing]
  obtain ⟨stdout, truncated, maxStdout, fault', meter, tool⟩ := s
  refine ⟨rfl, h.maxStdout, h.maxOps, ?_, h.stdout, h.truncated, ?_, h.ops, h.bytes⟩
  · have htool := h.tool
    cases tool <;> exact htool
  · have hcalls := h.calls
    cases tool <;> exact hcalls

/-- The line of an operation of a tool door that the slot has. -/
lemma steady_line (text : String) :
    Steady budget true (.update fun s : HostState =>
      { s with tool := s.tool.map fun tool => { tool with calls := tool.calls ++ [text] } })
      (.line text) (.ok ()) := by
  intro q s h
  obtain ⟨stdout, truncated, maxStdout, fault, meter, tool⟩ := s
  have htool := h.tool
  have hcalls := h.calls
  cases tool with
  | none => cases htool
  | some tool =>
    refine ⟨rfl, h.maxStdout, h.maxOps, rfl, ?_, ?_, congrArg (· ++ [text]) hcalls, h.ops, h.bytes⟩
    · show stdout = (q.written ++ []).take _
      rw [append_nil]
      exact h.stdout
    · show truncated = decide (_ < (q.written ++ []).length)
      rw [append_nil]
      exact h.truncated

/-- A charge that is refused leaves the bill as it is. -/
lemma charge_refused (op : String) (bytes : Nat) (h : Holds budget toolDoor q s)
    (hrefused : (flag || decide (q.ops ≥ budget.maxHostOps)) = true) :
    (charge op bytes flag s).1.isOk = false ∧
      Holds budget toolDoor q (charge op bytes flag s).2 := by
  cases flag with
  | true =>
    exact ⟨rfl, h.maxStdout, h.maxOps, h.tool, h.stdout, h.truncated, h.calls, h.ops, h.bytes⟩
  | false =>
    have hspent : s.meter.ops ≥ s.meter.maxOps := by
      rw [h.ops, h.maxOps]
      exact of_decide_eq_true hrefused
    have hcharge : charge op bytes false s
        = (.error (.trap hostOpsExhausted), { s with meter := { s.meter with
            lastOp := some op, lastAnswer := none, refused := some "max_host_ops" } }) := by
      simp only [charge, onMeter, Fallible.onPart, Meter.charge, Bind.bind, Fallible.update,
        Meter.checkCancel, Bool.false_eq_true, if_false, if_pos hspent]
    rw [hcharge]
    exact ⟨rfl, h.maxStdout, h.maxOps, h.tool, h.stdout, h.truncated, h.calls, h.ops, h.bytes⟩

/-- A charge that is not refused. -/
lemma charge_taken (op : String) (bytes : Nat) (h : Holds budget toolDoor q s)
    (htaken : (flag || decide (q.ops ≥ budget.maxHostOps)) = false) :
    (charge op bytes flag s).1 = .ok () ∧
      Holds budget toolDoor (q.and (.charged bytes)) (charge op bytes flag s).2 := by
  rw [Bool.or_eq_false_iff] at htaken
  obtain ⟨hflag, hops⟩ := htaken
  have hroom : ¬ s.meter.ops ≥ s.meter.maxOps := by
    rw [h.ops, h.maxOps]
    exact of_decide_eq_false hops
  have hcharge : charge op bytes flag s
      = (.ok (), { s with meter := { s.meter with
          ops := s.meter.ops + 1, bytes := s.meter.bytes + bytes,
          lastOp := some op, lastAnswer := none } }) := by
    simp only [charge, onMeter, Fallible.onPart, Meter.charge, Bind.bind, Fallible.update,
      Meter.checkCancel, hflag, Bool.false_eq_true, if_false, if_neg hroom]
  rw [hcharge]
  refine ⟨rfl, h.maxStdout, h.maxOps, h.tool, ?_, ?_, ?_, congrArg (· + 1) h.ops,
    congrArg (· + bytes) h.bytes⟩
  · show s.stdout = (q.written ++ []).take _
    rw [append_nil]
    exact h.stdout
  · show s.stdoutTruncated = decide (_ < (q.written ++ []).length)
    rw [append_nil]
    exact h.truncated
  · show _ = q.calls ++ []
    rw [append_nil]
    exact h.calls

/-- What follows a charge that was taken. -/
lemma charge_then (op : String) (bytes : Nat) (rest : Unit → Fallible HostState WasmError α)
    {r : Except WasmError α} (h : Holds budget toolDoor q s)
    (htaken : (flag || decide (q.ops ≥ budget.maxHostOps)) = false)
    (hrest : Steady budget toolDoor (rest ()) p r) :
    ((charge op bytes flag >>= rest) s).1 = r ∧
      Holds budget toolDoor (q.and ((Produced.charged bytes).and p))
        ((charge op bytes flag >>= rest) s).2 := by
  obtain ⟨hresult, hholds⟩ := charge_taken op bytes h htaken
  have hrun : charge op bytes flag s = (.ok (), (charge op bytes flag s).2) := by rw [← hresult]
  rw [Fallible.bind_ok hrun, ← Produced.and_assoc]
  exact hrest _ _ hholds

/-- Nothing follows a charge that is refused. -/
lemma refused_then {op : String} {bytes : Nat} (rest : Unit → Door)
    (h : Holds budget toolDoor q s)
    (hrefused : (flag || decide (q.ops ≥ budget.maxHostOps)) = true) :
    ((charge op bytes flag >>= rest) s).1.isOk = false ∧
      Holds budget toolDoor q ((charge op bytes flag >>= rest) s).2 := by
  obtain ⟨hresult, hholds⟩ := charge_refused op bytes h hrefused
  rcases hrun : charge op bytes flag s with ⟨e | x, s'⟩ <;> rw [hrun] at hresult hholds
  · rw [Fallible.bind_error hrun]
    exact ⟨rfl, hholds⟩
  · cases hresult

/-- What the door does with an answer of the bridge: it hands it on, unless it stops there. -/
def Receives (budget : Budget) (toolDoor stopped : Bool)
    (receive : Nat → Fallible HostState WasmError Nat) : Prop :=
  ∀ bytes, if stopped = true then ∃ e, Steady budget toolDoor (receive bytes) .nothing (.error e)
    else Steady budget toolDoor (receive bytes) .nothing (.ok bytes)

/-- What `askBridge` hands on. -/
lemma askBridge_some {unreadable absent panicked : String} {use : BridgeUse} {stopped : Bool}
    {receive : Nat → Fallible HostState WasmError Nat} {payload : Nat}
    (hreceive : Receives budget toolDoor stopped receive)
    (hpayload : bridgePayload unreadable absent use stopped = some payload) :
    Steady budget toolDoor (askBridge unreadable absent panicked use receive) .nothing
      (.ok payload) := by
  unfold bridgePayload at hpayload
  unfold askBridge
  cases hutf8 : use.utf8 with
  | false =>
    rw [hutf8] at hpayload
    rw [← Option.some.inj hpayload]
    exact steady_pure _
  | true =>
    rw [hutf8] at hpayload
    cases hbridge : use.bridge with
    | none =>
      rw [hbridge] at hpayload
      rw [← Option.some.inj hpayload]
      exact steady_pure _
    | some bridged =>
      rw [hbridge] at hpayload
      refine (steady_waited bridged.waited).step ?_
      cases hanswer : bridged.answer with
      | error panic =>
        simp only [hanswer] at hpayload
        cases hpayload
      | ok bytes =>
        have hbytes := hreceive bytes
        simp only [hanswer] at hpayload
        by_cases h : stopped = true
        · rw [if_pos h] at hpayload
          cases hpayload
        · rw [if_neg h] at hpayload hbytes
          rw [← Option.some.inj hpayload]
          exact hbytes

/-- `askBridge` traps the guest. -/
lemma askBridge_none {unreadable absent panicked : String} {use : BridgeUse} {stopped : Bool}
    {receive : Nat → Fallible HostState WasmError Nat}
    (hreceive : Receives budget toolDoor stopped receive)
    (hpayload : bridgePayload unreadable absent use stopped = none) :
    ∃ e, Steady budget toolDoor (askBridge unreadable absent panicked use receive) .nothing
      (.error e) := by
  unfold bridgePayload at hpayload
  unfold askBridge
  cases hutf8 : use.utf8 with
  | false =>
    rw [hutf8] at hpayload
    cases hpayload
  | true =>
    rw [hutf8] at hpayload
    cases hbridge : use.bridge with
    | none =>
      rw [hbridge] at hpayload
      cases hpayload
    | some bridged =>
      rw [hbridge] at hpayload
      have hwaited : Steady budget toolDoor (waited bridged.waited) .nothing (.ok ()) :=
        steady_waited _
      cases hanswer : bridged.answer with
      | error panic =>
        simp only [hanswer]
        exact ⟨_, hwaited.step ((steady_failWith panic panicked).bind_error _)⟩
      | ok bytes =>
        have hbytes := hreceive bytes
        simp only [hanswer] at hpayload ⊢
        by_cases h : stopped = true
        · rw [if_pos h] at hbytes
          obtain ⟨e, he⟩ := hbytes
          exact ⟨e, hwaited.step he⟩
        · rw [if_neg h] at hpayload
          cases hpayload

/-- What follows a charge bills the rest, or traps. -/
def Follows (budget : Budget) (toolDoor : Bool) (rest : Door) (use : Use) : Prop :=
  ∃ r, Steady budget toolDoor rest (.billed ((use.finish budget).getD 0)) r ∧
    r.isOk = !use.traps budget

lemma follows_ok {rest : Door} {use : Use} {bytes : Nat}
    (hfinish : use.finish budget = some bytes) (htraps : use.traps budget = false)
    (h : Steady budget toolDoor rest (.billed bytes) (.ok ())) :
    Follows budget toolDoor rest use := by
  refine ⟨.ok (), ?_, ?_⟩
  · rw [hfinish]
    exact h
  · rw [htraps]
    rfl

lemma follows_error {rest : Door} {use : Use} {e : WasmError}
    (hfinish : use.finish budget = none) (htraps : use.traps budget = true)
    (h : Steady budget toolDoor rest .nothing (.error e)) :
    Follows budget toolDoor rest use := by
  refine ⟨.error e, ?_, ?_⟩
  · rw [hfinish]
    exact h
  · rw [htraps]
    rfl

lemma receives_pure : Receives budget toolDoor false pure := fun bytes => steady_pure bytes

lemma follows_fleetCall (use : BridgeUse) :
    Follows budget toolDoor (do
      let payload ← askBridge notUtf8 noBridge bridgePanicked use pure
      checkCancel use.cancelAfter
      answered (capped budget resultTooLarge payload)) (.fleetCall use) := by
  cases hpayload : bridgePayload notUtf8 noBridge use false with
  | none =>
    have hfinish : (Use.fleetCall use).finish budget = none := by
      rw [Use.finish, hpayload]
      split <;> rfl
    obtain ⟨e, he⟩ := askBridge_none receives_pure hpayload
    exact follows_error hfinish (congrArg Option.isNone hfinish) (he.bind_error _)
  | some bytes =>
    have hask : Steady budget toolDoor (askBridge notUtf8 noBridge bridgePanicked use pure)
        .nothing (.ok bytes) := askBridge_some receives_pure hpayload
    cases hcancel : use.cancelAfter with
    | true =>
      have hfinish : (Use.fleetCall use).finish budget = none := by
        rw [Use.finish, if_pos hcancel]
      exact follows_error hfinish (congrArg Option.isNone hfinish)
        (hask.step (steady_cancelled.bind_error _))
    | false =>
      have hfinish : (Use.fleetCall use).finish budget
          = some (capped budget resultTooLarge bytes) := by
        rw [Use.finish, hpayload, if_neg (by rw [hcancel]; decide)]
        rfl
      exact follows_ok hfinish (congrArg Option.isNone hfinish)
        (hask.step (steady_checkCancel.step (steady_answered _)))

lemma receives_receiveAcu (use : BridgeUse) (acknowledged : Bool) :
    Receives budget toolDoor acknowledged (receiveAcu use acknowledged) := by
  intro bytes
  unfold receiveAcu
  cases acknowledged with
  | false => exact steady_pure bytes
  | true =>
    cases hcancel : use.cancelAfter with
    | true => exact ⟨_, steady_cancelled.bind_error _⟩
    | false => exact ⟨_, steady_checkCancel.step (steady_fail _)⟩

lemma follows_acuCall (use : BridgeUse) (acknowledged : Bool) :
    Follows budget toolDoor (do
      let payload ← askBridge acuNotUtf8 noAcuBridge acuBridgePanicked use
        (receiveAcu use acknowledged)
      answered (capped budget acuResultTooLarge payload)) (.acuCall use acknowledged) := by
  have hreceives : Receives budget toolDoor acknowledged (receiveAcu use acknowledged) :=
    receives_receiveAcu use acknowledged
  cases hpayload : bridgePayload acuNotUtf8 noAcuBridge use acknowledged with
  | none =>
    have hfinish : (Use.acuCall use acknowledged).finish budget = none := by
      rw [Use.finish, hpayload]
      rfl
    obtain ⟨e, he⟩ := askBridge_none hreceives hpayload
    exact follows_error hfinish (congrArg Option.isNone hfinish) (he.bind_error _)
  | some bytes =>
    have hfinish : (Use.acuCall use acknowledged).finish budget
        = some (capped budget acuResultTooLarge bytes) := by
      rw [Use.finish, hpayload]
      rfl
    exact follows_ok hfinish (congrArg Option.isNone hfinish)
      ((askBridge_some hreceives hpayload).step (steady_answered _))

lemma follows_nativeCall (use : NativeUse) :
    Follows budget toolDoor (do
      let _ ← nativeResult use
      answered 8
      checkCancel use.cancelAfter) (.nativeCall use) := by
  have hanswered : Steady budget toolDoor (answered 8) (.billed 8) (.ok ()) := steady_answered 8
  unfold nativeResult
  cases hresult : use.result with
  | error fault =>
    have hfinish : (Use.nativeCall use).finish budget = none := by rw [Use.finish, hresult]
    refine follows_error hfinish ?_
      (((steady_failWith fault nativeCallFailed).bind_error _).bind_error _)
    rw [Use.traps, hfinish]
    rfl
  | ok bytes =>
    have hfinish : (Use.nativeCall use).finish budget = some 8 := by rw [Use.finish, hresult]
    cases hcancel : use.cancelAfter with
    | true =>
      refine ⟨.error (.trap cancelledByHost), ?_, ?_⟩
      · have hbilled := hanswered.bind
          (f := fun _ => checkCancel true) steady_cancelled
        rw [Produced.and_nothing] at hbilled
        rw [hfinish]
        exact (steady_pure bytes).step hbilled
      · rw [Use.traps, hfinish, hcancel]
        rfl
    | false =>
      refine follows_ok hfinish ?_ ((steady_pure bytes).step ?_)
      · rw [Use.traps, hfinish, hcancel]
        rfl
      · have hbilled := hanswered.bind (f := fun _ => checkCancel false) steady_checkCancel
        rw [Produced.and_nothing] at hbilled
        exact hbilled

lemma follows_nativeInvoke (use : NativeUse) :
    Follows budget toolDoor (do
      let payload ← nativeResult use
      checkCancel use.cancelAfter
      answered (capped budget nativeResultTooLarge payload)) (.nativeInvoke use) := by
  unfold nativeResult
  cases hresult : use.result with
  | error fault =>
    have hfinish : (Use.nativeInvoke use).finish budget = none := by rw [Use.finish, hresult]
    exact follows_error hfinish (congrArg Option.isNone hfinish)
      (((steady_failWith fault nativeCallFailed).bind_error _).bind_error _)
  | ok bytes =>
    cases hcancel : use.cancelAfter with
    | true =>
      have hfinish : (Use.nativeInvoke use).finish budget = none := by
        rw [Use.finish, hresult, hcancel]
        rfl
      exact follows_error hfinish (congrArg Option.isNone hfinish)
        ((steady_pure bytes).step (steady_cancelled.bind_error _))
    | false =>
      have hfinish : (Use.nativeInvoke use).finish budget
          = some (capped budget nativeResultTooLarge bytes) := by
        rw [Use.finish, hresult, hcancel]
        rfl
      exact follows_ok hfinish (congrArg Option.isNone hfinish)
        ((steady_pure bytes).step (steady_checkCancel.step (steady_answered _)))

/-- The computation bills a number of bytes, or traps. -/
def Bills (budget : Budget) (run : Door) : Option Nat → Prop
  | some bytes => Steady budget true run (.billed bytes) (.ok ())
  | none => ∃ e, Steady budget true run .nothing (.error e)

/-- An operation of the tool door, behind its charge. -/
lemma steady_toolEnd {run : Door} (line : String) {billed : Option Nat}
    (hrun : Bills budget run billed) :
    ∃ r, Steady budget true (do recordCall line; run)
      ((Produced.line line).and (.billed (billed.getD 0))) r ∧ r.isOk = !billed.isNone := by
  cases billed with
  | some bytes => exact ⟨_, (steady_line line).bind hrun, rfl⟩
  | none =>
    obtain ⟨e, he⟩ := hrun
    exact ⟨_, (steady_line line).bind he, rfl⟩

lemma bills_endAnswer (finish : ToolEnd) :
    Bills budget (endAnswer budget finish) (finish.answerBytes budget) := by
  cases finish with
  | answer bytes => exact steady_answered _
  | message bytes => exact steady_answered _
  | cancelled flag => exact ⟨_, steady_toolCancelled flag⟩
  | panicked fault => exact ⟨_, steady_toolFailWith fault⟩

lemma bills_endDirect (finish : ToolEnd) (duration : Nat) :
    Bills budget (do waited duration; endDirect budget finish) (finish.directBytes budget) := by
  cases finish with
  | answer bytes => exact (steady_waited _).step (steady_pure ())
  | message bytes => exact (steady_waited _).step (steady_answered _)
  | cancelled flag => exact ⟨_, (steady_waited _).step (steady_toolCancelled flag)⟩
  | panicked fault => exact ⟨_, (steady_waited _).step (steady_toolFailWith fault)⟩

/-- An operation of the tool door that is not refused: what is read of `use` is its line and
whether its arguments can be read. -/
lemma meteredTool_taken {tool : ToolUse} {run : Door} {billed : Option Nat}
    (h : Holds budget toolDoor q s)
    (hflag : (!toolDoor || tool.cancelBefore || decide (q.ops ≥ budget.maxHostOps)) = false)
    (hrun : Bills budget run billed) :
    (meteredTool tool run s).1.isOk = !(tool.unreadable.isSome || billed.isNone) ∧
      Holds budget toolDoor (q.and (match tool.unreadable with
        | some _ => .charged tool.argumentBytes
        | none => (Produced.charged tool.argumentBytes).and
            ((Produced.line tool.line).and (.billed (billed.getD 0)))))
        (meteredTool tool run s).2 := by
  have hdoor := h.tool
  rw [Bool.or_assoc, Bool.or_eq_false_iff] at hflag
  have hopen : toolDoor = true := by
    rw [← Bool.not_not toolDoor, hflag.1]
    rfl
  subst hopen
  unfold meteredTool
  cases hs : s.tool with
  | none =>
    rw [hs] at hdoor
    cases hdoor
  | some state =>
    dsimp only
    cases tool.unreadable with
    | some text =>
      have hfail := charge_then ("tool." ++ tool.field) tool.argumentBytes
        (fun _ => (.fail (.trap text) : Door)) h hflag.2 (steady_fail _)
      rw [Produced.and_nothing] at hfail
      exact ⟨congrArg Except.isOk hfail.1, hfail.2⟩
    | none =>
      obtain ⟨r, hsteady, hok⟩ := steady_toolEnd tool.line hrun
      have hthen := charge_then ("tool." ++ tool.field) tool.argumentBytes
        (fun _ => (do recordCall tool.line; run : Door)) h hflag.2 hsteady
      exact ⟨(congrArg Except.isOk hthen.1).trans hok, hthen.2⟩

/-! ## One use, and a run of the guest -/

/-- A use that is refused adds nothing and traps. -/
theorem perform_refused {use : Use} (h : Holds budget toolDoor q s)
    (hrefused : use.refused budget toolDoor q.ops = true) :
    (use.perform budget s).1.isOk = false ∧ Holds budget toolDoor q (use.perform budget s).2 := by
  -- the operations of the tool door
  have htool (tool : ToolUse) (run : Door)
      (htool : (!toolDoor || tool.cancelBefore || decide (q.ops ≥ budget.maxHostOps)) = true) :
      (meteredTool tool run s).1.isOk = false ∧
        Holds budget toolDoor q (meteredTool tool run s).2 := by
    have hdoor := h.tool
    unfold meteredTool
    cases hs : s.tool with
    | none => exact ⟨rfl, h⟩
    | some state =>
      have hopen : toolDoor = true := by rw [← hdoor, hs]; rfl
      rw [hopen, Bool.not_true, Bool.false_or] at htool
      exact refused_then _ h htool
  cases use with
  | print text => cases hrefused
  | fleetCall use => exact refused_then _ h hrefused
  | acuCall use acknowledged => exact refused_then _ h hrefused
  | nativeCall use =>
    show (nativeCall use s).1.isOk = false ∧ Holds budget toolDoor q (nativeCall use s).2
    unfold nativeCall
    cases hpositions : use.positions with
    | some fault =>
      have hfail := steady_failWith fault nativeCallFailed q s h
      rw [Produced.and_nothing] at hfail
      exact ⟨congrArg Except.isOk hfail.1, hfail.2⟩
    | none =>
      rw [Use.refused, hpositions] at hrefused
      exact refused_then _ h hrefused
  | nativeInvoke use => exact refused_then _ h hrefused
  | toolAnswer use => exact htool use _ hrefused
  | toolDirect use => exact htool use _ hrefused
  | toolArgCount cancelBefore =>
    have hdoor := h.tool
    show (toolArgCount cancelBefore s).1.isOk = false ∧
      Holds budget toolDoor q (toolArgCount cancelBefore s).2
    unfold toolArgCount
    cases hs : s.tool with
    | none => exact ⟨rfl, h⟩
    | some state =>
      have hopen : toolDoor = true := by rw [← hdoor, hs]; rfl
      rw [Use.refused, hopen, Bool.not_true, Bool.false_or] at hrefused
      exact charge_refused "tool.arg_count" 0 h hrefused

/-- A use that is not refused adds what it produces. -/
theorem perform_taken {use : Use} (h : Holds budget toolDoor q s)
    (htaken : use.refused budget toolDoor q.ops = false) :
    (use.perform budget s).1.isOk = !use.traps budget ∧
      Holds budget toolDoor (q.and (use.produced budget)) (use.perform budget s).2 := by
  -- the operations that are charged and billed
  have hcharged (op : String) (bytes : Nat) (flag : Bool) (rest : Unit → Door)
      (hflag : (flag || decide (q.ops ≥ budget.maxHostOps)) = false)
      (hrest : Follows budget toolDoor (rest ()) use)
      (hproduced : use.produced budget
        = (Produced.charged bytes).and (.billed ((use.finish budget).getD 0))) :
      ((charge op bytes flag >>= rest) s).1.isOk = !use.traps budget ∧
        Holds budget toolDoor (q.and (use.produced budget))
          ((charge op bytes flag >>= rest) s).2 := by
    obtain ⟨r, hsteady, hok⟩ := hrest
    obtain ⟨hresult, hholds⟩ := charge_then op bytes rest h hflag hsteady
    rw [hresult, hproduced]
    exact ⟨hok, hholds⟩
  cases use with
  | print text =>
    have hprinted := (h.write text).write [10]
    rw [Produced.and_assoc] at hprinted
    exact ⟨rfl, hprinted⟩
  | fleetCall use => exact hcharged _ _ _ _ htaken (follows_fleetCall use) rfl
  | acuCall use acknowledged => exact hcharged _ _ _ _ htaken (follows_acuCall use acknowledged) rfl
  | nativeCall use =>
    have hpositions : use.positions = none := by
      rw [Use.refused, Bool.or_assoc, Bool.or_eq_false_iff] at htaken
      exact Option.not_isSome_iff_eq_none.mp (by rw [htaken.1]; decide)
    have hperform : (Use.nativeCall use).perform budget = (do
        charge "agenterm.native_call" use.argumentBytes use.cancelBefore
        let _ ← nativeResult use
        answered 8
        checkCancel use.cancelAfter) := by
      show nativeCall use = _
      rw [nativeCall, hpositions]
    rw [hperform]
    rw [Use.refused, hpositions] at htaken
    exact hcharged _ _ _ _ htaken (follows_nativeCall use) rfl
  | nativeInvoke use => exact hcharged _ _ _ _ htaken (follows_nativeInvoke use) rfl
  | toolAnswer use => exact meteredTool_taken h htaken (bills_endAnswer use.finish)
  | toolDirect use => exact meteredTool_taken h htaken (bills_endDirect use.finish _)
  | toolArgCount cancelBefore =>
    have hdoor := h.tool
    show (toolArgCount cancelBefore s).1.isOk = true ∧
      Holds budget toolDoor (q.and (.charged 0)) (toolArgCount cancelBefore s).2
    rw [Use.refused, Bool.or_assoc, Bool.or_eq_false_iff] at htaken
    unfold toolArgCount
    cases hs : s.tool with
    | none =>
      rw [hs, ← Bool.not_not toolDoor, htaken.1] at hdoor
      cases hdoor
    | some state =>
      obtain ⟨hresult, hholds⟩ := charge_taken "tool.arg_count" 0 h htaken.2
      exact ⟨congrArg Except.isOk hresult, hholds⟩

/-- The door holds the story of the computation afterwards, and the computation ends as the story
says. -/
def Tells {ε : Type} (budget : Budget) (toolDoor : Bool) (m : Fallible HostState ε α)
    (story : Story) : Prop :=
  ∀ q s, Holds budget toolDoor q s → (m s).1.isOk = (story q.ops).2 ∧
    Holds budget toolDoor (q.and (produced budget (story q.ops).1)) (m s).2

lemma tells_nothing {ε : Type} {m : Fallible HostState ε α} {through : Bool}
    (h : ∀ s, (m s).1.isOk = through ∧ (m s).2 = s) :
    Tells budget toolDoor m (.nothing through) := by
  intro q s hholds
  rw [(h s).2]
  refine ⟨(h s).1, ?_⟩
  show Holds budget toolDoor (q.and .nothing) s
  rw [Produced.and_nothing]
  exact hholds

lemma Tells.bind {ε : Type} {m : Fallible HostState ε α} {f : α → Fallible HostState ε β}
    {first second : Story} (hm : Tells budget toolDoor m first)
    (hf : ∀ x, (∃ s s', m s = (.ok x, s')) → Tells budget toolDoor (f x) second) :
    Tells budget toolDoor (m >>= f) (first.followedBy budget second) := by
  intro q s h
  obtain ⟨hok, hholds⟩ := hm q s h
  unfold Story.followedBy
  dsimp only
  rcases hrun : m s with ⟨e | x, s'⟩ <;> rw [hrun] at hok hholds
  · have hfails : (first q.ops).2 = false := hok.symm
    rw [Fallible.bind_error hrun, if_neg (by rw [hfails]; decide)]
    exact ⟨hok, hholds⟩
  · have hgoes : (first q.ops).2 = true := hok.symm
    obtain ⟨hok', hholds'⟩ := hf x ⟨s, s', hrun⟩ _ s' hholds
    rw [Fallible.bind_ok hrun, if_pos hgoes, produced_append, ← Produced.and_assoc]
    exact ⟨hok', hholds'⟩

theorem tells_use (use : Use) :
    Tells budget toolDoor (use.perform budget) (.use budget toolDoor use) := by
  intro q s h
  unfold Story.use
  cases hrefused : use.refused budget toolDoor q.ops with
  | true =>
    have hperform := perform_refused h hrefused
    rw [if_pos rfl, produced_nil, Produced.and_nothing]
    exact hperform
  | false =>
    have hperform := perform_taken h hrefused
    rw [if_neg (by decide), produced_cons, produced_nil, Produced.and_nothing]
    exact hperform

theorem tells_uses (uses : List Use) :
    Tells budget toolDoor (performAll budget uses) (.uses budget toolDoor uses) := by
  induction uses with
  | nil => exact tells_nothing fun _ => ⟨rfl, rfl⟩
  | cons use uses ih => exact (tells_use use).bind fun _ _ => ih

theorem tells_invoke (activation : Activation) :
    Tells budget toolDoor (activation.invoke budget)
      (.activation budget toolDoor activation) :=
  (tells_uses activation.uses).bind fun _ _ => tells_nothing fun _ => ⟨rfl, rfl⟩

/-- Errors translated on the way out. -/
lemma Tells.translated {ε ε' : Type} {m : Fallible HostState ε α} {story : Story}
    (h : Tells budget toolDoor m story) (report : ε → ε') :
    Tells budget toolDoor (m.onPart id (fun _ s => s) report) story := by
  intro q s hholds
  have hm := h q s hholds
  unfold Fallible.onPart
  dsimp only [id]
  rcases hrun : m s with ⟨e | x, s'⟩ <;> rw [hrun] at hm <;> exact hm

/-- The value of a run that goes through. -/
lemma invoke_ok {activation : Activation} {s' : HostState} {values : List Val}
    (h : activation.invoke budget s = (.ok values, s')) : activation.result = .ok values := by
  unfold Activation.invoke at h
  rcases hrun : performAll budget activation.uses s with ⟨e | x, s''⟩
  · rw [Fallible.bind_error hrun] at h
    exact absurd (congrArg Prod.fst h) nofun
  · rw [Fallible.bind_ok hrun] at h
    exact congrArg Prod.fst h

/-- The same for a run whose errors are translated. -/
lemma translated_ok {ε ε' : Type} {m : Fallible HostState ε α} {report : ε → ε'} {x : α}
    {s' : HostState} (h : m.onPart id (fun _ s => s) report s = (.ok x, s')) :
    m s = (.ok x, s') := by
  unfold Fallible.onPart at h
  dsimp only [id] at h
  rcases hrun : m s with ⟨e | y, s''⟩ <;> rw [hrun] at h
  · exact absurd (congrArg Prod.fst h) nofun
  · have hvalue : y = x := Except.ok.inj (congrArg Prod.fst h)
    have hstate : s'' = s' := congrArg Prod.snd h
    rw [hvalue, hstate]

theorem tells_allocationCounter (convention : Convention) (probe : Probe) :
    Tells budget toolDoor (allocationCounter budget convention probe)
      (.probe budget toolDoor convention probe) := by
  unfold allocationCounter Story.probe
  by_cases hconvention : convention ≠ .jsV1
  · rw [if_pos hconvention, if_pos hconvention]
    exact tells_nothing fun _ => ⟨rfl, rfl⟩
  · rw [if_neg hconvention, if_neg hconvention]
    cases probe with
    | error fault => exact tells_nothing fun _ => ⟨rfl, rfl⟩
    | ok exported =>
      cases exported with
      | none => exact tells_nothing fun _ => ⟨rfl, rfl⟩
      | some reading =>
        refine ((tells_invoke reading).translated classify).bind fun values hvalues => ?_
        obtain ⟨s, s', hrun⟩ := hvalues
        have hresult : reading.result = .ok values := invoke_ok (translated_ok hrun)
        rw [hresult]
        apply tells_nothing
        intro t
        cases hcounter : counter values <;> dsimp only <;> rw [hcounter] <;> exact ⟨rfl, rfl⟩

/-- The four counters of a call. -/
def Call.probes (call : Call) : List Probe :=
  [call.waterline, call.jsonParse, call.jsonStringify, call.immediateStringify]

theorem tells_readCounters (convention : Convention) (call : Call) :
    Tells budget toolDoor (readCounters budget convention call true)
      (.probes budget toolDoor convention call.probes) :=
  (tells_allocationCounter convention call.waterline).bind fun _ _ =>
    (tells_allocationCounter convention call.jsonParse).bind fun _ _ =>
      (tells_allocationCounter convention call.jsonStringify).bind fun _ _ =>
        (tells_allocationCounter convention call.immediateStringify).bind fun _ _ =>
          tells_nothing fun _ => ⟨rfl, rfl⟩

/-! ## Draining -/

/-- What the door gives out of what it holds. -/
structure Evidence where
  stdout : String
  truncated : Bool
  toolCalls : List String
  bill : Option (Nat × Nat)
deriving DecidableEq

/-- No evidence. -/
def Evidence.none : Evidence := ⟨"", false, [], Option.none⟩

/-- The evidence of what was produced. -/
def Produced.evidence (lossy : List UInt8 → String) (budget : Budget) (p : Produced) : Evidence :=
  ⟨lossy (p.written.take budget.maxStdoutBytes),
    decide (budget.maxStdoutBytes < p.written.length), p.calls, some (p.ops, p.bytes)⟩

/-- The evidence among what a call takes from the door. -/
def Drained.evidence (drained : Drained) : Evidence :=
  ⟨drained.stdout, drained.truncatedStdout, drained.toolCalls,
    some (drained.bill.1, drained.bill.2.1)⟩

/-- Draining gives out the evidence of what the door holds, and leaves nothing. -/
theorem drain_holds {door : HostState} (lossy : List UInt8 → String)
    (h : Holds budget toolDoor p door) :
    (drain lossy door).1.evidence = p.evidence lossy budget ∧
      Holds budget toolDoor .nothing (drain lossy door).2 := by
  obtain ⟨stdout, truncated, maxStdout, fault, meter, tool⟩ := door
  obtain ⟨hmax, hops, htool, hstdout, htruncated, hcalls, hbilled, hbytes⟩ := h
  dsimp only at hmax hops htool hstdout htruncated hcalls hbilled hbytes
  obtain ⟨ops, bytes, waited, maxOps, refused, cancelled, lastOp, lastAnswer⟩ := meter
  cases tool with
  | none =>
    refine ⟨?_, hmax, ?_, htool, ?_, rfl, rfl, ?_, ?_⟩
    · unfold Produced.evidence
      rw [← hstdout, ← htruncated, ← hcalls, ← hbilled, ← hbytes]
      rfl
    · cases lastOp <;> exact hops
    · exact take_nil.symm
    · cases lastOp <;> rfl
    · cases lastOp <;> rfl
  | some state =>
    refine ⟨?_, hmax, ?_, htool, ?_, rfl, rfl, ?_, ?_⟩
    · unfold Produced.evidence
      rw [← hstdout, ← htruncated, ← hcalls, ← hbilled, ← hbytes]
      rfl
    · cases lastOp <;> exact hops
    · exact take_nil.symm
    · cases lastOp <;> rfl
    · cases lastOp <;> rfl

/-- Asking the door for the reason of a failure takes no evidence. -/
theorem explain_holds {door : HostState} (convention : Convention)
    (recorded : Option QjswasmError) (fault : WasmError) (h : Holds budget toolDoor p door) :
    Holds budget toolDoor p (explain convention recorded fault door).2 := by
  have hcancelled : Holds budget toolDoor p door.takeCancelled.2 :=
    ⟨h.maxStdout, h.maxOps, h.tool, h.stdout, h.truncated, h.calls, h.ops, h.bytes⟩
  have hrefusal : Holds budget toolDoor p door.takeCancelled.2.takeBudgetRefusal.2 :=
    ⟨h.maxStdout, h.maxOps, h.tool, h.stdout, h.truncated, h.calls, h.ops, h.bytes⟩
  have hfault : Holds budget toolDoor p door.takeCancelled.2.takeBudgetRefusal.2.takeFault.2 := by
    generalize door.takeCancelled.2.takeBudgetRefusal.2 = s at hrefusal
    obtain ⟨stdout, truncated, maxStdout, fault', meter, tool⟩ := s
    have htool := hrefusal.tool
    have hcalls := hrefusal.calls
    refine ⟨?_, ?_, ?_, ?_, ?_, ?_, ?_, ?_⟩ <;> cases fault' <;> cases tool
    all_goals first
      | exact hrefusal.maxStdout
      | exact hrefusal.maxOps
      | exact htool
      | exact hrefusal.stdout
      | exact hrefusal.truncated
      | exact hcalls
      | exact hrefusal.ops
      | exact hrefusal.bytes
  unfold explain
  dsimp only
  split
  · exact hcancelled
  · split
    · exact hrefusal
    · split
      · exact hfault
      · split
        · exact hfault
        · exact hfault

/-! ## One call -/

/-- What the guest performs in a call that starts with a drained door, and whether the counters
behind an entry that returned could be read. -/
def Call.story (budget : Budget) (toolDoor : Bool) (convention : Convention) (call : Call) :
    Story :=
  (Story.activation budget toolDoor call.entry).followedBy budget
    (.probes budget toolDoor convention call.probes)

/-- The uses of the door that the guest performs in a call. -/
def Call.performed (budget : Budget) (toolDoor : Bool) (convention : Convention) (call : Call) :
    List Use :=
  if call.refused.isSome then [] else (call.story budget toolDoor convention 0).1

/-- The entry of the call returns, and then a counter cannot be read. -/
def Call.counterFails (budget : Budget) (toolDoor : Bool) (convention : Convention) (call : Call) :
    Bool :=
  call.refused.isNone && (Story.activation budget toolDoor call.entry 0).2
    && !(call.story budget toolDoor convention 0).2

/-- What the guest performs while its module is loaded. -/
def Load.performed (budget : Budget) (toolDoor : Bool) (convention : Convention) (load : Load) :
    List Use :=
  ((Story.activation budget toolDoor load.start).followedBy budget
    (.probe budget toolDoor convention load.waterline) 0).1

/-- The evidence that a call reports: in its outcome, or by the accessors right after it
failed. -/
def reported (answer : Except QjswasmError Outcome × Engine) : Evidence :=
  match answer.1 with
  | .ok outcome => ⟨outcome.stdout, outcome.truncatedStdout, outcome.toolCalls,
      some (outcome.hostOps, outcome.hostBytes)⟩
  | .error _ => ⟨answer.2.failedStdout, answer.2.failedStdoutTruncated, answer.2.failedToolCalls,
      answer.2.failedCost.map fun cost => (cost.hostOps, cost.hostBytes)⟩

/-- A slot between two calls: the door is drained, and no evidence of a failure waits. -/
structure Idle (budget : Budget) (toolDoor : Bool) (convention : Convention) (slot : Slot) :
    Prop where
  door : Holds budget toolDoor .nothing slot.door
  convention : slot.convention = convention
  failedStdout : slot.failedStdout = ""
  failedStdoutTruncated : slot.failedStdoutTruncated = false
  failedToolCalls : slot.failedToolCalls = []
  failedCost : slot.failedCost = none

/-- What a call reports is its own: an outcome has the evidence of what the guest performed during
the call, and a failure has that evidence or none. -/
structure OwnEvidence (lossy : List UInt8 → String) (budget : Budget) (toolDoor : Bool)
    (convention : Convention) (call : Call) (answer : Except QjswasmError Outcome × Engine) :
    Prop where
  outcome : ∀ outcome, answer.1 = .ok outcome → reported answer
    = (produced budget (call.performed budget toolDoor convention)).evidence lossy budget
  failed : ∀ error, answer.1 = .error error → reported answer = .none ∨ reported answer
    = (produced budget (call.performed budget toolDoor convention)).evidence lossy budget

/-- An answer without evidence from an idle slot. -/
lemma own_of_silent {lossy : List UInt8 → String} {call : Call} {engine : Engine} {slot : Slot}
    {error : QjswasmError} (hcall : engine.slot.call lossy budget call = (.error error, slot))
    (hidle : Idle budget toolDoor convention slot) :
    OwnEvidence lossy budget toolDoor convention call (engine.call lossy budget call) ∧
      Idle budget toolDoor convention (engine.call lossy budget call).2.slot := by
  have hanswer : engine.call lossy budget call = (.error error, {
      slot := { slot with
        failedStdout := ""
        failedStdoutTruncated := false
        failedToolCalls := []
        failedCost := none }
      failedStdout := slot.failedStdout
      failedStdoutTruncated := slot.failedStdoutTruncated
      failedToolCalls := slot.failedToolCalls
      failedCost := slot.failedCost }) := by
    unfold Engine.call
    rw [hcall]
  rw [hanswer]
  refine ⟨⟨fun _ => nofun, fun _ _ => .inl ?_⟩,
    ⟨hidle.door, hidle.convention, rfl, rfl, rfl, rfl⟩⟩
  unfold reported
  dsimp only
  rw [hidle.failedStdout, hidle.failedStdoutTruncated, hidle.failedToolCalls, hidle.failedCost]
  rfl

/-- A call on an idle slot reports its own evidence and leaves the slot idle, unless a counter
fails after the guest produced something. -/
theorem call_own (lossy : List UInt8 → String) {call : Call} {engine : Engine}
    (hidle : Idle budget toolDoor convention engine.slot)
    (hkept : call.counterFails budget toolDoor convention = true →
      call.performed budget toolDoor convention = []) :
    OwnEvidence lossy budget toolDoor convention call (engine.call lossy budget call) ∧
      Idle budget toolDoor convention (engine.call lossy budget call).2.slot := by
  cases hrefused : call.refused with
  | some error =>
    have hcall : engine.slot.call lossy budget call = (.error error, engine.slot) := by
      unfold Slot.call
      rw [hrefused]
    exact own_of_silent hcall hidle
  | none =>
    have hperformed : call.performed budget toolDoor convention
        = (call.story budget toolDoor convention 0).1 := by
      rw [Call.performed, hrefused]
      rfl
    have hconvention := hidle.convention
    have hinvoke : (call.entry.invoke budget engine.slot.door).1.isOk
        = (Story.activation budget toolDoor call.entry 0).2 ∧
        Holds budget toolDoor (produced budget (Story.activation budget toolDoor call.entry 0).1)
          (call.entry.invoke budget engine.slot.door).2 := by
      have htells := tells_invoke call.entry .nothing engine.slot.door hidle.door
      rw [Produced.nothing_and] at htells
      exact htells
    obtain ⟨hok, hholds⟩ := hinvoke
    rcases hentry : call.entry.invoke budget engine.slot.door with ⟨fault | returned, door⟩ <;>
      rw [hentry] at hok hholds
    · -- the entry trapped: the counters are not read
      have hfails : (Story.activation budget toolDoor call.entry 0).2 = false := hok.symm
      have hstory : call.performed budget toolDoor convention
          = (Story.activation budget toolDoor call.entry 0).1 := by
        rw [hperformed, Call.story, Story.followedBy]
        dsimp only
        rw [if_neg (by rw [hfails]; decide)]
      rw [← hstory] at hholds
      obtain ⟨hevidence, hdrained⟩ := drain_holds lossy hholds
      have hexplained := explain_holds convention call.recorded fault hdrained
      have hanswer : engine.call lossy budget call =
          (.error (explain convention call.recorded fault (drain lossy door).2).1, {
            slot := { engine.slot with
              door := (explain convention call.recorded fault (drain lossy door).2).2
              failedStdout := ""
              failedStdoutTruncated := false
              failedToolCalls := []
              failedCost := none }
            failedStdout := (drain lossy door).1.stdout
            failedStdoutTruncated := (drain lossy door).1.truncatedStdout
            failedToolCalls := (drain lossy door).1.toolCalls
            failedCost := some {
              measured := call.measured
              hostOps := (drain lossy door).1.bill.1
              hostBytes := (drain lossy door).1.bill.2.1
              waitedMs := (drain lossy door).1.bill.2.2
              counters := ⟨none, none, none, none⟩
              heapStartBytes := engine.slot.heapStartBytes
              lastDoor := (drain lossy door).1.lastDoor } }) := by
        unfold Engine.call Slot.call
        rw [hrefused]
        dsimp only
        rw [hentry, hconvention]
        rfl
      rw [hanswer]
      refine ⟨⟨fun _ => nofun, fun _ _ => .inr ?_⟩,
        ⟨hexplained, hconvention, rfl, rfl, rfl, rfl⟩⟩
      rw [← hevidence]
      rfl
    · -- the entry returned: the counters are read before the door is drained
      have hgoes : (Story.activation budget toolDoor call.entry 0).2 = true := hok.symm
      obtain ⟨hok', hholds'⟩ := tells_readCounters convention call _ door hholds
      rw [← produced_append] at hholds'
      have hstory : call.story budget toolDoor convention 0
          = ((Story.activation budget toolDoor call.entry 0).1 ++
              (Story.probes budget toolDoor convention call.probes
                (produced budget (Story.activation budget toolDoor call.entry 0).1).ops).1,
            (Story.probes budget toolDoor convention call.probes
                (produced budget (Story.activation budget toolDoor call.entry 0).1).ops).2) := by
        rw [Call.story, Story.followedBy]
        dsimp only
        rw [if_pos hgoes, Nat.zero_add]
      have hstory₁ := congrArg Prod.fst hstory
      have hstory₂ := congrArg Prod.snd hstory
      dsimp only at hstory₁ hstory₂
      rw [← hperformed] at hstory₁
      have hreached : Holds budget toolDoor
          (produced budget (call.performed budget toolDoor convention))
          (readCounters budget convention call true door).2 := by
        rw [hstory₁]
        exact hholds'
      rw [← hstory₂] at hok'
      rcases hread : readCounters budget convention call true door with
        ⟨error | counters, door'⟩ <;> rw [hread] at hok' hreached
      · -- a counter failed, and the door was not drained
        have hlost : call.counterFails budget toolDoor convention = true := by
          have hstopped : (call.story budget toolDoor convention 0).2 = false := hok'.symm
          rw [Call.counterFails, hrefused, hgoes, hstopped]
          rfl
        rw [hkept hlost] at hreached
        have hcall : engine.slot.call lossy budget call
            = (.error error, { engine.slot with door := door' }) := by
          unfold Slot.call
          rw [hrefused]
          dsimp only
          rw [hentry, hconvention]
          dsimp only [Except.isOk, Except.toBool]
          rw [hread]
        exact own_of_silent hcall ⟨hreached, hconvention, hidle.failedStdout,
          hidle.failedStdoutTruncated, hidle.failedToolCalls, hidle.failedCost⟩
      · obtain ⟨hevidence, hdrained⟩ := drain_holds lossy hreached
        cases hvalues : returnedValues convention call returned with
        | error error =>
          have hcall : engine.slot.call lossy budget call
              = (.error error, { engine.slot with door := (drain lossy door').2 }) := by
            unfold Slot.call
            rw [hrefused]
            dsimp only
            rw [hentry, hconvention]
            dsimp only [Except.isOk, Except.toBool]
            rw [hread]
            dsimp only
            rw [hvalues]
          exact own_of_silent hcall ⟨hdrained, hconvention, hidle.failedStdout,
            hidle.failedStdoutTruncated, hidle.failedToolCalls, hidle.failedCost⟩
        | ok values =>
          have hanswer : engine.call lossy budget call = (.ok {
              values := values
              stdout := (drain lossy door').1.stdout
              truncatedStdout := (drain lossy door').1.truncatedStdout
              toolCalls := (drain lossy door').1.toolCalls
              measured := { call.measured with trapFunctionIndex := none }
              hostOps := (drain lossy door').1.bill.1
              hostBytes := (drain lossy door').1.bill.2.1
              waitedMs := (drain lossy door').1.bill.2.2
              counters := counters
              heapStartBytes := engine.slot.heapStartBytes },
              .new { engine.slot with door := (drain lossy door').2 }) := by
            unfold Engine.call Slot.call
            rw [hrefused]
            dsimp only
            rw [hentry, hconvention]
            dsimp only [Except.isOk, Except.toBool]
            rw [hread]
            dsimp only
            rw [hvalues]
          rw [hanswer]
          refine ⟨⟨fun _ _ => ?_, fun _ => nofun⟩, ⟨hdrained, hconvention, hidle.failedStdout,
            hidle.failedStdoutTruncated, hidle.failedToolCalls, hidle.failedCost⟩⟩
          rw [← hevidence]
          rfl

/-! ## Load, and every sequence of calls -/

/-- A new door holds nothing. -/
lemma holds_install : Holds budget toolDoor .nothing (.install budget toolDoor) := by
  refine ⟨rfl, rfl, ?_, take_nil.symm, rfl, ?_, rfl, rfl⟩
  · cases toolDoor <;> rfl
  · cases toolDoor <;> rfl

/-- A slot whose guest produced nothing while it was loaded is idle. -/
theorem load_idle {load : Load} {slot : Slot}
    (hload : Slot.load budget convention toolDoor load = .ok slot)
    (hquiet : load.performed budget toolDoor convention = []) :
    Idle budget toolDoor convention slot := by
  unfold Slot.load at hload
  cases hrefused : load.refused with
  | some error =>
    rw [hrefused] at hload
    cases hload
  | none =>
    rw [hrefused] at hload
    dsimp only at hload
    have hinvoke : (load.start.invoke budget (.install budget toolDoor)).1.isOk
        = (Story.activation budget toolDoor load.start 0).2 ∧
        Holds budget toolDoor (produced budget (Story.activation budget toolDoor load.start 0).1)
          (load.start.invoke budget (.install budget toolDoor)).2 := by
      have hnew : Holds budget toolDoor .nothing (.install budget toolDoor) := holds_install
      have htells := tells_invoke load.start .nothing _ hnew
      rw [Produced.nothing_and] at htells
      exact htells
    obtain ⟨hok, hholds⟩ := hinvoke
    rcases hstart : load.start.invoke budget (.install budget toolDoor) with
      ⟨fault | values, door⟩ <;> rw [hstart] at hload hok hholds
    · cases hload
    · have hgoes : (Story.activation budget toolDoor load.start 0).2 = true := hok.symm
      have hcounter := (tells_allocationCounter convention load.waterline _ door hholds).2
      rw [← produced_append] at hcounter
      have hperformed : load.performed budget toolDoor convention
          = (Story.activation budget toolDoor load.start 0).1 ++
            (Story.probe budget toolDoor convention load.waterline
              (produced budget (Story.activation budget toolDoor load.start 0).1).ops).1 := by
        rw [Load.performed, Story.followedBy]
        dsimp only
        rw [if_pos hgoes, Nat.zero_add]
      rw [← hperformed, hquiet] at hcounter
      rcases hread : allocationCounter budget convention load.waterline door with
        ⟨error | heapStartBytes, door'⟩ <;> rw [hread] at hcounter <;> dsimp only at hload <;>
        rw [hread] at hload
      · cases hload
      · have hslot := Except.ok.inj hload
        rw [← hslot]
        exact ⟨hcounter, rfl, rfl, rfl, rfl, rfl⟩

/-- The engine after one more call. -/
def Engine.next (lossy : List UInt8 → String) (budget : Budget) (engine : Engine) (call : Call) :
    Engine :=
  (engine.call lossy budget call).2

/-- Evidence belongs to its own call: in every sequence of calls on a slot whose guest produced
nothing at load, where no counter fails after a call that produced something, each call starts
with the full allowance and reports what the guest performed during it. -/
theorem call_evidence (lossy : List UInt8 → String) (budget : Budget) (toolDoor : Bool)
    (convention : Convention) (load : Load) (slot : Slot)
    (hload : Slot.load budget convention toolDoor load = .ok slot)
    (hquiet : load.performed budget toolDoor convention = []) (calls : List Call)
    (hkept : ∀ call ∈ calls, call.counterFails budget toolDoor convention = true →
      call.performed budget toolDoor convention = []) (before after : List Call) (call : Call)
    (hcalls : calls = before ++ call :: after) :
    (run (Engine.next lossy budget) (.new slot) before).slot.door.meter.ops = 0 ∧
      (run (Engine.next lossy budget) (.new slot) before).slot.door.meter.maxOps
        = budget.maxHostOps ∧
      OwnEvidence lossy budget toolDoor convention call
        ((run (Engine.next lossy budget) (.new slot) before).call lossy budget call) := by
  subst hcalls
  have hidle : Idle budget toolDoor convention
      (run (Engine.next lossy budget) (.new slot) before).slot := by
    have hstep (engine : Engine) (op : Call) (hop : op ∈ before)
        (h : Idle budget toolDoor convention engine.slot) :
        Idle budget toolDoor convention (engine.next lossy budget op).slot :=
      (call_own lossy h (hkept op (mem_append_left _ hop))).2
    exact run_invariant_mem
      (P := fun engine : Engine => Idle budget toolDoor convention engine.slot) hstep
      (load_idle hload hquiet)
  have hmem : call ∈ before ++ call :: after := mem_append_right _ mem_cons_self
  exact ⟨hidle.door.ops, hidle.door.maxOps, (call_own lossy hidle (hkept call hmem)).1⟩

end

/-! ## A module that prints at load -/

/-- A small budget. -/
def smallBudget : Budget := ⟨4, 64, 64⟩

/-- A function of the guest that does nothing. -/
def quiet : Activation := ⟨[], .ok []⟩

/-- A start function that prints one letter. -/
def noisyStart : Load := ⟨none, ⟨[.print [0x78]], .ok []⟩, .ok none⟩

/-- A call of a function that does nothing. -/
def quietCall : Call where
  refused := none
  entry := quiet
  measured := ⟨0, 0, 0, 0, none⟩
  waterline := .ok none
  jsonParse := .ok none
  jsonStringify := .ok none
  immediateStringify := .ok none
  recorded := none
  js := .ok .undefined

/-- The bytes of an ASCII text. -/
def ascii (bytes : List UInt8) : String := String.ofList (bytes.map fun b => Char.ofNat b.toNat)

/-- A call of a function that prints one letter, with a heap counter that cannot be read. -/
def noisyCall : Call :=
  { quietCall with
    entry := ⟨[.print [0x78]], .ok []⟩
    waterline := .ok (some ⟨[], .error (.trap "unreachable")⟩) }

/-- The slot of a module whose start function does nothing. -/
def quietSlot (convention : Convention) : Slot :=
  ⟨.install smallBudget false, convention, "", false, [], none, none⟩

/-- The second of two calls, the first of which printed. -/
theorem call_evidence_quiet :
    (run (Engine.next ascii smallBudget) (.new (quietSlot .wasm)) [noisyCall]).slot.door.meter.ops
        = 0 ∧
      (run (Engine.next ascii smallBudget) (.new (quietSlot .wasm))
        [noisyCall]).slot.door.meter.maxOps = smallBudget.maxHostOps ∧
      OwnEvidence ascii smallBudget false .wasm quietCall
        ((run (Engine.next ascii smallBudget) (.new (quietSlot .wasm)) [noisyCall]).call ascii
          smallBudget quietCall) :=
  call_evidence ascii smallBudget false .wasm ⟨none, quiet, .ok none⟩ (quietSlot .wasm) rfl rfl
    [noisyCall, quietCall] (by decide) [noisyCall] [] quietCall rfl

/-- What the start function printed is in the outcome of the first call; and what a call printed
whose counter failed is in the outcome of the next call. -/
theorem evidence_of_another_call :
    (∃ slot, Slot.load smallBudget .wasm false noisyStart = .ok slot ∧
      ¬ OwnEvidence ascii smallBudget false .wasm quietCall
        ((Engine.new slot).call ascii smallBudget quietCall)) ∧
      ¬ OwnEvidence ascii smallBudget false .jsV1 quietCall
        (((Engine.new (quietSlot .jsV1)).next ascii smallBudget noisyCall).call ascii smallBudget
          quietCall) := by
  refine ⟨⟨_, rfl, fun h => ?_⟩, fun h => ?_⟩
  · have hevidence := h.outcome _ rfl
    exact absurd hevidence (by decide)
  · have hevidence := h.outcome _ rfl
    exact absurd hevidence (by decide)

end Agenterm.Qjswasm
