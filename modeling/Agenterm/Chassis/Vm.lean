import Agenterm.Chassis.Bytecode
import Agenterm.Lib.Budget

/-!
# The bytecode interpreter

`run` of `vm.rs`: it decodes the whole program, checks the capability indices, and then executes
at most the budgeted number of instructions. Effects go through the host, which answers calls by
name and may change its own state.

`runSource` is what a program means before it is assembled: its operations are executed as they
stand, with jump targets as indices of operations and capabilities by name.
-/

namespace Agenterm

namespace Chassis

open Lib (Progress)

def maxStack : Nat := 256

def defaultMaxSteps : Nat := 1000000

/-- The trait `CapHost`: a call answers, and leaves the host in a new state. -/
def CapHost (η : Type) : Type := η → String → Except String Int64 × η

/-! ## The operand stack -/

/-- Pushes a value; the top of the stack is the head of the list. -/
def push (stack : List Int64) (value : Int64) : Except String (List Int64) :=
  if stack.length ≥ maxStack then
    .error ("stack overflow (" ++ toString maxStack ++ " slots)")
  else
    .ok (value :: stack)

def pop : List Int64 → Except String (Int64 × List Int64)
  | [] => .error "stack underflow"
  | value :: stack => .ok (value, stack)

/-- Replaces the two topmost values `a` and `b`, with `b` on top, by `f a b`. -/
def binary (f : Int64 → Int64 → Int64) (stack : List Int64) : Except String (List Int64) := do
  let (b, stack) ← pop stack
  let (a, stack) ← pop stack
  push stack (f a b)

def unary (f : Int64 → Int64) (stack : List Int64) : Except String (List Int64) := do
  let (a, stack) ← pop stack
  push stack (f a)

/-- `i64::from` of a comparison. -/
def truth (b : Bool) : Int64 := if b then 1 else 0

/-! ## Execution -/

section
variable {η : Type}

structure VmState (η : Type) where
  stack : List Int64
  pc : Nat
  host : η

/-- The result of a program, and the host it leaves. -/
abbrev VmResult (η : Type) : Type := Except String Int64 × η

abbrev VmProgress (η : Type) : Type := Progress (VmState η) (VmResult η)

namespace VmState

def start (host : η) : VmState η := { stack := [], pc := 0, host }

/-- Goes on at `pc` with the new stack, or stops with its error. -/
def withStack (s : VmState η) (stack : Except String (List Int64)) (pc : Nat) : VmProgress η :=
  match stack with
  | .error error => .stop (.error error, s.host)
  | .ok stack => .next { s with stack, pc }

/-- Takes the top of the stack, and goes to `target` if it is zero. -/
def branch (s : VmState η) (target : Nat) : VmProgress η :=
  match pop s.stack with
  | .error error => .stop (.error error, s.host)
  | .ok (a, stack) => .next { s with stack, pc := if a = 0 then target else s.pc + 1 }

/-- Calls the host, and pushes its answer. -/
def callHost (s : VmState η) (host : CapHost η) (name : String) : VmProgress η :=
  match host s.host name with
  | (.error error, h) => .stop (.error error, h)
  | (.ok value, h) => { s with host := h }.withStack (push s.stack value) (s.pc + 1)

/-- The top of the stack, or zero. -/
def answer (s : VmState η) : VmProgress η := .stop (.ok (s.stack.head?.getD 0), s.host)

end VmState

def capOutOfRange (idx : UInt8) : String :=
  "CallCap index " ++ toString idx ++ " is out of range"

def execInst (caps : List String) (host : CapHost η) (s : VmState η) : Inst → VmProgress η
  | .pushI64 v => s.withStack (push s.stack v) (s.pc + 1)
  | .add => s.withStack (binary (fun a b => a + b) s.stack) (s.pc + 1)
  | .sub => s.withStack (binary (fun a b => a - b) s.stack) (s.pc + 1)
  | .eq => s.withStack (binary (fun a b => truth (a = b)) s.stack) (s.pc + 1)
  | .not => s.withStack (unary (fun a => truth (a = 0)) s.stack) (s.pc + 1)
  | .jump target => .next { s with pc := target }
  | .jumpIfZero target => s.branch target
  | .callCap idx =>
    match caps[idx.toNat]? with
    | none => .stop (.error (capOutOfRange idx), s.host)
    | some name => s.callHost host name
  | .ret | .halt => s.answer

def pastTheEnd (pc : Nat) : String :=
  "program counter " ++ toString pc ++ " is past the last instruction"

/-- One round of the loop of `run`, without the count of the steps. -/
def vmStep (insts : List Inst) (caps : List String) (host : CapHost η) (s : VmState η) :
    VmProgress η :=
  match insts[s.pc]? with
  | none => .stop (.error (pastTheEnd s.pc), s.host)
  | some inst => execInst caps host s inst

def budgetExceeded (maxSteps : Nat) (s : VmState η) : VmResult η :=
  (.error ("step budget exceeded (" ++ toString maxSteps ++ ")"), s.host)

/-- The first capability index that the table does not have. -/
def capIndexError (insts : List Inst) (caps : List String) : Option String :=
  insts.findSome? fun
    | .callCap idx => if idx.toNat ≥ caps.length then some (capOutOfRange idx) else none
    | _ => none

/-- Runs a program; `none` is a panic. -/
def run (program : Program) (host : CapHost η) (h : η) (maxSteps : Nat) : Option (VmResult η) := do
  match ← decode program.code with
  | .error error => some (.error error, h)
  | .ok insts =>
    match capIndexError insts program.caps with
    | some error => some (.error error, h)
    | none =>
      some (Lib.runFor (vmStep insts program.caps host) (budgetExceeded maxSteps) maxSteps
        (VmState.start h))

/-! ## The source as a program -/

/-- Executes an operation of the source. -/
def execOp (host : CapHost η) (s : VmState η) : IrOp → VmProgress η
  | .push v => s.withStack (push s.stack v) (s.pc + 1)
  | .add => s.withStack (binary (fun a b => a + b) s.stack) (s.pc + 1)
  | .sub => s.withStack (binary (fun a b => a - b) s.stack) (s.pc + 1)
  | .eq => s.withStack (binary (fun a b => truth (a = b)) s.stack) (s.pc + 1)
  | .not => s.withStack (unary (fun a => truth (a = 0)) s.stack) (s.pc + 1)
  | .jump t => .next { s with pc := t.toInt.toNat }
  | .jumpIfZero t => s.branch t.toInt.toNat
  | .call name => s.callHost host name
  | .ret | .halt => s.answer

def sourceStep (ops : List IrOp) (host : CapHost η) (s : VmState η) : VmProgress η :=
  match ops[s.pc]? with
  | none => .stop (.error (pastTheEnd s.pc), s.host)
  | some op => execOp host s op

def runSource (source : L2Source) (host : CapHost η) (h : η) (maxSteps : Nat) : VmResult η :=
  Lib.runFor (sourceStep source.ops host) (budgetExceeded maxSteps) maxSteps (VmState.start h)

/-! ## Recording calls -/

/-- The host, with the names of the calls it was asked, the last one first. -/
def recording (host : CapHost η) : CapHost (η × List String) := fun (h, calls) name =>
  let (answer, h) := host h name
  (answer, h, name :: calls)

end

end Chassis

end Agenterm
