import Agenterm.Common
import Agenterm.Lib.Layout
import Agenterm.Lib.LittleEndian

/-!
# The bytecode of the chassis

The instruction set of `bytecode.rs`, its assembler and its decoder. `assemble` turns a list of
operations, whose jumps name operations by index and whose calls name capabilities, into bytes,
where jumps name byte offsets and calls name entries of the capability table. `decode` reads bytes
from any origin, and refuses those that are not a sequence of whole instructions.
-/

namespace Agenterm

open Std Lib

namespace Chassis

def maxOps : Nat := 4096

def maxCaps : Nat := 256

inductive Op where
  | pushI64
  | add
  | sub
  | eq
  | not
  | jump
  | jumpIfZero
  | callCap
  | ret
  | halt
deriving DecidableEq

namespace Op

/-- `kind as u8`. -/
def toU8 : Op → UInt8
  | .pushI64 => 0
  | .add => 1
  | .sub => 2
  | .eq => 3
  | .not => 4
  | .jump => 5
  | .jumpIfZero => 6
  | .callCap => 7
  | .ret => 8
  | .halt => 9

def fromU8 (raw : UInt8) : Option Op :=
  match raw.toNat with
  | 0 => some .pushI64
  | 1 => some .add
  | 2 => some .sub
  | 3 => some .eq
  | 4 => some .not
  | 5 => some .jump
  | 6 => some .jumpIfZero
  | 7 => some .callCap
  | 8 => some .ret
  | 9 => some .halt
  | _ => none

/-- The size of an instruction: its opcode and its operand. -/
def encodedLen : Op → Nat
  | .pushI64 | .jump | .jumpIfZero => 1 + 8
  | .callCap => 1 + 1
  | .add | .sub | .eq | .not | .ret | .halt => 1

/-- The name in error messages (`{op:?}`). -/
def debugName : Op → String
  | .pushI64 => "PushI64"
  | .add => "Add"
  | .sub => "Sub"
  | .eq => "Eq"
  | .not => "Not"
  | .jump => "Jump"
  | .jumpIfZero => "JumpIfZero"
  | .callCap => "CallCap"
  | .ret => "Ret"
  | .halt => "Halt"

@[simp] lemma fromU8_toU8 (op : Op) : fromU8 op.toU8 = some op := by
  cases op <;> rfl

lemma encodedLen_pos (op : Op) : 0 < op.encodedLen := by
  cases op <;> decide

end Op

structure Program where
  code : List UInt8
  caps : List String
deriving DecidableEq

/-- A decoded instruction. Jumps name the instruction they go to by its index. -/
inductive Inst where
  | pushI64 (v : Int64)
  | add
  | sub
  | eq
  | not
  | jump (target : Nat)
  | jumpIfZero (target : Nat)
  | callCap (idx : UInt8)
  | ret
  | halt
deriving DecidableEq

/-- An operation of the source. Jumps name operations by index. -/
inductive IrOp where
  | push (v : Int64)
  | add
  | sub
  | eq
  | not
  | jump (t : Int64)
  | jumpIfZero (t : Int64)
  | call (name : String)
  | ret
  | halt
deriving DecidableEq

structure L2Source where
  caps : List String
  ops : List IrOp
deriving DecidableEq

/-! ## Operations as JSON -/

/-- `Value::as_i64`. -/
def asI64 : Value → Option Int64
  | .number n => if -2 ^ 63 ≤ n ∧ n < 2 ^ 63 then some (Int64.ofInt n) else none
  | _ => none

/-- `Value::as_str`. -/
def asStr : Value → Option String
  | .string s => some s
  | _ => none

def parseIrOp (cells : List Value) : Except String IrOp :=
  let operand := cells[1]?
  match cells.head?.bind asStr with
  | none => .error "op must start with a string name"
  | some name =>
    match name with
    | "push" | "push_i64" | "pushi64" =>
      match operand.bind asI64 with
      | some v => .ok (.push v)
      | none => .error "push requires an i64 operand"
    | "add" => .ok .add
    | "sub" => .ok .sub
    | "eq" => .ok .eq
    | "not" => .ok .not
    | "jump" | "jmp" =>
      match operand.bind asI64 with
      | some t => .ok (.jump t)
      | none => .error "jump requires an i64 target"
    | "jz" | "jump_if_zero" | "jumpifzero" =>
      match operand.bind asI64 with
      | some t => .ok (.jumpIfZero t)
      | none => .error "jump_if_zero requires an i64 target"
    | "call" | "call_cap" | "callcap" =>
      match operand.bind asStr with
      | some cap => .ok (.call cap)
      | none => .error "call requires a capability name"
    | "ret" => .ok .ret
    | "halt" => .ok .halt
    | other => .error ("unknown IR op `" ++ other ++ "`")

/-! ## The assembler -/

/-- What the first pass knows of an operation. -/
structure ParsedOp where
  kind : Op
  jumpIdx : Option Int64
  pushVal : Option Int64
  cap : Option UInt8
deriving DecidableEq

/-- The capability table by name; of a name that occurs twice the later index stays. -/
def capIndex (caps : List String) : TreeMap String UInt8 :=
  caps.zipIdx.foldl (fun index entry => index.insert entry.1 (UInt8.ofNat entry.2)) ∅

def parseOp (allowList : Option (List String)) (index : TreeMap String UInt8) (i : Nat) :
    IrOp → Except String ParsedOp
  | .push v => .ok ⟨.pushI64, none, some v, none⟩
  | .add => .ok ⟨.add, none, none, none⟩
  | .sub => .ok ⟨.sub, none, none, none⟩
  | .eq => .ok ⟨.eq, none, none, none⟩
  | .not => .ok ⟨.not, none, none, none⟩
  | .jump t => .ok ⟨.jump, some t, none, none⟩
  | .jumpIfZero t => .ok ⟨.jumpIfZero, some t, none, none⟩
  | .call name =>
    if allowList.any fun allow => !allow.contains name then
      .error ("unknown cap name `" ++ name ++ "`")
    else
      match index[name]? with
      | none =>
        .error ("call `" ++ name ++ "` is not in the program cap table (op " ++ toString i ++ ")")
      | some idx => .ok ⟨.callCap, none, none, some idx⟩
  | .ret => .ok ⟨.ret, none, none, none⟩
  | .halt => .ok ⟨.halt, none, none, none⟩

/-- The byte offset a jump to the operation `target` is written with. -/
def jumpOffset (offsets : List Nat) (i : Nat) (target : Int64) : Except String Nat :=
  if target < 0 then
    .error ("jump target " ++ toString target ++ " is negative (op " ++ toString i ++ ")")
  else
    let idx := target.toInt.toNat
    match offsets[idx]? with
    | none =>
      .error ("jump target " ++ toString idx ++ " is out of range (op " ++ toString i ++ ", "
        ++ toString offsets.length ++ " ops)")
    | some offset => .ok offset

/-- The bytes of an operation: its opcode, then its operand. -/
def emitOp (offsets : List Nat) (i : Nat) (op : ParsedOp) : Except String (List UInt8) :=
  match op.kind with
  | .pushI64 =>
    match op.pushVal with
    | none => .error ("internal: missing push immediate (op " ++ toString i ++ ")")
    | some v => .ok (op.kind.toU8 :: int64ToLeBytes v)
  | .jump | .jumpIfZero =>
    match op.jumpIdx with
    | none => .error ("internal: missing jump target (op " ++ toString i ++ ")")
    | some target => do
      let offset ← jumpOffset offsets i target
      .ok (op.kind.toU8 :: int64ToLeBytes (Int64.ofNat offset))
  | .callCap =>
    match op.cap with
    | none => .error ("internal: missing cap index (op " ++ toString i ++ ")")
    | some idx => .ok [op.kind.toU8, idx]
  | .add | .sub | .eq | .not | .ret | .halt => .ok [op.kind.toU8]

/-- The first name of the capability table that is not on the list. -/
def unknownCap (allowList : Option (List String)) (caps : List String) : Option String :=
  allowList.bind fun allow => caps.find? fun name => !allow.contains name

def assemble (source : L2Source) (allowList : Option (List String)) : Except String Program :=
  if source.ops.length > maxOps then
    .error ("program has " ++ toString source.ops.length ++ " ops; max is " ++ toString maxOps)
  else if source.caps.length > maxCaps then
    .error ("program has " ++ toString source.caps.length ++ " caps; max is " ++ toString maxCaps)
  else
    match unknownCap allowList source.caps with
    | some name => .error ("unknown cap name `" ++ name ++ "`")
    | none => do
      let index := capIndex source.caps
      let parsed ← source.ops.zipIdx.mapM fun (op, i) => parseOp allowList index i op
      let offsets := offsetsFrom 0 (parsed.map fun op => op.kind.encodedLen)
      let chunks ← parsed.zipIdx.mapM fun (op, i) => emitOp offsets i op
      .ok { code := chunks.flatten, caps := source.caps }

/-! ## The decoder

`none` is a panic: an index or a range outside the bytes. -/

/-- `code[low..high]`. -/
def slice (code : List UInt8) (low high : Nat) : Option (List UInt8) :=
  if low ≤ high ∧ high ≤ code.length then some ((code.drop low).take (high - low)) else none

/-- The first loop of `decode`: where instructions start, from byte `i` on. -/
def instructionStarts (code : List UInt8) (i : Nat) : Except String (List Nat) :=
  match _hbyte : code[i]? with
  | none => .ok []
  | some byte =>
    match Op.fromU8 byte with
    | none => .error ("unknown opcode " ++ toString byte ++ " at " ++ toString i)
    | some op =>
      if i + op.encodedLen > code.length then
        .error ("truncated operand for " ++ op.debugName ++ " at " ++ toString i)
      else do
        let starts ← instructionStarts code (i + op.encodedLen)
        .ok (i :: starts)
termination_by code.length - i
decreasing_by
  have hlt := (List.getElem?_eq_some_iff.mp _hbyte).1
  have hpos := op.encodedLen_pos
  omega

def readJumpTarget (code : List UInt8) (start : Nat) (starts : List Nat) :
    Option (Except String Nat) := do
  let operand ← slice code (start + 1) (start + 9)
  let off := int64OfLeBytes operand
  if off < 0 then
    some (.error ("bad jump: negative offset " ++ toString off ++ " at " ++ toString start))
  else
    let off := off.toInt.toNat
    match starts.findIdx? fun s => s = off with
    | some position => some (.ok position)
    | none =>
      some (.error ("bad jump: offset " ++ toString off ++ " is not an instruction boundary (at "
        ++ toString start ++ ")"))

/-- One round of the second loop of `decode`. -/
def decodeInst (code : List UInt8) (starts : List Nat) (start : Nat) :
    Option (Except String Inst) := do
  let byte ← code[start]?
  match Op.fromU8 byte with
  | none => some (.error ("unknown opcode " ++ toString byte ++ " at " ++ toString start))
  | some .pushI64 =>
    let operand ← slice code (start + 1) (start + 9)
    some (.ok (.pushI64 (int64OfLeBytes operand)))
  | some .add => some (.ok .add)
  | some .sub => some (.ok .sub)
  | some .eq => some (.ok .eq)
  | some .not => some (.ok .not)
  | some .jump =>
    let target ← readJumpTarget code start starts
    some (target.map .jump)
  | some .jumpIfZero =>
    let target ← readJumpTarget code start starts
    some (target.map .jumpIfZero)
  | some .callCap =>
    let idx ← code[start + 1]?
    some (.ok (.callCap idx))
  | some .ret => some (.ok .ret)
  | some .halt => some (.ok .halt)

/-- The second loop of `decode`; it ends at the first instruction that is refused. -/
def decodeInsts (code : List UInt8) (starts : List Nat) :
    List Nat → Option (Except String (List Inst))
  | [] => some (.ok [])
  | start :: rest => do
    match ← decodeInst code starts start with
    | .error error => some (.error error)
    | .ok inst =>
      let insts ← decodeInsts code starts rest
      some (insts.map fun insts => inst :: insts)

def decode (code : List UInt8) : Option (Except String (List Inst)) :=
  match instructionStarts code 0 with
  | .error error => some (.error error)
  | .ok starts => decodeInsts code starts starts

end Chassis

end Agenterm
