import Agenterm.Chassis.Vm
import Agenterm.Lib.Checks

/-!
# The assembler is correct

`translate` says which instruction an operation becomes. Decoding the bytes of an accepted source
gives the translated operations (`Assembles.decode_eq`): the first loop of the decoder stops at the
offsets the assembler computed (`instructionStarts_flatten`), and at each of them it reads the
operation that was written there (`decodeInst_emitted`). A translated operation executes as the
operation itself (`execInst_translates`), so running the bytes is running the source
(`assemble_correct`).
-/

namespace Agenterm

open Std List Option Lib

variable {caps : List String} {chunk code : List UInt8} {chunks : List (List UInt8)}
  {i offset : Nat} {insts : List Inst} {offsets : List Nat} {op : IrOp}

namespace Chassis

/-- An instruction stands for an operation of a program with this capability table. -/
inductive Translates (caps : List String) : IrOp → Inst → Prop where
  | push (v : Int64) : Translates caps (.push v) (.pushI64 v)
  | add : Translates caps .add .add
  | sub : Translates caps .sub .sub
  | eq : Translates caps .eq .eq
  | not : Translates caps .not .not
  | jump (t : Int64) : Translates caps (.jump t) (.jump t.toInt.toNat)
  | jumpIfZero (t : Int64) : Translates caps (.jumpIfZero t) (.jumpIfZero t.toInt.toNat)
  | call {name : String} {idx : UInt8} (h : caps[idx.toNat]? = some name) :
      Translates caps (.call name) (.callCap idx)
  | ret : Translates caps .ret .ret
  | halt : Translates caps .halt .halt

/-- The instruction that an operation becomes. -/
def translate (index : TreeMap String UInt8) : IrOp → Inst
  | .push v => .pushI64 v
  | .add => .add
  | .sub => .sub
  | .eq => .eq
  | .not => .not
  | .jump t => .jump t.toInt.toNat
  | .jumpIfZero t => .jumpIfZero t.toInt.toNat
  | .call name => .callCap (index[name]?.getD 0)
  | .ret => .ret
  | .halt => .halt

/-! ## The capability table -/

lemma foldl_insert_eq_some {entries : List (String × Nat)} {index : TreeMap String UInt8}
    {name : String} {idx : UInt8}
    (h : (entries.foldl (fun index entry => index.insert entry.1 (UInt8.ofNat entry.2)) index)[name]?
      = some idx) :
    (∃ i, (name, i) ∈ entries ∧ idx = UInt8.ofNat i) ∨ index[name]? = some idx := by
  induction entries generalizing index with
  | nil => exact .inr h
  | cons entry entries ih =>
    rcases ih h with ⟨i, hi, hidx⟩ | hinserted
    · exact .inl ⟨i, mem_cons_of_mem _ hi, hidx⟩
    · rw [TreeMap.getElem?_insert] at hinserted
      split at hinserted
      · rename_i hsame
        cases hinserted
        have hname : entry.1 = name := LawfulEqCmp.eq_of_compare hsame
        exact .inl ⟨entry.2, hname ▸ mem_cons_self, rfl⟩
      · exact .inr hinserted

/-- The index of a name is that of an entry with this name. -/
lemma capIndex_eq_some (hcaps : caps.length ≤ maxCaps) {name : String} {idx : UInt8}
    (h : (capIndex caps)[name]? = some idx) : caps[idx.toNat]? = some name := by
  unfold capIndex at h
  rcases foldl_insert_eq_some h with ⟨i, hi, rfl⟩ | hempty
  · have hget : caps[i]? = some name := mem_zipIdx_iff_getElem?.mp hi
    have hlt : i < caps.length := (List.getElem?_eq_some_iff.mp hget).1
    unfold maxCaps at hcaps
    -- the index fits into its byte
    have hbyte : (UInt8.ofNat i).toNat = i := by
      rw [UInt8.toNat_ofNat']
      omega
    rw [hbyte]
    exact hget
  · exact absurd hempty (by simp)

/-! ## Reading what was written -/

section
variable {code rest : List UInt8} {start : Nat} {byte : UInt8} {operand : List UInt8}

lemma getElem?_of_drop (h : code.drop start = byte :: operand ++ rest) :
    code[start]? = some byte := by
  rw [← Nat.add_zero start, ← List.getElem?_drop, h]
  rfl

lemma slice_of_drop (h : code.drop start = byte :: operand ++ rest)
    (hle : start + (byte :: operand).length ≤ code.length) (hlength : operand.length = 8) :
    slice code (start + 1) (start + 9) = some operand := by
  have hdrop : code.drop (start + 1) = operand ++ rest := by
    rw [← drop_drop, h]
    rfl
  rw [length_cons] at hle
  unfold slice
  rw [if_pos ⟨by omega, by omega⟩, hdrop, show start + 9 - (start + 1) = 8 by omega, ← hlength,
    take_left]

end

/-- The bytes of an operation: the opcode, and an operand of the length the opcode has. -/
structure Encodes (kind : Op) (chunk operand : List UInt8) : Prop where
  chunk_eq : chunk = kind.toU8 :: operand
  length_eq : chunk.length = kind.encodedLen

lemma emitOp_encodes {op : ParsedOp} (h : emitOp offsets i op = .ok chunk) :
    ∃ operand, Encodes op.kind chunk operand := by
  unfold emitOp at h
  split at h
  · rename_i hkind
    split at h
    · exact absurd h (by simp)
    · rename_i v _
      cases h
      exact ⟨int64ToLeBytes v, rfl, by rw [hkind]; simp [Op.encodedLen]⟩
  · rename_i hkind
    split at h
    · exact absurd h (by simp)
    · obtain ⟨offset, -, h⟩ := bind_eq_ok.mp h
      cases h
      exact ⟨_, rfl, by rw [hkind]; simp [Op.encodedLen]⟩
  · rename_i hkind
    split at h
    · exact absurd h (by simp)
    · obtain ⟨offset, -, h⟩ := bind_eq_ok.mp h
      cases h
      exact ⟨_, rfl, by rw [hkind]; simp [Op.encodedLen]⟩
  · rename_i hkind
    split at h
    · exact absurd h (by simp)
    · rename_i idx _
      cases h
      exact ⟨[idx], rfl, by rw [hkind]; rfl⟩
  all_goals
    rename_i hkind
    cases h
    exact ⟨[], rfl, by rw [hkind]; rfl⟩

/-- The first loop of the decoder stops at the starts of the chunks. -/
lemma instructionStarts_flatten (before : List UInt8)
    (h : ∀ chunk ∈ chunks, ∃ kind operand, Encodes kind chunk operand) :
    instructionStarts (before ++ chunks.flatten) before.length
      = .ok (offsetsFrom before.length (chunks.map List.length)) := by
  induction chunks generalizing before with
  | nil =>
    rw [instructionStarts]
    split
    · rfl
    · rename_i hbyte
      have hlt := (List.getElem?_eq_some_iff.mp hbyte).1
      simp at hlt
  | cons chunk chunks ih =>
    obtain ⟨kind, operand, henc⟩ := h chunk mem_cons_self
    have hrest := ih (before ++ chunk) fun c hc => h c (mem_cons_of_mem _ hc)
    rw [append_assoc, ← flatten_cons, length_append] at hrest
    have hdrop : (before ++ (chunk :: chunks).flatten).drop before.length
        = kind.toU8 :: operand ++ chunks.flatten := by
      rw [drop_left, flatten_cons, henc.chunk_eq]
    have hle : ¬ before.length + kind.encodedLen > (before ++ (chunk :: chunks).flatten).length := by
      rw [← henc.length_eq, length_append, flatten_cons, length_append]
      omega
    rw [instructionStarts]
    split
    · rename_i hbyte
      rw [getElem?_of_drop hdrop] at hbyte
      exact absurd hbyte (by simp)
    · rename_i byte hbyte
      rw [getElem?_of_drop hdrop, some.injEq] at hbyte
      subst hbyte
      rw [Op.fromU8_toU8]
      simp only
      rw [if_neg hle, ← henc.length_eq, hrest]
      rfl

lemma jumpOffset_eq_ok {target : Int64} (h : jumpOffset offsets i target = .ok offset) :
    offsets[target.toInt.toNat]? = some offset := by
  unfold jumpOffset at h
  split at h
  · exact absurd h (by simp)
  · dsimp only at h
    split at h
    · exact absurd h (by simp)
    · rename_i hget
      rw [hget, Except.ok.inj h]

/-- An offset that was written for a jump is read back as the index it was computed from. -/
lemma readJumpTarget_written {start : Nat} {target : Int64}
    (hincreasing : offsets.Pairwise (· < ·)) (hsmall : ∀ o ∈ offsets, o < 2 ^ 63)
    (hjump : jumpOffset offsets i target = .ok offset)
    (hslice : slice code (start + 1) (start + 9)
      = some (int64ToLeBytes (Int64.ofNat offset))) :
    readJumpTarget code start offsets = some (.ok target.toInt.toNat) := by
  have hget := jumpOffset_eq_ok hjump
  have hlt := hsmall offset (mem_of_getElem? hget)
  have hint : (Int64.ofNat offset).toInt = offset := Int64.toInt_ofNat_of_lt hlt
  have hnonneg : ¬ Int64.ofNat offset < 0 := by
    rw [Int64.lt_iff_toInt_lt, hint]
    exact Int.not_lt.mpr (Int.natCast_nonneg offset)
  unfold readJumpTarget
  rw [hslice, bind_eq_bind, bind_some]
  simp only [int64OfLeBytes_toLeBytes, if_neg hnonneg, hint, Int.toNat_natCast,
    findIdx?_increasing hincreasing hget]

/-- At the place where an operation was written, the decoder reads the translated operation. -/
lemma decodeInst_emitted {allow : Option (List String)} {index : TreeMap String UInt8}
    {parsed : ParsedOp} {rest : List UInt8} {start : Nat} (hincreasing : offsets.Pairwise (· < ·))
    (hsmall : ∀ o ∈ offsets, o < 2 ^ 63) (hparse : parseOp allow index i op = .ok parsed)
    (hemit : emitOp offsets i parsed = .ok chunk) (hdrop : code.drop start = chunk ++ rest)
    (hle : start + chunk.length ≤ code.length) :
    decodeInst code offsets start = some (.ok (translate index op)) := by
  obtain ⟨operand, henc⟩ := emitOp_encodes hemit
  rw [henc.chunk_eq] at hdrop
  have hbyte := getElem?_of_drop hdrop
  have hslice (h8 : operand.length = 8) : slice code (start + 1) (start + 9) = some operand :=
    slice_of_drop hdrop (by rw [← henc.chunk_eq]; exact hle) h8
  have hjump {kind : Op} {t : Int64} (hkind : kind = .jump ∨ kind = .jumpIfZero)
      (h : emitOp offsets i ⟨kind, some t, none, none⟩ = .ok (kind.toU8 :: operand)) :
      readJumpTarget code start offsets = some (.ok t.toInt.toNat) := by
    have hwritten : ∃ offset, jumpOffset offsets i t = .ok offset ∧
        kind.toU8 :: int64ToLeBytes (Int64.ofNat offset) = kind.toU8 :: operand := by
      rcases hkind with rfl | rfl <;>
      · obtain ⟨offset, hoffset, hchunk⟩ := bind_eq_ok.mp h
        exact ⟨offset, hoffset, Except.ok.inj hchunk⟩
    obtain ⟨offset, hoffset, hoperand⟩ := hwritten
    obtain rfl : int64ToLeBytes (Int64.ofNat offset) = operand := (List.cons.inj hoperand).2
    exact readJumpTarget_written hincreasing hsmall hoffset
      (hslice (length_int64ToLeBytes _))
  unfold decodeInst
  rw [hbyte, bind_eq_bind, bind_some, Op.fromU8_toU8]
  have hchunk := henc.chunk_eq
  subst hchunk
  cases op with
  | push v =>
    cases hparse
    obtain rfl : int64ToLeBytes v = operand := (List.cons.inj (Except.ok.inj hemit)).2
    simp [hslice (length_int64ToLeBytes v), int64OfLeBytes_toLeBytes, translate]
  | jump t =>
    cases hparse
    simp [hjump (.inl rfl) hemit, translate, Except.map]
  | jumpIfZero t =>
    cases hparse
    simp [hjump (.inr rfl) hemit, translate, Except.map]
  | call name =>
    rw [parseOp, ite_error_eq_ok] at hparse
    obtain ⟨-, hparse⟩ := hparse
    split at hparse
    · exact absurd hparse (by simp)
    · rename_i idx hidx
      cases hparse
      obtain rfl : [idx] = operand := (List.cons.inj (Except.ok.inj hemit)).2
      -- the operand is the byte behind the opcode
      have hnext : code[start + 1]? = some idx := by
        rw [← List.getElem?_drop, hdrop]
        rfl
      simp [hnext, translate, hidx]
  | add | sub | eq | not | ret | halt =>
    cases hparse
    rfl

lemma decodeInsts_eq {starts rounds : List Nat}
    (h : List.Forall₂ (fun start inst => decodeInst code starts start = some (.ok inst))
      rounds insts) : decodeInsts code starts rounds = some (.ok insts) := by
  induction h with
  | nil => rfl
  | cons hinst hrest ih =>
    rw [decodeInsts, hinst]
    simp [ih, Except.map]

/-! ## Whole programs -/

section
variable {source : L2Source} {allow : Option (List String)} {program : Program}

/-- What the assembler checked and computed for a source it accepts. -/
structure Assembles (source : L2Source) (allow : Option (List String)) (program : Program)
    (parsed : List ParsedOp) (chunks : List (List UInt8)) : Prop where
  ops_le : source.ops.length ≤ maxOps
  caps_le : source.caps.length ≤ maxCaps
  allowed : unknownCap allow source.caps = none
  parse : (source.ops.zipIdx.mapM fun (op, i) => parseOp allow (capIndex source.caps) i op)
    = .ok parsed
  emit : (parsed.zipIdx.mapM fun (op, i) =>
    emitOp (offsetsFrom 0 (parsed.map fun op : ParsedOp => op.kind.encodedLen)) i op)
      = .ok chunks
  code_eq : program.code = chunks.flatten
  caps_eq : program.caps = source.caps

lemma assembles_of_ok (h : assemble source allow = .ok program) :
    ∃ parsed chunks, Assembles source allow program parsed chunks := by
  unfold assemble at h
  rw [ite_error_eq_ok, ite_error_eq_ok] at h
  obtain ⟨hops, hcaps, h⟩ := h
  split at h
  · exact absurd h (by simp)
  · rename_i hallowed
    obtain ⟨parsed, hparse, h⟩ := bind_eq_ok.mp h
    obtain ⟨chunks, hemit, h⟩ := bind_eq_ok.mp h
    cases h
    exact ⟨parsed, chunks, by omega, by omega, hallowed, hparse, hemit, rfl, rfl⟩

namespace Assembles
variable {parsed : List ParsedOp} {chunks : List (List UInt8)}

lemma assemble_eq (h : Assembles source allow program parsed chunks) :
    assemble source allow = .ok program := by
  have hops := h.ops_le
  have hcaps := h.caps_le
  unfold assemble
  rw [if_neg (by omega), if_neg (by omega), h.allowed]
  simp only [h.parse, h.emit, bind, Except.bind]
  exact congrArg Except.ok (by rw [← h.code_eq, ← h.caps_eq])

/-- The sizes the assembler computed are those of what it wrote. -/
lemma sizes_eq (h : Assembles source allow program parsed chunks) :
    (parsed.map fun op => op.kind.encodedLen) = chunks.map List.length := by
  obtain ⟨hlength, hemit⟩ := mapM_zipIdx_eq_ok h.emit
  refine ext_getElem? fun i => ?_
  rw [List.getElem?_map, List.getElem?_map]
  cases hi : parsed[i]? with
  | none =>
    rw [List.getElem?_eq_none_iff] at hi
    rw [List.getElem?_eq_none (by omega)]
    rfl
  | some op =>
    obtain ⟨chunk, hchunk, hop⟩ := hemit i op hi
    obtain ⟨operand, henc⟩ := emitOp_encodes hop
    rw [hchunk, map_some, map_some, henc.length_eq]

/-- Each written chunk is an opcode and its operand. -/
lemma encodes_of_mem (h : Assembles source allow program parsed chunks) (hmem : chunk ∈ chunks) :
    ∃ kind operand, Encodes kind chunk operand := by
  obtain ⟨hlength, hemit⟩ := mapM_zipIdx_eq_ok h.emit
  obtain ⟨i, hi⟩ := mem_iff_getElem?.mp hmem
  have hlt : i < parsed.length := by
    rw [← hlength]
    exact (List.getElem?_eq_some_iff.mp hi).1
  obtain ⟨chunk', hchunk', hop⟩ := hemit i parsed[i] (List.getElem?_eq_getElem hlt)
  rw [hi, some.injEq] at hchunk'
  subst hchunk'
  exact ⟨_, emitOp_encodes hop⟩

/-- The offsets are within a program of the largest size, so they fit into their operands. -/
lemma offsets_small (h : Assembles source allow program parsed chunks)
    (hmem : offset ∈ offsetsFrom 0 (parsed.map fun op => op.kind.encodedLen)) :
    offset < 2 ^ 63 := by
  have hsize : ∀ size ∈ parsed.map fun op => op.kind.encodedLen, size ≤ 9 := by
    intro size hsize
    obtain ⟨op, -, rfl⟩ := mem_map.mp hsize
    cases op.kind <;> decide
  have hle := offsetsFrom_le hsize hmem
  have hlength := (mapM_zipIdx_eq_ok h.parse).1
  have hops := h.ops_le
  rw [length_map, hlength] at hle
  unfold maxOps at hops
  omega

lemma offsets_increasing (parsed : List ParsedOp) :
    (offsetsFrom 0 (parsed.map fun op => op.kind.encodedLen)).Pairwise (· < ·) := by
  refine offsetsFrom_pairwise 0 fun size hsize => ?_
  obtain ⟨op, -, rfl⟩ := mem_map.mp hsize
  exact op.kind.encodedLen_pos

/-- Decoding finds the translated operations, in order. -/
lemma decode_eq (h : Assembles source allow program parsed chunks) :
    decode program.code
      = some (.ok (source.ops.map (translate (capIndex source.caps)))) := by
  have hstarts := instructionStarts_flatten [] fun _ hc => h.encodes_of_mem hc
  rw [nil_append, length_nil, ← h.sizes_eq, ← h.code_eq] at hstarts
  unfold decode
  rw [hstarts]
  refine decodeInsts_eq (forall₂_iff_get.mpr ⟨?_, fun i hi hi' => ?_⟩)
  · rw [length_offsetsFrom, length_map, length_map,
      (mapM_zipIdx_eq_ok h.parse).1]
  -- operation `i` was parsed, written, and starts at the offset computed for it
  · rw [length_map] at hi'
    obtain ⟨op, hop, hparse⟩ :=
      (mapM_zipIdx_eq_ok h.parse).2 i _ (List.getElem?_eq_getElem hi')
    obtain ⟨chunk, hchunk, hemit⟩ := (mapM_zipIdx_eq_ok h.emit).2 i op hop
    obtain ⟨offset, rest, hoffset, hdrop, hle⟩ := drop_offset [] hchunk
    rw [nil_append, ← h.code_eq] at hdrop hle
    rw [length_nil, ← h.sizes_eq] at hoffset
    have hget := (List.getElem?_eq_some_iff.mp hoffset).2
    simp only [get_eq_getElem, getElem_map, hget]
    exact decodeInst_emitted (offsets_increasing parsed) (fun _ ho => h.offsets_small ho) hparse
      hemit hdrop hle

/-- A call that was accepted is to an entry of the capability table. -/
lemma translates (h : Assembles source allow program parsed chunks) (hop : op ∈ source.ops) :
    Translates program.caps op (translate (capIndex source.caps) op) := by
  obtain ⟨i, hi⟩ := mem_iff_getElem?.mp hop
  obtain ⟨p, -, hparse⟩ := (mapM_zipIdx_eq_ok h.parse).2 i op hi
  cases op with
  | call name =>
    change parseOp allow (capIndex source.caps) i (.call name) = .ok p at hparse
    rw [parseOp, ite_error_eq_ok] at hparse
    obtain ⟨-, hparse⟩ := hparse
    split at hparse
    · exact absurd hparse (by simp)
    · rename_i idx hidx
      rw [translate, hidx, h.caps_eq]
      exact .call (capIndex_eq_some h.caps_le hidx)
  | push v => exact .push v
  | jump t => exact .jump t
  | jumpIfZero t => exact .jumpIfZero t
  | add => exact .add
  | sub => exact .sub
  | eq => exact .eq
  | not => exact .not
  | ret => exact .ret
  | halt => exact .halt

end Assembles

/-! ## Execution -/

variable {η : Type}

/-- A translated operation executes as the operation itself. -/
lemma execInst_translates {inst : Inst} (h : Translates caps op inst) (host : CapHost η)
    (s : VmState η) : execInst caps host s inst = execOp host s op := by
  cases h with
  | call hcap => rw [execInst, hcap]; rfl
  | _ => rfl

lemma vmStep_translates {ops : List IrOp} (h : List.Forall₂ (Translates caps) ops insts)
    (host : CapHost η) : vmStep insts caps host = sourceStep ops host := by
  funext s
  have hlength := h.length_eq
  unfold vmStep sourceStep
  by_cases hpc : s.pc < ops.length
  · have hinst := (forall₂_iff_get.mp h).2 s.pc hpc (by omega)
    rw [List.getElem?_eq_getElem hpc, List.getElem?_eq_getElem (by omega)]
    exact execInst_translates hinst host s
  · rw [List.getElem?_eq_none (by omega), List.getElem?_eq_none (by omega)]

lemma capIndexError_translates {ops : List IrOp} (h : List.Forall₂ (Translates caps) ops insts) :
    capIndexError insts caps = none := by
  induction h with
  | nil => rfl
  | cons hinst hrest ih =>
    unfold capIndexError at ih ⊢
    rw [List.findSome?_cons]
    cases hinst with
    | call hcap =>
      have hlt := (List.getElem?_eq_some_iff.mp hcap).1
      simp only [ge_iff_le, if_neg (Nat.not_le.mpr hlt)]
      exact ih
    | _ => exact ih

/-- The operations of an accepted source, and what decoding its bytes finds. -/
lemma Assembles.forall₂_translates {parsed : List ParsedOp}
    (h : Assembles source allow program parsed chunks) :
    List.Forall₂ (Translates program.caps) source.ops
      (source.ops.map (translate (capIndex source.caps))) := by
  rw [forall₂_map_right_iff, forall₂_same]
  exact fun op hop => h.translates hop

/-- Running the bytes is running the source. -/
lemma Assembles.run_eq {parsed : List ParsedOp} (h : Assembles source allow program parsed chunks)
    (host : CapHost η) (start : η) (maxSteps : Nat) :
    run program host start maxSteps = some (runSource source host start maxSteps) := by
  unfold run runSource
  rw [h.decode_eq, bind_eq_bind, bind_some]
  simp only [capIndexError_translates h.forall₂_translates, vmStep_translates h.forall₂_translates]

/-- Running the bytes of an accepted source is running the source: decoding finds the operations
with their targets and capabilities, and every host sees the same calls and every caller the same
result, within any budget. -/
theorem assemble_correct (h : assemble source allow = .ok program) :
    (∃ insts, decode program.code = some (.ok insts) ∧
      List.Forall₂ (Translates program.caps) source.ops insts) ∧
    (∀ (η : Type) (host : CapHost η) (start : η) (maxSteps : Nat),
      run program host start maxSteps = some (runSource source host start maxSteps)) ∧
    ∀ (η : Type) (host : CapHost η) (start : η) (maxSteps : Nat),
      run program (recording host) (start, []) maxSteps
        = some (runSource source (recording host) (start, []) maxSteps) := by
  obtain ⟨parsed, chunks, hassembles⟩ := assembles_of_ok h
  exact ⟨⟨_, hassembles.decode_eq, hassembles.forall₂_translates⟩,
    fun η host start maxSteps => hassembles.run_eq host start maxSteps,
    fun η host start maxSteps => hassembles.run_eq (recording host) (start, []) maxSteps⟩

/-- Asks the host until it is ready. -/
def pollingSource : L2Source where
  caps := ["idle", "ready"]
  ops := [.call "ready", .jumpIfZero 0, .jump 4, .halt, .push 7, .ret]

theorem assemble_correct_polling :
    ∃ program, assemble pollingSource none = .ok program ∧
      (∃ insts, decode program.code = some (.ok insts) ∧
        List.Forall₂ (Translates program.caps) pollingSource.ops insts) ∧
      (∀ (η : Type) (host : CapHost η) (start : η) (maxSteps : Nat),
        run program host start maxSteps = some (runSource pollingSource host start maxSteps)) ∧
      ∀ (η : Type) (host : CapHost η) (start : η) (maxSteps : Nat),
        run program (recording host) (start, []) maxSteps
          = some (runSource pollingSource (recording host) (start, []) maxSteps) := by
  have h : assemble pollingSource none = .ok
      { code := [7, 1, 6, 0, 0, 0, 0, 0, 0, 0, 0, 5, 21, 0, 0, 0, 0, 0, 0, 0, 9,
          0, 7, 0, 0, 0, 0, 0, 0, 0, 8],
        caps := ["idle", "ready"] } := by decide
  exact ⟨_, h, assemble_correct h⟩

end

end Chassis

end Agenterm
