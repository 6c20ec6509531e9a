import Agenterm.Lib.Checks
import Agenterm.Lib.Utf8
import Agenterm.Text
import Agenterm.Ui.Bridge

/-!
# Interactions of a client with a terminal

`ui_client.rs` writes an interaction as the arguments of `ui-interact`: the action, then pairs of
an option and its value. `parse_ui_interaction` of `ui_interaction.rs` reads them back. Bytes are
written in hexadecimal.
-/

namespace Agenterm

open Lib.Utf8 List

def uiInputMaxBytes : Nat := 256 * 1024

inductive UiInteraction where
  | select (leaseId : String) (clientPid : UInt32) (tabId : UInt64)
  | input (leaseId : String) (clientPid : UInt32) (tabId : UInt64) (bytes : List UInt8)
  | paste (leaseId : String) (clientPid : UInt32) (tabId : UInt64) (bytes : List UInt8)
      (textBytes characters : Nat) (bracketed : Bool)
  | resize (leaseId : String) (clientPid : UInt32) (tabId : UInt64) (rows columns : UInt16)
deriving DecidableEq

def UiInteraction.action : UiInteraction → String
  | .select .. => "select"
  | .input .. => "input"
  | .paste .. => "paste"
  | .resize .. => "resize"

/-! ## The client -/

def hexAlphabet : List Char :=
  ['0', '1', '2', '3', '4', '5', '6', '7', '8', '9', 'a', 'b', 'c', 'd', 'e', 'f']

def encodeHex (bytes : List UInt8) : String :=
  String.ofList (bytes.flatMap fun byte : UInt8 =>
    [hexAlphabet.getD (byte >>> 4).toNat '0', hexAlphabet.getD (byte &&& 0x0f).toNat '0'])

/-- The arguments of the request that `interact_with_identity` sends. -/
def interactArguments (leaseId : String) (clientPid : UInt32) (action tabId : String)
    (tail : List String) : List String :=
  ["ui-interact", action, "--lease-id", leaseId, "--client-pid", toString clientPid.toNat,
    "-t", tabId] ++ tail

/-- What `send_input` adds. -/
def inputTail (bytes : List UInt8) : List String := ["--hex", encodeHex bytes]

/-- What `paste_input` adds. -/
def pasteTail (bytes : List UInt8) (textBytes characters : Nat) (bracketed : Bool) :
    List String :=
  ["--hex", encodeHex bytes, "--text-bytes", toString textBytes,
    "--characters", toString characters, "--bracketed", if bracketed then "true" else "false"]

/-- What `UiResizeRequest::execute` adds. -/
def resizeTail (rows columns : UInt16) : List String :=
  ["--rows", toString rows.toNat, "--columns", toString columns.toNat]

/-- The request for an interaction: `select_tab`, `send_input`, `paste_input` and
`UiResizeRequest::execute`. -/
def UiInteraction.arguments : UiInteraction → List String
  | .select leaseId clientPid tabId =>
    interactArguments leaseId clientPid "select" (stableTabId tabId.toNat) []
  | .input leaseId clientPid tabId bytes =>
    interactArguments leaseId clientPid "input" (stableTabId tabId.toNat) (inputTail bytes)
  | .paste leaseId clientPid tabId bytes textBytes characters bracketed =>
    interactArguments leaseId clientPid "paste" (stableTabId tabId.toNat)
      (pasteTail bytes textBytes characters bracketed)
  | .resize leaseId clientPid tabId rows columns =>
    interactArguments leaseId clientPid "resize" (stableTabId tabId.toNat) (resizeTail rows columns)

/-! ## The server -/

def hexDigit (value : UInt8) : Except String UInt8 :=
  if '0'.toNat ≤ value.toNat && value.toNat ≤ '9'.toNat then
    .ok (value - 0x30)
  else if 'a'.toNat ≤ value.toNat && value.toNat ≤ 'f'.toNat then
    .ok (value - 0x61 + 10)
  else if 'A'.toNat ≤ value.toNat && value.toNat ≤ 'F'.toNat then
    .ok (value - 0x41 + 10)
  else
    .error "ui_interaction_input_invalid"

/-- The map over `chunks_exact(2)`. -/
def decodeHexPairs : List UInt8 → Except String (List UInt8)
  | high :: low :: rest => do
    let high ← hexDigit high
    let low ← hexDigit low
    let bytes ← decodeHexPairs rest
    return (high <<< 4 ||| low) :: bytes
  | _ => .ok []

def decodeHex (value : String) : Except String (List UInt8) :=
  let bytes := encode value.toList
  if bytes.length = 0 || bytes.length % 2 ≠ 0 || bytes.length / 2 > uiInputMaxBytes then
    .error "ui_interaction_input_invalid"
  else
    decodeHexPairs bytes

/-- The options in the order they were given; none is given twice. -/
abbrev UiOptions := List (String × String)

def uiOptionNames : List String :=
  ["--lease-id", "--client-pid", "-t", "--hex", "--rows", "--columns", "--text-bytes",
    "--characters", "--bracketed"]

/-- The loop over the pairs, with the options read so far. -/
def parsePairsFrom (options : UiOptions) : List String → Except String UiOptions
  | name :: value :: rest =>
    if name ∉ uiOptionNames then
      .error "ui_interaction_option_unknown"
    else if name ∈ options.map Prod.fst then
      .error "ui_interaction_option_duplicate"
    else
      parsePairsFrom (options ++ [(name, value)]) rest
  | _ => .ok options

def parsePairs (values : List String) : Except String UiOptions :=
  if values.length % 2 ≠ 0 then
    .error "ui_interaction_options_invalid"
  else
    parsePairsFrom [] values

def required (options : UiOptions) (name : String) : Except String String :=
  match options.lookup name with
  | some value => .ok value
  | none => .error s!"ui_interaction_option_missing[{name}]"

def requireKeys (options : UiOptions) (expected : List String) : Except String Unit :=
  if options.length ≠ expected.length ||
      expected.any (fun name => !(options.map Prod.fst).contains name) then
    .error "ui_interaction_options_invalid"
  else
    .ok ()

/-- `parse`, `ok`, `filter` and `ok_or_else`: a number that is not zero and at most `maximum`. -/
def boundedNumber (limit maximum : Nat) (error : String) (value : String) : Except String Nat :=
  match (parseUnsigned limit value.toList).filter (fun n => n ≠ 0 && n ≤ maximum) with
  | some n => .ok n
  | none => .error error

def boundedDimension (value : String) (maximum : Nat) (name : String) : Except String UInt16 :=
  UInt16.ofNat <$> boundedNumber (2 ^ 16 - 1) maximum s!"ui_interaction_{name}_invalid" value

def boundedCount (value : String) (maximum : Nat) : Except String Nat :=
  boundedNumber u64Max maximum "ui_interaction_paste_metadata_invalid" value

def parseClientPid (value : String) : Except String UInt32 :=
  UInt32.ofNat <$> boundedNumber u32Max u32Max "ui_interaction_client_pid_invalid" value

def parseTabId (value : String) : Except String UInt64 :=
  match value.toList with
  | '@' :: digits =>
    UInt64.ofNat <$> boundedNumber u64Max u64Max "ui_interaction_tab_id_invalid"
      (String.ofList digits)
  | _ => .error "ui_interaction_tab_id_invalid"

def parseBool (value : String) : Except String Bool :=
  if value = "true" then
    .ok true
  else if value = "false" then
    .ok false
  else
    .error "ui_interaction_paste_metadata_invalid"

/-- The options of every interaction. -/
def identityKeys : List String := ["--lease-id", "--client-pid", "-t"]

/-- The arms of the match on the action. -/
def parseAction (action : String) (options : UiOptions) (leaseId : String) (clientPid : UInt32)
    (tabId : UInt64) : Except String UiInteraction :=
  if action = "select" then do
    requireKeys options identityKeys
    return .select leaseId clientPid tabId
  else if action = "input" then do
    requireKeys options (identityKeys ++ ["--hex"])
    let bytes ← required options "--hex" >>= decodeHex
    return .input leaseId clientPid tabId bytes
  else if action = "paste" then do
    requireKeys options (identityKeys ++ ["--hex", "--text-bytes", "--characters", "--bracketed"])
    let bytes ← required options "--hex" >>= decodeHex
    let textBytes ← required options "--text-bytes" >>= (boundedCount · bytes.length)
    let characters ← required options "--characters" >>= (boundedCount · textBytes)
    let bracketed ← required options "--bracketed" >>= parseBool
    return .paste leaseId clientPid tabId bytes textBytes characters bracketed
  else if action = "resize" then do
    requireKeys options (identityKeys ++ ["--rows", "--columns"])
    let rows ← required options "--rows" >>= (boundedDimension · uiScreenMaxRows "rows")
    let columns ← required options "--columns" >>=
      (boundedDimension · uiScreenMaxColumns "columns")
    return .resize leaseId clientPid tabId rows columns
  else
    .error "ui_interaction_action_invalid"

/-- `parse_ui_interaction` behind the command. -/
def parseInteract : List String → Except String UiInteraction
  | [] => .error "ui_interaction_action_missing"
  | action :: values => do
    let options ← parsePairs values
    let leaseId ← required options "--lease-id"
    let clientPid ← required options "--client-pid" >>= parseClientPid
    let tabId ← required options "-t" >>= parseTabId
    parseAction action options leaseId clientPid tabId

def parseUiInteraction (args : List String) : Except String UiInteraction :=
  if args.head? ≠ some "ui-interact" then
    .error "ui_interaction_command_invalid"
  else
    parseInteract args.tail

/-!
The server reads from the arguments of a client the interaction they were written for, in whatever
order the options stand (`parseUiInteraction_perm`), as long as the numbers and the bytes are
within the limits of the reader (`UiInteraction.InBounds`).
-/

open Lib

/-! ## Hexadecimal -/

/-- The digits of a byte. -/
def hexPair (byte : UInt8) : List Char :=
  [hexAlphabet.getD (byte >>> 4).toNat '0', hexAlphabet.getD (byte &&& 0x0f).toNat '0']

lemma toList_encodeHex (bytes : List UInt8) : (encodeHex bytes).toList = bytes.flatMap hexPair :=
  String.toList_ofList

/-- A text of hexadecimal digits, two for each byte. -/
def IsHexDigit (c : Char) : Prop :=
  ('0'.toNat ≤ c.toNat ∧ c.toNat ≤ '9'.toNat) ∨ ('a'.toNat ≤ c.toNat ∧ c.toNat ≤ 'f'.toNat) ∨
    ('A'.toNat ≤ c.toNat ∧ c.toNat ≤ 'F'.toNat)

def IsHexString (value : String) : Prop :=
  value.toList.length % 2 = 0 ∧ ∀ c ∈ value.toList, IsHexDigit c

lemma exists_byte (b : UInt8) : ∃ n < 256, b = UInt8.ofNat n :=
  ⟨b.toNat, b.toNat_lt, (UInt8.ofNat_toNat).symm⟩

/-- The two digits of a byte are read back. -/
lemma hexDigit_high (b : UInt8) :
    hexDigit (UInt8.ofNat (hexAlphabet.getD (b >>> 4).toNat '0').toNat) = .ok (b >>> 4) := by
  have hall : ∀ n < 256, hexDigit (UInt8.ofNat
      (hexAlphabet.getD (UInt8.ofNat n >>> 4).toNat '0').toNat) = .ok (UInt8.ofNat n >>> 4) := by
    set_option maxRecDepth 20000 in decide
  obtain ⟨n, hn, rfl⟩ := exists_byte b
  exact hall n hn

lemma hexDigit_low (b : UInt8) :
    hexDigit (UInt8.ofNat (hexAlphabet.getD (b &&& 0x0f).toNat '0').toNat) = .ok (b &&& 0x0f) := by
  have hall : ∀ n < 256, hexDigit (UInt8.ofNat
      (hexAlphabet.getD (UInt8.ofNat n &&& 0x0f).toNat '0').toNat) =
        .ok (UInt8.ofNat n &&& 0x0f) := by
    set_option maxRecDepth 20000 in decide
  obtain ⟨n, hn, rfl⟩ := exists_byte b
  exact hall n hn

lemma byte_of_digits (b : UInt8) : (b >>> 4) <<< 4 ||| (b &&& 0x0f) = b := by
  have hall : ∀ n < 256, (UInt8.ofNat n >>> 4) <<< 4 ||| (UInt8.ofNat n &&& 0x0f) =
      UInt8.ofNat n := by
    set_option maxRecDepth 20000 in decide
  obtain ⟨n, hn, rfl⟩ := exists_byte b
  exact hall n hn

lemma hexAlphabet_ascii (n : Nat) : (hexAlphabet.getD n '0').toNat < 0x80 := by
  have hascii : ('0' :: hexAlphabet).all (fun c => decide (c.toNat < 0x80)) = true := by decide
  have hall (c : Char) (hc : c ∈ '0' :: hexAlphabet) : c.toNat < 0x80 :=
    of_decide_eq_true (all_eq_true.mp hascii c hc)
  rw [getD_eq_getElem?_getD]
  cases hc : hexAlphabet[n]? with
  | none => exact hall _ mem_cons_self
  | some c => exact hall _ (mem_cons_of_mem _ (mem_of_getElem? hc))

lemma encode_hexPair (b : UInt8) :
    encode (hexPair b) = [UInt8.ofNat (hexAlphabet.getD (b >>> 4).toNat '0').toNat,
      UInt8.ofNat (hexAlphabet.getD (b &&& 0x0f).toNat '0').toNat] := by
  simp only [hexPair, encode, flatMap_cons, flatMap_nil,
    encode_ascii (hexAlphabet_ascii _), append_nil, cons_append, nil_append]

lemma encode_hexPairs (b : UInt8) (bytes : List UInt8) :
    encode ((b :: bytes).flatMap hexPair) =
      UInt8.ofNat (hexAlphabet.getD (b >>> 4).toNat '0').toNat ::
        UInt8.ofNat (hexAlphabet.getD (b &&& 0x0f).toNat '0').toNat ::
          encode (bytes.flatMap hexPair) := by
  rw [flatMap_cons, encode_append, encode_hexPair]
  rfl

lemma length_encode_hexPairs (bytes : List UInt8) :
    (encode (bytes.flatMap hexPair)).length = 2 * bytes.length := by
  induction bytes with
  | nil => rfl
  | cons b bytes ih =>
    rw [encode_hexPairs, length_cons, length_cons, length_cons, ih]
    omega

lemma decodeHexPairs_encode (bytes : List UInt8) :
    decodeHexPairs (encode (bytes.flatMap hexPair)) = .ok bytes := by
  induction bytes with
  | nil => rfl
  | cons b bytes ih =>
    rw [encode_hexPairs, decodeHexPairs, hexDigit_high, hexDigit_low, ih]
    show Except.ok (((b >>> 4) <<< 4 ||| (b &&& 0x0f)) :: bytes) = Except.ok (b :: bytes)
    rw [byte_of_digits]

variable {b : UInt8} {bytes : List UInt8} {options : UiOptions}

/-- Decoding undoes encoding, for all bytes that an interaction may carry. -/
lemma decodeHex_encodeHex (hne : bytes ≠ []) (hmax : bytes.length ≤ uiInputMaxBytes) :
    decodeHex (encodeHex bytes) = .ok bytes := by
  have hpos : 0 < bytes.length := length_pos_iff.mpr hne
  unfold decodeHex
  rw [toList_encodeHex]
  dsimp only
  rw [length_encode_hexPairs, if_neg, decodeHexPairs_encode]
  simp only [Bool.or_eq_true, decide_eq_true_eq, not_or]
  refine ⟨⟨?_, ?_⟩, ?_⟩ <;> omega

variable {clientPid : UInt32} {d : UInt8} {e : String} {maximum : Nat} {tabId : UInt64}

/-- A byte that is a digit. -/
lemma hexDigit_ok (h : hexDigit b = .ok d) {c : Char} (hc : c.toNat = b.toNat) : IsHexDigit c := by
  unfold hexDigit at h
  unfold IsHexDigit
  rw [hc]
  split at h
  · rename_i hdigit
    simp only [Bool.and_eq_true, decide_eq_true_eq] at hdigit
    exact .inl hdigit
  · split at h
    · rename_i hlower
      simp only [Bool.and_eq_true, decide_eq_true_eq] at hlower
      exact .inr (.inl hlower)
    · split at h
      · rename_i hupper
        simp only [Bool.and_eq_true, decide_eq_true_eq] at hupper
        exact .inr (.inr hupper)
      · cases h

lemma hexDigit_error (h : hexDigit b = .error e) : e = "ui_interaction_input_invalid" := by
  unfold hexDigit at h
  split at h
  · cases h
  · split at h
    · cases h
    · split at h
      · cases h
      · exact (Except.error.inj h).symm

lemma hexDigit_ascii (h : hexDigit b = .ok d) : b.toNat < 0x80 := by
  unfold hexDigit at h
  simp only [Bool.and_eq_true, decide_eq_true_eq, Char.reduceToNat] at h
  by_contra hhigh
  rw [if_neg (by omega), if_neg (by omega), if_neg (by omega)] at h
  cases h

/-- All the bytes that were decoded are digits. -/
lemma decodeHexPairs_ok {out : List UInt8} (h : decodeHexPairs bytes = .ok out)
    (heven : bytes.length % 2 = 0) : ∀ b ∈ bytes, ∃ d, hexDigit b = .ok d := by
  induction bytes using decodeHexPairs.induct generalizing out with
  | case1 high low rest ih =>
    rw [decodeHexPairs] at h
    obtain ⟨vhigh, hhigh, h⟩ := bind_eq_ok.mp h
    obtain ⟨vlow, hlow, h⟩ := bind_eq_ok.mp h
    obtain ⟨more, hmore, -⟩ := bind_eq_ok.mp h
    have hrest := ih hmore (by
      simp only [length_cons] at heven
      omega)
    intro b hb
    simp only [mem_cons] at hb
    rcases hb with rfl | rfl | hb
    · exact ⟨vhigh, hhigh⟩
    · exact ⟨vlow, hlow⟩
    · exact hrest b hb
  | case2 bytes hshort =>
    -- at most one byte, and one is odd
    match bytes, hshort, heven with
    | [], _, _ => simp
    | [b], _, heven => simp at heven
    | high :: low :: rest, hshort, _ => exact absurd rfl (hshort high low rest)

lemma decodeHexPairs_error (h : decodeHexPairs bytes = .error e) :
    e = "ui_interaction_input_invalid" := by
  induction bytes using decodeHexPairs.induct with
  | case1 high low rest ih =>
    rw [decodeHexPairs] at h
    rcases bind_eq_error.mp h with hhigh | ⟨vhigh, -, h⟩
    · exact hexDigit_error hhigh
    · rcases bind_eq_error.mp h with hlow | ⟨vlow, -, h⟩
      · exact hexDigit_error hlow
      · rcases bind_eq_error.mp h with hrest | ⟨more, -, h⟩
        · exact ih hrest
        · cases h
  | case2 bytes hshort =>
    rw [decodeHexPairs] at h
    · cases h
    · exact hshort

lemma length_encode_of_ascii {text : List Char} (h : ∀ c ∈ text, c.toNat < 0x80) :
    (encode text).length = text.length := by
  induction text with
  | nil => rfl
  | cons c text ih =>
    rw [forall_mem_cons] at h
    have hrest := ih h.2
    show (String.utf8EncodeChar c ++ encode text).length = text.length + 1
    rw [encode_ascii h.1, length_append, hrest, length_singleton]
    omega

/-- Only texts of digits are decoded. A character that is not ASCII has no byte that is a digit. -/
lemma isHexString_of_decodeHex {value : String} (h : decodeHex value = .ok bytes) :
    IsHexString value := by
  unfold decodeHex at h
  dsimp only at h
  rw [ite_error_eq_ok] at h
  obtain ⟨hguard, h⟩ := h
  simp only [Bool.or_eq_true, decide_eq_true_eq, not_or, not_not] at hguard
  have hdigits := decodeHexPairs_ok h hguard.1.2
  have hascii : ∀ c ∈ value.toList, c.toNat < 0x80 := by
    intro c hc
    by_contra hhigh
    have hbytes := encode_high (Nat.le_of_not_lt hhigh)
    obtain ⟨b, hb⟩ := exists_mem_of_ne_nil _ (encode_ne_nil c)
    obtain ⟨d, hd⟩ := hdigits b (mem_flatMap.mpr ⟨c, hc, hb⟩)
    have hlow := hexDigit_ascii hd
    have := hbytes b hb
    omega
  have heven := hguard.1.2
  rw [length_encode_of_ascii hascii] at heven
  refine ⟨heven, fun c hc => ?_⟩
  have hbyte : UInt8.ofNat c.toNat ∈ encode value.toList := by
    refine mem_flatMap.mpr ⟨c, hc, ?_⟩
    rw [encode_ascii (hascii c hc)]
    exact mem_singleton_self _
  obtain ⟨d, hd⟩ := hdigits _ hbyte
  apply hexDigit_ok hd
  rw [toNat_byte (by have := hascii c hc; omega)]

lemma decodeHex_of_not_hex {value : String} (h : ¬ IsHexString value) :
    decodeHex value = .error "ui_interaction_input_invalid" := by
  cases hdecode : decodeHex value with
  | ok bytes => exact absurd (isHexString_of_decodeHex hdecode) h
  | error e =>
    unfold decodeHex at hdecode
    dsimp only at hdecode
    split at hdecode
    · exact hdecode.symm
    · rw [decodeHexPairs_error hdecode]

/-! ## Options -/

lemma ok_bind {α β : Type} (a : α) (f : α → Except String β) : (Except.ok a >>= f) = f a := rfl

/-- Options as arguments. -/
def flattenOptions (options : UiOptions) : List String :=
  options.flatMap fun option => [option.1, option.2]

lemma flattenOptions_cons (name value : String) (options : UiOptions) :
    flattenOptions ((name, value) :: options) = name :: value :: flattenOptions options := rfl

lemma length_flattenOptions (options : UiOptions) : (flattenOptions options).length % 2 = 0 := by
  induction options with
  | nil => rfl
  | cons option options ih =>
    rw [flattenOptions_cons, length_cons, length_cons]
    omega

section
variable {options done : UiOptions} {name value : String}

/-- Known options, each given once, are read as they were given. -/
lemma parsePairsFrom_flatten (hknown : ∀ option ∈ options, option.1 ∈ uiOptionNames)
    (hnodup : ((done ++ options).map Prod.fst).Nodup) :
    parsePairsFrom done (flattenOptions options) = .ok (done ++ options) := by
  induction options generalizing done with
  | nil =>
    rw [append_nil]
    rfl
  | cons option options ih =>
    rw [forall_mem_cons] at hknown
    have hnew : option.1 ∉ done.map Prod.fst := by
      rw [map_append, map_cons] at hnodup
      intro hmem
      exact disjoint_of_nodup_append hnodup hmem mem_cons_self
    have happend : done ++ option :: options = (done ++ [option]) ++ options := by simp
    rw [flattenOptions_cons, parsePairsFrom, if_neg (not_not.mpr hknown.1), if_neg hnew,
      happend]
    apply ih hknown.2
    rw [← happend]
    exact hnodup

/-- An unknown option, or one that was given before. -/
def FaultyOptions (done options : UiOptions) : Prop :=
  (∃ option ∈ options, option.1 ∉ uiOptionNames) ∨ ¬ ((done ++ options).map Prod.fst).Nodup

lemma parsePairsFrom_faulty (hdone : (done.map Prod.fst).Nodup) (h : FaultyOptions done options) :
    ∃ error, parsePairsFrom done (flattenOptions options) = .error error ∧
      (error = "ui_interaction_option_unknown" ∨ error = "ui_interaction_option_duplicate") := by
  induction options generalizing done with
  | nil =>
    rw [FaultyOptions, append_nil] at h
    rcases h with ⟨option, hoption, -⟩ | h
    · exact absurd hoption not_mem_nil
    · exact absurd hdone h
  | cons option options ih =>
    rw [flattenOptions_cons, parsePairsFrom]
    split
    · exact ⟨_, rfl, .inl rfl⟩
    · rename_i hknown
      split
      · exact ⟨_, rfl, .inr rfl⟩
      · rename_i hnew
        -- the first option is in order, so the fault is behind it
        apply ih
        · rw [map_append, map_singleton, nodup_append]
          refine ⟨hdone, nodup_singleton _, ?_⟩
          intro a ha b hb
          rw [mem_singleton] at hb
          rintro rfl
          exact hnew (hb ▸ ha)
        · rcases h with ⟨bad, hbad, hunknown⟩ | h
          · rcases mem_cons.mp hbad with rfl | hbad
            · exact absurd hunknown hknown
            · exact .inl ⟨bad, hbad, hunknown⟩
          · refine .inr ?_
            rw [append_assoc]
            exact h

lemma required_of_mem (hnodup : (options.map Prod.fst).Nodup) (hmem : (name, value) ∈ options) :
    required options name = .ok value := by
  have hlookup : options.lookup name = some value := by
    induction options with
    | nil => exact absurd hmem not_mem_nil
    | cons option options ih =>
      rw [map_cons, nodup_cons] at hnodup
      rcases mem_cons.mp hmem with rfl | hmem
      · exact lookup_cons_self
      · have hne : (name == option.1) = false := by
          rw [beq_eq_false_iff_ne]
          rintro rfl
          exact hnodup.1 (mem_map.mpr ⟨_, hmem, rfl⟩)
        rw [lookup_cons, hne]
        exact ih hnodup.2 hmem
  unfold required
  rw [hlookup]

lemma requireKeys_of_perm {expected : List String} (h : (options.map Prod.fst).Perm expected) :
    requireKeys options expected = .ok () := by
  have hlength : options.length = expected.length := by
    rw [← h.length_eq, length_map]
  unfold requireKeys
  rw [if_neg]
  simp only [Bool.or_eq_true, decide_eq_true_eq, any_eq_true, Bool.not_eq_true',
    contains_eq_mem, decide_eq_false_iff_not, not_or, not_exists, not_and, not_not]
  exact ⟨hlength, fun name hname => h.mem_iff.mpr hname⟩

end

/-! ## Values -/

lemma boundedNumber_toString {limit n : Nat} {error : String} (hpos : n ≠ 0) (hmax : n ≤ maximum)
    (hlimit : n ≤ limit) : boundedNumber limit maximum error (toString n) = .ok n := by
  have hkeep : (some n).filter (fun n => n ≠ 0 && n ≤ maximum) = some n := by
    rw [Option.filter_some, if_pos]
    simp only [Bool.and_eq_true, decide_eq_true_eq]
    exact ⟨hpos, hmax⟩
  unfold boundedNumber
  rw [parseUnsigned_toString hlimit, hkeep]

lemma parseClientPid_toString (h : clientPid ≠ 0) :
    parseClientPid (toString clientPid.toNat) = .ok clientPid := by
  have hlt := clientPid.toNat_lt
  have hpos : clientPid.toNat ≠ 0 := fun hzero => h (UInt32.toNat_inj.mp hzero)
  unfold parseClientPid
  rw [boundedNumber_toString hpos (by simp only [u32Max]; omega) (by simp only [u32Max]; omega)]
  show Except.ok (UInt32.ofNat clientPid.toNat) = Except.ok clientPid
  rw [UInt32.ofNat_toNat]

lemma parseTabId_stableTabId (h : tabId ≠ 0) :
    parseTabId (stableTabId tabId.toNat) = .ok tabId := by
  have hlt := tabId.toNat_lt
  have hpos : tabId.toNat ≠ 0 := fun hzero => h (UInt64.toNat_inj.mp hzero)
  have hchars : (stableTabId tabId.toNat).toList = '@' :: (toString tabId.toNat).toList := by
    rw [stableTabId, String.toList_append]
    rfl
  unfold parseTabId
  rw [hchars]
  simp only
  rw [String.ofList_toList,
    boundedNumber_toString hpos (by simp only [u64Max]; omega) (by simp only [u64Max]; omega)]
  show Except.ok (UInt64.ofNat tabId.toNat) = Except.ok tabId
  rw [UInt64.ofNat_toNat]

lemma boundedDimension_toString {n : UInt16} {name : String} (hpos : n ≠ 0)
    (hmax : n.toNat ≤ maximum) : boundedDimension (toString n.toNat) maximum name = .ok n := by
  have hlt := n.toNat_lt
  have hne : n.toNat ≠ 0 := fun hzero => hpos (UInt16.toNat_inj.mp hzero)
  unfold boundedDimension
  rw [boundedNumber_toString hne hmax (by omega)]
  show Except.ok (UInt16.ofNat n.toNat) = Except.ok n
  rw [UInt16.ofNat_toNat]

lemma parseBool_text (b : Bool) : parseBool (if b then "true" else "false") = .ok b := by
  cases b <;> rfl

/-! ## The round trip -/

namespace UiInteraction

/-- The options of an interaction, in the order in which the client writes them. -/
def identityPairs (leaseId : String) (clientPid : UInt32) (tabId : UInt64) : UiOptions :=
  [("--lease-id", leaseId), ("--client-pid", toString clientPid.toNat),
    ("-t", stableTabId tabId.toNat)]

def optionPairs : UiInteraction → UiOptions
  | select leaseId clientPid tabId => identityPairs leaseId clientPid tabId
  | input leaseId clientPid tabId bytes =>
    identityPairs leaseId clientPid tabId ++ [("--hex", encodeHex bytes)]
  | paste leaseId clientPid tabId bytes textBytes characters bracketed =>
    identityPairs leaseId clientPid tabId ++
      [("--hex", encodeHex bytes), ("--text-bytes", toString textBytes),
        ("--characters", toString characters),
        ("--bracketed", if bracketed then "true" else "false")]
  | resize leaseId clientPid tabId rows columns =>
    identityPairs leaseId clientPid tabId ++
      [("--rows", toString rows.toNat), ("--columns", toString columns.toNat)]

lemma arguments_eq (interaction : UiInteraction) :
    interaction.arguments =
      "ui-interact" :: interaction.action :: flattenOptions interaction.optionPairs := by
  cases interaction <;> rfl

/-- The bytes that an interaction may carry. -/
def InputBounds (bytes : List UInt8) : Prop := bytes ≠ [] ∧ bytes.length ≤ uiInputMaxBytes

/-- The bounds of the reader. -/
def InBounds : UiInteraction → Prop
  | select _ clientPid tabId => clientPid ≠ 0 ∧ tabId ≠ 0
  | input _ clientPid tabId bytes => clientPid ≠ 0 ∧ tabId ≠ 0 ∧ InputBounds bytes
  | paste _ clientPid tabId bytes textBytes characters _ =>
    clientPid ≠ 0 ∧ tabId ≠ 0 ∧ InputBounds bytes ∧
      (textBytes ≠ 0 ∧ textBytes ≤ bytes.length) ∧ characters ≠ 0 ∧ characters ≤ textBytes
  | resize _ clientPid tabId rows columns =>
    clientPid ≠ 0 ∧ tabId ≠ 0 ∧ (rows ≠ 0 ∧ rows.toNat ≤ uiScreenMaxRows) ∧
      columns ≠ 0 ∧ columns.toNat ≤ uiScreenMaxColumns

end UiInteraction

open UiInteraction

/-- What the reader finds in known options, whatever the action. -/
lemma parseInteract_identity {action leaseId : String}
    (hknown : ∀ option ∈ options, option.1 ∈ uiOptionNames)
    (hnodup : (options.map Prod.fst).Nodup)
    (hidentity : ∀ pair ∈ identityPairs leaseId clientPid tabId, pair ∈ options)
    (hpid : clientPid ≠ 0) (htab : tabId ≠ 0) :
    parseInteract (action :: flattenOptions options) =
      parseAction action options leaseId clientPid tabId := by
  simp only [identityPairs, forall_mem_cons] at hidentity
  obtain ⟨hlease, hclient, htarget, -⟩ := hidentity
  have hpairs : parsePairs (flattenOptions options) = .ok options := by
    have hread := @parsePairsFrom_flatten options [] hknown hnodup
    rw [parsePairs, if_neg (not_not.mpr (length_flattenOptions options)), hread,
      nil_append]
  rw [parseInteract, hpairs]
  show (required options "--lease-id" >>= fun leaseId =>
    required options "--client-pid" >>= parseClientPid >>= fun clientPid =>
      required options "-t" >>= parseTabId >>= fun tabId =>
        parseAction action options leaseId clientPid tabId) = _
  rw [ required_of_mem hnodup hlease, required_of_mem hnodup hclient,
    required_of_mem hnodup htarget]
  show (parseClientPid (toString clientPid.toNat) >>= fun clientPid =>
    parseTabId (stableTabId tabId.toNat) >>= fun tabId =>
      parseAction action options leaseId clientPid tabId) = _
  rw [parseClientPid_toString hpid, parseTabId_stableTabId htab]
  rfl

/-- The names of the options of an interaction are known, and each is there once. -/
lemma names_optionPairs (interaction : UiInteraction) :
    (interaction.optionPairs.map Prod.fst).Nodup ∧
      ∀ name ∈ interaction.optionPairs.map Prod.fst, name ∈ uiOptionNames := by
  cases interaction <;> exact ⟨by simp [optionPairs, identityPairs],
    by simp [optionPairs, identityPairs, uiOptionNames]⟩

/-- An interaction within the bounds is read back, in whatever order its options stand. -/
lemma parseUiInteraction_perm {interaction : UiInteraction} (hbounds : interaction.InBounds)
    (hperm : options.Perm interaction.optionPairs) :
    parseUiInteraction ("ui-interact" :: interaction.action :: flattenOptions options) =
      .ok interaction := by
  have hnames := hperm.map Prod.fst
  have hnodup : (options.map Prod.fst).Nodup :=
    hnames.nodup_iff.mpr (names_optionPairs interaction).1
  have hknown : ∀ option ∈ options, option.1 ∈ uiOptionNames := fun option hoption =>
    (names_optionPairs interaction).2 _ (hnames.mem_iff.mp (mem_map.mpr ⟨_, hoption, rfl⟩))
  have hvalue : ∀ pair ∈ interaction.optionPairs, required options pair.1 = .ok pair.2 :=
    fun pair hpair => required_of_mem hnodup (hperm.mem_iff.mpr hpair)
  have hkeys : ∀ expected, interaction.optionPairs.map Prod.fst = expected →
      requireKeys options expected = .ok () :=
    fun expected hexpected => requireKeys_of_perm (hexpected ▸ hnames)
  have hidentity : ∀ leaseId clientPid tabId,
      (∀ pair ∈ identityPairs leaseId clientPid tabId, pair ∈ interaction.optionPairs) →
      ∀ pair ∈ identityPairs leaseId clientPid tabId, pair ∈ options :=
    fun _ _ _ hsub pair hpair => hperm.mem_iff.mpr (hsub pair hpair)
  show parseInteract (interaction.action :: flattenOptions options) = .ok interaction
  cases interaction with
  | select leaseId clientPid tabId =>
    obtain ⟨hpid, htab⟩ := hbounds
    rw [parseInteract_identity hknown hnodup (hidentity _ _ _ fun _ h => h) hpid htab]
    show parseAction "select" options leaseId clientPid tabId = _
    unfold parseAction
    rw [if_pos rfl, hkeys identityKeys rfl]
    rfl
  | input leaseId clientPid tabId bytes =>
    obtain ⟨hpid, htab, hbytes⟩ := hbounds
    rw [parseInteract_identity hknown hnodup
      (hidentity _ _ _ fun _ h => mem_append_left _ h) hpid htab]
    have hhex := hvalue ("--hex", encodeHex bytes) (by simp [optionPairs])
    show parseAction "input" options leaseId clientPid tabId = _
    unfold parseAction
    rw [if_neg (by decide), if_pos rfl, hkeys (identityKeys ++ ["--hex"]) rfl, ok_bind, hhex,
      ok_bind, decodeHex_encodeHex hbytes.1 hbytes.2, ok_bind]
    rfl
  | paste leaseId clientPid tabId bytes textBytes characters bracketed =>
    obtain ⟨hpid, htab, hbytes, htext, hcharacters⟩ := hbounds
    rw [parseInteract_identity hknown hnodup
      (hidentity _ _ _ fun _ h => mem_append_left _ h) hpid htab]
    have hhex := hvalue ("--hex", encodeHex bytes) (by simp [optionPairs])
    have htextValue := hvalue ("--text-bytes", toString textBytes) (by simp [optionPairs])
    have hcharsValue := hvalue ("--characters", toString characters) (by simp [optionPairs])
    have hmode := hvalue ("--bracketed", if bracketed then "true" else "false")
      (by simp [optionPairs])
    have hlimit : bytes.length ≤ u64Max := Nat.le_trans hbytes.2 (by decide)
    show parseAction "paste" options leaseId clientPid tabId = _
    unfold parseAction
    rw [if_neg (by decide), if_neg (by decide), if_pos rfl,
      hkeys (identityKeys ++ ["--hex", "--text-bytes", "--characters", "--bracketed"]) rfl, ok_bind,
      hhex, ok_bind, decodeHex_encodeHex hbytes.1 hbytes.2, ok_bind]
    -- the counts are read one within the other
    rw [htextValue, ok_bind, boundedCount, boundedNumber_toString htext.1 htext.2 (by omega),
      ok_bind, hcharsValue, ok_bind, boundedCount,
      boundedNumber_toString hcharacters.1 hcharacters.2 (by omega), ok_bind, hmode, ok_bind,
      parseBool_text, ok_bind]
    rfl
  | resize leaseId clientPid tabId rows columns =>
    obtain ⟨hpid, htab, hrows, hcolumns⟩ := hbounds
    rw [parseInteract_identity hknown hnodup
      (hidentity _ _ _ fun _ h => mem_append_left _ h) hpid htab]
    have hrowsValue := hvalue ("--rows", toString rows.toNat) (by simp [optionPairs])
    have hcolumnsValue := hvalue ("--columns", toString columns.toNat) (by simp [optionPairs])
    show parseAction "resize" options leaseId clientPid tabId = _
    unfold parseAction
    rw [if_neg (by decide), if_neg (by decide), if_neg (by decide), if_pos rfl,
      hkeys (identityKeys ++ ["--rows", "--columns"]) rfl, ok_bind, hrowsValue, ok_bind,
      boundedDimension_toString hrows.1 hrows.2, ok_bind, hcolumnsValue, ok_bind,
      boundedDimension_toString hcolumns.1 hcolumns.2, ok_bind]
    rfl

/-- An option that is unknown or given twice is refused, whatever else is there. -/
lemma parseUiInteraction_faulty (action : String) (h : FaultyOptions [] options) :
    ∃ error, parseUiInteraction ("ui-interact" :: action :: flattenOptions options) =
        .error error ∧
      (error = "ui_interaction_option_unknown" ∨ error = "ui_interaction_option_duplicate") := by
  have hnone : (([] : UiOptions).map Prod.fst).Nodup := nodup_nil
  obtain ⟨error, hpairs, herror⟩ := parsePairsFrom_faulty hnone h
  refine ⟨error, ?_, herror⟩
  show parseInteract (action :: flattenOptions options) = .error error
  rw [parseInteract, parsePairs, if_neg (not_not.mpr (length_flattenOptions options)), hpairs]
  rfl

/-- What the client writes for an interaction within the bounds of the reader, the server reads as
that interaction, in whatever order the options stand; a faulty option is refused; bytes are read
back from their digits, and no other text is read as bytes. -/
theorem parseUiInteraction_arguments :
    (∀ interaction : UiInteraction,
      interaction.arguments =
          "ui-interact" :: interaction.action :: flattenOptions interaction.optionPairs ∧
        (interaction.InBounds → ∀ options : UiOptions, options.Perm interaction.optionPairs →
          parseUiInteraction ("ui-interact" :: interaction.action :: flattenOptions options) =
            .ok interaction)) ∧
      (∀ action (options : UiOptions), FaultyOptions [] options →
        ∃ error, parseUiInteraction ("ui-interact" :: action :: flattenOptions options) =
          .error error ∧ (error = "ui_interaction_option_unknown" ∨
            error = "ui_interaction_option_duplicate")) ∧
      (∀ bytes, InputBounds bytes → decodeHex (encodeHex bytes) = .ok bytes) ∧
      ∀ value, ¬ IsHexString value →
        decodeHex value = .error "ui_interaction_input_invalid" := by
  refine ⟨fun interaction => ⟨arguments_eq interaction, fun hbounds options hperm => ?_⟩, ?_, ?_, ?_⟩
  · exact parseUiInteraction_perm hbounds hperm
  · exact fun action options h => parseUiInteraction_faulty action h
  · exact fun bytes h => decodeHex_encodeHex h.1 h.2
  · exact fun value h => decodeHex_of_not_hex h

/-- A window of more rows than a screen may have, and no input at all, are written by the client
and refused by the server. -/
theorem resize_refused :
    parseUiInteraction (UiInteraction.resize "lease" 42 7 600 80).arguments =
        .error "ui_interaction_rows_invalid" ∧
      parseUiInteraction (UiInteraction.input "lease" 42 7 []).arguments =
        .error "ui_interaction_input_invalid" ∧
      decodeHex (encodeHex []) ≠ .ok [] := by
  decide

end Agenterm
