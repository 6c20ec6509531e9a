import Agenterm.Control.Options
import Agenterm.Lib.Utf8
import Agenterm.Server.Terminals

/-!
# Reports of the working directory

`parse_osc7`: a program in the terminal reports its directory as a `file` URI of this host. What is
accepted is a path that can be shown, and a percent-encoded absolute path is read back as it was
(`osc7_paths_read_back`).
-/

namespace Agenterm.Osc7

open Lib.Utf8 List Lib

def osc7MaxBytes : Nat := 4096

def hex (byte : UInt8) : Option UInt8 :=
  if 0x30 ≤ byte && byte ≤ 0x39 then some (byte - 0x30)
  else if 0x61 ≤ byte && byte ≤ 0x66 then some (byte - 0x61 + 10)
  else if 0x41 ≤ byte && byte ≤ 0x46 then some (byte - 0x41 + 10)
  else none

def isAsciiControl (byte : UInt8) : Bool := byte < 0x20 || byte = 0x7f

def isAsciiAlphabetic (byte : UInt8) : Bool :=
  (0x41 ≤ byte && byte ≤ 0x5a) || (0x61 ≤ byte && byte ≤ 0x7a)

def isAsciiAlphanumeric (byte : UInt8) : Bool :=
  isAsciiAlphabetic byte || (0x30 ≤ byte && byte ≤ 0x39)

/-- The loop of `percent_decode`. -/
def percentBytes : List UInt8 → Option (List UInt8)
  | [] => some []
  | byte :: rest =>
    if byte = 0x25 then
      match rest with
      | high :: low :: rest => do
        let high ← hex high
        let low ← hex low
        let output ← percentBytes rest
        some ((high <<< 4 ||| low) :: output)
      | _ => none
    else
      (percentBytes rest).map (byte :: ·)

def percentDecode (input : List UInt8) : Option (List UInt8) := do
  let output ← percentBytes input
  if output.any isAsciiControl then none else some output

/-- Bytes that an authority may have. -/
def authorityByte (byte : UInt8) : Bool :=
  isAsciiAlphanumeric byte || [0x2e, 0x2d, 0x5f].contains byte

/-- The authority names this host. -/
def localAuthority (authority : String) (localHostname : Option String) : Bool :=
  authority.isEmpty || eqIgnoreAsciiCase authority "localhost" ||
    localHostname.any fun host => eqIgnoreAsciiCase authority host

/-- The path begins with a drive, as in `/C:`. -/
def drivePath : List UInt8 → Bool
  | slash :: letter :: colon :: _ => slash = 0x2f && isAsciiAlphabetic letter && colon = 0x3a
  | _ => false

/-- `file://`. -/
def fileScheme : List UInt8 := [0x66, 0x69, 0x6c, 0x65, 0x3a, 0x2f, 0x2f]

/-- The path of a decoded URI path. -/
def filePath (decoded : List UInt8) : Option String := do
  let path ← (Utf8.fromUtf8 decoded).toOption
  let path := if drivePath decoded then
      String.ofList (path.toList.tail.map fun c => if c = '/' then '\\' else c)
    else
      path
  if validDisplayPath path then some path else none

def parseFileUri (uri : List UInt8) (localHostname : Option String) : Option String := do
  if uri.contains 0x3f || uri.contains 0x23 then none
  else
    let rest ← uri.dropPrefix? fileScheme
    if rest.any fun byte => 0x80 ≤ byte then none
    else
      -- the authority ends at the first slash, which the path begins with
      let path := rest.dropWhile (· ≠ 0x2f)
      if path.isEmpty then none
      else
        let authorityBytes := rest.takeWhile (· ≠ 0x2f)
        let authority ← (Utf8.fromUtf8 authorityBytes).toOption
        if !(authorityBytes.all authorityByte) then none
        else if !localAuthority authority localHostname then none
        else filePath (← percentDecode path)

def parseOsc7 (params : List (List UInt8)) (localHostname : Option String) : Option String :=
  match params with
  | [kind, uri] =>
    if kind ≠ [0x37] || osc7MaxBytes < uri.length then none else parseFileUri uri localHostname
  | _ => none

/-! ## Percent-encoding -/

/-- Bytes that a URI path cannot have as they are. -/
def reservedByte (byte : UInt8) : Bool :=
  byte = 0x25 || byte = 0x3f || byte = 0x23 || 0x80 ≤ byte

/-- The texts that percent-encode some bytes: each byte stands for itself, unless it is reserved, or
is written with two digits. -/
inductive PercentEncoded : List UInt8 → List UInt8 → Prop where
  | nil : PercentEncoded [] []
  | literal {byte : UInt8} {bytes text : List UInt8} (hplain : reservedByte byte = false)
      (rest : PercentEncoded bytes text) : PercentEncoded (byte :: bytes) (byte :: text)
  | escaped {byte high low : UInt8} {bytes text : List UInt8} (hhigh : hex high = some (byte >>> 4))
      (hlow : hex low = some (byte &&& 0xf)) (rest : PercentEncoded bytes text) :
      PercentEncoded (byte :: bytes) (0x25 :: high :: low :: text)

/-- A set of bytes that are written with digits. -/
def percentEncode (encodes : UInt8 → Bool) (bytes : List UInt8) : List UInt8 :=
  bytes.flatMap fun byte =>
    if encodes byte then [0x25, digit (byte >>> 4), digit (byte &&& 0xf)] else [byte]
where
  digit (value : UInt8) : UInt8 := if value < 10 then 0x30 + value else 0x37 + value

section
variable {byte value : UInt8} {bytes text : List UInt8}

/-- A fact about each of the 256 bytes. -/
lemma forall_byte {P : UInt8 → Prop} (h : ∀ n < 256, P (UInt8.ofNat n)) (byte : UInt8) :
    P byte := by
  have hbyte := h byte.toNat byte.toNat_lt
  rwa [UInt8.ofNat_toNat] at hbyte

/-- The two halves of a byte. -/
lemma halves : ∀ byte : UInt8, (byte >>> 4) <<< 4 ||| (byte &&& 0xf) = byte :=
  forall_byte (by set_option maxRecDepth 20000 in decide)

lemma hex_digit : ∀ byte : UInt8,
    hex (percentEncode.digit (byte >>> 4)) = some (byte >>> 4) ∧
      hex (percentEncode.digit (byte &&& 0xf)) = some (byte &&& 0xf) :=
  forall_byte (by set_option maxRecDepth 20000 in decide)

/-- A digit is none of the bytes that end a path, and is ASCII. -/
lemma hex_plain (h : hex byte = some value) : byte ≠ 0x3f ∧ byte ≠ 0x23 ∧ ¬ 0x80 ≤ byte := by
  have hall : ∀ byte : UInt8, (hex byte).isSome = true →
      byte ≠ 0x3f ∧ byte ≠ 0x23 ∧ ¬ 0x80 ≤ byte :=
    forall_byte (by set_option maxRecDepth 20000 in decide)
  exact hall byte (by rw [h]; rfl)

lemma authorityByte_plain : ∀ byte : UInt8, authorityByte byte = true →
    byte ≠ 0x3f ∧ byte ≠ 0x23 ∧ ¬ 0x80 ≤ byte ∧ byte ≠ 0x2f :=
  forall_byte (by set_option maxRecDepth 20000 in decide)

lemma reservedByte_eq_false (h : reservedByte byte = false) :
    byte ≠ 0x25 ∧ byte ≠ 0x3f ∧ byte ≠ 0x23 ∧ ¬ 0x80 ≤ byte := by
  unfold reservedByte at h
  simp only [Bool.or_eq_false_iff, decide_eq_false_iff_not] at h
  exact ⟨h.1.1.1, h.1.1.2, h.1.2, h.2⟩

/-- Any set of bytes with the reserved ones. -/
lemma percentEncoded_percentEncode {encodes : UInt8 → Bool}
    (h : ∀ byte, reservedByte byte = true → encodes byte = true) (bytes : List UInt8) :
    PercentEncoded bytes (percentEncode encodes bytes) := by
  induction bytes with
  | nil => exact .nil
  | cons byte bytes ih =>
    rw [percentEncode, flatMap_cons]
    split
    next => exact .escaped (hex_digit byte).1 (hex_digit byte).2 ih
    next hplain =>
      refine .literal ?_ ih
      rw [← Bool.not_eq_true]
      exact fun hreserved => hplain (h byte hreserved)

lemma PercentEncoded.plain (h : PercentEncoded bytes text) :
    ∀ byte ∈ text, byte ≠ 0x3f ∧ byte ≠ 0x23 ∧ ¬ 0x80 ≤ byte := by
  induction h with
  | nil => exact fun byte hmem => nomatch hmem
  | literal hplain rest ih =>
    intro byte hmem
    rcases mem_cons.mp hmem with rfl | hmem
    · exact (reservedByte_eq_false hplain).2
    · exact ih byte hmem
  | escaped hhigh hlow rest ih =>
    intro byte hmem
    simp only [mem_cons] at hmem
    rcases hmem with rfl | rfl | rfl | hmem
    · decide
    · exact hex_plain hhigh
    · exact hex_plain hlow
    · exact ih byte hmem

/-- An encoded text is decoded to its bytes. -/
theorem PercentEncoded.percentBytes (h : PercentEncoded bytes text) :
    percentBytes text = some bytes := by
  induction h with
  | nil => rw [Osc7.percentBytes]
  | literal hplain rest ih =>
    rw [Osc7.percentBytes.eq_def]
    dsimp only
    rw [if_neg (reservedByte_eq_false hplain).1, ih, Option.map_some]
  | escaped hhigh hlow rest ih =>
    rw [Osc7.percentBytes.eq_def]
    dsimp only
    rw [if_pos rfl, hhigh, hlow, ih]
    exact congrArg (fun byte => some (byte :: _)) (halves _)

end

/-! ## Reports -/

section
variable {path : String} {localHostname : Option String}

/-- A path that can be shown has no control of ASCII. -/
lemma no_asciiControl (h : validDisplayPath path = true) :
    (encode path.toList).any isAsciiControl = false := by
  unfold validDisplayPath at h
  simp only [Bool.and_eq_true, Bool.not_eq_true'] at h
  rw [any_eq_false]
  intro byte hmem hcontrol
  have hcode : byte.toNat < 0x20 ∨ byte.toNat = 0x7f := by
    simp only [isAsciiControl, Bool.or_eq_true, decide_eq_true_eq] at hcontrol
    exact hcontrol.imp UInt8.lt_iff_toNat_lt.mp (congrArg UInt8.toNat)
  obtain ⟨c, hc, hcbyte⟩ := mem_encode_ascii hmem (by omega)
  have hplain := any_eq_false.mp h.2 c hc
  apply hplain
  rw [isControl, hcbyte]
  simp only [Bool.or_eq_true, Bool.and_eq_true, decide_eq_true_eq]
  omega

lemma filePath_valid {decoded : List UInt8} (h : filePath decoded = some path) :
    validDisplayPath path = true := by
  obtain ⟨text, -, h⟩ := Option.bind_eq_some_iff.mp h
  obtain ⟨hvalid, h⟩ := Option.ite_none_right_eq_some.mp h
  rwa [Option.some.inj h] at hvalid

/-- A path that does not begin with a drive is kept. -/
lemma filePath_encode (hvalid : validDisplayPath path = true)
    (hdrive : drivePath (encode path.toList) = false) :
    filePath (encode path.toList) = some path := by
  have hread : Utf8.fromUtf8 (encode path.toList) = .ok path := by
    rw [encode, fromUtf8_encode, String.ofList_toList]
  rw [filePath, hread, hdrive]
  exact if_pos hvalid

/-- A URI that is accepted is that of a path of this host. -/
lemma parseFileUri_shape {uri : List UInt8} (h : parseFileUri uri localHostname = some path) :
    ∃ (authority : String) (rest : List UInt8),
      uri = fileScheme ++ encode authority.toList ++ 0x2f :: rest ∧
        0x2f ∉ encode authority.toList ∧ localAuthority authority localHostname = true ∧
        ∃ decoded, percentDecode (0x2f :: rest) = some decoded ∧ filePath decoded = some path := by
  unfold parseFileUri at h
  obtain ⟨-, h⟩ := Option.ite_none_left_eq_some.mp h
  obtain ⟨after, hafter, h⟩ := Option.bind_eq_some_iff.mp h
  obtain ⟨-, h⟩ := Option.ite_none_left_eq_some.mp h
  obtain ⟨hslash, h⟩ := Option.ite_none_left_eq_some.mp h
  obtain ⟨authority, hauthority, h⟩ := Option.bind_eq_some_iff.mp h
  obtain ⟨hall, h⟩ := Option.ite_none_left_eq_some.mp h
  obtain ⟨hlocal, h⟩ := Option.ite_none_left_eq_some.mp h
  obtain ⟨decoded, hdecoded, hfile⟩ := Option.bind_eq_some_iff.mp h
  obtain ⟨front, rfl, hfront⟩ := List.dropPrefix?_eq_some_iff.mp hafter
  obtain rfl := eq_of_beq hfront
  have hread : Utf8.fromUtf8 (after.takeWhile (· ≠ 0x2f)) = .ok authority := by
    revert hauthority
    cases Utf8.fromUtf8 (after.takeWhile (· ≠ 0x2f)) with
    | error error => exact fun h => nomatch h
    | ok text => exact fun h => congrArg _ (Option.some.inj h)
  have hplain : ∀ byte ∈ after.takeWhile (· ≠ 0x2f), authorityByte byte = true := by
    simpa using hall
  have hencode : encode authority.toList = after.takeWhile (· ≠ 0x2f) := by
    refine encode_fromUtf8_ascii (fun byte hmem => ?_) hread
    exact Nat.not_le.mp fun hle =>
      (authorityByte_plain byte (hplain byte hmem)).2.2.1 (UInt8.le_iff_toNat_le.mpr hle)
  -- what is left after the authority begins with the slash that ended it
  obtain ⟨byte, rest, hrest⟩ : ∃ byte rest, after.dropWhile (· ≠ 0x2f) = byte :: rest := by
    cases hdrop : after.dropWhile (· ≠ 0x2f) with
    | nil =>
      rw [hdrop] at hslash
      exact absurd rfl hslash
    | cons byte rest => exact ⟨byte, rest, rfl⟩
  have hbyte : byte = 0x2f := by
    have hhead := List.head?_dropWhile_not (· ≠ 0x2f) after
    rw [hrest] at hhead
    simpa using hhead
  subst hbyte
  refine ⟨authority, rest, ?_, ?_, by simpa using hlocal, decoded, ?_, hfile⟩
  · rw [append_assoc, hencode, ← hrest, takeWhile_append_dropWhile]
  · intro hmem
    rw [hencode] at hmem
    have hkept := all_eq_true.mp all_takeWhile 0x2f hmem
    exact absurd hkept (by decide)
  · rw [← hrest]
    exact hdecoded

/-- A local URI is read as its path. -/
lemma parseFileUri_encoded {authority : String} {rest decoded : List UInt8}
    (hbytes : ∀ byte ∈ encode authority.toList, authorityByte byte = true)
    (hlocal : localAuthority authority localHostname = true)
    (hrest : ∀ byte ∈ rest, byte ≠ 0x3f ∧ byte ≠ 0x23 ∧ ¬ 0x80 ≤ byte)
    (hdecoded : percentDecode (0x2f :: rest) = some decoded) :
    parseFileUri (fileScheme ++ encode authority.toList ++ 0x2f :: rest) localHostname =
      filePath decoded := by
  have hplain (byte : UInt8) (hmem : byte ∈ encode authority.toList) :=
    authorityByte_plain byte (hbytes byte hmem)
  have htake : (encode authority.toList ++ 0x2f :: rest).takeWhile (· ≠ 0x2f) =
      encode authority.toList := by
    rw [takeWhile_append_of_pos fun byte hmem => decide_eq_true (hplain byte hmem).2.2.2]
    simp
  have hdrop : (encode authority.toList ++ 0x2f :: rest).dropWhile (· ≠ 0x2f) = 0x2f :: rest := by
    rw [dropWhile_append_of_pos fun byte hmem => decide_eq_true (hplain byte hmem).2.2.2]
    simp
  have hread : Utf8.fromUtf8 (encode authority.toList) = .ok authority := by
    rw [encode, fromUtf8_encode, String.ofList_toList]
  have hafter : (fileScheme ++ (encode authority.toList ++ 0x2f :: rest)).dropPrefix? fileScheme =
      some (encode authority.toList ++ 0x2f :: rest) :=
    List.dropPrefix?_eq_some_iff.mpr ⟨fileScheme, rfl, beq_self_eq_true _⟩
  -- no byte of the URI ends it early
  have hclean : ∀ byte ∈ encode authority.toList ++ 0x2f :: rest,
      byte ≠ 0x3f ∧ byte ≠ 0x23 ∧ ¬ 0x80 ≤ byte := by
    intro byte hmem
    simp only [mem_append, mem_cons] at hmem
    rcases hmem with hmem | rfl | hmem
    · exact ⟨(hplain byte hmem).1, (hplain byte hmem).2.1, (hplain byte hmem).2.2.1⟩
    · decide
    · exact hrest byte hmem
  have hquery (byte : UInt8) (hscheme : byte ∉ fileScheme)
      (hbyte : byte ∉ encode authority.toList ++ 0x2f :: rest) :
      (fileScheme ++ (encode authority.toList ++ 0x2f :: rest)).contains byte = false := by
    rw [← Bool.not_eq_true, contains_iff_mem, mem_append]
    exact fun hmem => hmem.elim hscheme hbyte
  have hhigh : (encode authority.toList ++ 0x2f :: rest).any (fun byte => 0x80 ≤ byte) = false := by
    rw [any_eq_false]
    exact fun byte hmem => by simpa using (hclean byte hmem).2.2
  have hall : (encode authority.toList).all authorityByte = true := all_eq_true.mpr hbytes
  rw [append_assoc, parseFileUri, hquery 0x3f (by decide) fun h => (hclean _ h).1 rfl,
    hquery 0x23 (by decide) fun h => (hclean _ h).2.1 rfl, hafter]
  dsimp only [Option.bind_eq_bind, Option.bind_some, Bool.or_false, Bool.false_eq_true, if_false]
  rw [hhigh, hdrop, htake, hread, hall]
  show (if (!localAuthority authority localHostname) = true then none
    else (percentDecode (0x2f :: rest)).bind fun decoded => filePath decoded) = _
  rw [hlocal, hdecoded]
  rfl

/-- What is accepted is a path that can be shown, from a URI of this host. An absolute path without
a drive that can be shown is read back from each URI of it that is not too long. -/
theorem osc7_paths_read_back :
    (∀ (params : List (List UInt8)) (localHostname : Option String) (path : String),
      parseOsc7 params localHostname = some path →
      validDisplayPath path = true ∧
        ∃ (authority : String) (rest : List UInt8),
          params = [[0x37], fileScheme ++ encode authority.toList ++ 0x2f :: rest] ∧
            0x2f ∉ encode authority.toList ∧ localAuthority authority localHostname = true) ∧
      ∀ (path : String) (tail : List Char) (authority : String) (localHostname : Option String)
        (text : List UInt8),
        validDisplayPath path = true → path.toList = '/' :: tail →
        drivePath (encode path.toList) = false →
        (∀ byte ∈ encode authority.toList, authorityByte byte = true) →
        localAuthority authority localHostname = true →
        PercentEncoded (encode tail) text →
        parseOsc7 [[0x37], fileScheme ++ encode authority.toList ++ 0x2f :: text] localHostname =
          if (fileScheme ++ encode authority.toList ++ 0x2f :: text).length ≤ osc7MaxBytes then
            some path
          else
            none := by
  refine ⟨?_, ?_⟩
  · intro params localHostname path h
    unfold parseOsc7 at h
    split at h
    next kind uri =>
      obtain ⟨hkind, h⟩ := Option.ite_none_left_eq_some.mp h
      simp only [ne_eq, Bool.or_eq_true, decide_eq_true_eq, not_or, not_not] at hkind
      obtain ⟨authority, rest, rfl, hslash, hlocal, decoded, -, hfile⟩ := parseFileUri_shape h
      obtain ⟨rfl, -⟩ := hkind
      exact ⟨filePath_valid hfile, authority, rest, rfl, hslash, hlocal⟩
    next => cases h
  · intro path tail authority localHostname text hvalid hpath hdrive hbytes hlocal htext
    have hencode : encode path.toList = 0x2f :: encode tail := by
      rw [hpath]
      rfl
    have hdecoded : percentDecode (0x2f :: text) = some (encode path.toList) := by
      have hslash : PercentEncoded (encode path.toList) (0x2f :: text) := by
        rw [hencode]
        exact .literal (by decide) htext
      have hcontrol := no_asciiControl hvalid
      rw [percentDecode, hslash.percentBytes]
      show (if (encode path.toList).any isAsciiControl = true then none else _) = _
      rw [hcontrol]
      rfl
    have hread := parseFileUri_encoded hbytes hlocal htext.plain hdecoded
    rw [filePath_encode hvalid hdrive] at hread
    unfold parseOsc7
    dsimp only
    rw [hread]
    split
    next hlong =>
      have hlong : ¬ (fileScheme ++ encode authority.toList ++ 0x2f :: text).length ≤
          osc7MaxBytes := by
        simpa using hlong
      rw [if_neg hlong]
    next hshort =>
      have hshort : (fileScheme ++ encode authority.toList ++ 0x2f :: text).length ≤
          osc7MaxBytes := by
        simpa using hshort
      rw [if_pos hshort]

/-- A path with a letter that is not ASCII, in a URI with the name of the host. -/
theorem osc7_paths_read_back_accent :
    parseOsc7 [[0x37], fileScheme ++ encode "Box".toList ++
        0x2f :: percentEncode reservedByte (encode "t\u00e9 %".toList)] (some "box") =
      some "/t\u00e9 %" := by
  have hread := osc7_paths_read_back.2 "/t\u00e9 %" "t\u00e9 %".toList "Box" (some "box") _
    (by decide) (by decide) (by decide)
    (all_eq_true.mp (by decide : (encode "Box".toList).all authorityByte = true))
    (by decide) (percentEncoded_percentEncode (fun byte h => h) _)
  rw [hread, if_pos (by decide)]

lemma length_le_flatMap {α β : Type} {f : α → List β} (h : ∀ a, f a ≠ []) (items : List α) :
    items.length ≤ (items.flatMap f).length := by
  induction items with
  | nil => exact Nat.zero_le _
  | cons a items ih =>
    have hone := length_pos_of_ne_nil (h a)
    rw [flatMap_cons, length_append, length_cons]
    omega

lemma length_le_percentEncode (encodes : UInt8 → Bool) (bytes : List UInt8) :
    bytes.length ≤ (percentEncode encodes bytes).length := by
  refine length_le_flatMap (fun byte => ?_) bytes
  split <;> exact cons_ne_nil _ _

/-- A slash that is written with digits is no slash, and a URI may be too long for its path. -/
theorem osc7_paths_lost :
    parseOsc7 [[0x37], fileScheme ++ percentEncode (fun byte => byte = 0x2f || reservedByte byte)
        (encode "/tmp".toList)] none = none ∧
      validDisplayPath (String.ofList ('/' :: List.replicate 4090 'a')) = true ∧
      parseOsc7 [[0x37], fileScheme ++ percentEncode reservedByte
        (encode ('/' :: List.replicate 4090 'a'))] none = none := by
  refine ⟨by decide, ?_, ?_⟩
  · have hplain : ('/' :: List.replicate 4090 'a').any isControl = false := by
      rw [any_eq_false]
      intro c hmem
      rcases mem_cons.mp hmem with rfl | hmem
      · decide
      · rw [eq_of_mem_replicate hmem]
        decide
    have hlength : (String.ofList ('/' :: List.replicate 4090 'a')).length ≤ cwdMaxChars := by
      rw [String.length_ofList, length_cons, length_replicate]
      decide
    unfold validDisplayPath
    rw [String.toList_ofList, hplain, decide_eq_true hlength, Bool.and_true, Bool.not_false,
      Bool.and_true, Bool.not_eq_true', ← Bool.not_eq_true, String.isEmpty_iff]
    intro hempty
    have hnil := congrArg String.toList hempty
    rw [String.toList_ofList] at hnil
    cases hnil
  · have hencode : 4091 ≤ (encode ('/' :: List.replicate 4090 'a')).length := by
      have hone := length_le_flatMap encode_ne_nil ('/' :: List.replicate 4090 'a')
      rwa [length_cons, length_replicate] at hone
    have hlong : osc7MaxBytes < (fileScheme ++ percentEncode reservedByte
        (encode ('/' :: List.replicate 4090 'a'))).length := by
      have hpercent := length_le_percentEncode reservedByte
        (encode ('/' :: List.replicate 4090 'a'))
      have hscheme : fileScheme.length = 7 := rfl
      rw [length_append, hscheme, osc7MaxBytes]
      omega
    rw [parseOsc7, decide_eq_true hlong, Bool.or_true, if_pos rfl]

end

end Agenterm.Osc7
