import Agenterm.Cu.SshTransport
import Agenterm.Lib.ByteCuts
import Agenterm.Lib.Utf8

/-!
# The reply of the remote worker

`run_remote` of `ssh_transport.rs` once the process has ended. `decode` reads a line as a `CuReply`
(`serde_json::from_str`) or gives the text of its error. A computation gives `none` where the program
panics.
-/

namespace Agenterm.Cu.SshReply

open List Lib Utf8

/-- What `data` may hold: a text, an object, or any other document as its text. -/
inductive ReplyValue where
  | string (s : String)
  | object (fields : List (String × ReplyValue))
  | other (json : String)

/-- `CuError`, with all that a reply carries. -/
structure ReplyError where
  code : String
  message : String
  count : Option Nat
  detail : Option ReplyValue

structure CuReply where
  ok : Bool
  target : String
  command : String
  data : Option ReplyValue
  error : Option ReplyError

/-- `ExitStatus`; a process that a signal ended has no code. -/
structure ExitStatus where
  code : Option Int
deriving DecidableEq

def ExitStatus.success (status : ExitStatus) : Bool := status.code = some 0

/-! ## Objects -/

abbrev Fields := List (String × ReplyValue)

/-- `Map::insert`. -/
def insertField (fields : Fields) (key : String) (value : ReplyValue) : Fields :=
  upsert Prod.fst fields (key, value)

/-- `Map::entry(key).or_insert(value)`. -/
def orInsertField (fields : Fields) (key : String) (value : ReplyValue) : Fields :=
  if fields.any (·.1 = key) then fields else fields ++ [(key, value)]

def removeField (fields : Fields) (key : String) : Fields := fields.filter (·.1 ≠ key)

/-- `prev.as_str() != Some(public)`. -/
def ReplyValue.isNot (value : ReplyValue) (text : String) : Bool :=
  match value with
  | .string s => s ≠ text
  | _ => true

/-- The name of the worker's own tier is kept next to the public one. -/
def restoreTarget (data : Fields) (visible : String) : Fields :=
  let kept :=
    match data.lookup "target" with
    | some prev => if prev.isNot visible then orInsertField data "worker_target" prev else data
    | none => data
  insertField kept "target" (.string visible)

def restoreTransport (data : Fields) : Fields :=
  let kept :=
    match data.lookup "transport" with
    | some prev => orInsertField (removeField data "transport") "worker_transport" prev
    | none => data
  insertField kept "transport"
    (.object [("status", .string "available"), ("available", .other "true"),
      ("kind", .string "openssh_exec")])

def restoreGaps (data : Fields) : Fields :=
  match data.lookup "gaps" with
  | some (.object gaps) =>
    let gaps := orInsertField gaps "rdp_live"
      (.string "rdp tier is placeholder; never declared available on ssh")
    let gaps := orInsertField gaps "macos_ax_live"
      (.string "macOS AX live evidence is a separate cut; not claimed by ssh")
    insertField data "gaps" (.object gaps)
  | _ => data

def restorePublicTarget (reply : CuReply) (visible : String) : CuReply :=
  let reply := { reply with target := visible }
  if reply.command ≠ "capabilities" then
    reply
  else
    match reply.data with
    | some (.object data) =>
      { reply with
        data := some (.object (restoreGaps (restoreTransport (restoreTarget data visible)))) }
    | _ => reply

/-! ## The lines of the output -/

def stripCarriageReturn (line : List Char) : List Char :=
  if line.getLast? = some '\r' then line.dropLast else line

/-- `str::lines`: no line follows the last line break. -/
def lines (text : List Char) : List (List Char) :=
  let parts := text.splitOn '\n'
  let last := parts.getLast?.getD []
  parts.dropLast.map stripCarriageReturn ++ if last.isEmpty then [] else [last]

def isObjectLine (line : List Char) : Bool := line.head? = some '{' && line.getLast? = some '}'

/-- The trimmed lines of an output. -/
def trimmedLines (stdout : String) : List (List Char) := (lines stdout.toList).map trim

def lastJsonObjectLine (stdout : String) : Option (List Char) :=
  (trimmedLines stdout).reverse.find? isObjectLine

/-! ## Errors -/

def MAX : Nat := 400

/-- A line break counts as a space. -/
def flat (raw : List Char) : List Char := raw.map fun c => if c = '\n' then ' ' else c

/-- `trim_for_error`; the slice panics inside a character. -/
def trimForError (raw : List Char) : Option String :=
  if byteSize (flat raw) ≤ MAX then
    some (String.ofList (flat raw))
  else
    (takeBytes MAX (flat raw)).map fun front => String.ofList front ++ "…"

def ExitStatus.shown (status : ExitStatus) : String := toString (status.code.getD (-1))

/-- `CuError::new("ssh_transport_failed", …)` with a text that is quoted at its end. -/
def transportFailed (message : String) (raw : List Char) : Option (Except CuError CuReply) :=
  (trimForError raw).map fun quotedText =>
    .error ⟨"ssh_transport_failed", message ++ quotedText⟩

/-- `run_remote` after `wait_with_output`. -/
def finishRemote (decode : List Char → Except String CuReply) (stdout stderr : List UInt8)
    (status : ExitStatus) : Option (Except CuError CuReply) :=
  let stdout := fromUtf8Lossy stdout
  let stderr := fromUtf8Lossy stderr
  match lastJsonObjectLine stdout with
  | none =>
    transportFailed ("remote agenterm-cu produced no JSON reply (exit=" ++ status.shown ++
      "): stderr=") stderr.toList
  | some line =>
    match decode line with
    | .error error =>
      transportFailed ("remote agenterm-cu reply is not valid CuReply JSON: " ++ error ++
        "; line=") line
    | .ok decoded =>
      let reply := restorePublicTarget decoded "ssh"
      if !status.success && reply.ok then
        transportFailed ("remote agenterm-cu exit " ++ status.shown ++ " with ok:true; stderr=")
          stderr.toList
      else
        some (.ok reply)

/-!
The host answers to any output with a reply or a typed error, unless the text that an error quotes is
cut inside a character (`finishRemote_faithful_iff`).
-/

open Lib (CutsChar)

section
variable {stdout : String} {line raw : List Char}

/-- The last line of an output that looks like an object. -/
def IsLastObjectLine (stdout : String) (line : List Char) : Prop :=
  ∃ before after, trimmedLines stdout = before ++ line :: after ∧ isObjectLine line = true ∧
    ∀ other ∈ after, isObjectLine other = false

lemma lastJsonObjectLine_eq_some (h : lastJsonObjectLine stdout = some line) :
    IsLastObjectLine stdout line := by
  obtain ⟨hline, after, before, hlines, hafter⟩ := List.find?_eq_some_iff_append.mp h
  refine ⟨before.reverse, after.reverse, ?_, hline, ?_⟩
  · have hreverse := congrArg List.reverse hlines
    rw [reverse_reverse, reverse_append, reverse_cons, append_assoc] at hreverse
    exact hreverse
  · intro other hother
    have hnot := hafter other (mem_reverse.mp hother)
    simpa using hnot

/-- There is one last line at most. -/
lemma IsLastObjectLine.eq {other : List Char} (h : IsLastObjectLine stdout line)
    (h' : lastJsonObjectLine stdout = some other) : other = line := by
  obtain ⟨before, after, hlines, hline, hafter⟩ := h
  unfold lastJsonObjectLine at h'
  have hskip : after.reverse.find? isObjectLine = none := by
    apply List.find?_eq_none.mpr
    intro x hx
    rw [hafter x (mem_reverse.mp hx)]
    exact Bool.false_ne_true
  rw [hlines, reverse_append, reverse_cons, append_assoc, List.find?_append,
    hskip, Option.none_or, singleton_append, List.find?_cons_of_pos hline] at h'
  exact (Option.some.inj h').symm

lemma IsLastObjectLine.lastJsonObjectLine (h : IsLastObjectLine stdout line) :
    lastJsonObjectLine stdout = some line := by
  cases hlast : SshReply.lastJsonObjectLine stdout with
  | none =>
    obtain ⟨before, after, hlines, hline, _⟩ := h
    have hmem : line ∈ (trimmedLines stdout).reverse := by
      rw [mem_reverse, hlines]
      exact mem_append_right _ mem_cons_self
    exact absurd hline (List.find?_eq_none.mp hlast line hmem)
  | some other => rw [h.eq hlast]

/-! ### Quoted texts -/

lemma utf8Size_flat (c : Char) : (if c = '\n' then ' ' else c).utf8Size = c.utf8Size := by
  split
  · rename_i h
    rw [h]
    rfl
  · rfl

/-- A text is quoted unless it is cut inside a character. -/
lemma trimForError_eq_none_iff : trimForError raw = none ↔ CutsChar MAX raw := by
  have hcuts : CutsChar MAX (flat raw) ↔ CutsChar MAX raw := cutsChar_map utf8Size_flat
  rw [← hcuts]
  unfold trimForError
  split
  · rename_i hshort
    refine iff_of_false (by simp) ?_
    intro hcut
    exact absurd hcut.lt (Nat.not_lt.mpr hshort)
  · rename_i hlong
    rw [Option.map_eq_none_iff]
    exact takeBytes_eq_none_iff (Nat.le_of_not_le hlong)

lemma transportFailed_spec {message : String} :
    (transportFailed message raw = none ∧ CutsChar MAX raw) ∨
      (∃ error, transportFailed message raw = some (.error error) ∧
        error.code = "ssh_transport_failed") ∧ ¬ CutsChar MAX raw := by
  unfold transportFailed
  rw [← trimForError_eq_none_iff]
  cases trimForError raw with
  | none => exact .inl ⟨rfl, rfl⟩
  | some quotedText => exact .inr ⟨⟨_, rfl, rfl⟩, by simp⟩

/-! ### The reply -/

@[simp] lemma restorePublicTarget_ok (reply : CuReply) (visible : String) :
    (restorePublicTarget reply visible).ok = reply.ok := by
  unfold restorePublicTarget
  dsimp only
  split
  · rfl
  · split
    · rfl
    · rfl

@[simp] lemma restorePublicTarget_target (reply : CuReply) (visible : String) :
    (restorePublicTarget reply visible).target = visible := by
  unfold restorePublicTarget
  dsimp only
  split
  · rfl
  · split
    · rfl
    · rfl

lemma restorePublicTarget_other {reply : CuReply} (visible : String)
    (h : reply.command ≠ "capabilities") :
    restorePublicTarget reply visible = { reply with target := visible } := by
  unfold restorePublicTarget
  exact if_pos h

end

section
variable (decode : List Char → Except String CuReply) (stdout stderr : List UInt8)
  (status : ExitStatus)

/-- What may be returned for the output of a process. -/
structure Faithful (outcome : Except CuError CuReply) : Prop where
  typed : ∀ error, outcome = .error error → error.code = "ssh_transport_failed"
  ok : ∀ reply, outcome = .ok reply → ∃ line decoded,
    IsLastObjectLine (fromUtf8Lossy stdout) line ∧ decode line = .ok decoded ∧
      ¬ (reply.ok = true ∧ status.success = false) ∧ reply.target = "ssh" ∧
      (decoded.command ≠ "capabilities" → reply = { decoded with target := "ssh" })

/-- No text that is to be quoted has a character across the byte 400. -/
structure QuotesWhole : Prop where
  noReply : (∀ line, ¬ IsLastObjectLine (fromUtf8Lossy stdout) line) →
    ¬ CutsChar MAX (fromUtf8Lossy stderr).toList
  invalid : ∀ line error, IsLastObjectLine (fromUtf8Lossy stdout) line →
    decode line = .error error → ¬ CutsChar MAX line
  exit : ∀ line decoded, IsLastObjectLine (fromUtf8Lossy stdout) line →
    decode line = .ok decoded → decoded.ok = true → status.success = false →
      ¬ CutsChar MAX (fromUtf8Lossy stderr).toList

variable {decode stdout stderr status}

lemma transportFailed_faithful_iff {message : String} {raw : List Char} :
    (∃ outcome, transportFailed message raw = some outcome ∧
      Faithful decode stdout status outcome) ↔ ¬ CutsChar MAX raw := by
  rcases @transportFailed_spec raw message with
    ⟨hpanic, hcut⟩ | ⟨⟨error, hfailed, hcode⟩, hcut⟩
  · refine iff_of_false ?_ (not_not_intro hcut)
    intro ⟨outcome, hsome, _⟩
    rw [hpanic] at hsome
    cases hsome
  · refine iff_of_true ⟨_, hfailed, ?_, ?_⟩ hcut
    · intro other hother
      rw [← Except.error.inj hother]
      exact hcode
    · intro reply hreply
      cases hreply

lemma quotesWhole_none (h : lastJsonObjectLine (fromUtf8Lossy stdout) = none) :
    QuotesWhole decode stdout stderr status ↔
      ¬ CutsChar MAX (fromUtf8Lossy stderr).toList := by
  have hnone : ∀ line, ¬ IsLastObjectLine (fromUtf8Lossy stdout) line := by
    intro line hline
    rw [hline.lastJsonObjectLine] at h
    cases h
  constructor
  · intro hwhole
    exact hwhole.noReply hnone
  · intro hcut
    constructor
    · intro _
      exact hcut
    · intro line error hline
      exact absurd hline (hnone line)
    · intro line decoded hline
      exact absurd hline (hnone line)

lemma quotesWhole_error {line : List Char} {error : String}
    (h : lastJsonObjectLine (fromUtf8Lossy stdout) = some line)
    (hdecode : decode line = .error error) :
    QuotesWhole decode stdout stderr status ↔ ¬ CutsChar MAX line := by
  have hlast := lastJsonObjectLine_eq_some h
  constructor
  · intro hwhole
    exact hwhole.invalid line error hlast hdecode
  · intro hcut
    constructor
    · intro hnone
      exact absurd hlast (hnone line)
    · intro other _ hother _
      rw [← hother.eq h]
      exact hcut
    · intro other decoded hother hok
      rw [← hother.eq h, hdecode] at hok
      cases hok

lemma quotesWhole_ok {line : List Char} {decoded : CuReply}
    (h : lastJsonObjectLine (fromUtf8Lossy stdout) = some line)
    (hdecode : decode line = .ok decoded) :
    QuotesWhole decode stdout stderr status ↔
      (decoded.ok = true → status.success = false →
        ¬ CutsChar MAX (fromUtf8Lossy stderr).toList) := by
  have hlast := lastJsonObjectLine_eq_some h
  constructor
  · intro hwhole
    exact hwhole.exit line decoded hlast hdecode
  · intro hcut
    constructor
    · intro hnone
      exact absurd hlast (hnone line)
    · intro other error hother herror
      rw [← hother.eq h, hdecode] at herror
      cases herror
    · intro other decoded' hother hok
      rw [← hother.eq h, hdecode] at hok
      rw [← Except.ok.inj hok]
      exact hcut

variable (decode stdout stderr status)

/-- The host answers, and faithfully, exactly when it does not cut a character. -/
theorem finishRemote_faithful_iff :
    (∃ outcome, finishRemote decode stdout stderr status = some outcome ∧
      Faithful decode stdout status outcome) ↔ QuotesWhole decode stdout stderr status := by
  unfold finishRemote
  dsimp only
  cases hlast : lastJsonObjectLine (fromUtf8Lossy stdout) with
  | none =>
    rw [quotesWhole_none hlast]
    exact transportFailed_faithful_iff
  | some line =>
    cases hdecode : decode line with
    | error error =>
      rw [quotesWhole_error hlast hdecode]
      dsimp only
      rw [hdecode]
      exact transportFailed_faithful_iff
    | ok decoded =>
      rw [quotesWhole_ok hlast hdecode]
      dsimp only
      rw [hdecode]
      dsimp only
      split
      · -- the worker says ok, and its process does not
        rename_i hexit
        simp only [restorePublicTarget_ok, Bool.and_eq_true, Bool.not_eq_true'] at hexit
        rw [transportFailed_faithful_iff]
        exact ⟨fun hcut _ _ => hcut, fun hcut => hcut hexit.2 hexit.1⟩
      · rename_i hexit
        simp only [restorePublicTarget_ok, Bool.and_eq_true, Bool.not_eq_true'] at hexit
        refine iff_of_true ⟨_, rfl, ?_, ?_⟩ ?_
        · intro error herror
          cases herror
        · intro reply hreply
          cases hreply
          refine ⟨line, decoded, lastJsonObjectLine_eq_some hlast, hdecode, ?_, ?_, ?_⟩
          · rw [restorePublicTarget_ok]
            intro ⟨hok, hstatus⟩
            exact hexit ⟨hstatus, hok⟩
          · exact restorePublicTarget_target decoded "ssh"
          · intro hother
            exact restorePublicTarget_other "ssh" hother
        · intro hok hstatus
          exact absurd ⟨hstatus, hok⟩ hexit

/-- 134 ellipses of three bytes each, and no reply. -/
theorem finishRemote_cuts_char :
    ¬ ∃ outcome, finishRemote (fun _ => .error "expected value") []
        (encode (List.replicate 134 '…')) ⟨some 255⟩ = some outcome ∧
      Faithful (fun _ => .error "expected value") [] ⟨some 255⟩ outcome := by
  have hstderr : fromUtf8Lossy (encode (List.replicate 134 '…')) =
      String.ofList (List.replicate 134 '…') := fromUtf8_ok (fromUtf8_encode _)
  have hlast : lastJsonObjectLine (fromUtf8Lossy []) = none := by
    rw [show fromUtf8Lossy [] = "" from fromUtf8_ok (fromUtf8_encode [])]
    decide
  have hcut : CutsChar MAX (List.replicate 134 '…') := by
    refine ⟨List.replicate 133 '…', '…', [], rfl, ?_, ?_⟩
    · rw [byteSize_replicate]
      decide
    · rw [byteSize_replicate]
      decide
  have hpanic : ∀ message, transportFailed message (List.replicate 134 '…') = none := by
    intro message
    unfold transportFailed
    rw [trimForError_eq_none_iff.mpr hcut]
    rfl
  intro ⟨outcome, hsome, _⟩
  unfold finishRemote at hsome
  dsimp only at hsome
  rw [hstderr, hlast] at hsome
  dsimp only at hsome
  rw [String.toList_ofList, hpanic] at hsome
  cases hsome

end

end Agenterm.Cu.SshReply
